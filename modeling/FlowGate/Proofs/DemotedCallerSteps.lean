import FlowGate.Proofs.AbsentCallerSteps
import FlowGate.Proofs.DemotedCaller

namespace FlowGate

theorem Gate.Demotes.snapshot_eq {n : Option Nat} {q : Priority} {g g' : Gate}
    (h : g.Demotes n q g') (hagree : g.waiting.Agree) (start : Int) (now : Nat) :
    g'.snapshot start now = g.snapshot start now := by
  have hsize := h.size_eq hagree
  have hcounts := h.reasonCounts_eq hagree
  rw [Gate.snapshot, Gate.snapshot, Gate.snapshotFrom, Gate.snapshotFrom, hsize, hcounts, h.rest]

namespace Session

variable {n : Option Nat} {q : Priority} {slot name token : String} {c : Slot} {s s' : Session}
  {request : Request} {st : Step} {r r' : Reply × Session} {events events' : List Event}

theorem Demotes.kept_eq (h : s.Demotes n q slot c s') : s'.kept = s.kept := by
  rw [h.rest]

theorem Demotes.refuse (h : s.Demotes n q slot c s') {reason : Refusal}
    (hok : s.refuse reason = .ok r events) (hok' : s'.refuse reason = .ok r' events') :
    InStep n q slot c r r' := by
  cases hok
  cases hok'
  exact h.inStep

theorem Demotes.withEmptySlot (h : s.Demotes n q slot c s') {act act' : Logged (Reply × Session)}
    (hok : s.withEmptySlot name act = .ok r events) (hok' : s'.withEmptySlot name act' = .ok r' events')
    (hact : name ≠ slot → act = .ok r events → act' = .ok r' events' → InStep n q slot c r r') :
    InStep n q slot c r r' := by
  unfold Session.withEmptySlot at hok hok'
  rw [h.contains_eq, h.kept_eq] at hok'
  split at hok
  · rename_i hbusy
    rw [if_pos hbusy] at hok'
    exact h.refuse hok hok'
  · rename_i hempty
    rw [if_neg hempty] at hok'
    split at hok
    · rename_i hgone
      rw [if_pos hgone] at hok'
      exact h.refuse hok hok'
    · rename_i hkept
      rw [if_neg hkept] at hok'
      refine hact ?_ hok hok'
      rintro rfl
      exact hempty (Catalog.contains_iff.mpr ⟨_, h.here⟩)

theorem Demotes.withTicket (h : s.Demotes n q slot c s') {act act' : Ticket → Logged (Reply × Session)}
    (hok : s.withTicket name act = .ok r events) (hok' : s'.withTicket name act' = .ok r' events')
    (hact : ∀ t, name ≠ slot → act t = .ok r events → act' t = .ok r' events' →
      InStep n q slot c r r') : InStep n q slot c r r' := by
  unfold Session.withTicket at hok hok'
  rw [h.held?_eq] at hok'
  cases hheld : s.held? name with
  | none =>
      rw [hheld] at hok hok'
      exact h.refuse hok hok'
  | some t =>
      rw [hheld] at hok hok'
      refine hact t ?_ hok hok'
      rintro rfl
      rw [h.held?_self] at hheld
      cases hheld

theorem Demotes.withKept (h : s.Demotes n q slot c s') {act act' : Logged (Reply × Session)}
    (hok : s.withGate act = .ok r events) (hok' : s'.withGate act' = .ok r' events')
    (hact : act = .ok r events → act' = .ok r' events' → InStep n q slot c r r') :
    InStep n q slot c r r' := by
  unfold Session.withGate at hok hok'
  rw [h.kept_eq] at hok'
  split at hok
  · rename_i hkept
    rw [if_pos hkept] at hok'
    exact hact hok hok'
  · rename_i hgone
    rw [if_neg hgone] at hok'
    exact h.refuse hok hok'

theorem Demotes.poll? (h : s.Demotes n q slot c s') (hsound : s.Sound []) (hsound' : s'.Sound [])
    (hname : name ≠ slot) {polled polled' : Option (Answer × Session)}
    (hok : s.poll? name = .ok polled events) (hok' : s'.poll? name = .ok polled' events') :
    polled'.map (·.1) = polled.map (·.1) ∧
      (polled.elim s (·.2)).Demotes n q slot c (polled'.elim s' (·.2)) := by
  have hget' := h.others name hname
  unfold Session.poll? at hok hok'
  cases hget : s.slots.get? name with
  | none =>
      simp only [hget] at hget' hok
      simp only [hget'] at hok'
      cases hok
      cases hok'
      exact ⟨rfl, h⟩
  | some content =>
      simp only [hget] at hget' hok
      simp only [hget'] at hok'
      cases content with
      | prepared token request =>
          obtain ⟨r, hask, rfl⟩ := Logged.bind_pure_eq_ok hok
          obtain ⟨r', hask', rfl⟩ := Logged.bind_pure_eq_ok hok'
          obtain ⟨hanswer, hdemotes⟩ := h.ask hsound hsound' hname hask hask'
          exact ⟨congrArg some hanswer, hdemotes⟩
      | waiting token u =>
          obtain ⟨r, hask, rfl⟩ := Logged.bind_pure_eq_ok hok
          obtain ⟨r', hask', rfl⟩ := Logged.bind_pure_eq_ok hok'
          obtain ⟨hanswer, hdemotes⟩ := h.askAgain hsound hsound' hname hget hask hask'
          exact ⟨congrArg some hanswer, hdemotes⟩
      | holding u =>
          cases hok
          cases hok'
          exact ⟨rfl, h⟩
      | stranded u =>
          cases hok
          cases hok'
          exact ⟨rfl, h⟩

theorem Demotes.step_poll (h : s.Demotes n q slot c s') (hsound : s.Sound []) (hsound' : s'.Sound [])
    (hname : name ≠ slot) (hok : s.step (.poll name) = .ok r events)
    (hok' : s'.step (.poll name) = .ok r' events') : InStep n q slot c r r' := by
  obtain ⟨polled, _, _, hpoll, hrest, -⟩ := Logged.bind_eq_ok_iff.mp hok
  obtain ⟨polled', _, _, hpoll', hrest', -⟩ := Logged.bind_eq_ok_iff.mp hok'
  obtain ⟨hanswer, hdemotes⟩ := h.poll? hsound hsound' hname hpoll hpoll'
  rcases polled with _ | ⟨answer, a⟩ <;> rcases polled' with _ | ⟨answer', b⟩
  · exact h.refuse hrest hrest'
  · cases hanswer
  · cases hanswer
  · obtain rfl : answer' = answer := Option.some.inj hanswer
    cases hrest
    cases hrest'
    exact hdemotes.inStep

theorem Demotes.step_enter (h : s.Demotes n q slot c s') (hsound : s.gate.Sound)
    (hok : s.step (.enter name request) = .ok r events)
    (hok' : s'.step (.enter name request) = .ok r' events') : InStep n q slot c r r' := by
  apply h.withEmptySlot hok hok'
  intro hname hok hok'
  obtain ⟨g', slots', rfl⟩ := h.exists_eq
  obtain ⟨entered, _, _, henter, hrest, -⟩ := Logged.bind_eq_ok_iff.mp hok
  obtain ⟨entered', _, _, henter', hrest', -⟩ := Logged.bind_eq_ok_iff.mp hok'
  obtain ⟨-, hnone, hsome⟩ := (Gate.enter?_gives hsound _).of_eq_ok henter
  obtain ⟨-, hnone', hsome'⟩ := (Gate.enter?_gives (h.gate.sound hsound) _).of_eq_ok henter'
  rw [h.gate.active_eq, h.gate.hasSpace_eq] at hnone' hsome'
  cases entered with
  | none =>
      obtain ⟨-, hinactive, hfull⟩ := hnone rfl
      cases entered' with
      | none =>
          cases hrest
          cases hrest'
          exact (h.issued h.gate).inStep
      | some next' =>
          have hroom := (hsome' next' rfl).1
          exact absurd hroom (no_room (Catalog.contains_eq_false_iff.mpr hinactive) hfull)
  | some next =>
      obtain ⟨hroom, rfl, -⟩ := hsome next rfl
      cases entered' with
      | none =>
          obtain ⟨-, hinactive, hfull⟩ := hnone' rfl
          exact absurd hroom (no_room (Catalog.contains_eq_false_iff.mpr hinactive) hfull)
      | some next' =>
          obtain ⟨-, rfl, -⟩ := hsome' next' rfl
          cases hrest
          cases hrest'
          exact ((h.issued (h.gate.file _ none)).putSlot hname (.holding _)).inStep

theorem Demotes.step_drop (h : s.Demotes n q slot c s') (hsound : s.Sound []) (hsound' : s'.Sound [])
    (hname : name ≠ slot) (hok : s.step (.drop name) = .ok r events)
    (hok' : s'.step (.drop name) = .ok r' events') (hkeeps : s.gate.Keeps n r.2.gate) :
    InStep n q slot c r r' := by
  have hget' := h.others name hname
  rw [Session.step] at hok hok'
  cases hget : s.slots.get? name with
  | none =>
      rw [hget] at hget' hok
      rw [hget'] at hok'
      exact h.refuse hok hok'
  | some content =>
      rw [hget] at hget' hok
      rw [hget'] at hok'
      exact h.leave hsound hsound' hname hget hok hok' hkeeps

theorem Demotes.step_forget (h : s.Demotes n q slot c s') (hsound : s.gate.Sound)
    (hok : s.step (.forget name) = .ok r events) (hok' : s'.step (.forget name) = .ok r' events')
    (hkeeps : s.gate.Keeps n r.2.gate) : InStep n q slot c r r' := by
  apply h.withTicket hok hok'
  intro t hname hok hok'
  rw [if_pos h.alive] at hok
  rw [if_pos h.alive'] at hok'
  obtain ⟨gate, hremove, rfl⟩ := Logged.bind_pure_eq_ok hok
  obtain ⟨gate', hremove', rfl⟩ := Logged.bind_pure_eq_ok hok'
  exact ((h.clearSlot hname).withGate (h.gate.remove hsound hremove hremove' hkeeps)).inStep

theorem Demotes.step_advance (h : s.Demotes n q slot c s') (hsound : s.gate.Sound) {nanos : Nat}
    (hok : s.step (.advance nanos) = .ok r events)
    (hok' : s'.step (.advance nanos) = .ok r' events') (hkeeps : s.gate.Keeps n r.2.gate) :
    InStep n q slot c r r' := by
  obtain ⟨g', slots', rfl⟩ := h.exists_eq
  simp only [Session.step, advance_eq] at hok hok'
  obtain ⟨a, hadvance, rfl⟩ := Logged.bind_pure_eq_ok hok
  obtain ⟨b, hadvance', rfl⟩ := Logged.bind_pure_eq_ok hok'
  have htimes := h.withTimes (s.now + nanos) s.timer s.timed
    (s.expiries.filter fun e => !decide (e.due ≤ s.now + nanos))
  exact (htimes.expireEach hsound hadvance hadvance' hkeeps).inStep

theorem Demotes.step_shutdown (h : s.Demotes n q slot c s') (hsound : s.gate.Sound)
    {ranks : List Nat} (hok : s.step (.shutdown ranks) = .ok r events)
    (hok' : s'.step (.shutdown ranks) = .ok r' events') (hkeeps : s.gate.Keeps n r.2.gate) :
    InStep n q slot c r r' := by
  obtain ⟨g', slots', rfl⟩ := h.exists_eq
  simp only [Session.step, shutdown_eq] at hok hok'
  obtain ⟨a, hshutdown, rfl⟩ := Logged.bind_pure_eq_ok hok
  obtain ⟨b, hshutdown', rfl⟩ := Logged.bind_pure_eq_ok hok'
  have htimes := h.withTimes s.now false s.timed (s.expiries.filter fun e => !e.onTimer)
  exact (htimes.expireEach hsound hshutdown hshutdown' hkeeps).inStep

theorem Demotes.step_setCapacity (h : s.Demotes n q slot c s') (hsound : s.gate.Sound)
    {capacity : Nat} (hok : s.step (.setCapacity capacity) = .ok r events)
    (hok' : s'.step (.setCapacity capacity) = .ok r' events')
    (hkeeps : s.gate.Keeps n r.2.gate) : InStep n q slot c r r' := by
  apply h.withKept hok hok'
  intro hok hok'
  obtain ⟨gate, hset, rfl⟩ := Logged.bind_pure_eq_ok hok
  obtain ⟨gate', hset', rfl⟩ := Logged.bind_pure_eq_ok hok'
  exact (h.withGate (h.gate.setCapacity hsound hset hset' hkeeps)).inStep

theorem Demotes.step_liftCapacity (h : s.Demotes n q slot c s') (hsound : s.gate.Sound)
    (hok : s.step .liftCapacity = .ok r events) (hok' : s'.step .liftCapacity = .ok r' events')
    (hkeeps : s.gate.Keeps n r.2.gate) : InStep n q slot c r r' := by
  apply h.withKept hok hok'
  intro hok hok'
  obtain ⟨gate, hlift, rfl⟩ := Logged.bind_pure_eq_ok hok
  obtain ⟨gate', hlift', rfl⟩ := Logged.bind_pure_eq_ok hok'
  exact (h.withGate (h.gate.liftCapacity hsound hlift hlift' hkeeps)).inStep

theorem Demotes.report (h : s.Demotes n q slot c s') (hagree : s.gate.waiting.Agree)
    (tell : Snapshot → Reply) (hok : s.withGate (return (tell s.snapshot, s)) = .ok r events)
    (hok' : s'.withGate (return (tell s'.snapshot, s')) = .ok r' events') :
    InStep n q slot c r r' := by
  apply h.withKept hok hok'
  intro hok hok'
  have hsnapshot : s'.snapshot = s.snapshot := by
    rw [snapshot, h.gate.snapshot_eq hagree, h.rest]
    rfl
  cases hok
  cases hok'
  exact ⟨congrArg tell hsnapshot, h⟩

/-- Whatever the others do while the ticket is not called in, they are answered alike in both sessions. -/
theorem Demotes.step (h : s.Demotes n q slot c s') (hsound : s.Sound []) (hsound' : s'.Sound [])
    (hothers : st.isOf slot = false) (hall : st ≠ .pollAll) (hok : s.step st = .ok r events)
    (hok' : s'.step st = .ok r' events') (hkeeps : s.gate.Keeps n r.2.gate) :
    InStep n q slot c r r' := by
  cases st with
  | wait name token request =>
      apply h.withEmptySlot hok hok'
      intro hname hok hok'
      obtain ⟨⟨answer, a⟩, _, _, hask, hpure, -⟩ := Logged.bind_eq_ok_iff.mp hok
      obtain ⟨⟨answer', b⟩, _, _, hask', hpure', -⟩ := Logged.bind_eq_ok_iff.mp hok'
      cases hpure
      cases hpure'
      obtain ⟨hanswer, hdemotes⟩ := h.ask hsound hsound' hname hask hask'
      exact ⟨congrArg Reply.answer hanswer, hdemotes⟩
  | prepare name token request =>
      apply h.withEmptySlot hok hok'
      intro hname hok hok'
      cases hok
      cases hok'
      exact (h.putSlot hname _).inStep
  | poll name => exact h.step_poll hsound hsound' (of_decide_eq_false hothers) hok hok'
  | pollAll => exact absurd rfl hall
  | enter name request => exact h.step_enter hsound.gate hok hok'
  | done name =>
      apply h.withTicket hok hok'
      intro t hname hok hok'
      exact h.release hsound.gate hname hok hok' hkeeps
  | forget name => exact h.step_forget hsound.gate hok hok' hkeeps
  | drop name => exact h.step_drop hsound hsound' (of_decide_eq_false hothers) hok hok' hkeeps
  | info name =>
      apply h.withTicket hok hok'
      intro t hname hok hok'
      cases hok
      cases hok'
      exact h.inStep
  | cancel token =>
      obtain ⟨g', slots', rfl⟩ := h.exists_eq
      cases hok
      cases hok'
      exact ⟨rfl, h.change rfl rfl h.gate rfl⟩
  | advance nanos => exact h.step_advance hsound.gate hok hok' hkeeps
  | setCapacity capacity => exact h.step_setCapacity hsound.gate hok hok' hkeeps
  | liftCapacity => exact h.step_liftCapacity hsound.gate hok hok' hkeeps
  | status => exact h.report hsound.gate.agree .status hok hok'
  | statusText => exact h.report hsound.gate.agree (fun m => .text m.text) hok hok'
  | shutdown ranks => exact h.step_shutdown hsound.gate hok hok' hkeeps
  | dropGate =>
      obtain ⟨g', slots', rfl⟩ := h.exists_eq
      cases hok
      cases hok'
      exact ⟨rfl, h.change rfl rfl h.gate rfl⟩

end Session

end FlowGate
