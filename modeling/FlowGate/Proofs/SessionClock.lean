import FlowGate.Proofs.GateMoves
import FlowGate.Proofs.SessionReleases

namespace FlowGate

def Step.nanos : Step → Nat
  | .advance nanos => nanos
  | _ => 0

def Step.stopsTimer : Step → Bool
  | .shutdown _ => true
  | _ => false

namespace Session

open Logged (Yields yields_self yields_pure yields_fail)

variable {s s' s'' : Session} {slot : String} {e : Expiry} {t : Ticket} {st : Step}

/-- The clock, the timer and the running grace periods are left alone. -/
structure KeepsTime (s s' : Session) : Prop where
  clock : s'.clock = s.clock
  now : s'.now = s.now
  grace : s'.grace = s.grace
  timer : s'.timer = s.timer
  expiries : s'.expiries = s.expiries

theorem KeepsTime.refl (s : Session) : s.KeepsTime s := ⟨rfl, rfl, rfl, rfl, rfl⟩

theorem KeepsTime.trans (h : s.KeepsTime s') (h' : s'.KeepsTime s'') : s.KeepsTime s'' :=
  ⟨h'.clock.trans h.clock, h'.now.trans h.now, h'.grace.trans h.grace, h'.timer.trans h.timer,
    h'.expiries.trans h.expiries⟩

theorem ask_keepsTime (s : Session) (slot token : String) (request : Request) :
    (s.ask slot token request).Yields fun r _ => s.KeepsTime r.2 := by
  refine (yields_self _).bind ?_
  rintro (_ | gate) first -
  · dsimp only
    split
    · refine (yields_self _).bind fun _ _ _ => yields_pure ?_
      exact ⟨rfl, rfl, rfl, rfl, rfl⟩
    · refine (yields_self _).bind fun gate _ _ => yields_pure ?_
      exact ⟨rfl, rfl, rfl, rfl, rfl⟩
  · exact yields_pure ⟨rfl, rfl, rfl, rfl, rfl⟩

theorem askAgain_keepsTime (s : Session) (slot token : String) (t : Ticket) :
    (s.askAgain slot token t).Yields fun r _ => s.KeepsTime r.2 := by
  unfold askAgain
  split
  · exact yields_pure ⟨rfl, rfl, rfl, rfl, rfl⟩
  · split
    · exact yields_fail
    · split
      · exact yields_pure (.refl s)
      · refine (yields_self _).bind ?_
        rintro (_ | gate) first -
        · refine (yields_self _).bind fun _ _ _ => yields_pure ?_
          exact ⟨rfl, rfl, rfl, rfl, rfl⟩
        · refine (yields_self _).bind fun _ _ _ => yields_pure ?_
          exact ⟨rfl, rfl, rfl, rfl, rfl⟩

theorem poll?_keepsTime (s : Session) (slot : String) :
    (s.poll? slot).Yields fun r _ => ∀ answer s', r = some (answer, s') → s.KeepsTime s' := by
  unfold poll?
  split
  · refine (ask_keepsTime s slot _ _).bind fun r _ hkeeps => yields_pure ?_
    rintro _ _ ⟨rfl⟩
    exact hkeeps
  · refine (askAgain_keepsTime s slot _ _).bind fun r _ hkeeps => yields_pure ?_
    rintro _ _ ⟨rfl⟩
    exact hkeeps
  · exact yields_pure (by simp)

theorem pollEach_keepsTime (s : Session) (slots : List String) :
    (s.pollEach slots).Yields fun r _ => s.KeepsTime r.2 := by
  induction slots generalizing s with
  | nil => exact yields_pure (.refl s)
  | cons slot slots ih =>
      refine (poll?_keepsTime s slot).bind ?_
      rintro (_ | ⟨answer, s'⟩) first hkeeps
      · exact ih s
      · refine (ih s').bind fun r _ hrest => yields_pure ?_
        exact (hkeeps answer s' rfl).trans hrest

theorem abandon_keepsTime (s : Session) (t : Ticket) :
    (s.abandon t).Yields fun s' _ => s.KeepsTime s' := by
  refine (yields_self _).bind ?_
  rintro (_ | gate) first -
  · refine (yields_self _).bind fun _ _ _ => ?_
    refine (yields_self _).bind fun gate _ _ => yields_pure ?_
    exact ⟨rfl, rfl, rfl, rfl, rfl⟩
  · refine (yields_self _).bind fun _ _ _ => yields_pure ?_
    exact ⟨rfl, rfl, rfl, rfl, rfl⟩

def graceOf (s : Session) (t : Ticket) : Expiry :=
  ⟨t, s.now + s.grace.span t.flow, if s.timer then some s.timed else none⟩

theorem letGo_schedules (s : Session) (t : Ticket) :
    (s.letGo t).Yields fun s' _ =>
      s'.clock = s.clock ∧ s'.now = s.now ∧ s'.grace = s.grace ∧ s'.timer = s.timer ∧
        s'.expiries =
          if s.alive = true ∧ s.grace.span t.flow ≠ 0 then insertExpiry (s.graceOf t) s.expiries
          else s.expiries := by
  unfold letGo
  split
  · rename_i hgone
    have hgone : s.alive = false := by simpa using hgone
    refine yields_pure ⟨rfl, rfl, rfl, rfl, (if_neg ?_).symm⟩
    rintro ⟨halive, -⟩
    rw [hgone] at halive
    cases halive
  · rename_i halive
    dsimp only
    split
    · rename_i hgrace
      refine (yields_self _).bind fun gate _ _ => yields_pure ⟨rfl, rfl, rfl, rfl, (if_neg ?_).symm⟩
      exact fun h => h.2 hgrace
    · rename_i hgrace
      refine (yields_self _).bind fun _ _ _ => yields_pure ⟨rfl, rfl, rfl, rfl, (if_pos ?_).symm⟩
      exact ⟨by simpa using halive, hgrace⟩

theorem expire_moves_gate (s : Session) (e : Expiry) :
    (s.expire e).Yields fun s' _ => ∃ gate, s' = { s with gate } := by
  have hremove : (do return { s with gate := ← s.gate.remove e.ticket }).Yields
      fun s' _ => ∃ gate, s' = { s with gate } :=
    (yields_self _).bind fun gate _ _ => yields_pure ⟨gate, rfl⟩
  unfold expire
  split
  · exact (yields_self _).bind fun _ _ _ => yields_pure ⟨s.gate, rfl⟩
  · dsimp only
    split
    · exact (yields_self _).bind fun _ _ _ => hremove
    · exact hremove

theorem expireEach_moves_gate (s : Session) (ended : List Expiry) :
    (s.expireEach ended).Yields fun s' _ => ∃ gate, s' = { s with gate } := by
  induction ended generalizing s with
  | nil => exact yields_pure ⟨s.gate, rfl⟩
  | cons e ended ih =>
      refine (expire_moves_gate s e).bind ?_
      rintro _ first ⟨gate, rfl⟩
      exact ih { s with gate }

theorem advance_ends (s : Session) (nanos : Nat) :
    (s.advance nanos).Yields fun s' _ =>
      s'.clock = s.clock ∧ s'.now = s.now + nanos ∧ s'.grace = s.grace ∧ s'.timer = s.timer ∧
        s'.slots = s.slots ∧ s'.expiries = s.expiries.filter fun e => !decide (e.due ≤ s.now + nanos) := by
  rw [advance_eq]
  refine (expireEach_moves_gate _ _).mono ?_
  rintro _ events ⟨gate, rfl⟩
  exact ⟨rfl, rfl, rfl, rfl, rfl, rfl⟩

theorem shutdown_ends (s : Session) (ranks : List Nat) :
    (s.shutdown ranks).Yields fun s' _ =>
      s'.clock = s.clock ∧ s'.now = s.now ∧ s'.grace = s.grace ∧ s'.slots = s.slots ∧
        s'.expiries = s.expiries.filter fun e => !e.onTimer := by
  rw [shutdown_eq]
  refine (expireEach_moves_gate _ _).mono ?_
  rintro _ events ⟨gate, rfl⟩
  exact ⟨rfl, rfl, rfl, rfl, rfl⟩

/-- What a step does to the clock and to the running grace periods. -/
structure Ticks (s : Session) (st : Step) (s' : Session) : Prop where
  clock : s'.clock = s.clock
  now : s'.now = s.now + st.nanos
  grace : s'.grace = s.grace
  /-- A grace period goes on unless it is over, or on a timer that stops. -/
  goesOn : ∀ e ∈ s.expiries,
    e ∈ s'.expiries ∨ e.due ≤ s'.now ∨ st.stopsTimer = true ∧ e.onTimer = true
  runs : (∀ e ∈ s.expiries, s.now < e.due) → ∀ e ∈ s'.expiries, s'.now < e.due
  /-- A grace period starts only as a holder is done, or goes away, and the release does not break off. -/
  starts : ∀ e ∈ s'.expiries, e ∈ s.expiries ∨
    ∃ slot, (st = .done slot ∨ st = .drop slot) ∧ s.slots.get? slot = some (.holding e.ticket) ∧
      s.breaksOff e.ticket = false

theorem KeepsTime.ticks (h : s.KeepsTime s') (hst : st.nanos = 0) : s.Ticks st s' := by
  refine ⟨h.clock, by rw [h.now, hst, Nat.add_zero], h.grace, ?_, ?_, ?_⟩
  · intro e he
    exact .inl (h.expiries ▸ he)
  · intro hruns e he
    rw [h.now]
    exact hruns e (h.expiries ▸ he)
  · intro e he
    exact .inl (h.expiries ▸ he)

theorem ticks_of_keepsTime {α : Type} {x : Logged α} {out : α → Session}
    (h : x.Yields fun a _ => s.KeepsTime (out a)) (hst : st.nanos = 0) :
    x.Yields fun a _ => s.Ticks st (out a) :=
  h.mono fun _ _ hkeeps => hkeeps.ticks hst

theorem le_ceilMillis (nanos : Nat) : nanos ≤ Span.ceilMillis nanos := by
  unfold Span.ceilMillis
  omega

theorem now_lt_due_graceOf (s : Session) {t : Ticket} (hgrace : s.grace.span t.flow ≠ 0) :
    s.now < (s.graceOf t).due := by
  have hle := le_ceilMillis (s.graceOf t).expiresAt
  have hlt : s.now < (s.graceOf t).expiresAt := by
    simp only [graceOf]
    omega
  exact Nat.lt_of_lt_of_le hlt hle

theorem letGo_ticks (hst : st = .done slot ∨ st = .drop slot)
    (hslot : s.slots.get? slot = some (.holding t)) (hbreaks : s.breaksOff t = false) :
    ((s.clearSlot slot).letGo t).Yields fun s' _ => s.Ticks st s' := by
  have hnanos : st.nanos = 0 := by rcases hst with rfl | rfl <;> rfl
  refine (letGo_schedules (s.clearSlot slot) t).mono ?_
  rintro s' events ⟨hclock, hnow, hgrace, htimer, hexpiries⟩
  split at hexpiries
  · rename_i hstarts
    have hmem : ∀ e, e ∈ s'.expiries ↔ e = (s.clearSlot slot).graceOf t ∨ e ∈ s.expiries := by
      intro e
      rw [hexpiries, (insertExpiry_perm _ _).mem_iff, List.mem_cons]
      rfl
    refine ⟨hclock, by rw [hnow, hnanos, Nat.add_zero]; rfl, hgrace, ?_, ?_, ?_⟩
    · exact fun e he => .inl ((hmem e).mpr (.inr he))
    · intro hruns e he
      rw [hnow]
      rcases (hmem e).mp he with rfl | hold
      · exact now_lt_due_graceOf (s.clearSlot slot) hstarts.2
      · exact hruns e hold
    · intro e he
      rcases (hmem e).mp he with rfl | hold
      · exact .inr ⟨slot, hst, hslot, hbreaks⟩
      · exact .inl hold
  · exact KeepsTime.ticks ⟨hclock, hnow, hgrace, htimer, hexpiries⟩ hnanos

theorem release_ticks (hst : st = .done slot ∨ st = .drop slot)
    (hslot : s.slots.get? slot = some (.holding t)) :
    (s.release slot t).Yields fun r _ => s.Ticks st r.2 := by
  unfold release
  split
  · have hnanos : st.nanos = 0 := by rcases hst with rfl | rfl <;> rfl
    exact yields_pure (KeepsTime.ticks ⟨rfl, rfl, rfl, rfl, rfl⟩ hnanos)
  · rename_i hbreaks
    have hgo := letGo_ticks hst hslot (Bool.eq_false_iff.mpr hbreaks)
    exact hgo.bind fun s' _ hticks => yields_pure hticks

theorem leave_ticks {content : Slot} (hslot : s.slots.get? slot = some content) :
    (s.leave slot content).Yields fun r _ => s.Ticks (.drop slot) r.2 := by
  cases content with
  | prepared token request => exact ticks_of_keepsTime (yields_pure ⟨rfl, rfl, rfl, rfl, rfl⟩) rfl
  | waiting token t =>
      refine ticks_of_keepsTime ?_ rfl
      refine (abandon_keepsTime s t).bind fun s' _ hkeeps => yields_pure ?_
      exact ⟨hkeeps.clock, hkeeps.now, hkeeps.grace, hkeeps.timer, hkeeps.expiries⟩
  | holding t =>
      exact (yields_self _).bind fun _ _ _ => release_ticks (.inr rfl) hslot
  | stranded t => exact ticks_of_keepsTime (yields_pure (.refl s)) rfl

theorem step_advance_ticks (s : Session) (nanos : Nat) :
    (s.step (.advance nanos)).Yields fun r _ => s.Ticks (.advance nanos) r.2 := by
  refine (advance_ends s nanos).bind fun s' _ h => yields_pure ?_
  obtain ⟨hclock, hnow, hgrace, -, -, hexpiries⟩ := h
  have hmem : ∀ e, e ∈ s'.expiries ↔ e ∈ s.expiries ∧ ¬e.due ≤ s.now + nanos := by
    intro e
    rw [hexpiries, List.mem_filter, Bool.not_eq_true', decide_eq_false_iff_not]
  refine ⟨hclock, hnow, hgrace, ?_, ?_, ?_⟩
  · intro e he
    rcases Classical.em (e.due ≤ s.now + nanos) with hdue | hruns
    · exact .inr (.inl (hnow ▸ hdue))
    · exact .inl ((hmem e).mpr ⟨he, hruns⟩)
  · intro _ e he
    rw [hnow]
    exact Nat.lt_of_not_le ((hmem e).mp he).2
  · exact fun e he => .inl ((hmem e).mp he).1

theorem step_shutdown_ticks (s : Session) (ranks : List Nat) :
    (s.step (.shutdown ranks)).Yields fun r _ => s.Ticks (.shutdown ranks) r.2 := by
  refine (shutdown_ends s ranks).bind fun s' _ h => yields_pure ?_
  obtain ⟨hclock, hnow, hgrace, -, hexpiries⟩ := h
  have hmem : ∀ e ∈ s'.expiries, e ∈ s.expiries := by
    intro e he
    rw [hexpiries] at he
    exact (List.mem_filter.mp he).1
  refine ⟨hclock, hnow, hgrace, ?_, ?_, fun e he => .inl (hmem e he)⟩
  · intro e he
    cases htimer : e.onTimer with
    | true => exact .inr (.inr ⟨rfl, rfl⟩)
    | false =>
        refine .inl ?_
        rw [hexpiries]
        exact List.mem_filter.mpr ⟨he, by rw [htimer, Bool.not_false]⟩
  · intro hruns e he
    rw [hnow]
    exact hruns e (hmem e he)

theorem step_ticks (s : Session) (st : Step) : (s.step st).Yields fun r _ => s.Ticks st r.2 := by
  cases st with
  | wait slot token request =>
      refine ticks_of_keepsTime (withEmptySlot_yields ?_ fun _ => .refl s) rfl
      exact (ask_keepsTime s slot token request).bind fun r _ hkeeps => yields_pure hkeeps
  | prepare slot token request =>
      refine ticks_of_keepsTime (withEmptySlot_yields ?_ fun _ => .refl s) rfl
      exact yields_pure ⟨rfl, rfl, rfl, rfl, rfl⟩
  | poll slot =>
      refine ticks_of_keepsTime ((poll?_keepsTime s slot).bind ?_) rfl
      rintro (_ | ⟨answer, s'⟩) first hkeeps
      · exact yields_pure (.refl s)
      · exact yields_pure (hkeeps answer s' rfl)
  | pollAll =>
      refine ticks_of_keepsTime ?_ rfl
      exact (pollEach_keepsTime s _).bind fun r _ hkeeps => yields_pure hkeeps
  | enter slot request =>
      refine ticks_of_keepsTime (withEmptySlot_yields ?_ fun _ => .refl s) rfl
      refine (yields_self _).bind ?_
      rintro (_ | gate) first - <;> exact yields_pure ⟨rfl, rfl, rfl, rfl, rfl⟩
  | done slot =>
      rw [step, withTicket]
      split
      · exact yields_pure ((KeepsTime.refl s).ticks rfl)
      · rename_i t hheld
        exact release_ticks (.inl rfl) (get?_of_held? hheld)
  | forget slot =>
      refine ticks_of_keepsTime (withTicket_yields (fun t => ?_) fun _ => .refl s) rfl
      dsimp only
      split
      · exact (yields_self _).bind fun gate _ _ => yields_pure ⟨rfl, rfl, rfl, rfl, rfl⟩
      · exact yields_pure ⟨rfl, rfl, rfl, rfl, rfl⟩
  | drop slot =>
      rw [step]
      split
      · exact ticks_of_keepsTime (yields_pure (.refl s)) rfl
      · exact leave_ticks ‹_›
  | info slot =>
      exact ticks_of_keepsTime (withTicket_yields (fun _ => yields_pure (.refl s)) fun _ => .refl s) rfl
  | cancel token => exact ticks_of_keepsTime (yields_pure ⟨rfl, rfl, rfl, rfl, rfl⟩) rfl
  | advance nanos => exact step_advance_ticks s nanos
  | setCapacity capacity =>
      refine ticks_of_keepsTime (withGate_yields ?_ fun _ => .refl s) rfl
      exact (yields_self _).bind fun gate _ _ => yields_pure ⟨rfl, rfl, rfl, rfl, rfl⟩
  | liftCapacity =>
      refine ticks_of_keepsTime (withGate_yields ?_ fun _ => .refl s) rfl
      exact (yields_self _).bind fun gate _ _ => yields_pure ⟨rfl, rfl, rfl, rfl, rfl⟩
  | status => exact ticks_of_keepsTime (withGate_yields (yields_pure (.refl s)) fun _ => .refl s) rfl
  | statusText => exact ticks_of_keepsTime (withGate_yields (yields_pure (.refl s)) fun _ => .refl s) rfl
  | shutdown ranks => exact step_shutdown_ticks s ranks
  | dropGate => exact ticks_of_keepsTime (yields_pure ⟨rfl, rfl, rfl, rfl, rfl⟩) rfl

/-- What steps do to the clock: it goes on, and no grace period that runs is over. -/
structure Elapses (s s' : Session) : Prop where
  clock : s'.clock = s.clock
  grace : s'.grace = s.grace
  now_le : s.now ≤ s'.now
  runs : (∀ e ∈ s.expiries, s.now < e.due) → ∀ e ∈ s'.expiries, s'.now < e.due

theorem Elapses.trans (h : s.Elapses s') (h' : s'.Elapses s'') : s.Elapses s'' :=
  ⟨h'.clock.trans h.clock, h'.grace.trans h.grace, Nat.le_trans h.now_le h'.now_le,
    fun hruns => h'.runs (h.runs hruns)⟩

end Session

end FlowGate
