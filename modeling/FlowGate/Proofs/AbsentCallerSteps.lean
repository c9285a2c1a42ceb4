import FlowGate.Proofs.AbsentCaller
import FlowGate.Proofs.CallerCourse

namespace FlowGate

/-- Whether the caller in a slot itself asks, or goes away. -/
def Step.isOf (slot : String) : Step → Bool
  | .poll name => name = slot
  | .drop name => name = slot
  | _ => false

/-- A reply without what it says of the caller in a slot, and of how many wait. -/
def Reply.apartFrom (slot : String) : Reply → Reply
  | .answers rows => .answers (rows.filter fun row => row.1 ≠ slot)
  | .status snapshot => .status { snapshot with waiting := 0, waitingByReason := .empty }
  | .text _ => .text ""
  | reply => reply

namespace Session

open Logged (Gives gives_pure_iff)

variable {slot own name token : String} {x : Option Ticket} {s s' a b : Session}
  {request : Request} {events : List Event}

/-- Steps that come to the same but for the absent caller, in sessions that stay alike. -/
structure Agrees (slot own : String) (x : Option Ticket) (s s' : Session)
    (r r' : Reply × Session) : Prop where
  masked : r'.1.apartFrom slot = r.1.apartFrom slot
  reply_eq : x = none → r'.1 = r.1
  mirrors : Mirrors slot own x s s' r.2 r'.2

theorem Mirrors.agrees {reply : Reply} (h : Mirrors slot own x s s' a b) :
    Agrees slot own x s s' (reply, a) (reply, b) := ⟨rfl, fun _ => rfl, h⟩

variable {r : Reply × Session}

theorem Alike.refuse (h : s.Alike slot own x s') {reason : Refusal}
    (hok : s.refuse reason = .ok r events) :
    (s'.refuse reason).Gives fun r' _ => Agrees slot own x s s' r r' := by
  cases hok
  exact gives_pure_iff.mpr h.mirrors.agrees

theorem Alike.withEmptySlot (h : s.Alike slot own x s') (hname : name ≠ slot)
    {act act' : Logged (Reply × Session)} (hok : s.withEmptySlot name act = .ok r events)
    (hact : act = .ok r events → act'.Gives fun r' _ => Agrees slot own x s s' r r') :
    (s'.withEmptySlot name act').Gives fun r' _ => Agrees slot own x s s' r r' := by
  have hcontains : s'.slots.contains name = s.slots.contains name := by
    rw [Catalog.contains, Catalog.contains, h.others name hname]
  unfold Session.withEmptySlot at hok ⊢
  rw [hcontains]
  split at hok
  · rename_i hbusy
    rw [if_pos hbusy]
    exact h.refuse hok
  · rename_i hempty
    rw [h.kept] at hok
    rw [if_neg hempty, h.kept']
    exact hact hok

theorem Alike.withTicket (h : s.Alike slot own x s') (hheld : s.held? slot = none)
    (hheld' : s'.held? slot = none) {act act' : Ticket → Logged (Reply × Session)}
    (hok : s.withTicket name act = .ok r events)
    (hact : ∀ t, name ≠ slot → act t = .ok r events →
      (act' t).Gives fun r' _ => Agrees slot own x s s' r r') :
    (s'.withTicket name act').Gives fun r' _ => Agrees slot own x s s' r r' := by
  unfold Session.withTicket at hok ⊢
  rcases Classical.em (name = slot) with rfl | hname
  · rw [hheld] at hok
    rw [hheld']
    exact h.refuse hok
  · have hsame : s'.held? name = s.held? name := by rw [held?, held?, h.others name hname]
    rw [hsame]
    split at hok
    · exact h.refuse hok
    · exact hact _ hname hok

theorem Alike.step_wait (h : s.Alike slot own x s') (hsound : s.Sound []) (hname : name ≠ slot)
    (htoken : token ≠ own) (hok : s.step (.wait name token request) = .ok r events) :
    (s'.step (.wait name token request)).Gives fun r' _ => Agrees slot own x s s' r r' := by
  apply h.withEmptySlot hname hok
  intro hok
  obtain ⟨_, first, _, hask, hpure, -⟩ := Logged.bind_eq_ok_iff.mp hok
  cases hpure
  apply (h.ask hsound.gate (hsound.accounts (alive_of_kept h.kept)) hname htoken hask).bind
  rintro ⟨_, b⟩ _ ⟨rfl, hmirrors⟩
  exact gives_pure_iff.mpr hmirrors.agrees

theorem Alike.step_enter (h : s.Alike slot own x s') (hsound : s.Sound []) (hname : name ≠ slot)
    (hok : s.step (.enter name request) = .ok r events) :
    (s'.step (.enter name request)).Gives fun r' _ => Agrees slot own x s s' r r' := by
  apply h.withEmptySlot hname hok
  intro hok
  obtain ⟨gate, first, _, henter, hrest, -⟩ := Logged.bind_eq_ok_iff.mp hok
  rw [h.issue_eq]
  apply (h.gate.enter? hsound.gate henter).bind
  rintro _ _ (hentered | _)
  · cases hrest
    have hgate := h.issued.withGate hentered
    exact gives_pure_iff.mpr (h.issued.trans (hgate.trans (hgate.putSlot hname (.holding _) nofun))).agrees
  · cases hrest
    exact gives_pure_iff.mpr h.issued.agrees

theorem Alike.step_done (h : s.Alike slot own x s') (hsound : s.Sound [])
    (hheld : s.held? slot = none) (hheld' : s'.held? slot = none)
    (hok : s.step (.done name) = .ok r events) (hstays : Stays x r.2.gate) :
    (s'.step (.done name)).Gives fun r' _ => Agrees slot own x s s' r r' := by
  apply h.withTicket hheld hheld' hok
  intro t hname hok
  refine (h.release hsound.gate hname hok hstays).mono ?_
  rintro ⟨_, b⟩ _ ⟨rfl, hmirrors⟩
  exact hmirrors.agrees

theorem Alike.step_forget (h : s.Alike slot own x s') (hsound : s.Sound [])
    (hheld : s.held? slot = none) (hheld' : s'.held? slot = none)
    (hok : s.step (.forget name) = .ok r events) (hstays : Stays x r.2.gate) :
    (s'.step (.forget name)).Gives fun r' _ => Agrees slot own x s s' r r' := by
  apply h.withTicket hheld hheld' hok
  intro t hname hok
  rw [if_pos (alive_of_kept h.kept)] at hok
  rw [if_pos (alive_of_kept h.kept')]
  obtain ⟨gate, first, _, hremove, hpure, -⟩ := Logged.bind_eq_ok_iff.mp hok
  cases hpure
  have hclear := h.clearSlot hname
  apply (h.gate.remove hsound.gate hremove hstays).bind
  intro gate' _ hremoved
  exact gives_pure_iff.mpr (hclear.trans (hclear.withGate hremoved)).agrees

theorem Alike.step_drop (h : s.Alike slot own x s') (hsound : s.Sound []) (hname : name ≠ slot)
    (hok : s.step (.drop name) = .ok r events) (hstays : Stays x r.2.gate) :
    (s'.step (.drop name)).Gives fun r' _ => Agrees slot own x s s' r r' := by
  rw [Session.step] at hok ⊢
  rw [h.others name hname]
  split at hok
  · exact h.refuse hok
  · rename_i content hget
    refine (h.leave hsound hname hget hok hstays).mono ?_
    rintro ⟨_, b⟩ _ ⟨rfl, hmirrors⟩
    exact hmirrors.agrees

theorem Alike.step_cancel (h : s.Alike slot own x s') (htoken : token ≠ own)
    (hok : s.step (.cancel token) = .ok r events) :
    (s'.step (.cancel token)).Gives fun r' _ => Agrees slot own x s s' r r' := by
  cases hok
  obtain ⟨g', slots', rfl⟩ := h.exists_eq
  refine gives_pure_iff.mpr
    (Mirrors.agrees ⟨⟨h.kept, h.gate, h.owner, h.others, h.tokens, ?_⟩, rfl, rfl⟩)
  rw [Catalog.insert_comm _ htoken]

theorem Alike.step_advance (h : s.Alike slot own x s') (hsound : s.Sound []) {nanos : Nat}
    (hok : s.step (.advance nanos) = .ok r events) (hstays : Stays x r.2.gate) :
    (s'.step (.advance nanos)).Gives fun r' _ => Agrees slot own x s s' r r' := by
  obtain ⟨g', slots', rfl⟩ := h.exists_eq
  simp only [Session.step, advance_eq] at hok ⊢
  obtain ⟨a, hadvance, rfl⟩ := Logged.bind_pure_eq_ok hok
  have htimes := h.withTimes (s.now + nanos) s.timer s.timed
    (s.expiries.filter fun e => !decide (e.due ≤ s.now + nanos))
  apply (htimes.expireEach hsound.gate hadvance hstays).bind
  intro b _ hmirrors
  exact gives_pure_iff.mpr (htimes.trans hmirrors).agrees

theorem Alike.step_shutdown (h : s.Alike slot own x s') (hsound : s.Sound []) {ranks : List Nat}
    (hok : s.step (.shutdown ranks) = .ok r events) (hstays : Stays x r.2.gate) :
    (s'.step (.shutdown ranks)).Gives fun r' _ => Agrees slot own x s s' r r' := by
  obtain ⟨g', slots', rfl⟩ := h.exists_eq
  simp only [Session.step, shutdown_eq] at hok ⊢
  obtain ⟨a, hshutdown, rfl⟩ := Logged.bind_pure_eq_ok hok
  have htimes := h.withTimes s.now false s.timed (s.expiries.filter fun e => !e.onTimer)
  apply (htimes.expireEach hsound.gate hshutdown hstays).bind
  intro b _ hmirrors
  exact gives_pure_iff.mpr (htimes.trans hmirrors).agrees

theorem Alike.step_setCapacity (h : s.Alike slot own x s') (hsound : s.Sound []) {capacity : Nat}
    (hok : s.step (.setCapacity capacity) = .ok r events) (hstays : Stays x r.2.gate) :
    (s'.step (.setCapacity capacity)).Gives fun r' _ => Agrees slot own x s s' r r' := by
  rw [Session.step, Session.withGate, if_pos h.kept] at hok
  rw [Session.step, Session.withGate, if_pos h.kept']
  obtain ⟨gate, first, _, hset, hpure, -⟩ := Logged.bind_eq_ok_iff.mp hok
  cases hpure
  apply (h.gate.setCapacity hsound.gate hset hstays).bind
  intro gate' _ hgate
  exact gives_pure_iff.mpr (h.withGate hgate).agrees

theorem Alike.step_liftCapacity (h : s.Alike slot own x s') (hsound : s.Sound [])
    (hok : s.step .liftCapacity = .ok r events) (hstays : Stays x r.2.gate) :
    (s'.step .liftCapacity).Gives fun r' _ => Agrees slot own x s s' r r' := by
  rw [Session.step, Session.withGate, if_pos h.kept] at hok
  rw [Session.step, Session.withGate, if_pos h.kept']
  obtain ⟨gate, first, _, hlift, hpure, -⟩ := Logged.bind_eq_ok_iff.mp hok
  cases hpure
  apply (h.gate.liftCapacity hsound.gate hlift hstays).bind
  intro gate' _ hgate
  exact gives_pure_iff.mpr (h.withGate hgate).agrees

theorem Alike.report (h : s.Alike slot own x s') (hsound : s.Sound []) (tell : Snapshot → Reply)
    (htell : ∀ m n, { m with waiting := 0, waitingByReason := .empty } =
        ({ n with waiting := 0, waitingByReason := .empty } : Snapshot) →
      (tell m).apartFrom slot = (tell n).apartFrom slot)
    (hok : s.withGate (return (tell s.snapshot, s)) = .ok r events) :
    (s'.withGate (return (tell s'.snapshot, s'))).Gives fun r' _ =>
      Agrees slot own x s s' r r' := by
  rw [Session.withGate, if_pos h.kept] at hok
  rw [Session.withGate, if_pos h.kept']
  cases hok
  refine gives_pure_iff.mpr ⟨htell _ _ ?_, ?_, h.mirrors⟩
  · rw [snapshot, h.rest, h.gate.rest]
    rfl
  · rintro rfl
    rw [snapshot, h.rest, h.gate.eq hsound.gate.agree]
    rfl

/-- Whatever the others do while the ticket is not called in, they are answered as if it were not there. -/
theorem Alike.step (h : s.Alike slot own x s') (hsound : s.Sound []) {st : Step}
    (hspares : st.spares slot own = true) (hothers : st.isOf slot = false) (hall : st ≠ .pollAll)
    (hheld : s.held? slot = none) (hheld' : s'.held? slot = none)
    (hok : s.step st = .ok r events) (hstays : Stays x r.2.gate) :
    (s'.step st).Gives fun r' _ => Agrees slot own x s s' r r' := by
  cases st with
  | wait name token request =>
      obtain ⟨hname, htoken⟩ := of_decide_eq_true hspares
      exact h.step_wait hsound hname htoken hok
  | prepare name token request =>
      obtain ⟨hname, htoken⟩ := of_decide_eq_true hspares
      apply h.withEmptySlot hname hok
      intro hok
      cases hok
      have hput := h.putSlot hname (.prepared token request) (by simpa [Slot.token?] using htoken)
      exact gives_pure_iff.mpr hput.agrees
  | poll name =>
      obtain ⟨polled, first, _, hpoll, hrest, -⟩ := Logged.bind_eq_ok_iff.mp hok
      apply (h.poll? hsound (of_decide_eq_false hothers) hpoll).bind
      rintro polled' _ ⟨hanswer, hmirrors⟩
      rcases polled with _ | ⟨answer, a⟩ <;> rcases polled' with _ | ⟨answer', b⟩
      · exact h.refuse hrest
      · cases hanswer
      · cases hanswer
      · cases hrest
        obtain rfl : answer' = answer := Option.some.inj hanswer
        exact gives_pure_iff.mpr hmirrors.agrees
  | pollAll => exact absurd rfl hall
  | enter name request => exact h.step_enter hsound (of_decide_eq_true hspares) hok
  | done name => exact h.step_done hsound hheld hheld' hok hstays
  | forget name => exact h.step_forget hsound hheld hheld' hok hstays
  | drop name => exact h.step_drop hsound (of_decide_eq_false hothers) hok hstays
  | info name =>
      apply h.withTicket hheld hheld' hok
      intro t hname hok
      cases hok
      exact gives_pure_iff.mpr h.mirrors.agrees
  | cancel token => exact h.step_cancel (of_decide_eq_true hspares) hok
  | advance nanos => exact h.step_advance hsound hok hstays
  | setCapacity capacity => exact h.step_setCapacity hsound hok hstays
  | liftCapacity => exact h.step_liftCapacity hsound hok hstays
  | status => exact h.report hsound .status (fun _ _ => congrArg Reply.status) hok
  | statusText =>
      refine h.report hsound (fun m => .text m.text) (fun m n _ => ?_) hok
      rw [Reply.apartFrom, Reply.apartFrom]
  | shutdown ranks => exact h.step_shutdown hsound hok hstays
  | dropGate => cases hspares

end Session

end FlowGate
