import FlowGate.Catalog.Rows
import FlowGate.Proofs.LoggedOutcome
import FlowGate.Session.Step

namespace FlowGate

/-- Whether an event tells of the wait list. -/
def Event.isOfQueue : Event → Bool
  | .registered _ | .deregistered _ | .calledIn .. => true
  | _ => false

namespace Gate

/-- One operation of a gate that keeps the capacity, or an event that is not of the wait list. -/
inductive Move (g : Gate) : List Event → Gate → Prop where
  | enter {t : Ticket} {events : List Event} {g' : Gate}
      (h : g.enter? t = .ok (some g') events) : Move g events g'
  | queue {t : Ticket} {events : List Event} {g' : Gate}
      (hnone : g.enter? t = .ok none []) (h : g.enqueue t = .ok g' events) : Move g events g'
  | withdraw {t : Ticket} {events : List Event} {g' : Gate}
      (h : g.withdraw? t = .ok (some g') events) : Move g events g'
  | hear (t : Ticket) : Move g [] (g.hear t)
  | setExpiry (t : Ticket) (expiresAt : Nat) : Move g [] (g.setExpiry t expiresAt)
  | remove {t : Ticket} {events : List Event} {g' : Gate}
      (h : g.remove t = .ok g' events) : Move g events g'
  | say {event : Event} (h : event.isOfQueue = false) : Move g [event] g

inductive Moves : Gate → List Event → Gate → Prop where
  | nil (g : Gate) : Moves g [] g
  | cons {g g' g'' : Gate} {first later : List Event} (h : g.Move first g')
      (h' : Moves g' later g'') : Moves g (first ++ later) g''

/-- What a step does to a gate. -/
inductive Turn (g : Gate) : List Event → Gate → Prop where
  | moves {events : List Event} {g' : Gate} (h : g.Moves events g') : Turn g events g'
  | setCapacity {capacity : Nat} {events : List Event} {g' : Gate}
      (h : g.setCapacity capacity = .ok g' events) : Turn g events g'
  | liftCapacity {events : List Event} {g' : Gate}
      (h : g.liftCapacity = .ok g' events) : Turn g events g'

variable {g g' g'' : Gate} {t : Ticket} {first later events : List Event}

theorem Move.moves (h : g.Move events g') : g.Moves events g' := by
  simpa using Moves.cons h (.nil g')

theorem Moves.append (h : g.Moves first g') (h' : g'.Moves later g'') :
    g.Moves (first ++ later) g'' := by
  induction h with
  | nil => exact h'
  | cons hmove _ ih =>
      rw [List.append_assoc]
      exact .cons hmove (ih h')

theorem eq_nil_of_enter?_eq_none (h : g.enter? t = .ok none events) : events = [] := by
  unfold enter? at h
  cases hparty : g.active.get? t.flow with
  | some party =>
      simp only [hparty] at h
      obtain ⟨_, _, _, -, hpure, -⟩ := Logged.bind_eq_ok_iff.mp h
      cases hpure
  | none =>
      simp only [hparty] at h
      split at h
      · obtain ⟨_, _, _, -, hpure, -⟩ := Logged.bind_eq_ok_iff.mp h
        cases hpure
      · cases h
        rfl

theorem eq_nil_of_withdraw?_eq_none (h : g.withdraw? t = .ok none events) : events = [] := by
  obtain ⟨r, first, later, hremove, hnext, rfl⟩ := Logged.bind_eq_ok_iff.mp h
  cases r with
  | none =>
      cases hnext
      rw [List.append_nil]
      unfold WaitList.remove at hremove
      split at hremove
      · cases hremove
        rfl
      · dsimp only at hremove
        split at hremove
        · cases hremove
        · obtain ⟨_, _, _, -, hpure, -⟩ := Logged.bind_eq_ok_iff.mp hremove
          cases hpure
  | some removed => cases hnext

theorem withdraw?_yields (g : Gate) (t : Ticket) :
    (g.withdraw? t).Yields fun r events => ∀ g', r = some g' → ∃ u waiting,
      events = [.deregistered u] ∧ g' = { g with waiting } ∧
        waiting.size + 1 = g.waiting.size := by
  intro r events hok g' hr
  obtain ⟨taken, first, later, hremove, hnext, rfl⟩ := Logged.bind_eq_ok_iff.mp hok
  cases taken with
  | none =>
      cases hnext
      cases hr
  | some taken =>
      cases hnext
      cases hr
      unfold WaitList.remove at hremove
      split at hremove
      · cases hremove
      · rename_i u hu
        dsimp only at hremove
        split at hremove
        · cases hremove
        · obtain ⟨_, _, _, hemit, hpure, rfl⟩ := Logged.bind_eq_ok_iff.mp hremove
          cases hemit
          cases hpure
          exact ⟨u, _, rfl, rfl, Catalog.size_erase_of_get? hu⟩

end Gate

namespace Logged

variable {α β : Type} {g : Gate} {x : Logged α} {next : α → Logged β} {out : α → Gate}
  {out' : β → Gate}

theorem Yields.bind_moves (hx : x.Yields fun a events => g.Moves events (out a))
    (hnext : ∀ a, (next a).Yields fun b events => (out a).Moves events (out' b)) :
    (x >>= next).Yields fun b events => g.Moves events (out' b) := by
  refine hx.bind fun a first hfirst => ?_
  exact (hnext a).mono fun b later hlater => hfirst.append hlater

theorem Yields.say {event : Event} {next : Unit → Logged β} (hevent : event.isOfQueue = false)
    (hnext : (next ()).Yields fun b events => g.Moves events (out' b)) :
    (emit event >>= next).Yields fun b events => g.Moves events (out' b) := by
  refine (yields_self _).bind ?_
  rintro _ _ ⟨rfl, rfl⟩
  exact hnext.mono fun b events hmoves => (Gate.Move.say hevent).moves.append hmoves

end Logged

namespace Session

open Logged (Yields yields_self yields_pure yields_fail)

variable {s : Session}

theorem ask_moves (s : Session) (slot token : String) (request : Request) :
    (s.ask slot token request).Yields fun r events => s.gate.Moves events r.2.gate := by
  refine (yields_self _).bind ?_
  rintro (_ | g') first hok
  · obtain rfl := Gate.eq_nil_of_enter?_eq_none hok
    dsimp only
    split
    · exact Yields.say rfl (yields_pure (.nil _))
    · refine (yields_self _).bind fun g' events hqueue => ?_
      exact yields_pure ((Gate.Move.queue hok hqueue).moves.append (.nil _))
  · exact yields_pure ((Gate.Move.enter hok).moves.append (.nil _))

theorem askAgain_moves (s : Session) (slot token : String) (t : Ticket) :
    (s.askAgain slot token t).Yields fun r events => s.gate.Moves events r.2.gate := by
  unfold askAgain
  split
  · exact yields_pure (Gate.Move.hear t).moves
  · split
    · exact yields_fail
    · split
      · exact yields_pure (.nil _)
      · refine (yields_self _).bind ?_
        rintro (_ | g') first hok
        · obtain rfl := Gate.eq_nil_of_withdraw?_eq_none hok
          exact Yields.say rfl (yields_pure (.nil _))
        · refine Yields.mono ?_ fun r events => (Gate.Move.withdraw hok).moves.append
          exact Yields.say rfl (yields_pure (.nil g'))

theorem poll?_moves (s : Session) (slot : String) :
    (s.poll? slot).Yields fun r events =>
      s.gate.Moves events (r.elim s.gate fun answered => answered.2.gate) := by
  unfold poll?
  split
  · exact (ask_moves s slot _ _).bind_moves fun r => yields_pure (.nil _)
  · exact (askAgain_moves s slot _ _).bind_moves fun r => yields_pure (.nil _)
  · exact yields_pure (.nil _)

theorem pollEach_moves (s : Session) (slots : List String) :
    (s.pollEach slots).Yields fun r events => s.gate.Moves events r.2.gate := by
  induction slots generalizing s with
  | nil => exact yields_pure (.nil _)
  | cons slot slots ih =>
      refine (poll?_moves s slot).bind_moves ?_
      rintro (_ | ⟨answer, s'⟩)
      · exact ih s
      · exact (ih s').bind_moves fun r => yields_pure (.nil _)

theorem letGo_moves (s : Session) (t : Ticket) :
    (s.letGo t).Yields fun s' events => s.gate.Moves events s'.gate := by
  unfold letGo
  split
  · exact yields_pure (.nil _)
  · dsimp only
    split
    · refine (yields_self _).bind fun g' events hremove => ?_
      exact yields_pure ((Gate.Move.remove hremove).moves.append (.nil _))
    · exact Yields.say rfl (yields_pure (Gate.Move.setExpiry t _).moves)

theorem release_moves (s : Session) (slot : String) (t : Ticket) :
    (s.release slot t).Yields fun r events => s.gate.Moves events r.2.gate := by
  unfold release
  split
  · exact yields_pure (.nil _)
  · exact (letGo_moves (s.clearSlot slot) t).bind_moves fun s' => yields_pure (.nil _)

theorem expire_moves (s : Session) (e : Expiry) :
    (s.expire e).Yields fun s' events => s.gate.Moves events s'.gate := by
  have hremove : (do return { s with gate := ← s.gate.remove e.ticket }).Yields
      fun s' events => s.gate.Moves events s'.gate := by
    refine (yields_self _).bind fun g' events hremove => ?_
    exact yields_pure ((Gate.Move.remove hremove).moves.append (.nil _))
  unfold expire
  split
  · exact Yields.say rfl (yields_pure (.nil _))
  · dsimp only
    split
    · exact Yields.say rfl hremove
    · exact hremove

theorem expireEach_moves (s : Session) (ended : List Expiry) :
    (s.expireEach ended).Yields fun s' events => s.gate.Moves events s'.gate := by
  induction ended generalizing s with
  | nil => exact yields_pure (.nil _)
  | cons e rest ih => exact (expire_moves s e).bind_moves fun s' => ih s'

theorem abandon_moves (s : Session) (t : Ticket) :
    (s.abandon t).Yields fun s' events => s.gate.Moves events s'.gate := by
  refine (yields_self _).bind ?_
  rintro (_ | g') first hok
  · obtain rfl := Gate.eq_nil_of_withdraw?_eq_none hok
    refine Yields.say rfl ?_
    refine (yields_self _).bind fun g' events hremove => ?_
    have hmoves := (Gate.Move.hear t).moves.append (Gate.Move.remove hremove).moves
    exact yields_pure (hmoves.append (.nil _))
  · refine Yields.mono ?_ fun r events => (Gate.Move.withdraw hok).moves.append
    exact Yields.say rfl (yields_pure (.nil g'))

theorem leave_moves (s : Session) (slot : String) (content : Slot) :
    (s.leave slot content).Yields fun r events => s.gate.Moves events r.2.gate := by
  cases content with
  | prepared token request => exact yields_pure (.nil _)
  | waiting token t => exact (abandon_moves s t).bind_moves fun s' => yields_pure (.nil _)
  | holding t => exact Yields.say rfl (release_moves s slot t)
  | stranded t => exact yields_pure (.nil _)

section Guards

variable {slot : String} {act : Logged (Reply × Session)}
  {P : Reply × Session → List Event → Prop}

theorem withEmptySlot_yields (hact : act.Yields P) (hrefuse : ∀ reason, P (.refusal reason, s) []) :
    (s.withEmptySlot slot act).Yields P := by
  unfold withEmptySlot
  split
  · exact yields_pure (hrefuse _)
  · split
    · exact yields_pure (hrefuse _)
    · exact hact

theorem withGate_yields (hact : act.Yields P) (hrefuse : ∀ reason, P (.refusal reason, s) []) :
    (s.withGate act).Yields P := by
  unfold withGate
  split
  · exact hact
  · exact yields_pure (hrefuse _)

theorem get?_of_held? (hheld : s.held? slot = some t) : s.slots.get? slot = some (.holding t) := by
  obtain ⟨content, hget, hholds⟩ := Option.bind_eq_some_iff.mp hheld
  cases content with
  | holding u =>
      cases hholds
      exact hget
  | _ => cases hholds

theorem withTicket_yields {act : Ticket → Logged (Reply × Session)} (hact : ∀ t, (act t).Yields P)
    (hrefuse : ∀ reason, P (.refusal reason, s) []) : (s.withTicket slot act).Yields P := by
  unfold withTicket
  split
  · exact yields_pure (hrefuse _)
  · exact hact _

end Guards

theorem turns_of_moves {x : Logged (Reply × Session)}
    (h : x.Yields fun r events => s.gate.Moves events r.2.gate) :
    x.Yields fun r events => s.gate.Turn events r.2.gate :=
  h.mono fun _ _ => .moves

theorem step_turns (s : Session) (st : Step) :
    (s.step st).Yields fun r events => s.gate.Turn events r.2.gate := by
  have hstay : ∀ reply, (pure (reply, s) : Logged (Reply × Session)).Yields
      fun r events => s.gate.Turn events r.2.gate :=
    fun _ => yields_pure (.moves (.nil _))
  have hrefuse : ∀ reason : Refusal, s.gate.Turn [] (Reply.refusal reason, s).2.gate :=
    fun _ => .moves (.nil _)
  cases st with
  | wait slot token request =>
      refine withEmptySlot_yields (turns_of_moves ?_) hrefuse
      exact (ask_moves s slot token request).bind_moves fun r => yields_pure (.nil _)
  | prepare slot token request =>
      exact withEmptySlot_yields (yields_pure (.moves (.nil _))) hrefuse
  | poll slot =>
      refine turns_of_moves ((poll?_moves s slot).bind_moves ?_)
      rintro (_ | ⟨answer, s'⟩) <;> exact yields_pure (.nil _)
  | pollAll =>
      exact turns_of_moves ((pollEach_moves s _).bind_moves fun r => yields_pure (.nil _))
  | enter slot request =>
      refine withEmptySlot_yields (turns_of_moves ?_) hrefuse
      refine (yields_self _).bind ?_
      rintro (_ | g') first hok
      · obtain rfl := Gate.eq_nil_of_enter?_eq_none hok
        exact yields_pure (.nil _)
      · exact yields_pure ((Gate.Move.enter hok).moves.append (.nil _))
  | done slot => exact withTicket_yields (fun t => turns_of_moves (release_moves s slot t)) hrefuse
  | forget slot =>
      refine withTicket_yields (fun t => ?_) hrefuse
      dsimp only
      split
      · refine (yields_self _).bind fun g' events hremove => ?_
        exact yields_pure (.moves ((Gate.Move.remove hremove).moves.append (.nil _)))
      · exact yields_pure (.moves (.nil _))
  | drop slot =>
      rw [step]
      split
      · exact hstay _
      · exact turns_of_moves (leave_moves s slot _)
  | info slot => exact withTicket_yields (fun t => hstay _) hrefuse
  | cancel token => exact yields_pure (.moves (.nil _))
  | advance nanos =>
      exact turns_of_moves ((expireEach_moves _ _).bind_moves fun s' => yields_pure (.nil _))
  | setCapacity capacity =>
      refine withGate_yields ((yields_self _).bind fun g' events hset => ?_) hrefuse
      exact yields_pure (.setCapacity (by simpa using hset))
  | liftCapacity =>
      refine withGate_yields ((yields_self _).bind fun g' events hlift => ?_) hrefuse
      exact yields_pure (.liftCapacity (by simpa using hlift))
  | status => exact withGate_yields (hstay _) hrefuse
  | statusText => exact withGate_yields (hstay _) hrefuse
  | shutdown ranks =>
      exact turns_of_moves ((expireEach_moves _ _).bind_moves fun s' => yields_pure (.nil _))
  | dropGate => exact yields_pure (.moves (.nil _))

end Session

end FlowGate
