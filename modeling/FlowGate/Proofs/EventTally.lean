import FlowGate.Event
import Mathlib.Algebra.GroupWithZero.Nat

namespace FlowGate

namespace Event

/-- The whole number that the record of an event has in a field. -/
def number? (event : Event) (field : String) : Option Nat :=
  match event.record.fields.lookup field with
  | some (.int value) => value.toNat?
  | _ => none

def flowChange : Event → Int
  | .entered .. | .calledIn .. => 1
  | .freed .. => -1
  | _ => 0

def ticketChange : Event → Int
  | .entered .. | .joined .. => 1
  | .calledIn _ tickets _ _ => tickets
  | .freed .. | .removed .. => -1
  | _ => 0

def queueChange : Event → Int
  | .queued .. => 1
  | .calledIn _ tickets _ _ => -tickets
  | .withdrawn .. | .abandoned .. => -1
  | _ => 0

def flowsGiven : Event → Option Nat
  | .entered _ flows | .calledIn _ _ flows _ | .freed _ flows | .capacitySet _ _ _ flows => some flows
  | _ => none

def waitingGiven : Event → Option Nat
  | .calledIn _ _ _ waiting | .queued _ waiting | .withdrawn _ waiting => some waiting
  | _ => none

/-- The number of flows that a change of the capacity says it called in. -/
def calledGiven : Event → Option Nat
  | .capacitySet _ _ called _ | .capacityLifted called => some called
  | _ => none

/-- The counts that an event gives are these. -/
structure Announces (event : Event) (flows waiting : Int) : Prop where
  entries : ∀ n, event.number? "num_entries" = some n → n = flows
  waiters : ∀ n, event.number? "num_waiters" = some n → n = waiting
  remaining : ∀ n, event.number? "remaining_waiters" = some n → n = waiting

end Event

def said (message : String) (log : List Event) : Nat :=
  log.countP fun event => event.record.message == message

def totalOf (field : String) (log : List Event) : Nat :=
  (log.map fun event => (event.number? field).getD 0).sum

/-- How many flows are active, by the log. -/
def flowsTold (log : List Event) : Int :=
  said "Entry admitted" log + said "Woke queued entry" log - said "Entry released" log

/-- How many tickets are active, by the log. -/
def ticketsTold (log : List Event) : Int :=
  said "Entry admitted" log + said "Joined active entry" log + totalOf "handles" log -
    said "Entry released" log - said "Handle removed" log

/-- How many tickets wait, by the log. -/
def waitingTold (log : List Event) : Int :=
  said "Queued for admission" log - totalOf "handles" log - said "Wait cancelled" log -
    said "Wait dropped while queued" log

/-- Every event that gives a count gives the one that the log comes to with it, from counts to begin with. -/
def Announced (flows waiting : Int) : List Event → Prop
  | [] => True
  | event :: later =>
    event.Announces (flows + event.flowChange) (waiting + event.queueChange) ∧
      Announced (flows + event.flowChange) (waiting + event.queueChange) later

section Counts

variable {event : Event} {log first later : List Event} {flows waiting : Int}

theorem said_cons (message : String) (event : Event) (log : List Event) :
    said message (event :: log) =
      said message log + if event.record.message == message then 1 else 0 := by
  rw [said, List.countP_cons, ← said]

theorem totalOf_cons (field : String) (event : Event) (log : List Event) :
    totalOf field (event :: log) = (event.number? field).getD 0 + totalOf field log := by
  rw [totalOf, List.map_cons, List.sum_cons, ← totalOf]

theorem toNat?_natCast (n : Nat) : (n : Int).toNat? = some n := rfl

theorem flowsTold_nil : flowsTold [] = 0 := rfl

theorem ticketsTold_nil : ticketsTold [] = 0 := rfl

theorem waitingTold_nil : waitingTold [] = 0 := rfl

theorem flowsTold_cons (event : Event) (log : List Event) :
    flowsTold (event :: log) = event.flowChange + flowsTold log := by
  simp only [flowsTold, said_cons]
  cases event <;> simp [Event.record, Event.flowChange] <;> omega

theorem ticketsTold_cons (event : Event) (log : List Event) :
    ticketsTold (event :: log) = event.ticketChange + ticketsTold log := by
  simp only [ticketsTold, said_cons, totalOf_cons]
  cases event <;>
    simp [Event.record, Event.ticketChange, Event.number?, Event.who, Event.why, Json.nat,
      List.lookup_cons, toNat?_natCast] <;> omega

theorem waitingTold_cons (event : Event) (log : List Event) :
    waitingTold (event :: log) = event.queueChange + waitingTold log := by
  simp only [waitingTold, said_cons, totalOf_cons]
  cases event <;>
    simp [Event.record, Event.queueChange, Event.number?, Event.who, Event.why, Json.nat,
      List.lookup_cons, toNat?_natCast] <;> omega

theorem flowsTold_append (first later : List Event) :
    flowsTold (first ++ later) = flowsTold first + flowsTold later := by
  induction first with
  | nil => simp [flowsTold_nil]
  | cons event first ih => rw [List.cons_append, flowsTold_cons, flowsTold_cons, ih, Int.add_assoc]

theorem ticketsTold_append (first later : List Event) :
    ticketsTold (first ++ later) = ticketsTold first + ticketsTold later := by
  induction first with
  | nil => simp [ticketsTold_nil]
  | cons event first ih => rw [List.cons_append, ticketsTold_cons, ticketsTold_cons, ih, Int.add_assoc]

theorem waitingTold_append (first later : List Event) :
    waitingTold (first ++ later) = waitingTold first + waitingTold later := by
  induction first with
  | nil => simp [waitingTold_nil]
  | cons event first ih => rw [List.cons_append, waitingTold_cons, waitingTold_cons, ih, Int.add_assoc]

theorem announced_append_iff :
    Announced flows waiting (first ++ later) ↔
      Announced flows waiting first ∧
        Announced (flows + flowsTold first) (waiting + waitingTold first) later := by
  induction first generalizing flows waiting with
  | nil => simp [Announced, flowsTold_nil, waitingTold_nil]
  | cons event first ih =>
      rw [List.cons_append, Announced, Announced, ih, and_assoc, flowsTold_cons, waitingTold_cons,
        Int.add_assoc, Int.add_assoc]

end Counts

namespace Event

variable {event : Event} {flows waiting : Int}

theorem number?_woken (event : Event) : event.number? "woken" = event.calledGiven := by
  cases event <;>
    simp [number?, record, calledGiven, who, why, Json.nat, List.lookup_cons, toNat?_natCast]

theorem number?_entries (event : Event) : event.number? "num_entries" = event.flowsGiven := by
  cases event <;>
    simp [number?, record, flowsGiven, who, why, Json.nat, List.lookup_cons, toNat?_natCast]

theorem waitingGiven_of_number? {field : String} {n : Nat}
    (hfield : field = "num_waiters" ∨ field = "remaining_waiters")
    (h : event.number? field = some n) : event.waitingGiven = some n := by
  rcases hfield with rfl | rfl <;> cases event <;>
    simp_all [number?, record, waitingGiven, who, why, Json.nat, List.lookup_cons, toNat?_natCast]

theorem announces_of_given (hflows : ∀ n, event.flowsGiven = some n → n = flows)
    (hwaiting : ∀ n, event.waitingGiven = some n → n = waiting) :
    event.Announces flows waiting := by
  refine ⟨?_, ?_, ?_⟩
  · simpa only [number?_entries] using hflows
  · exact fun n hn => hwaiting n (waitingGiven_of_number? (.inl rfl) hn)
  · exact fun n hn => hwaiting n (waitingGiven_of_number? (.inr rfl) hn)

end Event

end FlowGate
