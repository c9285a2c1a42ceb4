import FlowGate.WaitList

/-!
The gate: a bound on the number of distinct flows that are active at once. Tickets of one flow share its
place. A freed place goes to the flow of the first arrival among the most urgent waiting tickets, and
every ticket that waits for that flow is let in with it.
-/

namespace FlowGate

/-- An active ticket, and when it is due to go if its holder has released it. -/
structure Admission where
  ticket : Ticket
  expiresAt : Option Nat
  deriving DecidableEq, Repr

/-- The tickets of one active flow, by number. -/
abbrev Party := Catalog Nat Admission

structure Gate where
  /-- How many flows may be active; `none` is no bound. -/
  capacity : Option Nat
  active : Catalog Flow Party
  waiting : WaitList
  /-- The numbers of the tickets that were called in and whose callers have not heard of it. -/
  called : NumberSet

namespace Gate

open Logged (emit fail)

def new (capacity : Option Nat) : Gate := ⟨capacity, .empty, .empty, .empty⟩

def hasSpace (g : Gate) : Bool :=
  match g.capacity with
  | none => true
  | some capacity => g.active.size < capacity

def admission? (g : Gate) (t : Ticket) : Option Admission :=
  (g.active.get? t.flow).bind fun party => party.get? t.id

def outranks (g : Gate) (priority : Priority) : Bool :=
  match g.waiting.mostUrgent? with
  | none => false
  | some top => compare priority top == .lt

/-- Let a ticket in if its flow is active, or if there is room and nobody more urgent waits. -/
def enter? (g : Gate) (t : Ticket) : Logged (Option Gate) := do
  match g.active.get? t.flow with
  | some party =>
    let party := party.insert t.id ⟨t, none⟩
    emit (.joined t party.size)
    return some { g with active := g.active.insert t.flow party }
  | none =>
    if g.hasSpace && !g.outranks t.priority then
      let active := g.active.insert t.flow (.single t.id ⟨t, none⟩)
      emit (.entered t active.size)
      return some { g with active }
    else return none

def enqueue (g : Gate) (t : Ticket) : Logged Gate := do
  let waiting ← g.waiting.insert t
  emit (.queued t waiting.size)
  return { g with waiting }

/-- Call tickets: their callers hear of it when they ask again. -/
def call (called : NumberSet) (tickets : List Ticket) : NumberSet :=
  tickets.foldl (fun called t => called.insert t.id ()) called

/-- Let in the next waiting flow with all its tickets, if anyone waits, and call them. -/
def callNext? (g : Gate) : Logged (Option Gate) := do
  match ← g.waiting.nextFlow? with
  | none => return none
  | some flow =>
    if g.active.contains flow then fail (.activeAndWaiting flow)
    let (tickets, waiting) ← g.waiting.take flow
    let party := Catalog.ofList (tickets.map fun t => (t.id, (⟨t, none⟩ : Admission)))
    let active := g.active.insert flow party
    emit (.calledIn flow tickets.length active.size waiting.size)
    return some { g with active, waiting, called := call g.called tickets }

/-- Let in waiting flows while there is room, at most so many, and count them. -/
def callUpTo : Nat → Gate → Logged (Nat × Gate)
  | 0, g => return (0, g)
  | limit + 1, g => do
    if g.hasSpace then
      match ← g.callNext? with
      | none => return (0, g)
      | some g =>
        let (called, g) ← callUpTo limit g
        return (called + 1, g)
    else return (0, g)

/-- Take an active ticket out. The last one of its flow frees a place, and the next flow is let in. -/
def remove (g : Gate) (t : Ticket) : Logged Gate := do
  match (g.active.get? t.flow).filter (·.contains t.id) with
  | none =>
    emit (.alreadyRemoved t)
    return g
  | some party =>
    let rest := party.erase t.id
    if !rest.isEmpty then
      emit (.removed t rest.size)
      return { g with active := g.active.insert t.flow rest }
    else
      let g := { g with active := g.active.erase t.flow }
      emit (.freed t g.active.size)
      if g.hasSpace then return (← g.callNext?).getD g
      else return g

/-- Set a finite capacity. A capacity raised by so many lets at most so many flows in. -/
def setCapacity (g : Gate) (capacity : Nat) : Logged Gate := do
  let previous := g.capacity
  let limit := match previous with
    | none => 0
    | some previous => capacity - previous
  let (called, g) ← callUpTo limit { g with capacity := some capacity }
  emit (.capacitySet capacity previous called g.active.size)
  return g

def liftCapacity (g : Gate) : Logged Gate := do
  let (called, g) ← callUpTo g.waiting.size { g with capacity := none }
  emit (.capacityLifted called)
  return g

def setExpiry (g : Gate) (t : Ticket) (expiresAt : Nat) : Gate :=
  match g.active.get? t.flow with
  | none => g
  | some party =>
    match party.get? t.id with
    | none => g
    | some admission =>
      let admission := { admission with expiresAt := some expiresAt }
      { g with active := g.active.insert t.flow (party.insert t.id admission) }

/-- The caller of a ticket hears that it was called in, or goes away. -/
def hear (g : Gate) (t : Ticket) : Gate := { g with called := g.called.erase t.id }

/-- Take a waiting ticket off the list; `none` if it does not wait. -/
def withdraw? (g : Gate) (t : Ticket) : Logged (Option Gate) := do
  match ← g.waiting.remove t.id with
  | none => return none
  | some (_, waiting) => return some { g with waiting }

end Gate

end FlowGate
