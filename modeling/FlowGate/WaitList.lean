import FlowGate.Grouping
import FlowGate.Logged

/-!
The tickets that wait, filed four times: by number, by priority, by reason and by flow. Every operation
changes all four views, and checks that they agreed before it.
-/

namespace FlowGate

structure WaitList where
  byPriority : Grouping Priority
  byReason : Grouping String
  byFlow : Grouping Flow
  tickets : Catalog Nat Ticket

namespace WaitList

open Logged (emit fail)

def empty : WaitList := ⟨.empty, .empty, .empty, .empty⟩

instance : Inhabited WaitList := ⟨empty⟩

def size (w : WaitList) : Nat := w.tickets.size

def contains (w : WaitList) (id : Nat) : Bool := w.tickets.contains id

/-- Put a ticket on the list; it must not be there. -/
def insert (w : WaitList) (t : Ticket) : Logged WaitList := do
  if w.contains t.id then fail (.registeredTwice t.id)
  let (newByPriority, byPriority) := w.byPriority.insert t.priority t.id
  let (newByReason, byReason) := w.byReason.insert t.reason t.id
  let (newByFlow, byFlow) := w.byFlow.insert t.flow t.id
  if !(newByPriority && newByReason && newByFlow) then fail (.misfiled t.id)
  emit (.registered t)
  return ⟨byPriority, byReason, byFlow, w.tickets.insert t.id t⟩

def remove (w : WaitList) (id : Nat) : Logged (Option (Ticket × WaitList)) := do
  match w.tickets.get? id with
  | none => return none
  | some t =>
    let (wasByPriority, byPriority) := w.byPriority.remove t.priority id
    let (wasByReason, byReason) := w.byReason.remove t.reason id
    let (wasByFlow, byFlow) := w.byFlow.remove t.flow id
    if !(wasByPriority && wasByReason && wasByFlow) then fail (.unfiled id)
    emit (.deregistered t)
    return some (t, ⟨byPriority, byReason, byFlow, w.tickets.erase id⟩)

def mostUrgent? (w : WaitList) : Option Priority := w.byPriority.last?.map (·.1)

/-- The flow to let in next: that of the first arrival among the tickets of the highest priority. -/
def nextFlow? (w : WaitList) : Logged (Option Flow) :=
  match w.byPriority.last?.bind (·.2.first?) with
  | none => return none
  | some (id, _) =>
    match w.tickets.get? id with
    | none => fail (.strangerByPriority id)
    | some t => return some t.flow

def removeAll (w : WaitList) : List Nat → Logged (List Ticket × WaitList)
  | [] => return ([], w)
  | id :: ids => do
    match ← w.remove id with
    | none => fail (.strangerByFlow id)
    | some (t, rest) =>
      let (ts, rest) ← removeAll rest ids
      return (t :: ts, rest)

/-- Take every ticket that waits for a flow off the list, in order of arrival; there must be one. -/
def take (w : WaitList) (flow : Flow) : Logged (List Ticket × WaitList) := do
  let ids := ((w.byFlow.get? flow).map Catalog.keys).getD []
  if ids.isEmpty then fail (.nobodyWaiting flow)
  w.removeAll ids

def reasonCounts (w : WaitList) : Catalog String Nat := w.byReason.counts

end WaitList

end FlowGate
