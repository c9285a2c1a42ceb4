import FlowGate.Ticket

namespace FlowGate

inductive Fault where
  | registeredTwice (id : Nat)
  | misfiled (id : Nat)
  /-- A view did not hold a ticket that was waiting. -/
  | unfiled (id : Nat)
  | strangerByPriority (id : Nat)
  | strangerByFlow (id : Nat)
  | nobodyWaiting (flow : Flow)
  | activeAndWaiting (flow : Flow)
  | lost (id : Nat)
  deriving DecidableEq, Repr

def Fault.message : Fault → String
  | .registeredTwice id => "handle " ++ Ticket.label id ++ " registered as a waiter twice"
  | .misfiled id => "waiter index out of sync inserting handle " ++ Ticket.label id
  | .unfiled id => "waiter index out of sync removing handle " ++ Ticket.label id
  | .strangerByPriority id => "priority index names unknown waiter " ++ Ticket.label id
  | .strangerByFlow id => "entry index names unknown waiter " ++ Ticket.label id
  | .nobodyWaiting flow => "wake targeted " ++ flow.text ++ " with no waiters"
  | .activeAndWaiting flow => "entry " ++ flow.text ++ " is both active and queued"
  | .lost id => "waiter " ++ Ticket.label id ++ " dropped from index without wake"

end FlowGate
