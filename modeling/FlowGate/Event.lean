import FlowGate.Log.Record
import FlowGate.Ticket
import FlowGate.Time.Span

namespace FlowGate

inductive Event where
  /-- A ticket is on the wait list. -/
  | registered (ticket : Ticket)
  | deregistered (ticket : Ticket)
  /-- A ticket shares a flow that is active; `tickets` hold it now. -/
  | joined (ticket : Ticket) (tickets : Nat)
  | entered (ticket : Ticket) (flows : Nat)
  | calledIn (flow : Flow) (tickets flows waiting : Nat)
  | alreadyRemoved (ticket : Ticket)
  | removed (ticket : Ticket) (remaining : Nat)
  /-- The last ticket of a flow gave it up; `flows` are active now. -/
  | freed (ticket : Ticket) (flows : Nat)
  | capacitySet (capacity : Nat) (previous : Option Nat) (called flows : Nat)
  | capacityLifted (called : Nat)
  | refused (flow : Flow)
  | queued (ticket : Ticket) (waiting : Nat)
  /-- A caller gave up while its ticket was waiting. -/
  | withdrawn (ticket : Ticket) (waiting : Nat)
  /-- A caller gave up too late: its ticket had been let in. -/
  | keptInside (ticket : Ticket)
  | abandoned (ticket : Ticket)
  /-- A caller went away after its ticket had been let in, and before it knew. -/
  | abandonedInside (ticket : Ticket)
  | dropped (ticket : Ticket)
  /-- A released ticket stays for a grace period, in nanoseconds. -/
  | scheduled (ticket : Ticket) (grace : Nat)
  | gateGone (ticket : Ticket)
  | cutShort (ticket : Ticket)
  | simulationStarted (clients flows rounds : Nat) (capacity : Option Nat)
  | clientGaveUp (client round : Nat)
  | simulationFinished (admitted cancelled : Nat)
  deriving DecidableEq, Repr

namespace Event

def gateTarget : String := "conntrack::table"

def waitListTarget : String := "conntrack::index"

def holderTarget : String := "conntrack::handle"

def simulationTarget : String := "conntrack_sim"

def who (t : Ticket) : List (String × Json) :=
  [("handle", .text (Ticket.label t.id)), ("entry", .text t.flow.text)]

def why (t : Ticket) : List (String × Json) :=
  [("reason", .text t.reason), ("priority", .text t.priority.text)]

def record : Event → Log.Record
  | .registered t => ⟨.trace, waitListTarget, "Waiter registered", who t⟩
  | .deregistered t => ⟨.trace, waitListTarget, "Waiter deregistered", who t⟩
  | .joined t tickets =>
    ⟨.debug, gateTarget, "Joined active entry", who t ++ [("joined", .nat tickets)]⟩
  | .entered t flows =>
    ⟨.debug, gateTarget, "Entry admitted", who t ++ why t ++ [("num_entries", .nat flows)]⟩
  | .calledIn flow tickets flows waiting =>
    ⟨.debug, gateTarget, "Woke queued entry",
      [("entry", .text flow.text), ("handles", .nat tickets), ("num_entries", .nat flows),
        ("remaining_waiters", .nat waiting)]⟩
  | .alreadyRemoved t => ⟨.trace, gateTarget, "Handle already removed", who t⟩
  | .removed t remaining =>
    ⟨.trace, gateTarget, "Handle removed", who t ++ [("remaining", .nat remaining)]⟩
  | .freed t flows =>
    ⟨.debug, gateTarget, "Entry released", who t ++ [("num_entries", .nat flows)]⟩
  | .capacitySet capacity previous called flows =>
    ⟨.info, gateTarget, "Set max entries",
      [("max_entries", .nat capacity), ("previous", .text (Text.Numeral.describeLimit previous)),
        ("woken", .nat called), ("num_entries", .nat flows)]⟩
  | .capacityLifted called =>
    ⟨.info, gateTarget, "Removed max entries limit", [("woken", .nat called)]⟩
  | .refused flow =>
    ⟨.debug, gateTarget, "Wait cancelled before queueing", [("entry", .text flow.text)]⟩
  | .queued t waiting =>
    ⟨.debug, gateTarget, "Queued for admission", who t ++ why t ++ [("num_waiters", .nat waiting)]⟩
  | .withdrawn t waiting =>
    ⟨.debug, gateTarget, "Wait cancelled", who t ++ [("num_waiters", .nat waiting)]⟩
  | .keptInside t =>
    ⟨.debug, gateTarget, "Cancelled after wake - keeping admission",
      [("handle", .text (Ticket.label t.id))]⟩
  | .abandoned t => ⟨.debug, gateTarget, "Wait dropped while queued", who t⟩
  | .abandonedInside t => ⟨.debug, gateTarget, "Wait dropped after wake - releasing", who t⟩
  | .dropped t =>
    ⟨.warn, holderTarget, "EntryHandle dropped without done() - releasing", who t⟩
  | .scheduled t grace =>
    ⟨.trace, holderTarget, "Scheduled handle removal",
      who t ++ [("timeout", .text (Span.text grace))]⟩
  | .gateGone t =>
    ⟨.trace, holderTarget, "Table gone before handle expiry",
      [("handle", .text (Ticket.label t.id))]⟩
  | .cutShort t =>
    ⟨.debug, holderTarget, "Expiry timer dropped early - removing handle now", who t⟩
  | .simulationStarted clients flows rounds capacity =>
    ⟨.info, simulationTarget, "Starting simulation",
      [("clients", .nat clients), ("entries", .nat flows), ("rounds", .nat rounds),
        ("max_entries", .text (Text.Numeral.describeLimit capacity))]⟩
  | .clientGaveUp client round =>
    ⟨.debug, simulationTarget, "Client cancelled while waiting",
      [("client", .nat client), ("round", .nat round)]⟩
  | .simulationFinished admitted cancelled =>
    ⟨.info, simulationTarget, "Simulation finished",
      [("admitted", .nat admitted), ("cancelled", .nat cancelled)]⟩

end Event

end FlowGate
