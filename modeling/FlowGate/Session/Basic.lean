import FlowGate.Settings
import FlowGate.Snapshot
import FlowGate.Time.Clock

/-!
Sessions: a gate in use. A session has a clock, callers in named slots, names under which callers can be
told to give up, and the released tickets whose grace period is running.
-/

namespace FlowGate

inductive Slot where
  /-- A caller who has not asked yet, and the name under which it can be told to give up. -/
  | prepared (token : String) (request : Request)
  | waiting (token : String) (ticket : Ticket)
  | holding (ticket : Ticket)
  /-- Nobody: the holder was lost in the middle of its release, and its ticket stayed. -/
  | stranded (ticket : Ticket)
  deriving DecidableEq, Repr

namespace Slot

def isOpen : Slot → Bool
  | .prepared .. => true
  | .waiting .. => true
  | .holding _ => false
  | .stranded _ => false

def held? : Slot → Option Ticket
  | .holding ticket => some ticket
  | _ => none

end Slot

/-- A released ticket whose grace period is running, on the timer or on a thread of its own. -/
structure Expiry where
  ticket : Ticket
  expiresAt : Nat
  /-- How many grace periods came to the timer before this one; `none` on a thread of its own. -/
  place : Option Nat
  deriving DecidableEq, Repr

namespace Expiry

/-- The moment at which a grace period is seen to be over: the first whole millisecond. -/
def due (e : Expiry) : Nat := Span.ceilMillis e.expiresAt

def onTimer (e : Expiry) : Bool := e.place.isSome

/-- The rank of a grace period by its place on the timer, when the timer stops. -/
def rank (ranks : List Nat) (e : Expiry) : Nat := ranks.getD (e.place.getD 0) 0

end Expiry

structure Session where
  clock : Clock
  grace : GracePolicy
  /-- What the clock shows, in nanoseconds. -/
  now : Nat
  nextId : Nat
  gate : Gate
  /-- Whether the owner of the gate still keeps it. -/
  kept : Bool
  timer : Bool
  /-- How many grace periods have come to the timer. -/
  timed : Nat
  /-- The names under which callers have been told to give up. -/
  cancelled : Catalog String Unit
  slots : Catalog String Slot
  /-- The grace periods that are running, in the order in which they end. -/
  expiries : List Expiry

namespace Session

def new (settings : Settings) (clock : Clock) (timer : Bool) : Session where
  clock := clock
  grace := settings.grace
  now := 0
  nextId := 1
  gate := .new settings.capacity
  kept := true
  timer := timer
  timed := 0
  cancelled := .empty
  slots := .empty
  expiries := []

/-- The gate lives while its owner keeps it or a caller is still to be answered. -/
def alive (s : Session) : Bool := s.kept || s.slots.values.any Slot.isOpen

def isCancelled (s : Session) (token : String) : Bool := s.cancelled.contains token

def snapshot (s : Session) : Snapshot := s.gate.snapshot s.clock.start s.now

def openSlots (s : Session) : List String :=
  (s.slots.rows.filter fun row => row.2.isOpen).map (·.1)

def held? (s : Session) (slot : String) : Option Ticket := (s.slots.get? slot).bind Slot.held?

end Session

end FlowGate
