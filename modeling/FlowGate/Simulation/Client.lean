import FlowGate.Session.Step
import FlowGate.Simulation.Traffic

/-!
Simulated clients. In each round a client waits for a flow, holds it for a while and releases it. A
client that is told to give up leaves its round and starts no other.
-/

namespace FlowGate.Simulation

/-- Where a client is; `left` counts the rounds that it has not ended, the present one with them. -/
inductive Phase where
  | fresh
  | waiting (left : Nat)
  | holding (left ends : Nat)
  | finished
  /-- The client was lost in the middle of a release. -/
  | lost
  deriving DecidableEq, Repr

structure Client where
  phase : Phase
  /-- How many tickets of the client were let in. -/
  entered : Nat
  /-- Whether the client was told to give up before it was through. -/
  cancelled : Bool
  deriving DecidableEq, Repr

namespace Client

def new : Client := ⟨.fresh, 0, false⟩

def isFinished (c : Client) : Bool := c.phase == .finished

def token : String := "clients"

def slot (client : Nat) : String := Text.Numeral.text client

/-- What a caller is told by a reply; one that is not answered gives up. -/
def answerOf : Reply → Answer
  | .answer answer => answer
  | _ => .refused

def isLetIn (s : Session) (client : Nat) : Bool :=
  match s.slots.get? (slot client) with
  | some (.waiting _ ticket) => s.gate.called.contains ticket.id
  | _ => false

def canMove (s : Session) (client : Nat) (c : Client) : Bool :=
  match c.phase with
  | .fresh => true
  | .waiting _ => isLetIn s client || s.isCancelled token
  | .holding _ ends => ends ≤ s.now || s.isCancelled token
  | .finished => false
  | .lost => false

/-- A client releases its ticket and goes on, unless it is lost over the release. -/
def release (client entered : Nat) (s : Session) (next : Session → Logged (Client × Session)) :
    Logged (Client × Session) := do
  match ← s.step (.done (slot client)) with
  | (.brokenOff, s) => return (⟨.lost, entered, false⟩, s)
  | (_, s) => next s

/--
Whether a client that holds a ticket leaves its round because it is told to give up. When its while is
over as well, it may go on: `goesOn` tells for a client and the rounds that it has left.
-/
def isInterrupted (goesOn : Nat → Nat → Bool) (client left : Nat) (isOver : Bool) (s : Session) :
    Bool :=
  s.isCancelled token && !(isOver && goesOn client left)

/--
A client goes on from the answer that it was given in a round. It holds its ticket for a while; with no
while to hold it, or when it is told to give up, it releases the ticket at once. `next` starts the
round after.
-/
def answered (o : Options) (goesOn : Nat → Nat → Bool) (client left entered : Nat) (answer : Answer)
    (s : Session) (next : Session → Logged (Client × Session)) : Logged (Client × Session) := do
  match answer with
  | .pending => return (⟨.waiting left, entered, false⟩, s)
  | .refused =>
    Logged.emit (.clientGaveUp client (o.rounds - left))
    return (⟨.finished, entered, true⟩, s)
  | .entered _ =>
    if isInterrupted goesOn client left (o.holdMillis == 0) s then
      release client (entered + 1) s fun s => return (⟨.finished, entered + 1, true⟩, s)
    else if o.holdMillis = 0 then release client (entered + 1) s next
    else
      return (⟨.holding left (s.now + Span.ofMillis o.holdMillis), entered + 1, false⟩, s)

/-- A client starts its next round, if one is left, and goes on as far as it can. -/
def start (o : Options) (goesOn : Nat → Nat → Bool) (client : Nat) :
    Nat → Nat → Session → Logged (Client × Session)
  | 0, entered, s => return (⟨.finished, entered, false⟩, s)
  | left + 1, entered, s => do
    let request := o.request client (o.rounds - (left + 1))
    let (reply, s) ← s.step (.wait (slot client) token request)
    answered o goesOn client (left + 1) entered (answerOf reply) s
      (start o goesOn client left (entered + 1))

/-- A client that can go on does so, until it waits or holds a ticket or is finished. -/
def move (o : Options) (goesOn : Nat → Nat → Bool) (client : Nat) (c : Client) (s : Session) :
    Logged (Client × Session) := do
  match c.phase with
  | .fresh => start o goesOn client o.rounds c.entered s
  | .waiting left =>
    let (reply, s) ← s.step (.poll (slot client))
    answered o goesOn client left c.entered (answerOf reply) s
      (start o goesOn client (left - 1) (c.entered + 1))
  | .holding left ends =>
    if isInterrupted goesOn client left (decide (ends ≤ s.now)) s then
      release client c.entered s fun s => return (⟨.finished, c.entered, true⟩, s)
    else release client c.entered s (start o goesOn client (left - 1) c.entered)
  | .finished => return (c, s)
  | .lost => return (c, s)

/-- A bound on how often a client can still go on. -/
def movesLeft (o : Options) (c : Client) : Nat :=
  match c.phase with
  | .fresh => 2 * o.rounds + 2
  | .waiting left => 2 * left + 1
  | .holding left _ => 2 * left
  | .finished => 0
  | .lost => 0

end Client

end FlowGate.Simulation
