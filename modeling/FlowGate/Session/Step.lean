import FlowGate.Session.Basic

/-!
What can be done in a session, one step at a time. A step that does not apply is refused and leaves the
session as it was.
-/

namespace FlowGate

inductive Step where
  | wait (slot token : String) (request : Request)
  | prepare (slot token : String) (request : Request)
  | poll (slot : String)
  | pollAll
  /-- A request that is let in at once or not at all. -/
  | enter (slot : String) (request : Request)
  /-- The holder in a slot releases its ticket, which stays for its grace period. -/
  | done (slot : String)
  /-- The holder in a slot releases its ticket, which goes at once. -/
  | forget (slot : String)
  | drop (slot : String)
  | info (slot : String)
  | cancel (token : String)
  | advance (nanos : Nat)
  | setCapacity (capacity : Nat)
  | liftCapacity
  | status
  | statusText
  /-- The timer stops, and the grace periods on it end, in the order of their ranks by place. -/
  | shutdown (ranks : List Nat)
  | dropGate
  deriving DecidableEq, Repr

/-- Why a step does not apply. -/
inductive Refusal where
  | slotBusy
  | noGate
  | notWaiting
  | noTicket
  | emptySlot
  deriving DecidableEq, Repr

inductive Answer where
  | entered (id : Nat)
  | refused
  | pending
  deriving DecidableEq, Repr

inductive Reply where
  | done
  /-- The step broke off in the middle of a release. -/
  | brokenOff
  | prepared
  | answer (answer : Answer)
  | answers (answers : List (String × Answer))
  | ticket (ticket : Ticket)
  | status (snapshot : Snapshot)
  | text (text : String)
  | refusal (reason : Refusal)

namespace Session

open Logged (emit fail)

def putSlot (s : Session) (slot : String) (content : Slot) : Session :=
  { s with slots := s.slots.insert slot content }

def clearSlot (s : Session) (slot : String) : Session := { s with slots := s.slots.erase slot }

def issue (s : Session) (request : Request) : Ticket × Session :=
  (⟨request, s.nextId, s.now⟩, { s with nextId := s.nextId + 1 })

/--
A caller asks for the first time. It gets a ticket, which is let in at once if it can be. Otherwise it
waits, unless it has been told to give up.
-/
def ask (s : Session) (slot token : String) (request : Request) : Logged (Answer × Session) := do
  let (ticket, s) := s.issue request
  match ← s.gate.enter? ticket with
  | some gate => return (.entered ticket.id, { s with gate }.putSlot slot (.holding ticket))
  | none =>
    if s.isCancelled token then
      emit (.refused ticket.flow)
      return (.refused, s.clearSlot slot)
    else
      let gate ← s.gate.enqueue ticket
      return (.pending, { s with gate }.putSlot slot (.waiting token ticket))

/--
A waiting caller asks again. If its ticket has been called in, it holds it now, even if it has been told
to give up since. Otherwise it gives up if it has been told to, and goes on waiting if not. A ticket that
leaves the list while its caller gives up is kept.
-/
def askAgain (s : Session) (slot token : String) (ticket : Ticket) : Logged (Answer × Session) := do
  if s.gate.called.contains ticket.id then
    return (.entered ticket.id,
      { s with gate := s.gate.hear ticket }.putSlot slot (.holding ticket))
  else if !s.gate.waiting.contains ticket.id then fail (.lost ticket.id)
  else if !s.isCancelled token then return (.pending, s)
  else
    match ← s.gate.withdraw? ticket with
    | some gate =>
      emit (.withdrawn ticket gate.waiting.size)
      return (.refused, { s with gate }.clearSlot slot)
    | none =>
      emit (.keptInside ticket)
      return (.entered ticket.id, s.putSlot slot (.holding ticket))

/-- The caller in a slot asks; `none` if there is no caller to be answered. -/
def poll? (s : Session) (slot : String) : Logged (Option (Answer × Session)) := do
  match s.slots.get? slot with
  | some (.prepared token request) => return some (← s.ask slot token request)
  | some (.waiting token ticket) => return some (← s.askAgain slot token ticket)
  | _ => return none

def pollEach (s : Session) : List String → Logged (List (String × Answer) × Session)
  | [] => return ([], s)
  | slot :: slots => do
    match ← s.poll? slot with
    | none => pollEach s slots
    | some (answer, s) =>
      let (answers, s) ← pollEach s slots
      return ((slot, answer) :: answers, s)

/-- Put an expiry behind those that end no later. -/
def insertExpiry (e : Expiry) : List Expiry → List Expiry
  | [] => [e]
  | other :: rest => if e.due < other.due then e :: other :: rest else other :: insertExpiry e rest

/--
Whether a release breaks off: the gate lives, there is a grace period, and the clock cannot show when it
ends.
-/
def breaksOff (s : Session) (ticket : Ticket) : Bool :=
  let grace := s.grace.span ticket.flow
  s.alive && grace != 0 && (s.clock.after? s.now grace).isNone

/--
A release goes through: the ticket goes at once if it has no grace period, and is marked and scheduled
otherwise. Nothing happens if the gate is gone.
-/
def letGo (s : Session) (ticket : Ticket) : Logged Session := do
  if !s.alive then return s
  let grace := s.grace.span ticket.flow
  if grace = 0 then return { s with gate := ← s.gate.remove ticket }
  else
    let expiresAt := s.now + grace
    let place := if s.timer then some s.timed else none
    emit (.scheduled ticket grace)
    return { s with
      gate := s.gate.setExpiry ticket expiresAt
      timed := if s.timer then s.timed + 1 else s.timed
      expiries := insertExpiry ⟨ticket, expiresAt, place⟩ s.expiries }

/--
The holder in a slot releases its ticket. If the release breaks off, the holder is lost, and the ticket
stays active, neither marked nor scheduled.
-/
def release (s : Session) (slot : String) (ticket : Ticket) : Logged (Reply × Session) := do
  if s.breaksOff ticket then return (.brokenOff, s.putSlot slot (.stranded ticket))
  else return (.done, ← (s.clearSlot slot).letGo ticket)

def expire (s : Session) (e : Expiry) : Logged Session := do
  if !s.alive then
    emit (.gateGone e.ticket)
    return s
  if s.now < e.expiresAt then emit (.cutShort e.ticket)
  return { s with gate := ← s.gate.remove e.ticket }

def expireEach (s : Session) : List Expiry → Logged Session
  | [] => return s
  | e :: rest => do expireEach (← s.expire e) rest

def pass (s : Session) (nanos : Nat) : Session := { s with now := s.now + nanos }

def expireDue (s : Session) : Logged Session :=
  let (ended, running) := s.expiries.partition fun e => e.due ≤ s.now
  { s with expiries := running }.expireEach ended

def advance (s : Session) (nanos : Nat) : Logged Session := (s.pass nanos).expireDue

/-- Stop the timer, and end the grace periods on it, in the order of their ranks. -/
def shutdown (s : Session) (ranks : List Nat) : Logged Session :=
  let (ended, running) := s.expiries.partition Expiry.onTimer
  { s with timer := false, expiries := running }.expireEach
    (ended.mergeSort fun a b => a.rank ranks ≤ b.rank ranks)

/-- A waiting caller goes away: its ticket leaves the list, or the place that it was let into. -/
def abandon (s : Session) (ticket : Ticket) : Logged Session := do
  match ← s.gate.withdraw? ticket with
  | some gate =>
    emit (.abandoned ticket)
    return { s with gate }
  | none =>
    emit (.abandonedInside ticket)
    return { s with gate := ← (s.gate.hear ticket).remove ticket }

def refuse (s : Session) (reason : Refusal) : Logged (Reply × Session) :=
  return (.refusal reason, s)

def leave (s : Session) (slot : String) : Slot → Logged (Reply × Session)
  | .prepared .. => return (.done, s.clearSlot slot)
  | .waiting _ ticket => return (.done, (← s.abandon ticket).clearSlot slot)
  | .holding ticket => do
    emit (.dropped ticket)
    s.release slot ticket
  | .stranded _ => s.refuse .emptySlot

def withEmptySlot (s : Session) (slot : String) (act : Logged (Reply × Session)) :
    Logged (Reply × Session) :=
  if s.slots.contains slot then s.refuse .slotBusy
  else if !s.kept then s.refuse .noGate
  else act

def withGate (s : Session) (act : Logged (Reply × Session)) : Logged (Reply × Session) :=
  if s.kept then act else s.refuse .noGate

def withTicket (s : Session) (slot : String) (act : Ticket → Logged (Reply × Session)) :
    Logged (Reply × Session) :=
  match s.held? slot with
  | none => s.refuse .noTicket
  | some ticket => act ticket

def step (s : Session) : Step → Logged (Reply × Session)
  | .wait slot token request =>
    s.withEmptySlot slot do
      let (answer, s) ← s.ask slot token request
      return (.answer answer, s)
  | .prepare slot token request =>
    s.withEmptySlot slot do return (.prepared, s.putSlot slot (.prepared token request))
  | .poll slot => do
    match ← s.poll? slot with
    | none => s.refuse .notWaiting
    | some (answer, s) => return (.answer answer, s)
  | .pollAll => do
    let (answers, s) ← s.pollEach s.openSlots
    return (.answers answers, s)
  | .enter slot request =>
    s.withEmptySlot slot do
      let (ticket, s) := s.issue request
      match ← s.gate.enter? ticket with
      | some gate =>
        return (.answer (.entered ticket.id), { s with gate }.putSlot slot (.holding ticket))
      | none => return (.answer .refused, s)
  | .done slot => s.withTicket slot (s.release slot)
  | .forget slot =>
    s.withTicket slot fun ticket => do
      if s.alive then
        return (.done, { s.clearSlot slot with gate := ← s.gate.remove ticket })
      else return (.done, s.clearSlot slot)
  | .drop slot =>
    match s.slots.get? slot with
    | none => s.refuse .emptySlot
    | some content => s.leave slot content
  | .info slot => s.withTicket slot fun ticket => return (.ticket ticket, s)
  | .cancel token => return (.done, { s with cancelled := s.cancelled.insert token () })
  | .advance nanos => do return (.done, ← s.advance nanos)
  | .setCapacity capacity =>
    s.withGate do return (.done, { s with gate := ← s.gate.setCapacity capacity })
  | .liftCapacity => s.withGate do return (.done, { s with gate := ← s.gate.liftCapacity })
  | .status => s.withGate do return (.status s.snapshot, s)
  | .statusText => s.withGate do return (.text s.snapshot.text, s)
  | .shutdown ranks => do return (.done, ← s.shutdown ranks)
  | .dropGate => return (.done, { s with kept := false })

/-- Steps one after the other, with the reply to each. -/
def run (s : Session) : List Step → Logged (List Reply × Session)
  | [] => return ([], s)
  | first :: rest => do
    let (reply, s) ← s.step first
    let (replies, s) ← run s rest
    return (reply :: replies, s)

end Session

end FlowGate
