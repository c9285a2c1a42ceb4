import FlowGate.Simulation.Client

/-!
Runs of a simulation on the clock of a session. At each whole millisecond grace periods that are over
end, and every client that can go on does so, one at a time in an order that a schedule picks, until none
can; then time moves on. Clients that are told to give up do so before anything else at that moment.
-/

namespace FlowGate.Simulation

structure State where
  session : Session
  clients : List Client

/-- What is left open at one moment. -/
structure Schedule where
  /-- Which of the clients that can go on is next: a position among them, counted around. -/
  next : State → Nat
  /--
  Whether a client goes on that is told to give up at the end of its while, by its number and the rounds
  that it has left.
  -/
  goesOn : Nat → Nat → Bool

namespace Schedule

/-- Clients go on in the order of their numbers, and give up when they are told to. -/
def inOrder : Schedule := ⟨fun _ => 0, fun _ _ => false⟩

end Schedule

namespace State

def new (o : Options) (settings : Settings) (clock : Clock) : State :=
  ⟨.new settings clock true, List.replicate o.clients .new⟩

def movable (st : State) : List Nat :=
  (st.clients.zipIdx.filter fun (c, client) => c.canMove st.session client).map (·.2)

def isFinished (st : State) : Bool := st.clients.all Client.isFinished

def elapsedMillis (st : State) : Nat := st.session.now / 1000000

def move (o : Options) (schedule : Schedule) (st : State) (client : Nat) : Logged State := do
  match st.clients[client]? with
  | none => return st
  | some c =>
    let (c, session) ← c.move o schedule.goesOn client st.session
    return ⟨session, st.clients.set client c⟩

def settleWithin (o : Options) (schedule : Schedule) : Nat → State → Logged State
  | 0, st => return st
  | moves + 1, st => do
    let movable := st.movable
    match movable[schedule.next st % movable.length]? with
    | none => return st
    | some client => settleWithin o schedule moves (← st.move o schedule client)

def settle (o : Options) (schedule : Schedule) (st : State) : Logged State :=
  settleWithin o schedule (st.clients.foldl (fun n c => n + c.movesLeft o) 0) st

/-- Clients are told to give up, if it is time for that, and go on until none can. -/
def tellToGiveUp (o : Options) (schedule : Schedule) (cancelAt : Option Int) (st : State) :
    Logged State := do
  if cancelAt = some (st.elapsedMillis : Int) then
    let (_, session) ← st.session.step (.cancel Client.token)
    settle o schedule { st with session }
  else return st

/--
What happens at one moment: clients that are told to give up do so first, then grace periods that are
over end, and then clients go on until none can.
-/
def instant (o : Options) (schedule : Schedule) (cancelAt : Option Int) (st : State) :
    Logged State := do
  let st ← st.tellToGiveUp o schedule cancelAt
  settle o schedule { st with session := ← st.session.expireDue }

def runFor (o : Options) (schedule : Schedule) (cancelAt : Option Int) : Nat → State → Logged State
  | 0, st => return st
  | millis + 1, st => do
    let st ← st.instant o schedule cancelAt
    if st.isFinished then return st
    else
      runFor o schedule cancelAt millis { st with session := st.session.pass (Span.ofMillis 1) }

def entered (st : State) : Nat := st.clients.foldl (fun n c => n + c.entered) 0

/-- How many clients were told to give up before they were through. -/
def cancelled (st : State) : Nat := st.clients.countP (·.cancelled)

end State

/--
Run a simulation for at most so many milliseconds. It stops when they have passed, before anything that
is due at that very moment.
-/
def run (o : Options) (settings : Settings) (clock : Clock) (schedule : Schedule)
    (cancelAt : Option Int) (millis : Nat) : Logged State :=
  (State.new o settings clock).runFor o schedule cancelAt millis

end FlowGate.Simulation
