import FlowGate.Settings

namespace FlowGate.Simulation

open FlowGate.Text

/-- A capacity that the arguments may leave open. -/
inductive CapacityChoice where
  | unset
  | unlimited
  | limit (capacity : Nat)
  deriving DecidableEq, Repr

structure Options where
  clients : Nat
  flows : Nat
  rounds : Nat
  holdMillis : Nat
  capacity : CapacityChoice
  graceMillis : Option Nat
  json : Bool
  deriving DecidableEq, Repr

inductive Flag where
  | clients
  | flows
  | rounds
  | holdMillis
  | capacity
  | graceMillis
  deriving DecidableEq, Repr

namespace Flag

def name : Flag → String
  | .clients => "--clients"
  | .flows => "--entries"
  | .rounds => "--rounds"
  | .holdMillis => "--hold-ms"
  | .capacity => "--max-entries"
  | .graceMillis => "--timeout-ms"

def all : List Flag := [.clients, .flows, .rounds, .holdMillis, .capacity, .graceMillis]

def ofName? (name : String) : Option Flag := all.find? fun flag => flag.name == name

end Flag

inductive UsageError where
  | missingValue (flag : Flag)
  | invalidNumber (flag : Flag) (value : String)
  | noFlows
  | unknownArgument (argument : String)
  | help
  deriving DecidableEq, Repr

def UsageError.message : UsageError → String
  | .missingValue flag => flag.name ++ " requires a value"
  | .invalidNumber flag value => flag.name ++ ": invalid number '" ++ value ++ "'"
  | .noFlows => Flag.flows.name ++ " must be at least 1"
  | .unknownArgument argument => "unknown argument: " ++ argument
  | .help => ""

namespace Options

def default : Options where
  clients := 16
  flows := 8
  rounds := 10
  holdMillis := 5
  capacity := .unset
  graceMillis := none
  json := false

def number (flag : Flag) (value : String) : Except UsageError Nat :=
  match Numeral.unsigned? Numeral.wordLimit value.toList with
  | some n => .ok n
  | none => .error (.invalidNumber flag value)

def set (o : Options) (flag : Flag) (value : String) : Except UsageError Options :=
  match flag with
  | .clients => do return { o with clients := ← number flag value }
  | .flows => do
    let flows ← number flag value
    if flows = 0 then throw .noFlows
    return { o with flows }
  | .rounds => do return { o with rounds := ← number flag value }
  | .holdMillis => do return { o with holdMillis := ← number flag value }
  | .capacity =>
    if value = Settings.unlimitedWord then return { o with capacity := .unlimited }
    else do return { o with capacity := .limit (← number flag value) }
  | .graceMillis => do return { o with graceMillis := some (← number flag value) }

def reject (argument : String) : UsageError :=
  if argument = "--help" ∨ argument = "-h" then .help else .unknownArgument argument

def readOn (o : Options) : List String → Except UsageError Options
  | [] => .ok o
  | [argument] =>
    if argument = "--json" then .ok { o with json := true }
    else match Flag.ofName? argument with
      | some flag => .error (.missingValue flag)
      | none => .error (reject argument)
  | argument :: value :: rest =>
    if argument = "--json" then readOn { o with json := true } (value :: rest)
    else match Flag.ofName? argument with
      | none => .error (reject argument)
      | some flag =>
        match o.set flag value with
        | .error e => .error e
        | .ok o => readOn o rest

def read (arguments : List String) : Except UsageError Options := default.readOn arguments

/-- The settings of the gate: an option wins over a variable, and a variable over the default. -/
def settings (o : Options) (environment : String → Option String) : Except Settings.Invalid Settings := do
  let base ← Settings.fromEnvironment environment
  let base := match o.capacity with
    | .unset => base
    | .unlimited => base.withoutCapacity
    | .limit capacity => base.withCapacity capacity
  return match o.graceMillis with
    | none => base
    | some millis => base.withGrace (.fixed (Span.ofMillis millis))

def settingsMessage (e : Settings.Invalid) : String :=
  "loading table config from environment: " ++ e.message

end Options

end FlowGate.Simulation
