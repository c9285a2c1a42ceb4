import FlowGate.GracePolicy
import FlowGate.Text.Blank
import FlowGate.Text.Numeral
import FlowGate.Time.Span

namespace FlowGate

structure Settings where
  /-- How many flows may be active; `none` is no bound. -/
  capacity : Option Nat
  grace : GracePolicy

namespace Settings

open FlowGate.Text

def defaultCapacity : Nat := 16384

def defaultGraceMillis : Nat := 30000

def default : Settings := ⟨some defaultCapacity, .fixed (Span.ofMillis defaultGraceMillis)⟩

def withCapacity (s : Settings) (capacity : Nat) : Settings := { s with capacity := some capacity }

def withoutCapacity (s : Settings) : Settings := { s with capacity := none }

def withGrace (s : Settings) (grace : GracePolicy) : Settings := { s with grace }

def capacityVariable : String := "CONNTRACK_MAX_ENTRIES"

def graceVariable : String := "CONNTRACK_TIMEOUT_MS"

def unlimitedWord : String := "unlimited"

/-- A variable whose value cannot be read. The value is kept as it was given. -/
inductive Invalid where
  | capacity (value : String)
  | grace (value : String)
  deriving DecidableEq, Repr

def Invalid.message : Invalid → String
  | .capacity value =>
    "invalid " ++ capacityVariable ++ " '" ++ value ++
      "': expected a non-negative integer or 'unlimited'"
  | .grace value =>
    "invalid " ++ graceVariable ++ " '" ++ value ++ "': expected a whole number of milliseconds"

/-- A whole number of 64 bits, blanks around it aside. -/
def readNumber? (value : String) : Option Nat :=
  Numeral.unsigned? Numeral.wordLimit (trim value.toList)

def readCapacity? (value : String) : Option (Option Nat) :=
  if trim value.toList = unlimitedWord.toList then some none else (readNumber? value).map some

/-- The defaults, overridden by the variables that are set. The capacity is read first. -/
def fromEnvironment (environment : String → Option String) : Except Invalid Settings := do
  let capacity ←
    match environment capacityVariable with
    | none => pure default.capacity
    | some value =>
      match readCapacity? value with
      | some capacity => pure capacity
      | none => throw (.capacity value)
  let grace ←
    match environment graceVariable with
    | none => pure default.grace
    | some value =>
      match readNumber? value with
      | some millis => pure (.fixed (Span.ofMillis millis))
      | none => throw (.grace value)
  return ⟨capacity, grace⟩

def describe (s : Settings) : String :=
  "TableConfig \x7b max_entries: " ++ Numeral.describeLimit s.capacity ++
    ", timeout: TimeoutPolicy(..) \x7d"

end Settings

end FlowGate
