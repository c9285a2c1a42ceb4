import FlowGate.CommandLine

namespace FlowGate.CommandLine

def fieldText (field : String × Json) : String :=
  let value := match field.2 with
    | .text value => value
    | other => other.compress
  field.1 ++ "=" ++ value

def plainLine (r : Log.Record) : String :=
  " ".intercalate ([r.level.text, r.target ++ ":", r.message] ++ r.fields.map fieldText)

def variableNames : List String :=
  [Settings.capacityVariable, Settings.graceVariable, Log.Filter.directivesVariable,
    Log.Filter.levelVariable, logFormatVariable]

def readVariables : List String → IO (List (String × String))
  | [] => return []
  | name :: rest => do
    match ← IO.getEnv name with
    | none => readVariables rest
    | some value => return (name, value) :: (← readVariables rest)

def program (filter : Log.Filter) (schedule : Simulation.Schedule) (ranks : Nat → List Nat)
    (arguments : List String) : IO UInt32 := do
  let values ← readVariables variableNames
  let environment := fun name => values.lookup name
  let invocation := invoke arguments environment schedule ranks
  IO.eprint (noticeText filter environment)
  for record in invocation.records filter environment do
    IO.eprintln (if logsJson environment then record.json.compress else plainLine record)
  IO.eprint invocation.outcome.complaint
  IO.print invocation.outcome.output
  return UInt32.ofNat invocation.outcome.exitCode

end FlowGate.CommandLine
