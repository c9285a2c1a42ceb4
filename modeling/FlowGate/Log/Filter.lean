import FlowGate.Log.Record

/-!
Filters that decide which records are logged. How directives are read is left to a library; what is
settled here is which directives an environment asks for.
-/

namespace FlowGate.Log

/-- What a list of directives lets through, and what is said about those that cannot be read. -/
structure Filter where
  allows : String → Record → Bool
  notices : String → List String

namespace Filter

def directivesVariable : String := "RUST_LOG"

def levelVariable : String := "CONNTRACK_LOG"

def levelOf (word : Option String) : String :=
  match word with
  | some "trace" => "trace"
  | some "debug" => "debug"
  | some "warn" => "warn"
  | some "warning" => "warn"
  | some "error" => "error"
  | _ => "info"

/-- The directives of an environment: its own, or one level for the gate and the simulation. -/
def directives (environment : String → Option String) : String :=
  match environment directivesVariable with
  | some directives => directives
  | none =>
    let level := levelOf (environment levelVariable)
    "conntrack=" ++ level ++ ",conntrack_sim=" ++ level

end Filter

end FlowGate.Log
