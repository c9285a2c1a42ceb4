import FlowGate.Json

namespace FlowGate.Log

inductive Level where
  | error
  | warn
  | info
  | debug
  | trace
  deriving DecidableEq, Repr

def Level.text : Level → String
  | .error => "ERROR"
  | .warn => "WARN"
  | .info => "INFO"
  | .debug => "DEBUG"
  | .trace => "TRACE"

structure Record where
  level : Level
  target : String
  message : String
  fields : List (String × Json)

def Record.messageField : String := "message"

def Record.body (r : Record) : Json := .object ((messageField, .text r.message) :: r.fields)

def Record.json (r : Record) : Json :=
  .object [("level", .text r.level.text), ("fields", r.body), ("target", .text r.target)]

end FlowGate.Log
