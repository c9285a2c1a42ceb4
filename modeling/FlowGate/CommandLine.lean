import FlowGate.Log.Filter
import FlowGate.Simulation.Run

namespace FlowGate.CommandLine

open FlowGate.Simulation

inductive Outcome where
  | usage (error : UsageError)
  | badSettings (error : Settings.Invalid)
  /-- A client was lost, or an internal check failed. -/
  | broken (message : String)
  | finished (snapshot : Snapshot) (json : Bool)

structure Invocation where
  outcome : Outcome
  events : List Event

def clock : Clock := .starting 1704067200

/-- More milliseconds than pass until all clients are through, if any can get in at all. -/
def horizon (o : Options) (settings : Settings) : Nat :=
  o.clients * o.rounds * (o.holdMillis + Span.ceilMillis (settings.grace.span (flow 0)) / 1000000) + 1

/--
Run a simulation to its end, and log its start and what came out of it; `none` if a client is lost. Then
the gate is let go of and the timer stops, so that grace periods still running end without a gate, in the
order of the ranks given for their number.
-/
def simulate (o : Options) (settings : Settings) (schedule : Schedule) (ranks : Nat → List Nat) :
    Logged (Option Snapshot) := do
  Logged.emit (.simulationStarted o.clients o.flows o.rounds settings.capacity)
  let st ← Simulation.run o settings clock schedule none (horizon o settings)
  if st.clients.any (·.phase == .lost) then return none
  Logged.emit (.simulationFinished st.entered st.cancelled)
  let _ ← st.session.run [.dropGate, .shutdown (ranks st.session.timed)]
  return some st.session.snapshot

def overflowMessage : String := "overflow when adding duration to instant"

def invoke (arguments : List String) (environment : String → Option String) (schedule : Schedule)
    (ranks : Nat → List Nat) : Invocation :=
  match Options.read arguments with
  | .error e => ⟨.usage e, []⟩
  | .ok o =>
    match o.settings environment with
    | .error e => ⟨.badSettings e, []⟩
    | .ok settings =>
      match simulate o settings schedule ranks with
      | .fail fault => ⟨.broken fault.message, []⟩
      | .ok none events => ⟨.broken overflowMessage, events⟩
      | .ok (some snapshot) events => ⟨.finished snapshot o.json, events⟩

def usageLines : List String :=
  ["Usage: conntrack-sim [options]", "", "Options:",
    "  --clients <n>        Concurrent clients [default: 16]",
    "  --entries <n>        Distinct flow entries shared by clients [default: 8]",
    "  --rounds <n>         Admissions per client [default: 10]",
    "  --hold-ms <ms>       How long a client holds an entry [default: 5]",
    "  --max-entries <n>    Table capacity, or 'unlimited' " ++
      "[default: $CONNTRACK_MAX_ENTRIES or 16384]",
    "  --timeout-ms <ms>    Release timeout [default: $CONNTRACK_TIMEOUT_MS or 30000]",
    "  --json               Print final status as JSON"]

def usageText : String := String.join (usageLines.map (· ++ "\n"))

namespace Outcome

def exitCode : Outcome → Nat
  | .usage _ => 2
  | .badSettings _ => 1
  | .broken _ => 1
  | .finished .. => 0

def output : Outcome → String
  | .finished snapshot json => if json then snapshot.json.pretty ++ "\n" else snapshot.text
  | _ => ""

def complaint : Outcome → String
  | .usage .help => usageText
  | .usage e => "error: " ++ e.message ++ "\n\n" ++ usageText
  | .badSettings e => "error: " ++ Options.settingsMessage e ++ "\n"
  | .broken message => "error: client task failed: " ++ message ++ "\n"
  | .finished .. => ""

end Outcome

def logFormatVariable : String := "LOG_FORMAT"

def logsJson (environment : String → Option String) : Bool := environment logFormatVariable = some "json"

section

variable (filter : Log.Filter) (i : Invocation) (environment : String → Option String)

/-- The records of an invocation that its environment lets through. -/
def Invocation.records : List Log.Record :=
  (i.events.map Event.record).filter (filter.allows (Log.Filter.directives environment))

def noticeText : String :=
  String.join ((filter.notices (Log.Filter.directives environment)).map (· ++ "\n"))

/-- How many lines notices and log take in plain text; a record takes one. -/
def Invocation.lineCount : Nat :=
  (noticeText filter environment).toList.count '\n' + (i.records filter environment).length

def Invocation.errorText : String := noticeText filter environment ++ i.outcome.complaint

end

end FlowGate.CommandLine
