import FlowGate.Gate
import FlowGate.Text.Columns
import FlowGate.Time.Timestamp

namespace FlowGate

structure Holding where
  id : Nat
  flow : Flow
  reason : String
  priority : Priority
  created : Timestamp
  ageMillis : Nat
  /-- The time left, once its holder has released it. -/
  expiresInMillis : Option Nat
  deriving DecidableEq, Repr

structure Snapshot where
  capacity : Option Nat
  flows : Nat
  waiting : Nat
  waitingByReason : Catalog String Nat
  holdings : List Holding

/-- The time left until a moment; none once it has passed. -/
def timeLeft (expiresAt : Option Nat) (now : Nat) : Option Nat := expiresAt.map (· - now)

/-- Flows in the order shown; flows that tie there stay in the order given. -/
def Flow.sortForDisplay {α : Type} (rows : List (Flow × α)) : List (Flow × α) :=
  rows.mergeSort fun a b => (Flow.displayOrder a.1 b.1).isLE

/-- Tickets in the order shown: flow by flow, and by number within a flow. -/
def Gate.shown (parties : List (Flow × Party)) : List Admission :=
  (Flow.sortForDisplay parties).flatMap fun row => row.2.values

/--
The state of a gate at a moment of a clock that started at `start`, in seconds since 1970. Its active
flows may be listed in any order.
-/
def Gate.snapshotFrom (g : Gate) (parties : List (Flow × Party)) (start : Int) (now : Nat) : Snapshot where
  capacity := g.capacity
  flows := g.active.size
  waiting := g.waiting.size
  waitingByReason := g.waiting.reasonCounts
  holdings := (shown parties).map fun admission =>
    { id := admission.ticket.id
      flow := admission.ticket.flow
      reason := admission.ticket.reason
      priority := admission.ticket.priority
      created := Timestamp.after start admission.ticket.issued
      ageMillis := Span.wholeMillis (now - admission.ticket.issued)
      expiresInMillis := (timeLeft admission.expiresAt now).map Span.wholeMillis }

/-- The state of a gate, its active flows listed in their own order. -/
def Gate.snapshot (g : Gate) (start : Int) (now : Nat) : Snapshot :=
  g.snapshotFrom g.active.rows start now

namespace Snapshot

open FlowGate.Text

/-- The document of an active ticket; a time left that is not known is left out. -/
def holdingJson (h : Holding) : Json :=
  let expires := match h.expiresInMillis with
    | none => []
    | some ms => [("expires_in_ms", .nat ms)]
  .object <|
    [("age_ms", .nat h.ageMillis), ("created_at", .text h.created.text), ("entry", h.flow.json)] ++
      expires ++
      [("id", .nat h.id), ("priority", .int h.priority.level), ("reason", .text h.reason)]

def countsJson (counts : Catalog String Nat) : Json :=
  .object (counts.rows.map fun row => (row.1, .nat row.2))

def json (s : Snapshot) : Json :=
  .object
    [("handles", .array (s.holdings.map holdingJson)),
      ("max_entries", Json.ofOption .nat s.capacity),
      ("num_entries", .nat s.flows),
      ("num_waiters", .nat s.waiting),
      ("waiters_by_reason", countsJson s.waitingByReason)]

def reasonRows (s : Snapshot) : List (List (List Char)) :=
  ["num".toList, "reason".toList] ::
    s.waitingByReason.rows.map fun row => [Numeral.decimal row.2, Quoted.encode row.1.toList]

def holdingRow (h : Holding) : List (List Char) :=
  [Quoted.encode h.flow.protocol.toList, Quoted.encode h.flow.localAddr.toList,
    Quoted.encode h.flow.remoteAddr.toList, Quoted.encode h.reason.toList,
    match h.expiresInMillis with
    | none => "not done".toList
    | some ms => Numeral.decimal ms ++ "ms".toList,
    Numeral.decimal h.ageMillis ++ "ms ago".toList]

def holdingRows (s : Snapshot) : List (List (List Char)) :=
  ["protocol".toList, "local".toList, "remote".toList, "reason".toList, "expires".toList,
    "created".toList] :: s.holdings.map holdingRow

def heading (s : Snapshot) : List Char :=
  "num entries: ".toList ++ Numeral.decimal s.flows ++
    match s.capacity with
    | none => " (unlimited)".toList
    | some capacity => " (max ".toList ++ Numeral.decimal capacity ++ [')']

def chars (s : Snapshot) : List Char :=
  s.heading ++ '\n' :: '\n' :: Numeral.decimal s.waiting ++ " waiters:\n".toList ++
    Columns.layout s.reasonRows ++ '\n' :: "handles:\n".toList ++ Columns.layout s.holdingRows

/-- The text of a snapshot. -/
def text (s : Snapshot) : String := String.ofList s.chars

end Snapshot

end FlowGate
