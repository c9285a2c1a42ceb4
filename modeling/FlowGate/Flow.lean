import FlowGate.Json
import FlowGate.Net.Endpoint
import FlowGate.Text.Quoted

namespace FlowGate

structure Flow where
  protocol : String
  localAddr : String
  remoteAddr : String
  deriving DecidableEq, Repr

namespace Flow

open FlowGate.Text

/-- Flows are ordered by protocol, then by local, then by remote text. -/
instance : Ord Flow where
  compare :=
    compareLex (compareOn Flow.protocol) <|
      compareLex (compareOn Flow.localAddr) (compareOn Flow.remoteAddr)

instance : Std.TransOrd Flow :=
  inferInstanceAs <| Std.TransCmp <| compareLex (compareOn Flow.protocol) <|
    compareLex (compareOn Flow.localAddr) (compareOn Flow.remoteAddr)

instance : Std.LawfulEqOrd Flow where
  eq_of_compare {a b} h := by
    have hparts : a.protocol = b.protocol ∧ a.localAddr = b.localAddr ∧
        a.remoteAddr = b.remoteAddr := by
      change compareLex (compareOn Flow.protocol) (compareLex (compareOn Flow.localAddr)
        (compareOn Flow.remoteAddr)) a b = .eq at h
      simpa only [compareLex_eq_eq, compareOn, Std.LawfulEqOrd.compare_eq_iff_eq] using h
    cases a
    cases b
    simp_all

/-- The order in which flows are shown: by remote endpoint, then protocol, then local endpoint. -/
def displayOrder : Flow → Flow → Ordering :=
  compareLex (compareOn fun flow => Net.Endpoint.key flow.remoteAddr) <|
    compareLex (compareOn Flow.protocol) (compareOn fun flow => Net.Endpoint.key flow.localAddr)

def text (flow : Flow) : String :=
  flow.protocol ++ " " ++ flow.localAddr ++ "->" ++ flow.remoteAddr

def describe (flow : Flow) : String :=
  "Entry \x7b protocol: " ++ Quoted.quote flow.protocol ++
    ", local_addr: " ++ Quoted.quote flow.localAddr ++
    ", remote_addr: " ++ Quoted.quote flow.remoteAddr ++ " \x7d"

def json (flow : Flow) : Json :=
  .object
    [("local_addr", .text flow.localAddr), ("protocol", .text flow.protocol),
      ("remote_addr", .text flow.remoteAddr)]

end Flow

end FlowGate
