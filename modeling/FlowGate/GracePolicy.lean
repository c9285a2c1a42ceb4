import FlowGate.Flow
import FlowGate.Catalog.Basic

namespace FlowGate

/-- The grace period of every flow, in nanoseconds. -/
structure GracePolicy where
  span : Flow → Nat

namespace GracePolicy

def fixed (span : Nat) : GracePolicy := ⟨fun _ => span⟩

def byProtocol (table : Catalog String Nat) (others : Nat) : GracePolicy :=
  ⟨fun flow => (table.get? flow.protocol).getD others⟩

end GracePolicy

end FlowGate
