import FlowGate.Proofs.EndpointOrder
import FlowGate.Proofs.ReleaseHistory
import Mathlib.Algebra.GroupWithZero.Nat
import Mathlib.Data.List.Dedup

namespace FlowGate

namespace Grouping.Files

variable {κ : Type} [Ord κ] [Std.TransOrd κ] [Std.LawfulEqOrd κ] {g : Grouping κ} {key : Ticket → κ}
  {tickets : Catalog Nat Ticket} {k : κ} {n : Nat}

end Grouping.Files

section Order

variable {α : Type} (rows : List (Flow × α))

end Order

/--
The active tickets of a snapshot by flow: every flow once and in the order shown, with its tickets by number.
-/
structure Snapshot.Groups (x : Snapshot) (groups : List (Flow × List Holding)) : Prop where
  holdings : x.holdings = groups.flatMap (·.2)
  flows : groups.length = x.flows
  nodup : (groups.map (·.1)).Nodup
  inOrder : Flow.InDisplayOrder (groups.map (·.1))
  inhabited : ∀ group ∈ groups, group.2 ≠ []
  own : ∀ group ∈ groups, ∀ h ∈ group.2, h.flow = group.1
  ascending : ∀ group ∈ groups, group.2.Pairwise fun h h' => h.id < h'.id

namespace Gate

variable {g : Gate} {parties : List (Flow × Party)} {start : Int} {now : Nat}

def groups (parties : List (Flow × Party)) (start : Int) (now : Nat) : List (Flow × List Holding) :=
  (Flow.sortForDisplay parties).map fun row =>
    (row.1, row.2.values.map fun a => a.holding start now)

end Gate

namespace Snapshot.Groups

variable {x : Snapshot} {groups : List (Flow × List Holding)}

end Snapshot.Groups

namespace Session

end Session

end FlowGate
