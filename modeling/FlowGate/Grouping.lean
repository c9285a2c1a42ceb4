import FlowGate.Catalog.Basic

/-!
Groups of numbers under keys: a set of pairs of a key and a number, filed by key. A key has a group
only while a number is filed under it.
-/

namespace FlowGate

universe u

/-- The numbers filed under each key. -/
structure Grouping (κ : Type u) [Ord κ] where
  groups : Catalog κ NumberSet

namespace Grouping

variable {κ : Type u} [Ord κ] [Std.TransOrd κ]

def empty : Grouping κ := ⟨.empty⟩

instance : Inhabited (Grouping κ) := ⟨empty⟩

def get? (g : Grouping κ) (k : κ) : Option NumberSet := g.groups.get? k

def contains (g : Grouping κ) (k : κ) (id : Nat) : Bool :=
  match g.get? k with
  | none => false
  | some group => group.contains id

/-- File a number under a key, and tell whether it was not there before. -/
def insert (g : Grouping κ) (k : κ) (id : Nat) : Bool × Grouping κ :=
  let group := (g.get? k).getD .empty
  (!group.contains id, ⟨g.groups.insert k (group.insert id ())⟩)

/-- Take a number from under a key, and tell whether it was there. The last one takes the group along. -/
def remove (g : Grouping κ) (k : κ) (id : Nat) : Bool × Grouping κ :=
  match g.get? k with
  | none => (false, g)
  | some group =>
    let rest := group.erase id
    (group.contains id, ⟨if rest.isEmpty then g.groups.erase k else g.groups.insert k rest⟩)

def last? (g : Grouping κ) : Option (κ × NumberSet) := g.groups.last?

def toList (g : Grouping κ) : List (κ × NumberSet) := g.groups.rows

def counts (g : Grouping κ) : Catalog κ Nat := g.groups.mapValues Catalog.size

end Grouping

end FlowGate
