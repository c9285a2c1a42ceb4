import FlowGate.Proofs.GroupingPairs
import Mathlib.Data.Finset.Sort

namespace FlowGate

universe u

/-- Pairs of a key and a number, each once, in no order that counts. -/
abbrev Pairs (κ : Type u) := Finset (κ × Nat)

namespace Grouping

inductive Action (κ : Type u) where
  | insert (k : κ) (id : Nat)
  | remove (k : κ) (id : Nat)
  | get (k : κ)
  deriving DecidableEq, Repr

inductive Outcome where
  | told (answer : Bool)
  | shown (group : Option (List Nat))
  deriving DecidableEq, Repr

section Operations

variable {κ : Type u} [Ord κ]

/-- The numbers in the group of a key, ascending. -/
def ids? (g : Grouping κ) (k : κ) : Option (List Nat) := (g.get? k).map Catalog.keys

/-- All keys that have a group, ascending, each with the numbers in it. -/
def listing (g : Grouping κ) : List (κ × List Nat) := g.toList.map fun row => (row.1, row.2.keys)

def lastIds? (g : Grouping κ) : Option (κ × List Nat) := g.last?.map fun row => (row.1, row.2.keys)

variable [Std.TransOrd κ]

def act (g : Grouping κ) : Action κ → Outcome × Grouping κ
  | .insert k id => (.told (g.insert k id).1, (g.insert k id).2)
  | .remove k id => (.told (g.remove k id).1, (g.remove k id).2)
  | .get k => (.shown (g.ids? k), g)

def actEach (g : Grouping κ) : List (Action κ) → List Outcome × Grouping κ
  | [] => ([], g)
  | action :: actions =>
    let (outcome, g) := g.act action
    let (outcomes, g) := actEach g actions
    (outcome :: outcomes, g)

end Operations

end Grouping

namespace Pairs

open Grouping (Action Outcome)

variable {κ : Type u} [DecidableEq κ]

def idsUnder (p : Pairs κ) (k : κ) : List Nat := ((p.filter fun pair => pair.1 = k).image Prod.snd).sort

def group? (p : Pairs κ) (k : κ) : Option (List Nat) :=
  if idsUnder p k = [] then none else some (idsUnder p k)

/-- What an action does to a plain set of pairs. -/
def act (p : Pairs κ) : Action κ → Outcome × Pairs κ
  | .insert k id => (.told ((k, id) ∉ p), insert (k, id) p)
  | .remove k id => (.told ((k, id) ∈ p), p.erase (k, id))
  | .get k => (.shown (group? p k), p)

def actEach (p : Pairs κ) : List (Action κ) → List Outcome × Pairs κ
  | [] => ([], p)
  | action :: actions =>
    let (outcome, p) := act p action
    let (outcomes, p) := actEach p actions
    (outcome :: outcomes, p)

variable {p : Pairs κ} {k : κ} {id : Nat} {ids : List Nat}

theorem mem_idsUnder_iff : id ∈ idsUnder p k ↔ (k, id) ∈ p := by
  simp only [idsUnder, Finset.mem_sort, Finset.mem_image, Finset.mem_filter, Prod.exists]
  constructor
  · rintro ⟨q, i, ⟨hmem, rfl⟩, rfl⟩
    exact hmem
  · intro hmem
    exact ⟨k, id, ⟨hmem, rfl⟩, rfl⟩

theorem idsUnder_ascending (p : Pairs κ) (k : κ) : (idsUnder p k).Pairwise (· < ·) :=
  (Finset.sortedLT_sort _).pairwise

theorem group?_eq_none_iff : group? p k = none ↔ ∀ id, (k, id) ∉ p := by
  rw [group?, ite_eq_left_iff, List.eq_nil_iff_forall_not_mem]
  simp [mem_idsUnder_iff]

theorem group?_eq_some_iff : group? p k = some ids ↔ ids ≠ [] ∧ ids = idsUnder p k := by
  rw [group?]
  split
  · rename_i hnil
    rw [hnil]
    exact ⟨nofun, fun h => absurd h.2 h.1⟩
  · rename_i hsome
    rw [Option.some.injEq]
    exact ⟨fun h => h ▸ ⟨hsome, rfl⟩, fun h => h.2.symm⟩

end Pairs

namespace Grouping

variable {κ : Type u} [Ord κ] {g : Grouping κ} {p : Pairs κ} {k q : κ} {id : Nat} {ids : List Nat}

/-- A grouping holds the pairs of a plain set, and no group is empty. -/
structure Holds (g : Grouping κ) (p : Pairs κ) : Prop where
  noEmptyGroup : g.NoEmptyGroup
  contains_iff : ∀ k id, g.contains k id = true ↔ (k, id) ∈ p

/-- The groups are what a plain set of pairs makes them. -/
structure Shows [DecidableEq κ] (g : Grouping κ) (p : Pairs κ) : Prop where
  ids? : ∀ k, g.ids? k = Pairs.group? p k
  last_iff : ∀ k ids, g.lastIds? = some (k, ids) ↔
    Pairs.group? p k = some ids ∧ ∀ q id, (q, id) ∈ p → (compare q k).isLE = true
  last_none : g.lastIds? = none ↔ p = ∅
  listing_iff : ∀ k ids, (k, ids) ∈ g.listing ↔ Pairs.group? p k = some ids
  keysAscending : g.listing.Pairwise fun a b => compare a.1 b.1 = .lt
  idsAscending : ∀ row ∈ g.listing, row.2.Pairwise (· < ·)
  inhabited : ∀ row ∈ g.listing, row.2 ≠ []

/-- One grouping differs from another at most in one pair, and in the group of its key. -/
structure DiffersAt (k : κ) (id : Nat) (g g' : Grouping κ) : Prop where
  pairs : ∀ q i, ¬(q = k ∧ i = id) → g'.contains q i = g.contains q i
  groups : ∀ q, q ≠ k → g'.get? q = g.get? q

theorem holds_empty : (empty : Grouping κ).Holds ∅ :=
  ⟨noEmptyGroup_empty, fun k id => by simp [contains_empty]⟩

theorem Holds.contains_eq [DecidableEq κ] (h : g.Holds p) (k : κ) (id : Nat) :
    g.contains k id = decide ((k, id) ∈ p) := by
  rw [Bool.eq_iff_iff, decide_eq_true_iff, h.contains_iff]

theorem Holds.ids?_eq [DecidableEq κ] (h : g.Holds p) (k : κ) : g.ids? k = Pairs.group? p k := by
  cases hgroup : g.get? k with
  | none =>
      rw [ids?, hgroup, Option.map_none, eq_comm, Pairs.group?_eq_none_iff]
      intro id hmem
      obtain ⟨group, hget, -⟩ := Grouping.contains_iff.mp ((h.contains_iff k id).mpr hmem)
      rw [hgroup] at hget
      cases hget
  | some group =>
      rw [ids?, hgroup, Option.map_some, eq_comm, Pairs.group?_eq_some_iff]
      constructor
      · intro hnil
        obtain ⟨id, hid⟩ := h.noEmptyGroup.exists_contains hgroup
        rw [contains_eq_of_get? hgroup, ← Catalog.mem_keys_iff, hnil] at hid
        cases hid
      · -- Both lists ascend, and have the same members.
        have hascending : (Pairs.idsUnder p k).Pairwise fun a b => compare a b = .lt :=
          (Pairs.idsUnder_ascending p k).imp Nat.compare_eq_lt.mpr
        refine Catalog.eq_of_ascending group.keys_ascending hascending fun id => ?_
        rw [Catalog.mem_keys_iff, ← contains_eq_of_get? hgroup, h.contains_iff, Pairs.mem_idsUnder_iff]

theorem Holds.exists_get? (h : g.Holds p) (hmem : (q, id) ∈ p) : ∃ group, g.get? q = some group := by
  obtain ⟨group, hgroup, -⟩ := Grouping.contains_iff.mp ((h.contains_iff q id).mpr hmem)
  exact ⟨group, hgroup⟩

theorem Holds.exists_mem (h : g.Holds p) {group : NumberSet} (hgroup : g.get? q = some group) :
    ∃ id, (q, id) ∈ p := by
  obtain ⟨id, hid⟩ := h.noEmptyGroup.exists_contains hgroup
  exact ⟨id, (h.contains_iff q id).mp hid⟩

section LawfulKeys

variable [Std.TransOrd κ] [Std.LawfulEqOrd κ]

theorem mem_listing_iff : (k, ids) ∈ g.listing ↔ g.ids? k = some ids := by
  rw [listing, ids?, List.mem_map, Option.map_eq_some_iff]
  constructor
  · rintro ⟨⟨q, group⟩, hrow, heq⟩
    cases heq
    exact ⟨group, Catalog.mem_rows_iff.mp hrow, rfl⟩
  · rintro ⟨group, hgroup, rfl⟩
    exact ⟨(k, group), Catalog.mem_rows_iff.mpr hgroup, rfl⟩

theorem Holds.last_none (h : g.Holds p) : g.lastIds? = none ↔ p = ∅ := by
  rw [lastIds?, Option.map_eq_none_iff, last?, Catalog.last?_eq_none_iff, Catalog.eq_empty_iff,
    Finset.eq_empty_iff_forall_notMem]
  constructor
  · rintro hnone ⟨q, id⟩ hmem
    obtain ⟨group, hgroup⟩ := h.exists_get? hmem
    rw [get?, hnone q] at hgroup
    cases hgroup
  · intro hnone q
    apply Option.eq_none_iff_forall_not_mem.mpr
    intro group hgroup
    obtain ⟨id, hmem⟩ := h.exists_mem hgroup
    exact hnone _ hmem

theorem Holds.last_iff [DecidableEq κ] (h : g.Holds p) :
    g.lastIds? = some (k, ids) ↔
      Pairs.group? p k = some ids ∧ ∀ q id, (q, id) ∈ p → (compare q k).isLE = true := by
  rw [← h.ids?_eq, lastIds?, ids?, Option.map_eq_some_iff, Option.map_eq_some_iff]
  constructor
  · rintro ⟨⟨k, group⟩, hlast, heq⟩
    cases heq
    refine ⟨⟨group, Catalog.get?_of_last? hlast, rfl⟩, fun q id hmem => ?_⟩
    obtain ⟨group', hgroup'⟩ := h.exists_get? hmem
    exact Catalog.isLE_of_last? hlast hgroup'
  · rintro ⟨⟨group, hgroup, rfl⟩, hmost⟩
    obtain ⟨id, hid⟩ := h.noEmptyGroup.exists_contains hgroup
    obtain ⟨⟨q, group'⟩, hlast⟩ := exists_last? hid
    have hgroup' : g.get? q = some group' := Catalog.get?_of_last? hlast
    obtain ⟨id', hmem⟩ := h.exists_mem hgroup'
    obtain rfl : k = q := Std.LawfulEqCmp.eq_of_compare
      (Std.OrientedCmp.isLE_antisymm (Catalog.isLE_of_last? hlast hgroup) (hmost q id' hmem))
    rw [hgroup, Option.some.injEq] at hgroup'
    subst hgroup'
    exact ⟨_, hlast, rfl⟩

theorem Holds.shows [DecidableEq κ] (h : g.Holds p) : g.Shows p := by
  have hlisting : ∀ k ids, (k, ids) ∈ g.listing ↔ Pairs.group? p k = some ids := by
    intro k ids
    rw [mem_listing_iff, h.ids?_eq]
  refine ⟨h.ids?_eq, fun _ _ => h.last_iff, h.last_none, hlisting, ?_, ?_, ?_⟩
  · exact g.groups.ascending.map _ fun _ _ hlt => hlt
  · rintro ⟨k, ids⟩ hrow
    rw [hlisting, Pairs.group?_eq_some_iff] at hrow
    rw [hrow.2]
    exact Pairs.idsUnder_ascending p k
  · rintro ⟨k, ids⟩ hrow
    rw [hlisting, Pairs.group?_eq_some_iff] at hrow
    exact hrow.1

theorem insert_differsAt (g : Grouping κ) (k : κ) (id : Nat) : g.DiffersAt k id (g.insert k id).2 := by
  refine ⟨fun q i hother => ?_, fun q hq => get?_insert_of_ne g id hq⟩
  rw [Bool.eq_iff_iff, contains_insert_iff]
  exact or_iff_right hother

theorem remove_differsAt (g : Grouping κ) (k : κ) (id : Nat) : g.DiffersAt k id (g.remove k id).2 := by
  refine ⟨fun q i hother => ?_, fun q hq => get?_remove_of_ne g id hq⟩
  rw [Bool.eq_iff_iff, contains_remove_iff]
  exact and_iff_right hother

variable [DecidableEq κ]

theorem Holds.act (h : g.Holds p) (action : Action κ) :
    (g.act action).1 = (Pairs.act p action).1 ∧ (g.act action).2.Holds (Pairs.act p action).2 := by
  cases action with
  | insert k id =>
      refine ⟨?_, h.noEmptyGroup.insert k id, fun q i => ?_⟩
      · simp only [Grouping.act, Pairs.act, insert_fst, h.contains_eq, decide_not]
      · simp only [Grouping.act, Pairs.act, contains_insert_iff, h.contains_iff, Finset.mem_insert,
          Prod.mk.injEq]
  | remove k id =>
      refine ⟨?_, h.noEmptyGroup.remove k id, fun q i => ?_⟩
      · simp only [Grouping.act, Pairs.act, remove_fst, h.contains_eq]
      · simp only [Grouping.act, Pairs.act, contains_remove_iff, h.contains_iff, Finset.mem_erase,
          Prod.mk.injEq, ne_eq]
  | get k => exact ⟨congrArg Outcome.shown (h.ids?_eq k), h⟩

theorem Holds.actEach (h : g.Holds p) (actions : List (Action κ)) :
    (g.actEach actions).1 = (Pairs.actEach p actions).1 ∧
      (g.actEach actions).2.Holds (Pairs.actEach p actions).2 := by
  induction actions generalizing g p with
  | nil => exact ⟨rfl, h⟩
  | cons action actions ih =>
      obtain ⟨hfirst, hholds⟩ := h.act action
      obtain ⟨hrest, hlast⟩ := ih hholds
      exact ⟨congrArg₂ List.cons hfirst hrest, hlast⟩

/--
Every sequence of actions on a grouping has the outcomes that it has on one plain set of pairs, and leaves a
grouping that shows the set and nothing else: sequences that leave the same set leave the same grouping. To
file one more pair, or to take one out, leaves all other pairs and groups alone.
-/
theorem acts_as_one_set (actions : List (Action κ)) :
    let r := (empty : Grouping κ).actEach actions
    let plain := Pairs.actEach ∅ actions
    r.1 = plain.1 ∧ r.2.Shows plain.2 ∧
      (∀ others, (Pairs.actEach ∅ others).2 = plain.2 →
        ((empty : Grouping κ).actEach others).2 = r.2) ∧
      ∀ k id, r.2.DiffersAt k id (r.2.insert k id).2 ∧ r.2.DiffersAt k id (r.2.remove k id).2 := by
  obtain ⟨houtcomes, hholds⟩ := holds_empty.actEach actions
  refine ⟨houtcomes, hholds.shows, fun others hsame => ?_, fun k id => ?_⟩
  · have hholds' := (holds_empty.actEach others).2
    rw [hsame] at hholds'
    refine hholds'.noEmptyGroup.eq_of_contains hholds.noEmptyGroup fun k id => ?_
    rw [hholds'.contains_eq, hholds.contains_eq]
  · exact ⟨insert_differsAt _ k id, remove_differsAt _ k id⟩

theorem group_goes_with_its_last_number :
    let actions : List (Action String) :=
      [.insert "ping" 2, .insert "dns" 3, .insert "dns" 1, .insert "dns" 3, .get "dns", .remove "dns" 3,
        .remove "dial" 2, .remove "dns" 1, .get "dns", .remove "dns" 1]
    let outcomes : List Outcome :=
      [.told true, .told true, .told true, .told false, .shown (some [1, 3]), .told true, .told false,
        .told true, .shown none, .told false]
    ((empty : Grouping String).actEach actions).1 = outcomes ∧ (Pairs.actEach ∅ actions).1 = outcomes ∧
      ((empty : Grouping String).actEach actions).2.listing = [("ping", [2])] := by
  intro actions outcomes
  have hanswers : ((empty : Grouping String).actEach actions).1 = outcomes := by decide
  exact ⟨hanswers, (acts_as_one_set actions).1.symm.trans hanswers, by decide⟩

end LawfulKeys

end Grouping

end FlowGate
