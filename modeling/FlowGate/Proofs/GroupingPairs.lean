import FlowGate.Catalog.Rows
import FlowGate.Grouping

namespace FlowGate.Grouping

universe u

variable {κ : Type u} [Ord κ]

/-- A key has a group only while a number is filed under it. -/
def NoEmptyGroup (g : Grouping κ) : Prop :=
  ∀ k group, g.get? k = some group → group ≠ .empty

theorem noEmptyGroup_empty : (empty : Grouping κ).NoEmptyGroup := by
  intro k group h
  simp [Grouping.empty, get?] at h

theorem contains_iff {g : Grouping κ} {k : κ} {id : Nat} :
    g.contains k id = true ↔ ∃ group, g.get? k = some group ∧ group.contains id = true := by
  unfold contains
  cases g.get? k <;> simp

theorem NoEmptyGroup.exists_contains {g : Grouping κ} (hg : g.NoEmptyGroup) {k : κ}
    {group : NumberSet} (hgroup : g.get? k = some group) : ∃ id, g.contains k id = true := by
  obtain ⟨id, u, hget⟩ := Catalog.exists_get? (hg k group hgroup)
  exact ⟨id, contains_iff.mpr ⟨group, hgroup, Catalog.contains_iff.mpr ⟨u, hget⟩⟩⟩

theorem contains_eq_of_get? {g : Grouping κ} {k : κ} {group : NumberSet}
    (hgroup : g.get? k = some group) (id : Nat) : g.contains k id = group.contains id := by
  rw [contains, hgroup]

theorem contains_empty (k : κ) (id : Nat) : (empty : Grouping κ).contains k id = false := rfl

theorem insert_fst [Std.TransOrd κ] (g : Grouping κ) (k : κ) (id : Nat) :
    (g.insert k id).1 = !g.contains k id := by
  unfold insert contains
  cases g.get? k <;> rfl

theorem remove_fst [Std.TransOrd κ] (g : Grouping κ) (k : κ) (id : Nat) :
    (g.remove k id).1 = g.contains k id := by
  unfold remove contains
  cases g.get? k <;> rfl

section LawfulKeys

variable [Std.TransOrd κ] [Std.LawfulEqOrd κ]

theorem get?_insert_self (g : Grouping κ) (k : κ) (id : Nat) :
    (g.insert k id).2.get? k = some (((g.get? k).getD .empty).insert id ()) :=
  Catalog.get?_insert_self ..

theorem get?_insert_of_ne (g : Grouping κ) {k q : κ} (id : Nat) (h : q ≠ k) :
    (g.insert k id).2.get? q = g.get? q :=
  Catalog.get?_insert_of_ne _ _ h

theorem contains_insert_iff {g : Grouping κ} {k q : κ} {id i : Nat} :
    (g.insert k id).2.contains q i = true ↔ q = k ∧ i = id ∨ g.contains q i = true := by
  rcases Classical.em (q = k) with hq | hq
  · subst hq
    rw [contains_iff, get?_insert_self]
    cases h : g.get? q with
    | none =>
        have hempty : (Catalog.empty : NumberSet).contains i = false := rfl
        simp [contains, h, Catalog.contains_insert_iff, hempty]
    | some group =>
        simp [contains, h, Catalog.contains_insert_iff]
  · simp [contains, get?_insert_of_ne g id hq, hq]

theorem NoEmptyGroup.insert {g : Grouping κ} (hg : g.NoEmptyGroup) (k : κ) (id : Nat) :
    (g.insert k id).2.NoEmptyGroup := by
  intro q group hgroup
  rcases Classical.em (q = k) with hq | hq
  · subst hq
    rw [get?_insert_self, Option.some.injEq] at hgroup
    rintro rfl
    have hid := congrArg (fun c => Catalog.get? c id) hgroup
    simp at hid
  · rw [get?_insert_of_ne g id hq] at hgroup
    exact hg q group hgroup

theorem get?_remove_of_ne (g : Grouping κ) {k q : κ} (id : Nat) (h : q ≠ k) :
    (g.remove k id).2.get? q = g.get? q := by
  unfold remove
  cases g.get? k with
  | none => rfl
  | some group =>
      simp only [get?]
      split
      · exact Catalog.get?_erase_of_ne _ h
      · exact Catalog.get?_insert_of_ne _ _ h

theorem get?_remove_self {g : Grouping κ} {k : κ} {group : NumberSet} (id : Nat)
    (h : g.get? k = some group) :
    (g.remove k id).2.get? k =
      if (group.erase id).isEmpty then none else some (group.erase id) := by
  unfold remove
  rw [h]
  simp only [get?]
  split
  · exact Catalog.get?_erase_self ..
  · exact Catalog.get?_insert_self ..

theorem contains_remove_iff {g : Grouping κ} {k q : κ} {id i : Nat} :
    (g.remove k id).2.contains q i = true ↔ ¬(q = k ∧ i = id) ∧ g.contains q i = true := by
  rcases Classical.em (q = k) with hq | hq
  · subst hq
    cases hgroup : g.get? q with
    | none => simp [remove, contains, hgroup]
    | some group =>
        have herase : (group.erase id).contains i = true ↔ i ≠ id ∧ group.contains i = true :=
          Catalog.contains_erase_iff
        rw [contains_iff, contains_iff, get?_remove_self id hgroup]
        rcases Classical.em ((group.erase id).isEmpty = true) with hempty | hempty
        · rw [Catalog.isEmpty_iff.mp hempty] at herase
          have hnone : ¬(i ≠ id ∧ group.contains i = true) := by
            rw [← herase]
            simp [Catalog.contains]
          simpa [hempty, hgroup] using hnone
        · simpa [hempty, hgroup] using herase
  · simp [contains, get?_remove_of_ne g id hq, hq]

theorem NoEmptyGroup.remove {g : Grouping κ} (hg : g.NoEmptyGroup) (k : κ) (id : Nat) :
    (g.remove k id).2.NoEmptyGroup := by
  intro q group hgroup
  rcases Classical.em (q = k) with hq | hq
  · subst hq
    cases hold : g.get? q with
    | none =>
        simp [Grouping.remove, hold] at hgroup
    | some old =>
        rw [get?_remove_self id hold] at hgroup
        split at hgroup
        · simp at hgroup
        · rename_i hne
          cases hgroup
          exact fun h => hne (Catalog.isEmpty_iff.mpr h)
  · rw [get?_remove_of_ne g id hq] at hgroup
    exact hg q group hgroup

theorem exists_last? {g : Grouping κ} {k : κ} {id : Nat} (h : g.contains k id = true) :
    ∃ row, g.last? = some row := by
  obtain ⟨group, hgroup, -⟩ := contains_iff.mp h
  cases hlast : g.last? with
  | none =>
      rw [last?, Catalog.last?_eq_none_iff, Catalog.eq_empty_iff] at hlast
      rw [get?, hlast k] at hgroup
      cases hgroup
  | some row => exact ⟨row, rfl⟩

theorem NoEmptyGroup.contains_of_last? {g : Grouping κ} (hg : g.NoEmptyGroup) {k : κ}
    {group : NumberSet} (h : g.last? = some (k, group)) :
    ∃ id, group.first? = some (id, ()) ∧ g.contains k id = true := by
  have hgroup : g.get? k = some group := Catalog.get?_of_last? h
  cases hfirst : group.first? with
  | none => exact absurd (Catalog.first?_eq_none_iff.mp hfirst) (hg k group hgroup)
  | some row =>
      obtain ⟨id, u⟩ := row
      refine ⟨id, rfl, contains_iff.mpr ⟨group, hgroup, ?_⟩⟩
      exact Catalog.contains_iff.mpr ⟨u, Catalog.get?_of_first? hfirst⟩

/-- Groupings that hold the same pairs, and leave no group empty, are equal. -/
theorem NoEmptyGroup.eq_of_contains {g g' : Grouping κ} (hg : g.NoEmptyGroup)
    (hg' : g'.NoEmptyGroup) (hpairs : ∀ k id, g.contains k id = g'.contains k id) : g = g' := by
  have hget : ∀ k, g.get? k = g'.get? k := by
    intro k
    cases hgroup : g.get? k with
    | none =>
        cases hgroup' : g'.get? k with
        | none => rfl
        | some group' =>
            obtain ⟨id, hid⟩ := hg'.exists_contains hgroup'
            rw [← hpairs, contains, hgroup] at hid
            cases hid
    | some group =>
        cases hgroup' : g'.get? k with
        | none =>
            obtain ⟨id, hid⟩ := hg.exists_contains hgroup
            rw [hpairs, contains, hgroup'] at hid
            cases hid
        | some group' =>
            apply congrArg some
            apply Catalog.eq_of_contains
            intro id
            rw [← contains_eq_of_get? hgroup, ← contains_eq_of_get? hgroup', hpairs]
  cases g
  cases g'
  exact congrArg Grouping.mk (Catalog.ext_get? hget)

end LawfulKeys

end FlowGate.Grouping
