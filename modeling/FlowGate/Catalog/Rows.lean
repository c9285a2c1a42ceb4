import FlowGate.Catalog.Lemmas
import Mathlib.Data.List.Perm.Subperm

namespace FlowGate.Catalog

universe u v

variable {κ : Type u} {ν : Type v} [Ord κ] [Std.TransOrd κ] [Std.LawfulEqOrd κ]

theorem erase_eq_self {m : Catalog κ ν} {k : κ} (h : m.get? k = none) : m.erase k = m := by
  apply ext_get?
  intro q
  rcases Classical.em (q = k) with hq | hq
  · rw [hq, get?_erase_self, h]
  · rw [get?_erase_of_ne m hq]

theorem insert_eq_self {m : Catalog κ ν} {k : κ} {x : ν} (h : m.get? k = some x) :
    m.insert k x = m := by
  apply ext_get?
  intro q
  rcases Classical.em (q = k) with hq | hq
  · rw [hq, get?_insert_self, h]
  · rw [get?_insert_of_ne m x hq]

theorem rows_insert_perm (m : Catalog κ ν) (k : κ) (x : ν) :
    (m.insert k x).rows.Perm ((k, x) :: (m.erase k).rows) := by
  have hnot : (k, x) ∉ (m.erase k).rows := by simp [mem_rows_iff]
  refine (List.perm_ext_iff_of_nodup (rows_nodup _)
    (List.nodup_cons.mpr ⟨hnot, rows_nodup _⟩)).mpr ?_
  rintro ⟨q, y⟩
  rw [List.mem_cons, mem_rows_iff, mem_rows_iff, get?_insert_eq_some_iff,
    get?_erase_eq_some_iff, Prod.mk.injEq]

theorem rows_perm_of_get? {m : Catalog κ ν} {k : κ} {x : ν} (h : m.get? k = some x) :
    m.rows.Perm ((k, x) :: (m.erase k).rows) := by
  simpa only [insert_eq_self h] using rows_insert_perm m k x

theorem values_insert_perm (m : Catalog κ ν) (k : κ) (x : ν) :
    (m.insert k x).values.Perm (x :: (m.erase k).values) :=
  (rows_insert_perm m k x).map _

theorem mem_values_iff {m : Catalog κ ν} {x : ν} : x ∈ m.values ↔ ∃ k, m.get? k = some x := by
  constructor
  · intro h
    obtain ⟨⟨k, y⟩, hrow, rfl⟩ := List.mem_map.mp h
    exact ⟨k, mem_rows_iff.mp hrow⟩
  · rintro ⟨k, hk⟩
    exact List.mem_map.mpr ⟨(k, x), mem_rows_iff.mpr hk, rfl⟩

theorem mem_keys_iff {m : Catalog κ ν} {k : κ} : k ∈ m.keys ↔ m.contains k = true := by
  rw [contains_iff]
  constructor
  · intro h
    obtain ⟨⟨q, y⟩, hrow, rfl⟩ := List.mem_map.mp h
    exact ⟨y, mem_rows_iff.mp hrow⟩
  · rintro ⟨x, hx⟩
    exact List.mem_map.mpr ⟨(k, x), mem_rows_iff.mpr hx, rfl⟩

omit [Std.TransOrd κ] [Std.LawfulEqOrd κ] in
theorem keys_ascending (m : Catalog κ ν) : m.keys.Pairwise fun a b => compare a b = .lt :=
  m.ascending.map _ fun _ _ h => h

omit [Std.TransOrd κ] in
theorem keys_nodup (m : Catalog κ ν) : m.keys.Nodup := by
  refine m.keys_ascending.imp ?_
  rintro k _ hlt rfl
  simp [Std.ReflOrd.compare_self] at hlt

theorem size_le_of_contains {m n : Catalog κ ν}
    (h : ∀ k, m.contains k = true → n.contains k = true) : m.size ≤ n.size := by
  have hsub : m.keys ⊆ n.keys := fun k hk => mem_keys_iff.mpr (h k (mem_keys_iff.mp hk))
  have hle := (List.subperm_of_subset m.keys_nodup hsub).length_le
  simpa [keys, size] using hle

/-- A catalog has as many rows as a list of its keys without repetition has entries. -/
theorem size_eq_length {m : Catalog κ ν} {ks : List κ} (hks : ks.Nodup)
    (hmem : ∀ k, m.contains k = true ↔ k ∈ ks) : m.size = ks.length := by
  have hperm : m.keys.Perm ks :=
    (List.perm_ext_iff_of_nodup m.keys_nodup hks).mpr fun k => mem_keys_iff.trans (hmem k)
  rw [← hperm.length_eq, keys, List.length_map, size]

theorem size_insert_of_get?_none {m : Catalog κ ν} {k : κ} (x : ν) (h : m.get? k = none) :
    (m.insert k x).size = m.size + 1 := by
  have hperm := (rows_insert_perm m k x).length_eq
  rwa [erase_eq_self h] at hperm

theorem size_insert_of_get? {m : Catalog κ ν} {k : κ} {x : ν} (y : ν) (h : m.get? k = some x) :
    (m.insert k y).size = m.size := by
  have hinsert := (rows_insert_perm m k y).length_eq
  have hself := (rows_perm_of_get? h).length_eq
  simp only [List.length_cons] at hinsert hself
  simp only [size]
  omega

theorem size_insert_le (m : Catalog κ ν) (k : κ) (x : ν) : (m.insert k x).size ≤ m.size + 1 := by
  cases h : m.get? k with
  | none => exact Nat.le_of_eq (size_insert_of_get?_none x h)
  | some y => exact Nat.le_succ_of_le (Nat.le_of_eq (size_insert_of_get? x h))

theorem size_erase_of_get? {m : Catalog κ ν} {k : κ} {x : ν} (h : m.get? k = some x) :
    (m.erase k).size + 1 = m.size :=
  (rows_perm_of_get? h).length_eq.symm

theorem eq_empty_iff {m : Catalog κ ν} : m = empty ↔ ∀ k, m.get? k = none := by
  constructor
  · rintro rfl k
    rfl
  · intro h
    exact ext_get? fun k => by rw [h k, get?_empty]

omit [Std.TransOrd κ] [Std.LawfulEqOrd κ] in
theorem isEmpty_iff {m : Catalog κ ν} : m.isEmpty = true ↔ m = empty := by
  simp [isEmpty, Catalog.ext_iff, empty]

omit [Std.TransOrd κ] [Std.LawfulEqOrd κ] in
theorem size_eq_zero_iff {m : Catalog κ ν} : m.size = 0 ↔ m = empty := by
  simp [size, Catalog.ext_iff, empty]

theorem exists_get? {m : Catalog κ ν} (h : m ≠ empty) : ∃ k x, m.get? k = some x := by
  obtain ⟨⟨k, x⟩, hrow⟩ := List.exists_mem_of_ne_nil m.rows fun hnil => h (ext hnil)
  exact ⟨k, x, mem_rows_iff.mp hrow⟩

theorem eq_of_contains {m n : Catalog κ Unit} (h : ∀ k, m.contains k = n.contains k) : m = n := by
  apply ext_get?
  intro k
  have hk := h k
  simp only [contains] at hk
  cases hm : m.get? k <;> cases hn : n.get? k <;> simp_all

theorem get?_of_first? {m : Catalog κ ν} {k : κ} {x : ν} (h : m.first? = some (k, x)) :
    m.get? k = some x :=
  mem_rows_iff.mp (List.mem_of_head? h)

theorem get?_of_last? {m : Catalog κ ν} {k : κ} {x : ν} (h : m.last? = some (k, x)) :
    m.get? k = some x :=
  mem_rows_iff.mp (List.mem_of_getLast? h)

theorem isLE_of_first? {m : Catalog κ ν} {k q : κ} {x y : ν} (h : m.first? = some (k, x))
    (hq : m.get? q = some y) : (compare k q).isLE = true := by
  obtain ⟨rest, hrows⟩ := List.head?_eq_some_iff.mp h
  have hmem := mem_rows_iff.mpr hq
  have hascending := m.ascending
  rw [hrows] at hmem hascending
  rcases List.mem_cons.mp hmem with heq | hrest
  · cases heq
    rw [Std.ReflOrd.compare_self, Ordering.isLE_eq]
  · rw [List.rel_of_pairwise_cons hascending hrest, Ordering.isLE_lt]

theorem isLE_of_last? {m : Catalog κ ν} {k q : κ} {x y : ν} (h : m.last? = some (k, x))
    (hq : m.get? q = some y) : (compare q k).isLE = true := by
  obtain ⟨front, hrows⟩ := List.getLast?_eq_some_iff.mp h
  have hmem := mem_rows_iff.mpr hq
  have hascending := m.ascending
  rw [hrows] at hmem hascending
  rcases List.mem_append.mp hmem with hfront | hlast
  · have hlt := (List.pairwise_append.mp hascending).2.2 _ hfront _ (List.mem_singleton.mpr rfl)
    rw [hlt, Ordering.isLE_lt]
  · cases List.mem_singleton.mp hlast
    rw [Std.ReflOrd.compare_self, Ordering.isLE_eq]

omit [Std.TransOrd κ] [Std.LawfulEqOrd κ] in
theorem first?_eq_none_iff {m : Catalog κ ν} : m.first? = none ↔ m = empty := by
  simp [first?, Catalog.ext_iff, empty]

omit [Std.TransOrd κ] [Std.LawfulEqOrd κ] in
theorem last?_eq_none_iff {m : Catalog κ ν} : m.last? = none ↔ m = empty := by
  simp [last?, Catalog.ext_iff, empty]

end FlowGate.Catalog
