import FlowGate.Catalog.Basic

namespace FlowGate.Catalog

universe u v

variable {κ : Type u} {ν : Type v} [Ord κ]

private theorem find?_insertRow [Std.TransOrd κ] (k q : κ) (x : ν) (rows : List (κ × ν)) :
    ((insertRow k x rows).find? fun row => compare q row.1 == .eq).map (·.2) =
      if compare q k = .eq then some x
      else (rows.find? fun row => compare q row.1 == .eq).map (·.2) := by
  induction rows with
  | nil => by_cases h : compare q k = .eq <;> simp [insertRow, h]
  | cons head rest ih =>
    rcases Classical.em (compare q k = .eq) with hq | hq
    · simp only [insertRow, hq, if_true] at ih ⊢
      split
      · simp [hq]
      · simp [hq]
      · rename_i hgt
        have hne : compare q head.1 ≠ .eq := by
          intro h
          have := Std.TransCmp.congr_left (c := head.1) hq
          rw [h, hgt] at this
          exact absurd this (by decide)
        rw [List.find?_cons_of_neg (by simpa using hne)]
        exact ih
    · simp only [insertRow, hq, if_false] at ih ⊢
      split
      · rw [List.find?_cons_of_neg (by simpa using hq)]
      · rename_i heq
        have hne : compare q head.1 ≠ .eq := by
          intro h
          exact hq (Std.TransCmp.eq_trans h (Std.OrientedCmp.eq_symm heq))
        rw [List.find?_cons_of_neg (by simpa using hq),
          List.find?_cons_of_neg (by simpa using hne)]
      · rcases Classical.em (compare q head.1 = .eq) with hhead | hhead
        · simp [hhead]
        · rw [List.find?_cons_of_neg (by simpa using hhead),
            List.find?_cons_of_neg (by simpa using hhead)]
          exact ih

theorem get?_insert [Std.TransOrd κ] (m : Catalog κ ν) (k q : κ) (x : ν) :
    (m.insert k x).get? q = if compare q k = .eq then some x else m.get? q :=
  find?_insertRow k q x m.rows

theorem get?_erase [Std.TransOrd κ] (m : Catalog κ ν) (k q : κ) :
    (m.erase k).get? q = if compare q k = .eq then none else m.get? q := by
  unfold erase get?
  dsimp only
  induction m.rows with
  | nil => simp
  | cons head rest ih =>
    rcases Classical.em (compare k head.1 = .eq) with hk | hk
    · rw [List.filter_cons_of_neg (by simpa using hk), ih]
      rcases Classical.em (compare q k = .eq) with hq | hq
      · simp [hq]
      · have hne : compare q head.1 ≠ .eq := fun h =>
          hq (Std.TransCmp.eq_trans h (Std.OrientedCmp.eq_symm hk))
        rw [if_neg hq, if_neg hq, List.find?_cons_of_neg (by simpa using hne)]
    · rw [List.filter_cons_of_pos (by simpa using hk)]
      rcases Classical.em (compare q head.1 = .eq) with hhead | hhead
      · have hq : compare q k ≠ .eq := fun h =>
          hk (Std.TransCmp.eq_trans (Std.OrientedCmp.eq_symm h) hhead)
        simp [hhead, hq]
      · rw [List.find?_cons_of_neg (by simpa using hhead), ih,
          List.find?_cons_of_neg (by simpa using hhead)]

theorem mem_rows_of_get? [Std.LawfulEqOrd κ] {m : Catalog κ ν} {k : κ} {x : ν}
    (h : m.get? k = some x) : (k, x) ∈ m.rows := by
  obtain ⟨row, hrow, rfl⟩ := Option.map_eq_some_iff.1 h
  have hk : compare k row.1 = .eq := by simpa using List.find?_some hrow
  rw [Std.LawfulEqCmp.eq_of_compare hk]
  exact List.mem_of_find?_eq_some hrow

theorem get?_of_mem_rows [Std.TransOrd κ] {m : Catalog κ ν} {row : κ × ν} (h : row ∈ m.rows) :
    m.get? row.1 = some row.2 := by
  obtain ⟨rows, hrows⟩ := m
  unfold get?
  dsimp only at h ⊢
  induction rows with
  | nil => simp at h
  | cons head rest ih =>
    obtain ⟨hhead, hrest⟩ := List.pairwise_cons.1 hrows
    rcases List.mem_cons.1 h with rfl | h
    · simp [Std.ReflCmp.compare_self]
    · have hgt : compare row.1 head.1 = .gt := Std.OrientedCmp.gt_of_lt (hhead row h)
      rw [List.find?_cons_of_neg (by simp [hgt])]
      exact ih hrest h

theorem mem_rows_iff [Std.TransOrd κ] [Std.LawfulEqOrd κ] {m : Catalog κ ν} {k : κ} {x : ν} :
    (k, x) ∈ m.rows ↔ m.get? k = some x :=
  ⟨fun h => get?_of_mem_rows h, mem_rows_of_get?⟩

theorem nodup_of_ascending [Std.TransOrd κ] {α : Type v} {key : α → κ} {l : List α}
    (h : l.Pairwise fun a b => compare (key a) (key b) = .lt) : l.Nodup := by
  refine List.Pairwise.imp ?_ h
  rintro a _ hlt rfl
  simp [Std.ReflOrd.compare_self] at hlt

theorem eq_of_ascending [Std.TransOrd κ] {α : Type v} {key : α → κ} {l m : List α}
    (hl : l.Pairwise fun a b => compare (key a) (key b) = .lt)
    (hm : m.Pairwise fun a b => compare (key a) (key b) = .lt) (hmem : ∀ a, a ∈ l ↔ a ∈ m) :
    l = m := by
  have hself : ∀ k : κ, compare k k ≠ .lt := fun k => by simp [Std.ReflOrd.compare_self]
  have hirr : ∀ a b : α, compare (key a) (key b) = .lt → compare (key b) (key a) = .lt → a = b :=
    fun a _ hab hba => absurd (Std.TransCmp.lt_trans hab hba) (hself (key a))
  have hperm : l.Perm m :=
    (List.perm_ext_iff_of_nodup (nodup_of_ascending hl) (nodup_of_ascending hm)).2 hmem
  exact hperm.eq_of_pairwise (fun a b _ _ => hirr a b) hl hm

theorem rows_nodup [Std.TransOrd κ] (m : Catalog κ ν) : m.rows.Nodup :=
  nodup_of_ascending m.ascending

/-- Catalogs that answer every look-up alike are equal. -/
theorem ext_get? [Std.TransOrd κ] [Std.LawfulEqOrd κ] {m n : Catalog κ ν}
    (h : ∀ k, m.get? k = n.get? k) : m = n := by
  apply ext
  apply eq_of_ascending m.ascending n.ascending
  rintro ⟨k, x⟩
  rw [mem_rows_iff, mem_rows_iff, h k]

theorem get?_mapValues {μ : Type v} (f : ν → μ) (m : Catalog κ ν) (k : κ) :
    (m.mapValues f).get? k = (m.get? k).map f := by
  simp [get?, mapValues, List.find?_map, Function.comp_def]

theorem contains_iff {m : Catalog κ ν} {k : κ} : m.contains k = true ↔ ∃ x, m.get? k = some x := by
  simp [contains, Option.isSome_iff_exists]

theorem contains_eq_false_iff {m : Catalog κ ν} {k : κ} :
    m.contains k = false ↔ m.get? k = none := by
  simp [contains]

section LawfulKeys

variable [Std.TransOrd κ] [Std.LawfulEqOrd κ]

@[simp] theorem get?_insert_self (m : Catalog κ ν) (k : κ) (x : ν) :
    (m.insert k x).get? k = some x := by
  simp [get?_insert]

theorem get?_insert_of_ne (m : Catalog κ ν) {k q : κ} (x : ν) (h : q ≠ k) :
    (m.insert k x).get? q = m.get? q := by
  simp [get?_insert, h]

@[simp] theorem get?_erase_self (m : Catalog κ ν) (k : κ) : (m.erase k).get? k = none := by
  simp [get?_erase]

theorem get?_erase_of_ne (m : Catalog κ ν) {k q : κ} (h : q ≠ k) :
    (m.erase k).get? q = m.get? q := by
  simp [get?_erase, h]

theorem get?_insert_eq_some_iff {m : Catalog κ ν} {k q : κ} {x y : ν} :
    (m.insert k x).get? q = some y ↔ q = k ∧ y = x ∨ q ≠ k ∧ m.get? q = some y := by
  rcases Classical.em (q = k) with h | h
  · subst h
    simp [eq_comm]
  · simp [get?_insert_of_ne, h]

theorem get?_erase_eq_some_iff {m : Catalog κ ν} {k q : κ} {y : ν} :
    (m.erase k).get? q = some y ↔ q ≠ k ∧ m.get? q = some y := by
  rcases Classical.em (q = k) with h | h
  · subst h
    simp
  · simp [get?_erase_of_ne, h]

theorem contains_insert_iff {m : Catalog κ ν} {k q : κ} {x : ν} :
    (m.insert k x).contains q = true ↔ q = k ∨ m.contains q = true := by
  rcases Classical.em (q = k) with h | h
  · subst h
    simp [contains]
  · simp [contains, get?_insert_of_ne, h]

theorem insert_comm (m : Catalog κ ν) {k q : κ} {x y : ν} (h : k ≠ q) :
    (m.insert k x).insert q y = (m.insert q y).insert k x := by
  apply ext_get?
  intro p
  rcases Classical.em (p = k) with rfl | hk
  · rw [get?_insert_of_ne _ _ h, get?_insert_self, get?_insert_self]
  · simp [get?_insert, hk]

theorem erase_comm (m : Catalog κ ν) (k q : κ) : (m.erase k).erase q = (m.erase q).erase k := by
  apply ext_get?
  intro p
  rw [get?_erase, get?_erase, get?_erase, get?_erase]
  split <;> split <;> rfl

theorem contains_erase_iff {m : Catalog κ ν} {k q : κ} :
    (m.erase k).contains q = true ↔ q ≠ k ∧ m.contains q = true := by
  rcases Classical.em (q = k) with h | h
  · subst h
    simp [contains]
  · simp [contains, get?_erase_of_ne, h]

private theorem get?_foldl_insert_iff (rows : List (κ × ν)) (m : Catalog κ ν)
    (hkeys : (rows.map (·.1)).Nodup) (k : κ) (x : ν) :
    (rows.foldl (fun m row => m.insert row.1 row.2) m).get? k = some x ↔
      (k, x) ∈ rows ∨ k ∉ rows.map (·.1) ∧ m.get? k = some x := by
  induction rows generalizing m with
  | nil => simp
  | cons row rest ih =>
      obtain ⟨hrow, hrest⟩ := List.nodup_cons.mp hkeys
      rw [List.foldl_cons, ih _ hrest, get?_insert_eq_some_iff]
      have hnot : ∀ y, (row.1, y) ∉ rest := fun y hy =>
        hrow (List.mem_map.mpr ⟨_, hy, rfl⟩)
      rcases Classical.em (k = row.1) with hk | hk
      · subst hk
        simp [hrow, hnot, Prod.ext_iff, eq_comm]
      · simp [hk, Prod.ext_iff]

theorem get?_ofList_iff {rows : List (κ × ν)} (hkeys : (rows.map (·.1)).Nodup) {k : κ} {x : ν} :
    (ofList rows).get? k = some x ↔ (k, x) ∈ rows := by
  rw [ofList, get?_foldl_insert_iff rows _ hkeys]
  simp

end LawfulKeys

end FlowGate.Catalog
