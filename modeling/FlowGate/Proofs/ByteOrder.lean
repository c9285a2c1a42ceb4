import Mathlib.Algebra.GroupWithZero.Nat
import Mathlib.Data.List.Induction

namespace FlowGate

theorem compare_append_left {α : Type} [Ord α] [Std.ReflOrd α] (front l l' : List α) :
    compare (front ++ l) (front ++ l') = compare l l' := by
  induction front with
  | nil => rfl
  | cons x front ih =>
      rw [List.cons_append, List.cons_append, List.compare_cons_cons, Std.ReflOrd.compare_self]
      exact ih

/-- The number that digits of a base write, the first one being the weightiest. -/
def positional (base : Nat) (digits : List Nat) : Nat := digits.foldl (fun n d => n * base + d) 0

section Positional

variable {base m n d e : Nat} {l l' : List Nat}

theorem mul_add_lt (hlt : m < n) (hd : d < base) : m * base + d < n * base + e := by
  have hstep : (m + 1) * base ≤ n * base := Nat.mul_le_mul_right base hlt
  rw [Nat.succ_mul] at hstep
  omega

theorem compare_mul_add (hd : d < base) (he : e < base) :
    compare (m * base + d) (n * base + e) = (compare m n).then (compare d e) := by
  rcases Nat.lt_trichotomy m n with hlt | rfl | hgt
  · rw [Nat.compare_eq_lt.mpr (mul_add_lt hlt hd), Nat.compare_eq_lt.mpr hlt]
    rfl
  · rw [Nat.compare_eq_eq.mpr rfl, Nat.compare_eq_ite_lt, Nat.compare_eq_ite_lt]
    simp only [Nat.add_lt_add_iff_left]
    rfl
  · rw [Nat.compare_eq_gt.mpr (mul_add_lt hgt he), Nat.compare_eq_gt.mpr hgt]
    rfl

theorem compare_foldl (hlength : l.length = l'.length) (hl : ∀ d ∈ l, d < base)
    (hl' : ∀ d ∈ l', d < base) :
    compare (l.foldl (fun n d => n * base + d) m) (l'.foldl (fun n d => n * base + d) n) =
      (compare m n).then (compare l l') := by
  induction l generalizing l' m n with
  | nil =>
      obtain rfl : l' = [] := List.length_eq_zero_iff.mp hlength.symm
      exact Ordering.then_eq.symm
  | cons d l ih =>
      cases l' with
      | nil => cases hlength
      | cons e l' =>
          obtain ⟨hd, hl⟩ := List.forall_mem_cons.mp hl
          obtain ⟨he, hl'⟩ := List.forall_mem_cons.mp hl'
          rw [List.foldl_cons, List.foldl_cons, ih (Nat.succ.inj hlength) hl hl', compare_mul_add hd he,
            List.compare_cons_cons, Ordering.then_assoc]

theorem compare_positional (hlength : l.length = l'.length) (hl : ∀ d ∈ l, d < base)
    (hl' : ∀ d ∈ l', d < base) : compare (positional base l) (positional base l') = compare l l' :=
  compare_foldl hlength hl hl'

theorem positional_lt (hl : ∀ d ∈ l, d < base) : positional base l < base ^ l.length := by
  induction l using List.reverseRecOn with
  | nil => exact Nat.one_pos
  | append_singleton l d ih =>
      have hd : d < base := hl d (by simp)
      have hfront := ih fun e he => hl e (by simp [he])
      rw [positional, List.foldl_append, List.length_append, List.length_singleton, Nat.pow_succ]
      exact Nat.lt_of_lt_of_eq (mul_add_lt hfront hd) (Nat.add_zero _)

theorem positional_flatMap (l : List Nat) :
    positional base (l.flatMap fun d => [d / base, d % base]) = positional (base * base) l := by
  have hread : ∀ n : Nat, (l.flatMap fun d => [d / base, d % base]).foldl (fun n d => n * base + d) n =
      l.foldl (fun n d => n * (base * base) + d) n := by
    induction l with
    | nil => exact fun n => rfl
    | cons d l ih =>
        intro n
        have hdigits : (n * base + d / base) * base + d % base = n * (base * base) + d := by
          have hsplit := Nat.div_add_mod' d base
          rw [Nat.add_mul, Nat.mul_assoc, Nat.add_assoc, hsplit]
        rw [List.flatMap_cons, List.foldl_append, ih, List.foldl_cons, List.foldl_cons, List.foldl_cons,
          List.foldl_nil, hdigits]
  exact hread 0

end Positional

section Utf8

variable {c d : Char} {s t : String}

/-- The bytes of a text in UTF-8. -/
def utf8 (s : String) : List UInt8 := s.toUTF8.data.toList

theorem utf8_eq_flatMap (s : String) : utf8 s = s.toList.flatMap String.utf8EncodeChar := by
  rw [utf8, String.toUTF8_eq_toByteArray, ← String.utf8Encode_toList, List.utf8Encode,
    List.data_toByteArray]

theorem compare_cons_ofNat {m n : Nat} (hm : m < 256) (hn : n < 256) (x y : List UInt8) :
    compare (UInt8.ofNat m :: x) (UInt8.ofNat n :: y) = (compare m n).then (compare x y) := by
  have hdigit : compare (UInt8.ofNat m) (UInt8.ofNat n) = compare m n := by
    change compareOfLessAndEq (UInt8.ofNat m) (UInt8.ofNat n) = compareOfLessAndEq m n
    simp only [compareOfLessAndEq, UInt8.lt_iff_toNat_lt, ← UInt8.toNat_inj,
      UInt8.toNat_ofNat_of_lt' hm, UInt8.toNat_ofNat_of_lt' hn]
  rw [List.compare_cons_cons, hdigit]

theorem compare_encode_of_lt (hlt : c < d) (x y : List UInt8) :
    compare (String.utf8EncodeChar c ++ x) (String.utf8EncodeChar d ++ y) = .lt := by
  have hval : c.val.toNat < d.val.toNat := hlt
  have hvalid : d.val.toNat < 0x110000 := by
    have hrange : d.val.toNat < 0xd800 ∨ 0xdfff < d.val.toNat ∧ d.val.toNat < 0x110000 := d.valid
    omega
  have hdigits : ∀ n : Nat, n / 4096 = n / 64 / 64 ∧ n / 262144 = n / 64 / 64 / 64 := by
    intro n
    omega
  simp only [String.utf8EncodeChar, hdigits]
  split_ifs
  all_goals
    simp (disch := omega) only [List.cons_append, List.nil_append, compare_cons_ofNat,
      Ordering.then_eq_lt, Nat.compare_eq_lt, Nat.compare_eq_eq]
    omega

theorem compare_flatMap_encode_of_lt {l m : List Char} (hlt : l < m) :
    compare (l.flatMap String.utf8EncodeChar) (m.flatMap String.utf8EncodeChar) = .lt := by
  induction hlt with
  | @nil d m =>
      obtain ⟨byte, rest, hbytes⟩ := List.exists_cons_of_ne_nil (@String.utf8EncodeChar_ne_nil d)
      rw [List.flatMap_nil, List.flatMap_cons, hbytes]
      rfl
  | @rel c l d m hlt => exact compare_encode_of_lt hlt _ _
  | @cons c l m hlt ih =>
      rw [List.flatMap_cons, List.flatMap_cons, compare_append_left]
      exact ih

/-- Texts compare as their bytes do. -/
theorem compare_utf8 (s t : String) : compare (utf8 s) (utf8 t) = compare s t := by
  have hlt : ∀ {s t : String}, compare s t = .lt → compare (utf8 s) (utf8 t) = .lt := by
    intro s t h
    rw [utf8_eq_flatMap, utf8_eq_flatMap]
    have hst : s < t := compareOfLessAndEq_eq_lt.mp h
    exact compare_flatMap_encode_of_lt (String.lt_iff.mp hst)
  cases h : compare s t with
  | lt => exact hlt h
  | eq =>
      obtain rfl : s = t := Std.LawfulEqOrd.eq_of_compare h
      exact Std.ReflCmp.compare_self
  | gt => exact Std.OrientedCmp.gt_of_lt (hlt (Std.OrientedCmp.lt_of_gt h))

end Utf8

end FlowGate
