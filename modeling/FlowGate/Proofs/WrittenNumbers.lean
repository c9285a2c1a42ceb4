import FlowGate.Text.Blank
import FlowGate.Text.Numeral
import Mathlib.Algebra.Group.Nat.Defs
import Mathlib.Data.List.TakeWhile
import Mathlib.Tactic.SplitIfs

namespace FlowGate.Text

namespace Numeral

variable {limit m n : Nat} {c : Char} {cs : List Char}

/-- The decimal digits of a number, with or without zeros in front. -/
structure Decimal (n : Nat) (ds : List Char) : Prop where
  ne_nil : ds ≠ []
  digits : ∀ c ∈ ds, c.isDigit = true
  value : Nat.ofDigitChars 10 ds 0 = n

/-- How a number is written: its digits, behind a plus or not. -/
inductive Writes (n : Nat) : List Char → Prop
  | plain {ds : List Char} (h : Decimal n ds) : Writes n ds
  | signed {ds : List Char} (h : Decimal n ds) : Writes n ('+' :: ds)

theorem digit?_ten (c : Char) :
    digit? 10 c = if c.isDigit = true then some (c.toNat - '0'.toNat) else none := by
  have hdigit : c.isDigit = true ↔ '0' ≤ c ∧ c ≤ '9' := by
    simp only [Char.isDigit, Bool.and_eq_true, decide_eq_true_eq]
    rfl
  rw [digit?]
  by_cases hc : '0' ≤ c ∧ c ≤ '9'
  · have hmost : c.toNat ≤ '9'.toNat := hc.2
    have hlt : c.toNat - '0'.toNat < 10 := Nat.sub_lt_left_of_lt_add hc.1 (Nat.lt_succ_of_le hmost)
    rw [if_pos hc, if_pos hlt, if_pos (hdigit.mpr hc)]
  · -- A letter has a value, but none below ten.
    rw [if_neg hc, if_neg (mt hdigit.mp hc), if_neg]
    split_ifs <;> omega

theorem readOn_ten_eq_some_iff :
    readOn 10 m cs = some n ↔ (∀ c ∈ cs, c.isDigit = true) ∧ Nat.ofDigitChars 10 cs m = n := by
  induction cs generalizing m with
  | nil => simp [readOn]
  | cons c cs ih =>
      rw [readOn, digit?_ten, Nat.ofDigitChars_cons, List.forall_mem_cons]
      by_cases hc : c.isDigit = true
      · simp [hc, ih]
      · simp [hc]

theorem digits?_ten_eq_some_iff : digits? 10 cs = some n ↔ Decimal n cs := by
  rw [digits?]
  split_ifs with hempty
  · have hnil := List.isEmpty_iff.mp hempty
    exact ⟨fun h => (nomatch h), fun h => absurd hnil h.ne_nil⟩
  · have hne : cs ≠ [] := fun hnil => hempty (List.isEmpty_iff.mpr hnil)
    rw [readOn_ten_eq_some_iff]
    exact ⟨fun h => ⟨hne, h.1, h.2⟩, fun h => ⟨h.digits, h.value⟩⟩

theorem writes_iff_of_ne_plus (hcs : cs.head? ≠ some '+') : Writes n cs ↔ Decimal n cs := by
  refine ⟨fun h => ?_, .plain⟩
  cases h with
  | plain h => exact h
  | signed h => exact absurd rfl hcs

theorem writes_plus_iff : Writes n ('+' :: cs) ↔ Decimal n cs := by
  refine ⟨fun h => ?_, .signed⟩
  cases h with
  | plain h => exact absurd (h.digits '+' List.mem_cons_self) (by decide)
  | signed h => exact h

theorem not_writes_cons (hplus : c ≠ '+') (hdigit : c.isDigit = false) : ¬Writes n (c :: cs) := by
  intro h
  cases h with
  | plain h =>
      have hc := h.digits c List.mem_cons_self
      rw [hdigit] at hc
      cases hc
  | signed h => exact hplus rfl

theorem unsigned?_eq_some_iff : unsigned? limit cs = some n ↔ Writes n cs ∧ n < limit := by
  unfold unsigned?
  rw [Option.filter_eq_some_iff, decide_eq_true_eq]
  refine and_congr_left' ?_
  split
  · rw [digits?_ten_eq_some_iff, writes_plus_iff]
  · rename_i hplus
    rw [digits?_ten_eq_some_iff, writes_iff_of_ne_plus]
    intro hhead
    obtain ⟨rest, hrest⟩ := List.head?_eq_some_iff.mp hhead
    exact hplus rest hrest

theorem unsigned?_wordLimit_eq_some_iff :
    unsigned? wordLimit cs = some n ↔ Writes n cs ∧ n < 2 ^ 64 :=
  unsigned?_eq_some_iff

end Numeral

variable {core cs : List Char}

/-- A text with blanks around it. -/
def Padded (core cs : List Char) : Prop :=
  ∃ front back, (∀ c ∈ front, isBlank c = true) ∧ (∀ c ∈ back, isBlank c = true) ∧
    cs = front ++ core ++ back

theorem padded_trim (cs : List Char) : Padded (trim cs) cs := by
  refine ⟨cs.takeWhile isBlank, ((trimStart cs).reverse.takeWhile isBlank).reverse, ?_, ?_, ?_⟩
  · exact fun c hc => List.mem_takeWhile_imp hc
  · exact fun c hc => List.mem_takeWhile_imp (List.mem_reverse.mp hc)
  · have hend := congrArg List.reverse
      (List.takeWhile_append_dropWhile (p := isBlank) (l := (trimStart cs).reverse))
    rw [List.reverse_append, List.reverse_reverse] at hend
    rw [List.append_assoc, trim, trimStart, hend, trimStart, List.takeWhile_append_dropWhile]

theorem trimStart_append {front rest : List Char} {c : Char} (hfront : ∀ c ∈ front, isBlank c = true)
    (hc : isBlank c = false) : trimStart (front ++ c :: rest) = c :: rest := by
  rw [trimStart, List.dropWhile_append_of_pos hfront, List.dropWhile_cons, hc]
  rfl

theorem Padded.trim_eq (h : Padded core cs) (hcore : ∀ c ∈ core, isBlank c = false) : trim cs = core := by
  obtain ⟨front, back, hfront, hback, rfl⟩ := h
  cases core with
  | nil =>
      have hall : ∀ c ∈ front ++ back, isBlank c = true := List.forall_mem_append.mpr ⟨hfront, hback⟩
      rw [trim, List.append_nil, trimStart, trimStart, List.dropWhile_eq_nil_iff.mpr hall]
      rfl
  | cons c core =>
      have hne : (c :: core).reverse ≠ [] := List.reverse_ne_nil_iff.mpr (List.cons_ne_nil c core)
      obtain ⟨d, rest, hlast⟩ := List.exists_cons_of_ne_nil hne
      have hd : d ∈ c :: core := List.mem_reverse.mp (hlast ▸ List.mem_cons_self)
      have hreverse : ∀ e ∈ back.reverse, isBlank e = true := fun e he => hback e (List.mem_reverse.mp he)
      rw [trim, List.append_assoc, List.cons_append, trimStart_append hfront (hcore c List.mem_cons_self),
        ← List.cons_append, List.reverse_append, hlast, trimStart_append hreverse (hcore d hd), ← hlast,
        List.reverse_reverse]

theorem isBlank_of_isDigit {c : Char} (hc : c.isDigit = true) : isBlank c = false := by
  have hrange : 48 ≤ c.toNat ∧ c.toNat ≤ 57 := by
    simp only [Char.isDigit, Bool.and_eq_true, decide_eq_true_eq] at hc
    exact hc
  rw [Bool.eq_false_iff]
  intro hblank
  simp only [isBlank, CodeRanges.contains, whiteSpace, List.any_cons, List.any_nil, Bool.or_eq_true,
    Bool.and_eq_true, decide_eq_true_eq, Bool.false_eq_true, or_false] at hblank
  omega

theorem Numeral.Writes.not_blank {n : Nat} (h : Numeral.Writes n core) : ∀ c ∈ core, isBlank c = false := by
  have hdigits : ∀ ds : List Char, Numeral.Decimal n ds → ∀ c ∈ ds, isBlank c = false :=
    fun ds h c hc => isBlank_of_isDigit (h.digits c hc)
  cases h with
  | plain h => exact hdigits _ h
  | signed h => exact List.forall_mem_cons.mpr ⟨by decide, hdigits _ h⟩

end FlowGate.Text
