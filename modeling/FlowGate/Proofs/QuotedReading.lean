import FlowGate.Text.Numeral
import FlowGate.Text.Quoted
import Mathlib.Tactic.SplitIfs

namespace FlowGate.Text

theorem append_inj_of_head {α : Type} {p : α → Prop} {a b x y : List α} (ha : ∀ c ∈ a, p c)
    (hb : ∀ c ∈ b, p c) (hx : ∀ c ∈ x.head?, ¬p c) (hy : ∀ c ∈ y.head?, ¬p c)
    (h : a ++ x = b ++ y) : a = b ∧ x = y := by
  induction a generalizing b with
  | nil =>
      cases b with
      | nil => exact ⟨rfl, h⟩
      | cons d b =>
          rw [List.nil_append] at h
          refine absurd (hb d List.mem_cons_self) (hx d ?_)
          rw [h]
          rfl
  | cons c a ih =>
      cases b with
      | nil =>
          rw [List.nil_append] at h
          refine absurd (ha c List.mem_cons_self) (hy c ?_)
          rw [← h]
          rfl
      | cons d b =>
          obtain ⟨rfl, hrest⟩ := List.cons.inj h
          obtain ⟨rfl, rfl⟩ := ih (fun e he => ha e (List.mem_cons_of_mem _ he))
            (fun e he => hb e (List.mem_cons_of_mem _ he)) hrest
          exact ⟨rfl, rfl⟩

section Digits

variable {base m n : Nat} {c : Char} {x y : List Char}

theorem digit_of_mem_toDigits (hbase : 1 < base) (hc : c ∈ Nat.toDigits base n) :
    ∃ d < base, c = Nat.digitChar d := by
  induction n using Nat.strongRecOn with
  | _ n ih =>
      rcases Nat.lt_or_ge n base with hlt | hge
      · rw [Nat.toDigits_of_lt_base hlt, List.mem_singleton] at hc
        exact ⟨n, hlt, hc⟩
      · rw [Nat.toDigits_of_base_le hbase hge, List.mem_append, List.mem_singleton] at hc
        rcases hc with hfront | hlast
        · exact ih (n / base) (Nat.div_lt_self (by omega) hbase) hfront
        · exact ⟨n % base, Nat.mod_lt n (by omega), hlast⟩

theorem toDigits_injective (hbase : 1 < base) (hmost : base ≤ 16)
    (h : Nat.toDigits base m = Nat.toDigits base n) : m = n := by
  have hdigit : ∀ d < 16, ∀ e < 16, Nat.digitChar d = Nat.digitChar e → d = e := by decide
  have hlonger : ∀ {m n : Nat}, m < base → base ≤ n → Nat.toDigits base m ≠ Nat.toDigits base n := by
    intro m n hm hn heq
    rw [Nat.toDigits_of_lt_base hm, Nat.toDigits_of_base_le hbase hn] at heq
    have hlength := congrArg List.length heq
    have hpos := @Nat.length_toDigits_pos base (n / base)
    rw [List.length_append, List.length_singleton, List.length_singleton] at hlength
    omega
  induction m using Nat.strongRecOn generalizing n with
  | _ m ih =>
      rcases Nat.lt_or_ge m base with hm | hm
      · rcases Nat.lt_or_ge n base with hn | hn
        · rw [Nat.toDigits_of_lt_base hm, Nat.toDigits_of_lt_base hn] at h
          exact hdigit m (by omega) n (by omega) (List.cons.inj h).1
        · exact absurd h (hlonger hm hn)
      · rcases Nat.lt_or_ge n base with hn | hn
        · exact absurd h.symm (hlonger hn hm)
        · rw [Nat.toDigits_of_base_le hbase hm, Nat.toDigits_of_base_le hbase hn] at h
          obtain ⟨hfront, hlast⟩ := List.append_inj' h rfl
          have hdiv : m / base = n / base := ih _ (Nat.div_lt_self (by omega) hbase) hfront
          have hmod : m % base = n % base := by
            have hbound : ∀ k : Nat, k % base < 16 := fun k =>
              Nat.lt_of_lt_of_le (Nat.mod_lt k (by omega)) hmost
            exact hdigit _ (hbound m) _ (hbound n) (List.cons.inj hlast).1
          rw [← Nat.div_add_mod m base, hdiv, hmod, Nat.div_add_mod]

theorem isDigit_of_mem_decimal (hc : c ∈ Numeral.decimal n) : c.isDigit = true :=
  Nat.isDigit_of_mem_toDigits (by decide) (by decide) hc

theorem decimal_injective (h : Numeral.decimal m = Numeral.decimal n) : m = n :=
  toDigits_injective (by decide) (by decide) h

theorem decimal_append_inj (hx : ∀ c ∈ x.head?, c.isDigit = false)
    (hy : ∀ c ∈ y.head?, c.isDigit = false) (h : Numeral.decimal m ++ x = Numeral.decimal n ++ y) :
    m = n ∧ x = y := by
  have hdigits : ∀ n : Nat, ∀ c ∈ Numeral.decimal n, c.isDigit = true :=
    fun n c hc => isDigit_of_mem_decimal hc
  obtain ⟨hnumber, hrest⟩ := append_inj_of_head (hdigits m) (hdigits n)
    (fun c hc => Bool.eq_false_iff.mp (hx c hc)) (fun c hc => Bool.eq_false_iff.mp (hy c hc)) h
  exact ⟨decimal_injective hnumber, hrest⟩

end Digits

namespace Quoted

variable {c d : Char} {cs ds x y : List Char}

def unescape (letter : Char) : Char :=
  if letter = '0' then '\x00'
  else if letter = 't' then '\t'
  else if letter = 'r' then '\r'
  else if letter = 'n' then '\n'
  else letter

/-- How a character stands in quoted text: by itself, by a letter behind a backslash, or by its number. -/
inductive Escaped (c : Char) : List Char → Prop
  | plain (hbackslash : c ≠ '\\') (hmark : c ≠ '"') (hbreak : c ≠ '\n') : Escaped c [c]
  | letter (letter : Char) (hnumber : letter ≠ 'u') (hbreak : letter ≠ '\n')
    (hc : c = unescape letter) : Escaped c ['\\', letter]
  | number : Escaped c (codePoint c)

theorem escaped (c : Char) : Escaped c (escape c) := by
  unfold escape
  split_ifs with hzero htab hreturn hbreak hmark hbackslash hplain
  · exact .letter '0' (by decide) (by decide) hzero
  · exact .letter 't' (by decide) (by decide) htab
  · exact .letter 'r' (by decide) (by decide) hreturn
  · exact .letter 'n' (by decide) (by decide) hbreak
  · exact .letter '"' (by decide) (by decide) hmark
  · exact .letter '\\' (by decide) (by decide) hbackslash
  · exact .plain hbackslash hmark hbreak
  · exact .number

theorem codePoint_append_inj (h : codePoint c ++ x = codePoint d ++ y) : c = d ∧ x = y := by
  simp only [codePoint, List.cons_append, List.append_assoc, List.nil_append, List.cons.injEq,
    true_and] at h
  have hbrace : ∀ e : Char, ∀ digit ∈ Nat.toDigits 16 e.toNat, digit ≠ '\x7d' := by
    intro e digit hdigit
    obtain ⟨n, hn, rfl⟩ := digit_of_mem_toDigits (by decide) hdigit
    have hnone : ∀ n < 16, Nat.digitChar n ≠ '\x7d' := by decide
    exact hnone n hn
  have hclose : ∀ rest : List Char, ∀ e ∈ ('\x7d' :: rest).head?, ¬e ≠ '\x7d' := by
    rintro rest _ ⟨⟩ hne
    exact hne rfl
  obtain ⟨hdigits, hrest⟩ := append_inj_of_head (hbrace c) (hbrace d) (hclose x) (hclose y) h
  exact ⟨Char.toNat_inj.mp (toDigits_injective (by decide) (by decide) hdigits),
    (List.cons.inj hrest).2⟩

theorem escape_append_inj (h : escape c ++ x = escape d ++ y) : c = d ∧ x = y := by
  have hc := escaped c
  have hd := escaped d
  generalize escape c = w at hc h
  generalize escape d = v at hd h
  cases hc with
  | plain hbackslash =>
      cases hd with
      | plain => exact List.cons.inj h
      | letter => exact absurd (List.cons.inj h).1 hbackslash
      | number => exact absurd (List.cons.inj h).1 hbackslash
  | letter letter hnumber hbreak hletter =>
      cases hd with
      | plain hbackslash => exact absurd (List.cons.inj h).1.symm hbackslash
      | letter letter' _ _ hletter' =>
          obtain ⟨hsame, hrest⟩ := List.cons.inj (List.cons.inj h).2
          exact ⟨by rw [hletter, hletter', hsame], hrest⟩
      | number => exact absurd (List.cons.inj (List.cons.inj h).2).1 hnumber
  | number =>
      cases hd with
      | plain hbackslash => exact absurd (List.cons.inj h).1.symm hbackslash
      | letter letter hnumber => exact absurd (List.cons.inj (List.cons.inj h).2).1.symm hnumber
      | number => exact codePoint_append_inj h

theorem escape_append_ne (c : Char) (x y : List Char) : escape c ++ x ≠ '"' :: y := by
  have hc := escaped c
  generalize escape c = w at hc
  intro h
  cases hc with
  | plain _ hmark => exact hmark (List.cons.inj h).1
  | letter => cases (List.cons.inj h).1
  | number => cases (List.cons.inj h).1

/-- A quoted text ends by itself, and determines what it quotes. -/
theorem encode_append_inj (h : encode cs ++ x = encode ds ++ y) : cs = ds ∧ x = y := by
  simp only [encode, List.cons_append, List.append_assoc, List.nil_append, List.cons.injEq,
    true_and] at h
  induction cs generalizing ds with
  | nil =>
      cases ds with
      | nil => exact ⟨rfl, (List.cons.inj h).2⟩
      | cons d ds =>
          rw [List.flatMap_cons, List.append_assoc] at h
          exact absurd h.symm (escape_append_ne d _ _)
  | cons c cs ih =>
      rw [List.flatMap_cons, List.append_assoc] at h
      cases ds with
      | nil => exact absurd h (escape_append_ne c _ _)
      | cons d ds =>
          rw [List.flatMap_cons, List.append_assoc] at h
          obtain ⟨rfl, hrest⟩ := escape_append_inj h
          obtain ⟨rfl, rfl⟩ := ih hrest
          exact ⟨rfl, rfl⟩

theorem break_not_mem_encode (cs : List Char) : '\n' ∉ encode cs := by
  have hescape : ∀ c : Char, '\n' ∉ escape c := by
    intro c hmem
    have hc := escaped c
    generalize escape c = w at hc hmem
    cases hc with
    | plain _ _ hbreak => exact hbreak (List.mem_singleton.mp hmem).symm
    | letter letter _ hbreak =>
        simp only [List.mem_cons, List.not_mem_nil, or_false] at hmem
        rcases hmem with hmem | hmem
        · cases hmem
        · exact hbreak hmem.symm
    | number =>
        have hdigits : '\n' ∉ Nat.toDigits 16 c.toNat := by
          intro hdigit
          obtain ⟨n, hn, heq⟩ := digit_of_mem_toDigits (by decide) hdigit
          have hnone : ∀ n < 16, '\n' ≠ Nat.digitChar n := by decide
          exact hnone n hn heq
        simp [codePoint, hdigits] at hmem
  simp [encode, hescape]

end Quoted

end FlowGate.Text
