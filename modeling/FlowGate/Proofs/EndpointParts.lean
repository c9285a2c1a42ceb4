import FlowGate.Net.Endpoint
import Mathlib.Data.List.Infix
import Mathlib.Data.List.Count

namespace FlowGate.Net.Endpoint

variable {mark text host port : List Char} {c : Char}

/-- A text parted in two where a mark stands in it for the first time. -/
structure Parted (mark text host port : List Char) : Prop where
  joined : text = host ++ mark ++ port
  first : ∀ host' port', text = host' ++ mark ++ port' → host.length ≤ host'.length

namespace Parted

theorem unique {host' port' : List Char} (h : Parted mark text host port)
    (h' : Parted mark text host' port') : host = host' ∧ port = port' := by
  have hlength : host.length = host'.length :=
    Nat.le_antisymm (h.first host' port' h'.joined) (h'.first host port h.joined)
  have hsame := h.joined.symm.trans h'.joined
  rw [List.append_assoc, List.append_assoc] at hsame
  obtain ⟨rfl, hrest⟩ := List.append_inj hsame hlength
  exact ⟨rfl, List.append_cancel_left hrest⟩

theorem at_once (mark port : List Char) : Parted mark (mark ++ port) [] port :=
  ⟨rfl, fun _ _ _ => Nat.zero_le _⟩

theorem later (h : Parted mark text host port) (hnot : ¬mark <+: c :: text) :
    Parted mark (c :: text) (c :: host) port := by
  refine ⟨by rw [h.joined]; rfl, ?_⟩
  intro host' port' hjoined
  cases host' with
  | nil => exact absurd ⟨port', hjoined.symm⟩ hnot
  | cons d host' => exact Nat.succ_le_succ (h.first host' port' (List.cons.inj hjoined).2)

end Parted

def partAt (mark : List Char) : List Char → Option (List Char × List Char)
  | [] => none
  | c :: text =>
    if mark <+: c :: text then some ([], (c :: text).drop mark.length)
    else (partAt mark text).map fun (host, port) => (c :: host, port)

theorem parted_of_partAt (h : partAt mark text = some (host, port)) : Parted mark text host port := by
  induction text generalizing host with
  | nil => cases h
  | cons c text ih =>
      rw [partAt] at h
      split_ifs at h with hmark
      · obtain ⟨rest, hrest⟩ := hmark
        rw [← hrest, List.drop_left, Option.some.injEq, Prod.mk.injEq] at h
        obtain ⟨rfl, rfl⟩ := h
        rw [← hrest]
        exact .at_once mark rest
      · obtain ⟨⟨host', port'⟩, hparts, heq⟩ := Option.map_eq_some_iff.mp h
        rw [Prod.mk.injEq] at heq
        obtain ⟨rfl, rfl⟩ := heq
        exact (ih hparts).later hmark

theorem partAt_eq_none_iff (hmark : mark ≠ []) : partAt mark text = none ↔ ¬mark <:+: text := by
  induction text with
  | nil => simp [partAt, hmark]
  | cons c text ih =>
      rw [partAt, List.infix_cons_iff]
      split_ifs with hfirst
      · simp [hfirst]
      · simp [hfirst, ih]

theorem partAt_eq_some_iff (hmark : mark ≠ []) :
    partAt mark text = some (host, port) ↔ Parted mark text host port := by
  refine ⟨parted_of_partAt, fun h => ?_⟩
  cases hparts : partAt mark text with
  | none => exact absurd ⟨host, port, h.joined.symm⟩ ((partAt_eq_none_iff hmark).mp hparts)
  | some parts =>
      obtain ⟨rfl, rfl⟩ := h.unique (parted_of_partAt hparts)
      rfl

theorem atColon_eq_partAt (text : List Char) : atColon text = partAt [':'] text := by
  fun_induction atColon text with
  | case1 => rfl
  | case2 rest => simp [partAt]
  | case3 c rest hc ih =>
      have hnot : ¬[':'] <+: c :: rest := by
        rw [List.cons_prefix_cons]
        exact fun h => hc h.1.symm
      rw [partAt, if_neg hnot, ih]

theorem atBracket_eq_partAt (text : List Char) : atBracket text = partAt [']', ':'] text := by
  fun_induction atBracket text with
  | case1 => rfl
  | case2 rest => simp [partAt]
  | case3 c rest hc ih =>
      have hnot : ¬[']', ':'] <+: c :: rest := by
        rintro ⟨port, hport⟩
        obtain ⟨rfl, rfl⟩ := List.cons.inj hport
        exact hc port rfl rfl
      rw [partAt, if_neg hnot, ih]

theorem parted_colon_iff : Parted [':'] text host port ↔ text = host ++ ':' :: port ∧ ':' ∉ host := by
  have hassoc : ∀ host port : List Char, host ++ [':'] ++ port = host ++ ':' :: port :=
    fun host port => List.append_assoc host [':'] port
  constructor
  · intro h
    have hjoined : text = host ++ ':' :: port := h.joined.trans (hassoc host port)
    refine ⟨hjoined, fun hmem => ?_⟩
    obtain ⟨front, back, rfl⟩ := List.append_of_mem hmem
    have hle := h.first front (back ++ ':' :: port) (by simp [hjoined])
    rw [List.length_append, List.length_cons] at hle
    omega
  · rintro ⟨rfl, hhost⟩
    refine ⟨(hassoc host port).symm, fun host' port' hjoined => ?_⟩
    rw [hassoc, List.append_eq_append_iff] at hjoined
    rcases hjoined with ⟨more, rfl, -⟩ | ⟨more, rfl, hrest⟩
    · rw [List.length_append]
      exact Nat.le_add_right _ _
    · cases more with
      | nil => rw [List.append_nil]
      | cons d more =>
          obtain ⟨rfl, -⟩ := List.cons.inj hrest
          exact absurd (List.mem_append_right host' List.mem_cons_self) hhost

section Shapes

theorem split?_bracket (text : List Char) : split? ('[' :: text) = partAt [']', ':'] text :=
  atBracket_eq_partAt text

theorem split?_plain (htext : text.head? ≠ some '[') :
    split? text = (partAt [':'] text).filter fun (_, port) => !port.contains ':' := by
  rw [← atColon_eq_partAt]
  cases text with
  | nil => rfl
  | cons c text =>
      have hc : c ≠ '[' := fun hc => htext (congrArg some hc)
      rw [split?]
      exact fun _ h => hc (List.cons.inj h).1

theorem split?_bracket_eq_some_iff :
    split? ('[' :: text) = some (host, port) ↔ Parted [']', ':'] text host port := by
  rw [split?_bracket, partAt_eq_some_iff (List.cons_ne_nil _ _)]

theorem split?_bracket_eq_none_iff : split? ('[' :: text) = none ↔ ¬[']', ':'] <:+: text := by
  rw [split?_bracket, partAt_eq_none_iff (List.cons_ne_nil _ _)]

theorem split?_plain_eq_some_iff (htext : text.head? ≠ some '[') :
    split? text = some (host, port) ↔ text = host ++ ':' :: port ∧ ':' ∉ host ∧ ':' ∉ port := by
  rw [split?_plain htext, Option.filter_eq_some_iff, partAt_eq_some_iff (List.cons_ne_nil _ _),
    parted_colon_iff, and_assoc]
  simp

theorem split?_plain_eq_none_iff (htext : text.head? ≠ some '[') :
    split? text = none ↔ text.count ':' = 0 ∨ 2 ≤ text.count ':' := by
  rw [split?_plain htext]
  cases hparts : partAt [':'] text with
  | none =>
      rw [partAt_eq_none_iff (List.cons_ne_nil _ _), List.singleton_infix_iff] at hparts
      simp [List.count_eq_zero.mpr hparts]
  | some parts =>
      obtain ⟨rfl, hhost⟩ := parted_colon_iff.mp (parted_of_partAt hparts)
      rw [List.count_append, List.count_cons_self, List.count_eq_zero.mpr hhost, Nat.zero_add]
      by_cases hport : ':' ∈ parts.2
      · simp [hport]
      · simp [hport, List.count_eq_zero.mpr hport]

theorem split?_injective {text' : List Char} (hshape : text.head? = some '[' ↔ text'.head? = some '[')
    (h : split? text = some (host, port)) (h' : split? text' = some (host, port)) : text = text' := by
  by_cases hbracket : text.head? = some '['
  · obtain ⟨rest, rfl⟩ := List.head?_eq_some_iff.mp hbracket
    obtain ⟨rest', rfl⟩ := List.head?_eq_some_iff.mp (hshape.mp hbracket)
    rw [(split?_bracket_eq_some_iff.mp h).joined, (split?_bracket_eq_some_iff.mp h').joined]
  · have hbracket' : text'.head? ≠ some '[' := fun h => hbracket (hshape.mpr h)
    rw [((split?_plain_eq_some_iff hbracket).mp h).1, ((split?_plain_eq_some_iff hbracket').mp h').1]

end Shapes

/--
Endpoints are taken apart without loss. A text without an opening bracket is parted at its only colon, and has
no parts if it has none or several; a text with one is parted at the first `]:` behind the bracket, and has no
parts if there is none. Two texts of one shape never have the same parts.
-/
theorem parts_lose_nothing :
    (∀ text : List Char, text.head? ≠ some '[' →
      (∀ host port, split? text = some (host, port) ↔
        text = host ++ ':' :: port ∧ ':' ∉ host ∧ ':' ∉ port) ∧
      (split? text = none ↔ text.count ':' = 0 ∨ 2 ≤ text.count ':')) ∧
    (∀ text : List Char,
      (∀ host port, split? ('[' :: text) = some (host, port) ↔
        text = host ++ [']', ':'] ++ port ∧
          ∀ host' port', text = host' ++ [']', ':'] ++ port' → host.length ≤ host'.length) ∧
      (split? ('[' :: text) = none ↔ ¬[']', ':'] <:+: text)) ∧
    ∀ text text' host port, (text.head? = some '[' ↔ text'.head? = some '[') →
      split? text = some (host, port) → split? text' = some (host, port) → text = text' := by
  refine ⟨fun text htext => ?_, fun text => ⟨fun host port => ?_, split?_bracket_eq_none_iff⟩, ?_⟩
  · exact ⟨fun host port => split?_plain_eq_some_iff htext, split?_plain_eq_none_iff htext⟩
  · rw [split?_bracket_eq_some_iff]
    exact ⟨fun h => ⟨h.joined, h.first⟩, fun h => ⟨h.1, h.2⟩⟩
  · exact fun text text' host port hshape h h' => split?_injective hshape h h'

example : split? "[[a]]:80]:".toList = some ("[a]".toList, "80]:".toList) := by decide

end FlowGate.Net.Endpoint
