import FlowGate.Proofs.TableReading
import FlowGate.Snapshot
import Mathlib.Data.List.Basic
import Mathlib.Data.Prod.Basic

namespace FlowGate

open FlowGate.Text
open FlowGate.Text.Columns

section Cells

theorem decimal_eq_cons (n : Nat) :
    ∃ c rest, Numeral.decimal n = c :: rest ∧ c.isDigit = true := by
  obtain ⟨c, rest, hdigits⟩ := List.exists_cons_of_ne_nil (@Nat.toDigits_ne_nil n 10)
  refine ⟨c, rest, hdigits, isDigit_of_mem_decimal (n := n) ?_⟩
  rw [Numeral.decimal, hdigits]
  exact List.mem_cons_self

theorem break_not_mem_decimal (n : Nat) : '\n' ∉ Numeral.decimal n := by
  intro hbreak
  cases isDigit_of_mem_decimal hbreak

theorem decimal_append_starts (n : Nat) (unit : List Char) :
    ∃ c rest, Numeral.decimal n ++ unit = c :: rest ∧ c ≠ ' ' := by
  obtain ⟨c, rest, hdigits, hc⟩ := decimal_eq_cons n
  refine ⟨c, rest ++ unit, by rw [hdigits, List.cons_append], ?_⟩
  rintro rfl
  cases hc

def countColumn (unit : List Char) (hunit : ∀ c ∈ unit.head?, c.isDigit = false)
    (hbreak : '\n' ∉ unit) : Column Nat where
  cell n := Numeral.decimal n ++ unit
  starts n := decimal_append_starts n unit
  ends m n x y h := by
    have hnext : ∀ z : List Char, ∀ c ∈ (unit ++ ' ' :: z).head?, c.isDigit = false := by
      intro z c hc
      cases unit with
      | nil =>
          cases hc
          rfl
      | cons d unit => exact hunit c hc
    rw [List.append_assoc, List.append_assoc] at h
    exact (decimal_append_inj (hnext x) (hnext y) h).1
  unbroken n := List.not_mem_append (break_not_mem_decimal n) hbreak

def textColumn : Column String where
  cell s := Quoted.encode s.toList
  starts s := ⟨'"', _, rfl, by decide⟩
  ends _ _ _ _ h := String.toList_inj.mp (Quoted.encode_append_inj h).1
  unbroken s := Quoted.break_not_mem_encode s.toList

def expiryCell : Option Nat → List Char
  | none => "not done".toList
  | some ms => Numeral.decimal ms ++ "ms".toList

theorem expiryCell_none : expiryCell none = "not done".toList := rfl

theorem expiryCell_some (ms : Nat) : expiryCell (some ms) = Numeral.decimal ms ++ "ms".toList := rfl

theorem expiryCell_append_inj {left left' : Option Nat} {x y : List Char}
    (h : expiryCell left ++ x = expiryCell left' ++ y) : left = left' := by
  have hword : ∀ (ms : Nat) (x y : List Char), "not done".toList ++ x ≠ Numeral.decimal ms ++ y := by
    intro ms x y h
    obtain ⟨c, rest, hdigits, hc⟩ := decimal_eq_cons ms
    rw [hdigits] at h
    cases (List.cons.inj h).1
    cases hc
  cases left with
  | none =>
      cases left' with
      | none => rfl
      | some ms =>
          rw [expiryCell_none, expiryCell_some, List.append_assoc] at h
          exact absurd h (hword ms _ _)
  | some ms =>
      cases left' with
      | none =>
          rw [expiryCell_none, expiryCell_some, List.append_assoc] at h
          exact absurd h.symm (hword ms _ _)
      | some ms' =>
          rw [expiryCell_some, expiryCell_some, List.append_assoc, List.append_assoc] at h
          have hunit : ∀ z : List Char, ∀ c ∈ ("ms".toList ++ z).head?, c.isDigit = false := by
            rintro z _ ⟨⟩
            rfl
          rw [(decimal_append_inj (hunit x) (hunit y) h).1]

theorem break_not_mem_expiryCell (left : Option Nat) : '\n' ∉ expiryCell left := by
  cases left with
  | none =>
      rw [expiryCell_none]
      decide
  | some ms =>
      rw [expiryCell_some]
      exact List.not_mem_append (break_not_mem_decimal ms) (by decide)

def expiryColumn : Column (Option Nat) where
  cell := expiryCell
  starts
    | none => ⟨'n', _, rfl, by decide⟩
    | some ms => decimal_append_starts ms _
  ends _ _ _ _ h := expiryCell_append_inj h
  unbroken := break_not_mem_expiryCell

end Cells

/-- What the text shows of an active ticket. -/
def Holding.shown (h : Holding) : String × String × String × String × Option Nat × Nat :=
  (h.flow.protocol, h.flow.localAddr, h.flow.remoteAddr, h.reason, h.expiresInMillis, h.ageMillis)

namespace Snapshot

def ageColumn : Column Nat :=
  countColumn "ms ago".toList (by rintro _ ⟨⟩; rfl) (by decide)

def reasonTable : Row (Nat × String) := .cons (countColumn [] nofun List.not_mem_nil) (.last textColumn)

def holdingTable : Row (String × String × String × String × Option Nat × Nat) :=
  .cons textColumn <| .cons textColumn <| .cons textColumn <| .cons textColumn <|
    .cons expiryColumn (.last ageColumn)

def reasonHeader : List (List Char) := ["num".toList, "reason".toList]

def holdingHeader : List (List Char) :=
  ["protocol".toList, "local".toList, "remote".toList, "reason".toList, "expires".toList,
    "created".toList]

theorem reasonRows_eq (s : Snapshot) :
    s.reasonRows = reasonHeader :: (s.waitingByReason.rows.map Prod.swap).map reasonTable.cells := by
  have hcells : ∀ row : String × Nat, reasonTable.cells row.swap =
      [Numeral.decimal row.2, Quoted.encode row.1.toList] := by
    intro row
    rw [← List.append_nil (Numeral.decimal row.2)]
    rfl
  rw [List.map_map]
  exact congrArg (reasonHeader :: ·) (List.map_congr_left fun row _ => (hcells row).symm)

theorem holdingRows_eq (s : Snapshot) :
    s.holdingRows = holdingHeader :: (s.holdings.map Holding.shown).map holdingTable.cells := by
  have hcells : ∀ h : Holding, holdingTable.cells h.shown = holdingRow h := by
    rintro ⟨id, flow, reason, priority, created, age, _ | left⟩ <;> rfl
  rw [List.map_map]
  exact congrArg (holdingHeader :: ·) (List.map_congr_left fun h _ => (hcells h).symm)

def capacityText : Option Nat → List Char
  | none => " (unlimited)".toList
  | some capacity => " (max ".toList ++ Numeral.decimal capacity ++ [')']

theorem capacityText_none : capacityText none = " (unlimited)".toList := rfl

theorem capacityText_some (n : Nat) :
    capacityText (some n) = " (max ".toList ++ Numeral.decimal n ++ [')'] := rfl

theorem heading_eq (s : Snapshot) :
    s.heading = "num entries: ".toList ++ Numeral.decimal s.flows ++ capacityText s.capacity := by
  obtain ⟨capacity, flows, waiting, waitingByReason, holdings⟩ := s
  cases capacity <;> rfl

def lines (s : Snapshot) : List (List Char) :=
  s.heading :: [] :: (Numeral.decimal s.waiting ++ " waiters:".toList) ::
    (Columns.lines s.reasonRows ++ [] :: "handles:".toList :: Columns.lines s.holdingRows)

theorem toList_text (s : Snapshot) : s.text.toList = joinLines s.lines := by
  have hword : " waiters:\n".toList = " waiters:".toList ++ ['\n'] := by decide
  have hhandles : "handles:\n".toList = "handles:".toList ++ ['\n'] := by decide
  rw [text, String.toList_ofList, chars, lines, hword, hhandles, layout_eq, layout_eq]
  simp only [joinLines, List.flatMap_cons, List.flatMap_append, List.append_assoc, List.nil_append,
    List.cons_append]

theorem length_lines (s : Snapshot) :
    s.lines.length = 7 + s.waitingByReason.size + s.holdings.length := by
  have hreasons : (Columns.lines s.reasonRows).length = s.waitingByReason.size + 1 := by
    rw [Columns.lines, List.length_map, reasonRows_eq, List.length_cons, List.length_map, List.length_map]
    rfl
  have hholdings : (Columns.lines s.holdingRows).length = s.holdings.length + 1 := by
    rw [Columns.lines, List.length_map, holdingRows_eq, List.length_cons, List.length_map,
      List.length_map]
  simp only [lines, List.length_cons, List.length_append, hreasons, hholdings]
  omega

theorem break_not_mem_capacityText (capacity : Option Nat) : '\n' ∉ capacityText capacity := by
  cases capacity with
  | none =>
      rw [capacityText_none]
      decide
  | some n =>
      have hword : '\n' ∉ " (max ".toList := by decide
      rw [capacityText_some]
      exact List.not_mem_append (List.not_mem_append hword (break_not_mem_decimal n)) (by decide)

theorem break_not_mem_lines (s : Snapshot) : ∀ line ∈ s.lines, '\n' ∉ line := by
  have hheading : '\n' ∉ s.heading := by
    have hword : '\n' ∉ "num entries: ".toList := by decide
    rw [heading_eq]
    exact List.not_mem_append (List.not_mem_append hword (break_not_mem_decimal _))
      (break_not_mem_capacityText _)
  have hwaiting : '\n' ∉ Numeral.decimal s.waiting ++ " waiters:".toList := by
    have hword : '\n' ∉ " waiters:".toList := by decide
    exact List.not_mem_append (break_not_mem_decimal _) hword
  have hreasons : ∀ line ∈ Columns.lines s.reasonRows, '\n' ∉ line := by
    rw [reasonRows_eq]
    exact reasonTable.break_not_mem_lines (by decide)
  have hholdings : ∀ line ∈ Columns.lines s.holdingRows, '\n' ∉ line := by
    rw [holdingRows_eq]
    exact holdingTable.break_not_mem_lines (by decide)
  have hhandles : '\n' ∉ "handles:".toList := by decide
  simp only [lines, List.forall_mem_cons, List.forall_mem_append]
  exact ⟨hheading, List.not_mem_nil, hwaiting, hreasons, List.not_mem_nil, hhandles, hholdings⟩

theorem reasonLines_ne_nil (s : Snapshot) : ∀ line ∈ Columns.lines s.reasonRows, line ≠ [] := by
  have hword : "num".toList ≠ [] := by decide
  rw [reasonRows_eq]
  exact reasonTable.lines_ne_nil (line_ne_nil hword)

variable {s s' : Snapshot}

theorem capacityText_injective : Function.Injective capacityText := by
  have hword : ∀ n : Nat, " (unlimited)".toList ≠ " (max ".toList ++ Numeral.decimal n ++ [')'] := by
    intro n h
    rw [List.append_assoc] at h
    have hthird := congrArg (fun cs => cs[2]?) h
    cases hthird
  rintro (_ | m) (_ | n) h
  · rfl
  · exact absurd h (hword n)
  · exact absurd h.symm (hword m)
  · rw [capacityText_some, capacityText_some] at h
    rw [decimal_injective (List.append_cancel_left (List.append_cancel_right h))]

theorem heading_inj (h : s.heading = s'.heading) : s.flows = s'.flows ∧ s.capacity = s'.capacity := by
  have hspace : ∀ capacity, ∀ c ∈ (capacityText capacity).head?, c.isDigit = false := by
    rintro (_ | n) _ ⟨⟩ <;> rfl
  rw [heading_eq, heading_eq, List.append_assoc, List.append_assoc] at h
  obtain ⟨hflows, hcapacity⟩ :=
    decimal_append_inj (hspace _) (hspace _) (List.append_cancel_left h)
  exact ⟨hflows, capacityText_injective hcapacity⟩

theorem sections_inj {rows rows' rest rest' : List (List Char)} (hrows : ∀ row ∈ rows, row ≠ [])
    (hrows' : ∀ row ∈ rows', row ≠ []) (h : rows ++ [] :: rest = rows' ++ [] :: rest') :
    rows = rows' ∧ rest = rest' := by
  have hend : ∀ rest : List (List Char), ∀ row ∈ ([] :: rest).head?, ¬row ≠ [] := by
    rintro rest _ ⟨⟩ hne
    exact hne rfl
  obtain ⟨hsame, hrest⟩ := append_inj_of_head hrows hrows' (hend rest) (hend rest') h
  exact ⟨hsame, (List.cons.inj hrest).2⟩

theorem text_inj (h : s.text = s'.text) :
    s.capacity = s'.capacity ∧ s.flows = s'.flows ∧ s.waiting = s'.waiting ∧
      s.waitingByReason = s'.waitingByReason ∧
        s.holdings.map Holding.shown = s'.holdings.map Holding.shown := by
  have hlines : s.lines = s'.lines := by
    apply joinLines_inj (break_not_mem_lines s) (break_not_mem_lines s')
    rw [← toList_text, ← toList_text, h]
  obtain ⟨hheading, hlines⟩ := List.cons.inj hlines
  obtain ⟨hwaiting, hsections⟩ := List.cons.inj (List.cons.inj hlines).2
  obtain ⟨hreasons, hlines⟩ := sections_inj (reasonLines_ne_nil s) (reasonLines_ne_nil s') hsections
  have hholdings := (List.cons.inj hlines).2
  rw [reasonRows_eq, reasonRows_eq] at hreasons
  rw [holdingRows_eq, holdingRows_eq] at hholdings
  obtain ⟨hflows, hcapacity⟩ := heading_inj hheading
  refine ⟨hcapacity, hflows, decimal_injective (List.append_cancel_right hwaiting), ?_, ?_⟩
  · have hrows := reasonTable.lines_inj hreasons
    exact Catalog.ext (List.map_injective_iff.mpr Prod.swap_injective hrows)
  · exact holdingTable.lines_inj hholdings

theorem text_eq (hcapacity : s.capacity = s'.capacity) (hflows : s.flows = s'.flows)
    (hwaiting : s.waiting = s'.waiting) (hreasons : s.waitingByReason = s'.waitingByReason)
    (hshown : s.holdings.map Holding.shown = s'.holdings.map Holding.shown) : s.text = s'.text := by
  have hlines : s.lines = s'.lines := by
    rw [lines, lines, heading_eq, heading_eq, reasonRows_eq, reasonRows_eq, holdingRows_eq,
      holdingRows_eq, hcapacity, hflows, hwaiting, hreasons, hshown]
  rw [← String.toList_inj, toList_text, toList_text, hlines]

/--
The text of a snapshot is unambiguous. It has seven lines, one more for every reason and one for every active
ticket; and it determines the counts, and of the active tickets all that it shows of them, in their order.
-/
theorem text_is_unambiguous :
    (∀ s : Snapshot, ∃ lines : List (List Char), s.text.toList = joinLines lines ∧
      lines.length = 7 + s.waitingByReason.size + s.holdings.length ∧ ∀ line ∈ lines, '\n' ∉ line) ∧
    ∀ s s' : Snapshot, s.text = s'.text ↔
      s.capacity = s'.capacity ∧ s.flows = s'.flows ∧ s.waiting = s'.waiting ∧
        s.waitingByReason = s'.waitingByReason ∧
          s.holdings.map Holding.shown = s'.holdings.map Holding.shown := by
  refine ⟨fun s => ⟨s.lines, toList_text s, length_lines s, break_not_mem_lines s⟩, fun s s' => ?_⟩
  refine ⟨text_inj, ?_⟩
  rintro ⟨hcapacity, hflows, hwaiting, hreasons, hshown⟩
  exact text_eq hcapacity hflows hwaiting hreasons hshown

end Snapshot

end FlowGate
