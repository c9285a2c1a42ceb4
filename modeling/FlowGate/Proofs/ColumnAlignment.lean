import FlowGate.Proofs.TableReading
import Mathlib.Algebra.BigOperators.Intervals

namespace FlowGate.Text.Columns

section Bytes

theorem foldl_utf8Size (n : Nat) (cell : List Char) :
    cell.foldl (fun n c => n + c.utf8Size) n = n + (String.ofList cell).utf8ByteSize := by
  induction cell generalizing n with
  | nil => rfl
  | cons c cell ih =>
      rw [List.foldl_cons, ih, String.ofList_cons, String.utf8ByteSize_append,
        String.utf8ByteSize_singleton, Nat.add_assoc]

theorem bytes_eq (cell : List Char) : bytes cell = (String.ofList cell).utf8ByteSize := by
  rw [bytes, foldl_utf8Size, Nat.zero_add]

theorem length_le_utf8ByteSize (cell : List Char) :
    cell.length ≤ (String.ofList cell).utf8ByteSize := by
  induction cell with
  | nil => exact Nat.zero_le _
  | cons c cell ih =>
      have hc := c.utf8Size_pos
      rw [List.length_cons, String.ofList_cons, String.utf8ByteSize_append,
        String.utf8ByteSize_singleton]
      omega

end Bytes

section Widths

variable {rows : List (List (List Char))} {row : List (List Char)} {cell : List Char} {j : Nat}

/-- The cells of a column, from top to bottom. -/
def column (rows : List (List (List Char))) (j : Nat) : List (List Char) := rows.filterMap (·[j]?)

/-- The most bytes of any cell of a column, if it has one. -/
def width? (rows : List (List (List Char))) (j : Nat) : Option Nat :=
  ((column rows j).map fun cell => (String.ofList cell).utf8ByteSize).max?

def width (rows : List (List (List Char))) (j : Nat) : Nat := (width? rows j).getD 0

theorem getElem?_widen (ws os : List Nat) (j : Nat) :
    (widen ws os)[j]? = Option.merge max ws[j]? os[j]? := by
  induction ws generalizing os j with
  | nil => rw [widen, List.getElem?_nil, Option.merge_none_left]
  | cons w ws ih =>
      cases os with
      | nil => simp [widen]
      | cons o os =>
          cases j with
          | zero => rfl
          | succ j => exact ih os j

theorem width?_cons (row : List (List Char)) (rows : List (List (List Char))) (j : Nat) :
    width? (row :: rows) j = Option.merge max (row.map bytes)[j]? (width? rows j) := by
  rw [List.getElem?_map]
  cases hcell : row[j]? with
  | none =>
      have hcolumn : column (row :: rows) j = column rows j := List.filterMap_cons_none hcell
      rw [width?, hcolumn, Option.map_none, Option.merge_none_left]
      rfl
  | some cell =>
      have hcolumn : column (row :: rows) j = cell :: column rows j := List.filterMap_cons_some hcell
      rw [width?, hcolumn, List.map_cons, List.max?_cons, Option.map_some, bytes_eq]
      change some ((width? rows j).elim _ _) = _
      cases width? rows j with
      | none => rfl
      | some most => rfl

theorem getElem?_foldl_widen (ws : List Nat) (rows : List (List (List Char))) (j : Nat) :
    (rows.foldl (fun ws row => widen ws (row.map bytes)) ws)[j]? =
      Option.merge max ws[j]? (width? rows j) := by
  induction rows generalizing ws with
  | nil => exact Option.merge_none_right.symm
  | cons row rows ih =>
      rw [List.foldl_cons, ih, getElem?_widen, width?_cons]
      exact Std.Associative.assoc _ _ _

theorem getElem?_widths (rows : List (List (List Char))) (j : Nat) :
    (widths rows)[j]? = width? rows j := by
  rw [widths, getElem?_foldl_widen, List.getElem?_nil, Option.merge_none_left]

theorem exists_width (hrow : row ∈ rows) (hcell : row[j]? = some cell) :
    width? rows j = some (width rows j) ∧ (String.ofList cell).utf8ByteSize ≤ width rows j := by
  have hmem : cell ∈ column rows j := List.mem_filterMap.mpr ⟨row, hrow, hcell⟩
  cases hwidth : width? rows j with
  | none =>
      rw [width?, List.max?_eq_none_iff, List.map_eq_nil_iff] at hwidth
      rw [hwidth] at hmem
      cases hmem
  | some w =>
      have hmost := (List.max?_eq_some_iff.mp hwidth).2
      refine ⟨by rw [width, hwidth, Option.getD_some], ?_⟩
      rw [width, hwidth, Option.getD_some]
      exact hmost _ (List.mem_map_of_mem hmem)

end Widths

section Lines

variable {rows : List (List (List Char))} {row : List (List Char)} {ws : List Nat} {w : Nat → Nat}
  {l : List Char}

/-- Where a column starts: behind the columns before it, each with two spaces more than its width. -/
def start (w : Nat → Nat) (i : Nat) : Nat := ∑ j ∈ Finset.range i, (w j + 2)

theorem start_succ (w : Nat → Nat) (i : Nat) :
    start w (i + 1) = w 0 + 2 + start (fun j => w (j + 1)) i := by
  rw [start, Finset.sum_range_succ', Nat.add_comm]
  rfl

/--
How the cells of a row stand in a line: each where its column starts, the last one at the end of the line,
and behind every other two spaces or more, up to the start of the next column.
-/
def Aligned (w : Nat → Nat) (row : List (List Char)) (l : List Char) : Prop :=
  ∀ i cell, row[i]? = some cell → ∃ front rest, l = front ++ cell ++ rest ∧ front.length = start w i ∧
    if i + 1 = row.length then rest = []
    else ∃ gap more, 2 ≤ gap ∧ rest = List.replicate gap ' ' ++ more ∧
      start w i + cell.length + gap = start w (i + 1)

def Wide (w : Nat → Nat) (ws : List Nat) (row : List (List Char)) : Prop :=
  ∀ j cell, row[j]? = some cell → ws[j]? = some (w j) ∧ cell.length ≤ w j

theorem Wide.tail {cell : List Char} (h : Wide w ws (cell :: row)) :
    Wide (fun j => w (j + 1)) ws.tail row := by
  intro j next hnext
  rw [List.getElem?_tail]
  exact h (j + 1) next hnext

theorem aligned_last (w : Nat → Nat) (cell : List Char) : Aligned w [cell] cell := by
  intro i other hother
  cases i with
  | succ i => cases hother
  | zero =>
      cases hother
      exact ⟨[], [], by rw [List.nil_append, List.append_nil], rfl, rfl⟩

theorem Aligned.cons {cell : List Char} (hfits : cell.length ≤ w 0) (hrow : row ≠ [])
    (h : Aligned (fun j => w (j + 1)) row l) :
    Aligned w (cell :: row) (pad (w 0) cell ++ ' ' :: ' ' :: l) := by
  intro i other hother
  cases i with
  | zero =>
      cases hother
      have hmore : ¬0 + 1 = (cell :: row).length := by
        have hlength := List.length_pos_of_ne_nil hrow
        rw [List.length_cons]
        omega
      refine ⟨[], List.replicate (w 0 - cell.length) ' ' ++ ' ' :: ' ' :: l, ?_, rfl, ?_⟩
      · rw [pad, List.nil_append, List.append_assoc]
      · -- The spaces that fill up the column and the two behind it are one gap.
        rw [if_neg hmore]
        refine ⟨w 0 - cell.length + 2, l, Nat.le_add_left _ _, ?_, ?_⟩
        · rw [List.replicate_add, List.append_assoc]
          rfl
        · have hstart : start w 0 = 0 := rfl
          have hnext : start w (0 + 1) = w 0 + 2 := start_succ w 0
          omega
  | succ i =>
      obtain ⟨front, rest, rfl, hfront, hrest⟩ := h i other hother
      refine ⟨pad (w 0) cell ++ ' ' :: ' ' :: front, rest, ?_, ?_, ?_⟩
      · simp only [List.append_assoc, List.cons_append]
      · rw [pad, List.length_append, List.length_append, List.length_replicate, List.length_cons,
          List.length_cons, hfront, start_succ]
        omega
      · rw [List.length_cons, start_succ, start_succ]
        simp only [Nat.add_right_cancel_iff]
        split_ifs at hrest ⊢ with hlast
        · exact hrest
        · obtain ⟨gap, more, hgap, hspaces, hsum⟩ := hrest
          exact ⟨gap, more, hgap, hspaces, by omega⟩

theorem line_aligned (h : Wide w ws row) : Aligned w row (line ws row) := by
  induction row generalizing w ws with
  | nil => exact fun i cell hcell => by cases hcell
  | cons cell row ih =>
      cases row with
      | nil => exact aligned_last w cell
      | cons next row =>
          obtain ⟨hwidth, hfits⟩ := h 0 cell rfl
          have hhead : ws.headD 0 = w 0 := by
            cases ws with
            | nil => cases hwidth
            | cons _ ws => exact Option.some.inj hwidth
          rw [line, hhead]
          · exact (ih h.tail).cons hfits (List.cons_ne_nil _ _)
          · exact List.cons_ne_nil _ _

def lineFrom? (ws : List Nat) (i : Nat) : List (List Char) → Option (List Char)
  | [] => some []
  | [cell] => some cell
  | cell :: rest => do
    let w ← ws[i]?
    let more ← lineFrom? ws (i + 1) rest
    return pad w cell ++ ' ' :: ' ' :: more

theorem lineFrom?_eq (i : Nat) (h : i + row.length ≤ ws.length) :
    lineFrom? ws i row = some (line (ws.drop i) row) := by
  induction row generalizing i with
  | nil => rfl
  | cons cell row ih =>
      cases row with
      | nil => rfl
      | cons next row =>
          have hi : i < ws.length := by
            rw [List.length_cons] at h
            omega
          have hnext := ih (i + 1) (by rw [List.length_cons] at h; omega)
          simp only [lineFrom?, line, List.getElem?_eq_getElem hi, hnext, List.drop_eq_getElem_cons hi,
            List.headD_cons, List.tail_cons]
          rfl

theorem wide_widths (hrow : row ∈ rows) : Wide (width rows) (widths rows) row := by
  intro j cell hcell
  obtain ⟨hwidth, hmost⟩ := exists_width hrow hcell
  rw [getElem?_widths]
  exact ⟨hwidth, (length_le_utf8ByteSize cell).trans hmost⟩

theorem length_le_widths (hrow : row ∈ rows) : row.length ≤ (widths rows).length := by
  cases hlength : row.length with
  | zero => exact Nat.zero_le _
  | succ n =>
      have hn : n < row.length := by omega
      have hwidth := (wide_widths hrow n row[n] (List.getElem?_eq_getElem hn)).1
      exact (List.getElem?_eq_some_iff.mp hwidth).1

end Lines

/--
Columns line up. There is one line for each row, and the widths that it needs are all in the table. In every
row that has a cell in a column, the cell stands at the same character, behind the widths in bytes of the
columns before it and two spaces for each.
-/
theorem columns_line_up (rows : List (List (List Char)))
    (hcells : ∀ row ∈ rows, ∀ cell ∈ row, '\n' ∉ cell) :
    ∃ lines : List (List Char), layout rows = joinLines lines ∧ (∀ l ∈ lines, '\n' ∉ l) ∧
      List.Forall₂ (fun row l => lineFrom? (widths rows) 0 row = some l ∧ Aligned (width rows) row l)
        rows lines := by
  refine ⟨lines rows, layout_eq rows, ?_, ?_⟩
  · exact List.forall_mem_map.mpr fun row hrow => break_not_mem_line (hcells row hrow)
  · refine List.forall₂_map_right_iff.mpr (List.forall₂_same.mpr fun row hrow => ⟨?_, ?_⟩)
    · refine lineFrom?_eq 0 ?_
      rw [Nat.zero_add]
      exact length_le_widths hrow
    · exact line_aligned (wide_widths hrow)

/-- Rows of unequal lengths. The first cell of the first row has two characters of two bytes each. -/
def raggedRows : List (List (List Char)) := [[['é', 'é'], ['x']], [['a', 'b', 'c'], [], ['y']], []]

theorem ragged_rows_line_up :
    (∀ row ∈ raggedRows, ∀ cell ∈ row, '\n' ∉ cell) ∧ start (width raggedRows) 1 = 6 ∧
      ∃ lines : List (List Char), layout raggedRows = joinLines lines ∧ (∀ l ∈ lines, '\n' ∉ l) ∧
        List.Forall₂
          (fun row l => lineFrom? (widths raggedRows) 0 row = some l ∧ Aligned (width raggedRows) row l)
          raggedRows lines :=
  ⟨by decide, by decide, columns_line_up raggedRows (by decide)⟩

end FlowGate.Text.Columns
