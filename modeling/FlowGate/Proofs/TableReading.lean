import FlowGate.Proofs.QuotedReading
import FlowGate.Text.Columns

namespace FlowGate.Text

def joinLines (lines : List (List Char)) : List Char := lines.flatMap (· ++ ['\n'])

section Lines

variable {lines lines' : List (List Char)}

theorem joinLines_cons (line : List Char) (lines : List (List Char)) :
    joinLines (line :: lines) = line ++ '\n' :: joinLines lines := by
  rw [joinLines, List.flatMap_cons, List.append_assoc]
  rfl

theorem line_append_inj {line line' x y : List Char} (hline : '\n' ∉ line) (hline' : '\n' ∉ line')
    (h : line ++ '\n' :: x = line' ++ '\n' :: y) : line = line' ∧ x = y := by
  have hend : ∀ rest : List Char, ∀ c ∈ ('\n' :: rest).head?, ¬c ≠ '\n' := by
    rintro rest _ ⟨⟩ hne
    exact hne rfl
  obtain ⟨hsame, hrest⟩ := append_inj_of_head (fun c hc => ne_of_mem_of_not_mem hc hline)
    (fun c hc => ne_of_mem_of_not_mem hc hline') (hend x) (hend y) h
  exact ⟨hsame, (List.cons.inj hrest).2⟩

theorem joinLines_inj (hlines : ∀ line ∈ lines, '\n' ∉ line) (hlines' : ∀ line ∈ lines', '\n' ∉ line)
    (h : joinLines lines = joinLines lines') : lines = lines' := by
  induction lines generalizing lines' with
  | nil =>
      cases lines' with
      | nil => rfl
      | cons line' lines' =>
          rw [joinLines_cons] at h
          exact absurd h.symm (List.append_ne_nil_of_right_ne_nil _ (List.cons_ne_nil _ _))
  | cons line lines ih =>
      rw [joinLines_cons] at h
      cases lines' with
      | nil => exact absurd h (List.append_ne_nil_of_right_ne_nil _ (List.cons_ne_nil _ _))
      | cons line' lines' =>
          rw [joinLines_cons] at h
          obtain ⟨hline, hothers⟩ := List.forall_mem_cons.mp hlines
          obtain ⟨hline', hothers'⟩ := List.forall_mem_cons.mp hlines'
          obtain ⟨rfl, hrest⟩ := line_append_inj hline hline' h
          rw [ih hothers hothers' hrest]

end Lines

namespace Columns

variable {row : List (List Char)} {l : List Char} {c : Char}

/-- A line of cells that two spaces or more part from each other. -/
inductive Spaced : List (List Char) → List Char → Prop
  | last (cell : List Char) : Spaced [cell] cell
  | cons (cell : List Char) (more : Nat) {row : List (List Char)} {l : List Char} (h : Spaced row l) :
    Spaced (cell :: row) (cell ++ ' ' :: ' ' :: (List.replicate more ' ' ++ l))

theorem line_spaced (widths : List Nat) (hrow : row ≠ []) : Spaced row (line widths row) := by
  induction row generalizing widths with
  | nil => exact absurd rfl hrow
  | cons cell row ih =>
      cases row with
      | nil => exact .last cell
      | cons next row =>
          have hspaces : ∀ (n : Nat) (rest : List Char), List.replicate n ' ' ++ ' ' :: ' ' :: rest =
              ' ' :: ' ' :: (List.replicate n ' ' ++ rest) := by
            intro n rest
            induction n with
            | zero => rfl
            | succ n ih => rw [List.replicate_succ, List.cons_append, ih, List.cons_append]
          rw [line, pad, List.append_assoc, hspaces]
          · exact .cons cell _ (ih _ (List.cons_ne_nil _ _))
          · exact List.cons_ne_nil _ _

theorem Spaced.mem (h : Spaced row l) (hc : c ∈ l) : c = ' ' ∨ ∃ cell ∈ row, c ∈ cell := by
  induction h with
  | last cell => exact .inr ⟨cell, List.mem_singleton_self cell, hc⟩
  | cons cell more h ih =>
      simp only [List.mem_append, List.mem_cons, List.mem_replicate] at hc
      rcases hc with hcell | rfl | rfl | ⟨-, rfl⟩ | hrest
      · exact .inr ⟨cell, List.mem_cons_self, hcell⟩
      · exact .inl rfl
      · exact .inl rfl
      · exact .inl rfl
      · exact (ih hrest).imp_right fun ⟨other, hother, hc⟩ => ⟨other, List.mem_cons_of_mem _ hother, hc⟩

theorem Spaced.eq_last {cell : List Char} (h : Spaced [cell] l) : l = cell := by
  cases h with
  | last => rfl
  | cons _ _ h => cases h

theorem Spaced.exists_rest {cell : List Char} (h : Spaced (cell :: row) l) (hrow : row ≠ []) :
    ∃ more rest, Spaced row rest ∧ l = cell ++ ' ' :: ' ' :: (List.replicate more ' ' ++ rest) := by
  cases h with
  | last => exact absurd rfl hrow
  | cons _ more h => exact ⟨more, _, h, rfl⟩

theorem Spaced.head_eq {cell : List Char} (h : Spaced ((c :: cell) :: row) l) : l.head? = some c := by
  cases h <;> rfl

variable {α β : Type}

/-- How values are written as cells: no cell starts with a space, and a space behind one tells its value. -/
structure Column (α : Type) where
  cell : α → List Char
  starts : ∀ a, ∃ c rest, cell a = c :: rest ∧ c ≠ ' '
  ends : ∀ a b x y, cell a ++ ' ' :: x = cell b ++ ' ' :: y → a = b
  unbroken : ∀ a, '\n' ∉ cell a

theorem Column.cell_injective (column : Column α) {a b : α} (h : column.cell a = column.cell b) : a = b :=
  column.ends a b [] [] (by rw [h])

/-- How values are written as rows of cells: a line of them tells the value, however far they are apart. -/
structure Row (α : Type) where
  cells : α → List (List Char)
  starts : ∀ a, ∃ c cell row, cells a = (c :: cell) :: row ∧ c ≠ ' '
  reads : ∀ a b l, Spaced (cells a) l → Spaced (cells b) l → a = b
  unbroken : ∀ a, ∀ cell ∈ cells a, '\n' ∉ cell

namespace Row

def last (column : Column α) : Row α where
  cells a := [column.cell a]
  starts a := by
    obtain ⟨c, rest, hcell, hne⟩ := column.starts a
    exact ⟨c, rest, [], by rw [hcell], hne⟩
  reads a b l h h' := column.cell_injective (h.eq_last.symm.trans h'.eq_last)
  unbroken a := List.forall_mem_singleton.mpr (column.unbroken a)

theorem cells_ne_nil (row : Row α) (a : α) : row.cells a ≠ [] := by
  obtain ⟨c, cell, rest, hcells, -⟩ := row.starts a
  rw [hcells]
  exact List.cons_ne_nil _ _

theorem head_ne_space (row : Row α) {a : α} (h : Spaced (row.cells a) l) : ∀ c ∈ l.head?, ¬c = ' ' := by
  obtain ⟨c, cell, rest, hcells, hne⟩ := row.starts a
  rw [hcells] at h
  rw [h.head_eq]
  rintro _ ⟨⟩
  exact hne

theorem reads_cons (column : Column α) (row : Row β) (p q : α × β) (l : List Char)
    (h : Spaced (column.cell p.1 :: row.cells p.2) l)
    (h' : Spaced (column.cell q.1 :: row.cells q.2) l) : p = q := by
  obtain ⟨more, rest, hrest, rfl⟩ := h.exists_rest (row.cells_ne_nil p.2)
  obtain ⟨more', rest', hrest', hline⟩ := h'.exists_rest (row.cells_ne_nil q.2)
  have hfirst : p.1 = q.1 := column.ends _ _ _ _ hline
  rw [hfirst] at hline
  have hspaces := (List.cons.inj (List.cons.inj (List.append_cancel_left hline)).2).2
  have hspace : ∀ n : Nat, ∀ c ∈ List.replicate n ' ', c = ' ' := fun n c hc => List.eq_of_mem_replicate hc
  obtain ⟨-, rfl⟩ := append_inj_of_head (hspace more) (hspace more') (row.head_ne_space hrest)
    (row.head_ne_space hrest') hspaces
  exact Prod.ext hfirst (row.reads _ _ _ hrest hrest')

def cons (column : Column α) (row : Row β) : Row (α × β) where
  cells p := column.cell p.1 :: row.cells p.2
  starts p := by
    obtain ⟨c, rest, hcell, hne⟩ := column.starts p.1
    exact ⟨c, rest, row.cells p.2, by rw [hcell], hne⟩
  reads := reads_cons column row
  unbroken p := List.forall_mem_cons.mpr ⟨column.unbroken p.1, row.unbroken p.2⟩

end Row

def lines (rows : List (List (List Char))) : List (List Char) := rows.map (line (widths rows))

theorem layout_eq (rows : List (List (List Char))) : layout rows = joinLines (lines rows) := by
  rw [joinLines, lines, List.flatMap_map]
  rfl

theorem break_not_mem_line {widths : List Nat} (hrow : ∀ cell ∈ row, '\n' ∉ cell) :
    '\n' ∉ line widths row := by
  cases row with
  | nil => exact List.not_mem_nil
  | cons cell row =>
      intro hbreak
      rcases (line_spaced widths (List.cons_ne_nil cell row)).mem hbreak with hspace | ⟨other, hother, hmem⟩
      · cases hspace
      · exact hrow other hother hmem

theorem line_ne_nil {widths : List Nat} {cell : List Char} (hcell : cell ≠ []) :
    line widths (cell :: row) ≠ [] := by
  cases row with
  | nil => exact hcell
  | cons next row => exact List.append_ne_nil_of_right_ne_nil _ (List.cons_ne_nil _ _)

namespace Row

variable {header : List (List Char)} {values values' : List α}

theorem values_eq (row : Row α) {widths widths' : List Nat}
    (h : values.map (fun a => line widths (row.cells a)) =
      values'.map fun a => line widths' (row.cells a)) : values = values' := by
  induction values generalizing values' with
  | nil => exact (List.map_eq_nil_iff.mp h.symm).symm
  | cons a values ih =>
      cases values' with
      | nil => cases h
      | cons b values' =>
          rw [List.map_cons, List.map_cons, List.cons.injEq] at h
          obtain ⟨hline, hlines⟩ := h
          have ha := line_spaced widths (row.cells_ne_nil a)
          have hb := line_spaced widths' (row.cells_ne_nil b)
          rw [← hline] at hb
          rw [row.reads a b _ ha hb, ih hlines]

/-- The lines of tables with the same header determine the values in them, however wide the columns are. -/
theorem lines_inj (row : Row α)
    (h : lines (header :: values.map row.cells) = lines (header :: values'.map row.cells)) :
    values = values' := by
  have hrows := (List.cons.inj h).2
  rw [List.map_map, List.map_map] at hrows
  exact row.values_eq hrows

theorem break_not_mem_lines (row : Row α) (hheader : ∀ cell ∈ header, '\n' ∉ cell) :
    ∀ line ∈ lines (header :: values.map row.cells), '\n' ∉ line := by
  refine List.forall_mem_map.mpr (List.forall_mem_cons.mpr ⟨break_not_mem_line hheader, ?_⟩)
  exact List.forall_mem_map.mpr fun a _ => break_not_mem_line (row.unbroken a)

theorem lines_ne_nil (row : Row α) (hheader : ∀ {widths}, line widths header ≠ []) :
    ∀ line ∈ lines (header :: values.map row.cells), line ≠ [] := by
  refine List.forall_mem_map.mpr (List.forall_mem_cons.mpr ⟨hheader, ?_⟩)
  refine List.forall_mem_map.mpr fun a _ => ?_
  obtain ⟨c, cell, rest, hcells, -⟩ := row.starts a
  rw [hcells]
  exact line_ne_nil (List.cons_ne_nil _ _)

end Row

end Columns

end FlowGate.Text
