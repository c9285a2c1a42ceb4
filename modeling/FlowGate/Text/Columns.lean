namespace FlowGate.Text.Columns

def bytes (cell : List Char) : Nat := cell.foldl (fun n c => n + c.utf8Size) 0

/-- The larger width, column by column; the longer list goes on alone. -/
def widen : List Nat → List Nat → List Nat
  | [], others => others
  | widths, [] => widths
  | w :: widths, o :: others => max w o :: widen widths others

def widths (rows : List (List (List Char))) : List Nat :=
  rows.foldl (fun widths row => widen widths (row.map bytes)) []

def pad (width : Nat) (cell : List Char) : List Char :=
  cell ++ List.replicate (width - cell.length) ' '

/-- One line: every cell but the last is padded and parted from the next. -/
def line : List Nat → List (List Char) → List Char
  | _, [] => []
  | _, [cell] => cell
  | widths, cell :: rest => pad (widths.headD 0) cell ++ ' ' :: ' ' :: line widths.tail rest

def layout (rows : List (List (List Char))) : List Char :=
  rows.flatMap fun row => line (widths rows) row ++ ['\n']

end FlowGate.Text.Columns
