import ControlFlow.Text.Blank
import ControlFlow.Text.Width

/-! Tables of text. A column is as wide as its widest cell, counted in the places that a line of
characters of one width takes up, and two blanks stand between columns. -/
namespace ControlFlow.Text

/-- On which side of its column a cell stands. -/
inductive Align where
  | left
  | right
deriving DecidableEq, Repr

/-- A table: the side and the header of each column, and the rows. Headers stand on the left. -/
structure Table where
  columns : List (Align × String)
  rows : List (List String)
deriving DecidableEq, Repr

/-- A run of blanks. -/
def blanks (n : Nat) : String := String.ofList (List.replicate n ' ')

/-- A text without the blanks at its end. -/
def trimEnd (s : String) : String := String.ofList (s.toList.reverse.dropWhile isBlank).reverse

/-- The lines of a cell. -/
def cellLines (cell : String) : List String := cell.splitOn "\n"

/-- A text filled up with blanks to a width. -/
def fill (align : Align) (size : Nat) (s : String) : String :=
  match align with
  | .left => s ++ blanks (size - width s)
  | .right => blanks (size - width s) ++ s

namespace Table

/-- The width of a column. -/
def columnWidth (cells : List String) : Nat :=
  ((cells.flatMap cellLines).map width).max?.getD 0

/-- The widths of all columns. -/
def widths (table : Table) : List Nat :=
  table.columns.mapIdx fun i (_, header) =>
    columnWidth (header :: table.rows.map fun row => row[i]?.getD "")

/-- The lines of one row, as many as its highest cell has. -/
def rowLines (columns : List (Align × Nat)) (row : List String) : List String :=
  let cells := row.map cellLines
  let height := (cells.map List.length).max?.getD 0
  (List.range height).map fun i =>
    "  ".intercalate <| (columns.zip cells).map fun ((align, size), lines) =>
      fill align size (lines[i]?.getD "")

/-- The lines of a table behind an indent, without blanks at their ends. -/
def lines (table : Table) (indent : String) : List String :=
  let header := rowLines (table.widths.map fun size => (.left, size))
    (table.columns.map Prod.snd)
  let body := table.rows.flatMap
    (rowLines ((table.columns.map Prod.fst).zip table.widths))
  (header ++ body).map fun line => indent ++ trimEnd line

end Table

end ControlFlow.Text
