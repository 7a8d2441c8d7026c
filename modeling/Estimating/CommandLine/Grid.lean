/-
Grids of text: rows of cells with lines around them.

* `Grid.columnWidths` — each column is as wide as its widest cell;
* `Grid.render` — the grid as text, with a line above and below every row.
-/
import Estimating.Correction.Log
import Estimating.Text.Width

set_option autoImplicit false

namespace Estimating.Grid

/-- A cell as the lines that it takes up. -/
abbrev Cell := List (List Char)

/-- The cell of a text. -/
def cell (text : String) : Cell := pieces text.toList

/-- The columns that a cell takes up. -/
def cellWidth (c : Cell) : Nat := (c.map Text.width).foldl max 0

/-- The width of each column of a grid. -/
def columnWidths : List (List Cell) → List Nat
  | [] => []
  | [row] => row.map cellWidth
  | row :: rest => List.zipWith max (row.map cellWidth) (columnWidths rest)

/-- A line filled up with spaces. -/
def pad (width : Nat) (line : List Char) : List Char :=
  line ++ List.replicate (width - Text.width line) ' '

/-- The line above and below every row. -/
def rule (widths : List Nat) : List Char :=
  '+' :: widths.flatMap fun w => List.replicate (w + 2) '-' ++ ['+']

/-- Line `i` of a row. -/
def rowLine (widths : List Nat) (row : List Cell) (i : Nat) : List Char :=
  '|' :: (List.zip widths row).flatMap fun p =>
    ' ' :: pad p.1 (p.2[i]?.getD []) ++ [' ', '|']

/-- The lines of a row. -/
def rowLines (widths : List Nat) (row : List Cell) : List (List Char) :=
  (List.range ((row.map List.length).foldl max 0)).map (rowLine widths row)

/-- The lines of a grid. -/
def lines (rows : List (List Cell)) : List (List Char) :=
  let widths := columnWidths rows
  rule widths :: rows.flatMap fun row => rowLines widths row ++ [rule widths]

/-- The grid of a heading and rows as text. -/
def render (heading : List String) (rows : List (List String)) : String :=
  "\n".intercalate ((lines ((heading :: rows).map (·.map cell))).map String.ofList)

end Estimating.Grid
