import Phrasebook.Text.Basic
import Phrasebook.Text.Width

/-!
# Tables in Markdown

A table is a heading and rows of cells. Every column is as wide as its widest
line; cells stand at the left and are filled with blanks. A cell of several
lines spreads its row over as many lines.

## Main definitions

* `TextTable`, `TextTable.render`
-/
namespace Phrasebook

/-- A heading and rows of cells. -/
structure TextTable where
  heading : List String
  rows : List (List String)
  deriving DecidableEq, Repr

namespace TextTable

/-- The lines of a cell. -/
def cellLines (cell : String) : List (List Char) := Text.splitOn '\n' cell.toList

/-- The columns the widest line of a cell takes. -/
def cellWidth (cell : String) : Nat := ((cellLines cell).map Text.width).foldl max 0

/-- The widths of two rows of cells, the wider of each column. -/
def widest : List Nat → List Nat → List Nat
  | [], ws => ws
  | ws, [] => ws
  | v :: vs, w :: ws => max v w :: widest vs ws

/-- The width of every column. -/
def columnWidths (t : TextTable) : List Nat :=
  (t.heading :: t.rows).foldl (fun ws row => widest ws (row.map cellWidth)) []

/-- A line filled up with blanks to a width. -/
def fill (columns : Nat) (line : List Char) : String :=
  String.ofList (line ++ List.replicate (columns - Text.width line) ' ')

/-- One line of a row: the line of that number of every cell, empty where a cell
has no more lines. -/
def rowLine (widths : List Nat) (cells : List (List (List Char))) (n : Nat) : String :=
  "| " ++ Text.join " | " ((widths.zip cells).map fun (w, lines) => fill w (lines.getD n [])) ++ " |"

/-- The lines of a row. -/
def rowLines (widths : List Nat) (row : List String) : List String :=
  let cells := row.map cellLines
  let height := (cells.map List.length).foldl max 1
  (List.range height).map (rowLine widths cells)

/-- The line between the heading and the rows. -/
def rule (widths : List Nat) : String :=
  "|" ++ Text.join "|" (widths.map fun w => Text.repeated "-" (w + 2)) ++ "|"

/-- The table as text, without a line end after the last row. -/
def render (t : TextTable) : String :=
  let widths := t.columnWidths
  Text.join "\n" (rowLines widths t.heading ++ [rule widths] ++ t.rows.flatMap (rowLines widths))

end TextTable
end Phrasebook
