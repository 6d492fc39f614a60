import Bulletin.Text.Blank
import Bulletin.Text.Lines

/-! # Tables drawn as text

A table is a list of rows of cells, each a text of any number of lines. It is drawn as a grid: a
separator line before, between and after the rows, and between two separators as many lines as the
tallest cell of the row has. Short rows are filled up with empty cells, and a column is as wide as
its widest line. How wide a line is, is a parameter. -/

namespace Bulletin.Page.Grid

/-- A row of cells, each as its lines. -/
abbrev Row := List (List (List Char))

/-- The lines of a cell; an empty cell has one empty line. -/
def cellLines (cell : List Char) : List (List Char) :=
  match Text.splitLines cell with
  | [] => [[]]
  | ls => ls

/-- The length of the longest row. -/
def columnCount {α : Type} (rows : List (List α)) : Nat :=
  rows.foldr (fun r n => max r.length n) 0

/-- A row of `n` cells, empty ones at the end where the row is shorter. -/
def fillRow (n : Nat) (row : List (List Char)) : Row :=
  row.map cellLines ++ List.replicate (n - row.length) [[]]

/-- The largest of some numbers, zero if there are none. -/
def largest (ns : List Nat) : Nat := ns.foldr max 0

/-- The widest line of a cell. -/
def cellWidth (width : List Char → Nat) (cell : List (List Char)) : Nat := largest (cell.map width)

/-- The width of each of `n` columns. -/
def columnWidths (width : List Char → Nat) (n : Nat) (rows : List Row) : List Nat :=
  rows.foldr (fun r ws => List.zipWith max (r.map (cellWidth width)) ws) (List.replicate n 0)

/-- The number of lines of a row. -/
def rowHeight (row : Row) : Nat := largest (row.map List.length)

/-- The line between two rows. -/
def separator (widths : List Nat) : List Char :=
  '+' :: Text.joinWith ['+'] (widths.map fun w => List.replicate (w + 2) '-') ++ ['+']

/-- One line of a cell, filled up to its column's width and with a space to either side. -/
def cellPiece (width : List Char → Nat) (k w : Nat) (cell : List (List Char)) : List Char :=
  let line := cell.getD k []
  ' ' :: line ++ List.replicate (w - width line) ' ' ++ [' ']

/-- The line with number `k` of a row. -/
def rowLine (width : List Char → Nat) (widths : List Nat) (row : Row) (k : Nat) : List Char :=
  '|' :: Text.joinWith ['|'] (List.zipWith (cellPiece width k) widths row) ++ ['|']

/-- The lines of a row and the separator after it. -/
def rowLines (width : List Char → Nat) (widths : List Nat) (row : Row) : List (List Char) :=
  (List.range (rowHeight row)).map (rowLine width widths row) ++ [separator widths]

/-- The lines of the grid. -/
def lines (width : List Char → Nat) (rows : List Row) (n : Nat) : List (List Char) :=
  let widths := columnWidths width n rows
  separator widths :: rows.flatMap (rowLines width widths)

/-- The grid of a table, nothing if it has no cells. -/
def draw (width : List Char → Nat) (rows : List (List (List Char))) : List Char :=
  let n := columnCount rows
  if n = 0 then []
  else Text.joinWith ['\n'] (lines width (rows.map (fillRow n)) n) ++ ['\n']

end Bulletin.Page.Grid
