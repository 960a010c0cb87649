import PlayDiagram.Text.Width

/-!
# Tables of text

A table has a header and rows, drawn with ASCII lines.  Each column is as wide as its widest cell;
a cell may have several lines.
-/

namespace PlayDiagram.Table

-- Sums start from the zero of core, whatever else is in scope.
attribute [local instance (2000)] Zero.ofOfNat0

/-- The lines of a cell. -/
def cellLines (cell : String) : List String :=
  cell.splitOn "\n"

/-- The columns that a cell takes. -/
def cellWidth (cell : String) : Nat :=
  ((cellLines cell).map textWidth).foldl max 0

/-- The width of each column of some rows. -/
def columnWidths (header : List String) (rows : List (List String)) : List Nat :=
  rows.foldl (fun widths row => List.zipWith max widths (row.map cellWidth))
    (header.map cellWidth)

/-- The given number of copies of a character. -/
def times (n : Nat) (c : Char) : String :=
  String.ofList (List.replicate n c)

/-- A line of dashes, with a plus sign between columns. -/
def rule (ends : String) (widths : List Nat) : String :=
  ends ++ "+".intercalate (widths.map fun w => times (w + 2) '-') ++ ends

/-- The line under the header. -/
def headerRule (widths : List Nat) : String :=
  "+" ++ times ((widths.map (· + 2)).sum + (widths.length - 1)) '=' ++ "+"

/-- One line of a row. -/
def textLine (widths : List Nat) (cells : List String) : String :=
  let padded := List.zipWith (fun w cell => " " ++ cell ++ times (w - textWidth cell) ' ' ++ " ")
    widths cells
  "|" ++ "|".intercalate padded ++ "|"

/-- The lines of a row, as many as its tallest cell has. -/
def rowLines (widths : List Nat) (row : List String) : List String :=
  let cells := row.map cellLines
  let height := (cells.map List.length).foldl max 1
  (List.range height).map fun i => textLine widths (cells.map fun lines => lines.getD i "")

/-- The lines of a table. -/
def lines (header : List String) (rows : List (List String)) : List String :=
  let widths := columnWidths header rows
  let body := (rows.map (rowLines widths)).intersperse [rule "|" widths]
  [rule "+" widths] ++ rowLines widths header ++ [headerRule widths] ++ body.flatten ++
    [rule "+" widths]

end PlayDiagram.Table
