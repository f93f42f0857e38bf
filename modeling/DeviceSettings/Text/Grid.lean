import DeviceSettings.Text.Blank
import DeviceSettings.Text.Width

/-!
# Grids

Rows of cells between lines with round corners, under a row of headings.  A cell may have several lines.
-/

namespace DeviceSettings.Text

/-- A row: the lines of each of its cells. -/
abbrev GridRow := List (List (List Char))

def gridRow (cells : List String) : GridRow := cells.map fun s => splitOn '\n' s.toList

def blanks (n : Nat) : List Char := List.replicate n ' '

/-- The widths of the columns. -/
def columnWidths (columns : Nat) (rows : List GridRow) : List Nat :=
  (List.range columns).map fun i =>
    (rows.map fun row => ((row.getD i []).map width).foldl max 0).foldl max 0

/-- A line between rows, with its left end, its crossings and its right end. -/
def ruleLine (left cross right : Char) (widths : List Nat) : List Char :=
  left :: List.intercalate [cross] (widths.map fun w => List.replicate (w + 2) '─') ++ [right]

def rowLine (widths : List Nat) (row : GridRow) (i : Nat) : List Char :=
  '│' :: List.intercalate ['│'] ((widths.zip row).map fun (w, cell) =>
    let line := cell.getD i []
    ' ' :: line ++ blanks (w - width line) ++ [' ']) ++ ['│']

def rowLines (widths : List Nat) (row : GridRow) : List (List Char) :=
  (List.range ((row.map List.length).foldl max 1)).map (rowLine widths row)

/-- A grid as lines of text.  The line under the headings is also the last one when there are no rows. -/
def grid (headings : List String) (rows : List (List String)) : String :=
  let head := gridRow headings
  let body := rows.map gridRow
  let widths := columnWidths headings.length (head :: body)
  let lines := [ruleLine '╭' '┬' '╮' widths] ++ rowLines widths head ++ [ruleLine '├' '┼' '┤' widths]
    ++ body.flatMap (rowLines widths)
    ++ if body.isEmpty then [] else [ruleLine '╰' '┴' '╯' widths]
  .ofList (List.intercalate ['\n'] lines)

end DeviceSettings.Text
