-- SUMMARY: Tables of texts with aligned columns.
import Bailiff.Text.Basic

/-!
# Tables

Every column but the last is padded with spaces to the width of its longest entry, counted in 16-bit
units, and two spaces stand between columns.
-/

namespace Bailiff

/-- A table of texts. Rows have as many cells as there are headers. -/
structure TextTable where
  headers : List String
  rows : List (List String)
  deriving DecidableEq, Repr

namespace TextTable

/-- No column is narrower than this. -/
def minWidth : Nat := 4

def gap : String := "  "

/-- The width of a column: that of its widest entry. -/
def columnWidth (header : String) (cells : List String) : Nat :=
  (cells.map Text.width).foldl max (max (Text.width header) minWidth)

/-- The entries of a column. -/
def column (rows : List (List String)) (i : Nat) : List String := rows.map fun r => r.getD i ""

/-- The widths of all columns. -/
def widths (t : TextTable) : List Nat :=
  t.headers.mapIdx fun i h => columnWidth h (column t.rows i)

/-- A line of cells. The last cell is not padded. -/
def line : List Nat → List String → String
  | _, [] => ""
  | _, [last] => last
  | w :: ws, cell :: rest => Text.rightpad cell w ++ gap ++ line ws rest
  | [], cell :: rest => cell ++ gap ++ line [] rest

def headerLine (t : TextTable) : String := line t.widths t.headers

def rowLines (t : TextTable) : List String := t.rows.map (line t.widths)

def lines (t : TextTable) : List String := t.headerLine :: t.rowLines

end TextTable

end Bailiff
