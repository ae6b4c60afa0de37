import DeskCheck.Table
import DeskCheck.Text.Blank
import DeskCheck.Text.Layout

/-!
# The table as text

The table is laid out in columns of fixed width, each as wide as its widest cell.  Only the entries
that a row changes are written, as in a table that is filled in by hand.  Blanks at the end of a line
are left out.
-/

namespace DeskCheck

namespace Row

/-- The line number of a row, counted from one, or a dash before the first line. -/
def lineText (r : Row) : String :=
  match r.line with
  | some line => toString (line + 1)
  | none => "-"

/-- The accesses of a row, separated by commas. -/
def accessText (r : Row) : String := String.intercalate ", " (r.accesses.map Access.toText)

/-- What a row printed, separated by spaces. -/
def outputText (r : Row) : String := String.intercalate " " r.output

/-- The cells of a row, in which an entry stands for itself through `show`. -/
def cells (entryText : Entry → String) (r : Row) : List (List Char) :=
  ([toString r.step, r.lineText] ++ r.entries.map entryText ++ [r.accessText, r.outputText]).map
    String.toList

end Row

/-- The text of an entry where it changed, and nothing where it did not. -/
def Entry.changedText (e : Entry) : String := if e.changed then e.text.getD "" else ""

/-- The text of an entry, changed or not. -/
def Entry.currentText (e : Entry) : String := e.text.getD ""

namespace Table

/-- The titles of the columns, with a title for the accesses. -/
def titles (accessTitle : String) (t : Table) : List (List Char) :=
  (["Step", "Line"] ++ t.columns ++ [accessTitle, "Output"]).map String.toList

/-- The widths of columns over a grid of cells: the longest cell of each. -/
def widths (titles : List (List Char)) (grid : List (List (List Char))) : List Nat :=
  grid.foldl (fun ws cells => List.zipWith (fun w cell => max w cell.length) ws cells)
    (titles.map List.length)

/-- Texts with a separator between them. -/
def join (separator : List Char) : List (List Char) → List Char
  | [] => []
  | [cell] => cell
  | cell :: rest => cell ++ separator ++ join separator rest

/-- One line of cells, each filled up to its width. -/
def rowLine (widths : List Nat) (cells : List (List Char)) : List Char :=
  Text.trimEnd (join " | ".toList (List.zipWith (fun cell w => Text.padRight w cell) cells widths))

/-- The line under the titles. -/
def ruleLine (widths : List Nat) : List Char :=
  join "-+-".toList (widths.map fun w => List.replicate w '-')

/-- The cells of all rows, with the changed entries alone. -/
def changedCells (t : Table) : List (List (List Char)) := t.rows.map (Row.cells Entry.changedText)

/-- The lines of the layout. -/
def lines (t : Table) : List (List Char) :=
  let titles := t.titles "Array access"
  let grid := t.changedCells
  let ws := widths titles grid
  rowLine ws titles :: ruleLine ws :: grid.map (rowLine ws)

/-- The layout as one text; every line ends in a line feed. -/
def toText (t : Table) : String :=
  String.join (t.lines.map fun line => String.ofList line ++ "\n")

end Table
end DeskCheck
