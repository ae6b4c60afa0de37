import DeskCheck.Viewer.State

/-!
# Scrolling

Drawing decides which rows of a pane are in view, and brings the scroll counts of the state into
their bounds for the size at hand.  The screen is divided first: the last row is the status bar, two
fifths of the columns hold the source above the output, and the rest the table.

The source pane keeps the current line at its pinned row as far as the listing reaches, the table
pane shows the current row last unless it is scrolled back, and the output pane stops at its last
line.
-/

namespace DeskCheck.Viewer

/-- A share of a length in per cent, rounded to the nearest. -/
def share (percent length : Nat) : Nat := (length * percent + 50) / 100

/-- The sizes of the panes. -/
structure Division where
  leftWidth : Nat
  rightWidth : Nat
  /-- The rows above the status bar. -/
  height : Nat
  sourceHeight : Nat
  outputHeight : Nat
deriving DecidableEq, Repr

/-- A rule that divides screens of a width and a height. -/
abbrev Layout := Nat → Nat → Division

/-- How a screen is divided. -/
def Division.ofScreen : Layout := fun width height =>
  let main := height - 1
  let left := share 40 width
  let source := share 70 main
  ⟨left, width - left, main, source, main - source⟩

/-- The rows of a pane that are not taken by borders and titles; at least one counts as in view. -/
def rowsInView (height taken : Nat) : Nat := max (height - taken) 1

/-- The first row in view such that `selected` is in view and the window ends within `total`. -/
def followOffset (selected total height : Nat) : Nat :=
  if total ≤ height then 0 else min (selected - (height - 1)) (total - height)

namespace State

/-! ### The windows -/

/-- Everything printed up to the current step. -/
def output (s : State) : List OutputLine :=
  match s.cursor.current? with
  | some snapshot => snapshot.output
  | none => []

/-- How many lines had been printed before the current step. -/
def printedBefore (s : State) : Nat :=
  match s.cursor.previous? with
  | some snapshot => snapshot.output.length
  | none => 0

/-- The rows of the table up to the current step. -/
def revealed (s : State) : List Row := s.table.rows.take (s.cursor.position + 1)

/-- The index of the last revealed row. -/
def selectedRow (s : State) : Nat := s.revealed.length - 1

/-- The first revealed row in view. -/
def tableOffset (s : State) (height : Nat) : Nat :=
  followOffset (s.selectedRow - s.tableBack) s.revealed.length (rowsInView height 3)

/-! ### Bringing the counts into their bounds -/

/-- Pins the row of the current line and moves the window there.  Without a current line the window
stays. -/
def settleSource (s : State) (height : Nat) : State :=
  let visible := rowsInView height 2
  let row := min (s.pinnedRow.getD (visible / 2)) (visible - 1)
  let total := s.source.length
  let offset :=
    if 0 < s.currentLine ∧ s.currentLine ≤ total then
      if visible < total then min (s.currentLine - 1 - row) (total - visible) else 0
    else s.sourceOffset
  { s with pinnedRow := some row, sourceOffset := offset }

/-- Stops the output window at the last line.  Without output the count stays. -/
def settleOutput (s : State) (height : Nat) : State :=
  let visible := rowsInView height 2
  let total := s.output.length
  if total = 0 then s
  else if visible < total then { s with outputOffset := min s.outputOffset (total - visible) }
  else { s with outputOffset := 0 }

/-- Stops the table count at the first row. -/
def settleTable (s : State) : State := { s with tableBack := min s.tableBack s.selectedRow }

/-- The state as a drawing in panes of the given sizes leaves it. -/
def settle (s : State) (d : Division) : State :=
  ((s.settleSource d.sourceHeight).settleOutput d.outputHeight).settleTable

end State
end DeskCheck.Viewer
