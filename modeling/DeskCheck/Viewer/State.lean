import DeskCheck.Cursor
import DeskCheck.Table

/-!
# The viewer

The viewer shows a finished trace in three panes: the source listing, the trace table up to the
current step, and the output so far.  Its state is a cursor, the pane that has the focus, and how far
each pane is scrolled; a key press changes the state and nothing else.

A successful move follows the newest row of the table and the newest line of the output.
-/

namespace DeskCheck.Viewer

/-- The panes, one of which has the focus. -/
inductive Pane where
  | source | table | output
deriving DecidableEq, Repr

/-- The pane that gets the focus next. -/
def Pane.next : Pane → Pane
  | .source => .table
  | .table => .output
  | .output => .source

/-- The keys that the viewer tells apart. -/
inductive Key where
  | char (c : Char)
  | tab | left | right | up | down | enter | backspace
  | other
deriving DecidableEq, Repr

/-- The key of a name: the name of a key without a character, or the character itself. -/
def Key.ofName (name : String) : Key :=
  match name with
  | "Tab" => .tab
  | "Left" => .left
  | "Right" => .right
  | "Up" => .up
  | "Down" => .down
  | "Enter" => .enter
  | "Backspace" => .backspace
  | _ =>
    match name.toList with
    | [c] => .char c
    | _ => .other

/-- The largest scroll count, which stands for the end of the output. -/
def scrollLimit : Nat := UInt64.size - 1

/-- One more, up to the limit. -/
def scrollUp (n : Nat) : Nat := min (n + 1) scrollLimit

/-- What the viewer shows and how. -/
structure State where
  cursor : Cursor
  /-- The table of the whole trace. -/
  table : Table
  /-- The source lines. -/
  source : List String
  title : String
  focus : Pane
  /-- The first source line in view. -/
  sourceOffset : Nat
  /-- The row of the pane in which the current line is kept; chosen by the first drawing. -/
  pinnedRow : Option Nat
  /-- The number of rows that the table is scrolled back from the current one. -/
  tableBack : Nat
  /-- The first line of output in view. -/
  outputOffset : Nat
  quit : Bool
  status : String

namespace State

/-- The viewer on the first snapshot of a trace. -/
def ofTrace (trace : Trace) (source : List String) (title : String) : State where
  cursor := .ofTrace trace
  table := trace.table
  source
  title
  focus := .source
  sourceOffset := 0
  pinnedRow := none
  tableBack := 0
  outputOffset := 0
  quit := false
  status := "Ready!"

/-- The line of the current snapshot, counted from one; zero before the first line. -/
def currentLine (s : State) : Nat :=
  match s.cursor.current?.bind Snapshot.line with
  | some line => line + 1
  | none => 0

/-! ### Keys -/

/-- The state after a move to another position, with a status. -/
def moved (s : State) (cursor : Cursor) (status : String) : State :=
  { s with cursor, status, tableBack := 0, outputOffset := scrollLimit }

/-- The state after a move that may have been refused.  At the end of the trace the status says why
the trace ends. -/
def report (s : State) (result : Except CursorError Cursor) (status : String) : State :=
  match result with
  | .ok cursor => s.moved cursor status
  | .error .atEnd => { s with status := s.cursor.trace.termination.message }
  | .error e => { s with status := e.message }

/-- Scrolls the focused pane up by one. -/
def up (s : State) : State :=
  match s.focus with
  | .source => { s with pinnedRow := s.pinnedRow.map scrollUp }
  | .table => { s with tableBack := scrollUp s.tableBack }
  | .output => { s with outputOffset := s.outputOffset - 1 }

/-- Scrolls the focused pane down by one. -/
def down (s : State) : State :=
  match s.focus with
  | .source => { s with pinnedRow := s.pinnedRow.map (· - 1) }
  | .table => { s with tableBack := s.tableBack - 1 }
  | .output => { s with outputOffset := scrollUp s.outputOffset }

/-- Moves a number of steps on.  A sum that is no word would stop the program; the traces are too
short for that. -/
def stepBy (s : State) (n : Nat) : State :=
  match s.cursor.forwardBy n with
  | some (taken, cursor) => s.moved cursor ("Stepped forward " ++ toString taken ++ " step(s)")
  | none => s

/-- The state after a key press. -/
def press (s : State) : Key → State
  | .char c =>
    if c = 'q' ∨ c = 'Q' then { s with quit := true }
    else if '1' ≤ c ∧ c ≤ '9' then s.stepBy (c.toNat - '0'.toNat)
    else s
  | .tab => { s with focus := s.focus.next }
  | .left => s.report s.cursor.backward "Stepped backward"
  | .right => s.report s.cursor.forward "Stepped forward"
  | .up => s.up
  | .down => s.down
  | .enter => s.moved s.cursor.toEnd s.cursor.trace.termination.message
  | .backspace => s.moved s.cursor.toStart "Jumped to start"
  | .other => s

end State
end DeskCheck.Viewer
