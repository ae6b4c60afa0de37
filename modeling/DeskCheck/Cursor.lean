import DeskCheck.Trace

/-!
# Cursors

A cursor is a position in a finished trace.  Moving it runs nothing and changes nothing but the
position; a move that is refused changes not even that.
-/

namespace DeskCheck

/-- Why a move is refused. -/
inductive CursorError where
  | atStart
  | atEnd
  | outOfRange (index size : Nat)
deriving DecidableEq, Repr

def CursorError.message : CursorError → String
  | .atStart => "Already at the beginning of the trace"
  | .atEnd => "Already at the end of the trace"
  | .outOfRange index size =>
    "Step " ++ toString index ++ " is outside the trace (0.." ++ toString size ++ ")"

/-- A position in a trace. -/
structure Cursor where
  trace : Trace
  position : Nat

namespace Cursor

/-- The cursor on the first snapshot. -/
def ofTrace (trace : Trace) : Cursor := ⟨trace, 0⟩

/-- The snapshot at the position. -/
def current? (c : Cursor) : Option Snapshot := c.trace.get? c.position

/-- The snapshot in front of the position. -/
def previous? (c : Cursor) : Option Snapshot :=
  match c.position with
  | 0 => none
  | i + 1 => c.trace.get? i

def isAtStart (c : Cursor) : Bool := c.position == 0

def isAtEnd (c : Cursor) : Bool := c.trace.size ≤ c.position + 1

/-- The position of the last snapshot. -/
def lastPosition (c : Cursor) : Nat := c.trace.size - 1

def forward (c : Cursor) : Except CursorError Cursor :=
  if c.isAtEnd then .error .atEnd else .ok { c with position := c.position + 1 }

def backward (c : Cursor) : Except CursorError Cursor :=
  if c.isAtStart then .error .atStart else .ok { c with position := c.position - 1 }

def seek (c : Cursor) (index : Nat) : Except CursorError Cursor :=
  if index < c.trace.size then .ok { c with position := index }
  else .error (.outOfRange index c.trace.size)

/-- Positions and counts of steps are 64-bit words. -/
def wordSize : Nat := UInt64.size

/-- Moves `n` snapshots on, or to the last one, and yields the number of steps taken.  The place is
found by a sum of words; where the sum is no word there is no result. -/
def forwardBy (c : Cursor) (n : Nat) : Option (Nat × Cursor) :=
  if c.position + n < wordSize then
    let target := min (c.position + n) c.lastPosition
    some (target - c.position, { c with position := target })
  else none

def toStart (c : Cursor) : Cursor := { c with position := 0 }

def toEnd (c : Cursor) : Cursor := { c with position := c.lastPosition }

end Cursor
end DeskCheck
