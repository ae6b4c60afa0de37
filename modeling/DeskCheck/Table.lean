import DeskCheck.Trace

/-!
# Trace tables

A trace table has one row for each snapshot and one column for each variable that never holds a
sequence in the whole trace, in the order of first assignment.  A sequence has no column; a row lists
the accesses to its elements instead.  An entry is marked as changed when its value differs from the
one in the row above, the first value included.
-/

namespace DeskCheck

namespace Trace

/-- The names that hold a sequence in some snapshot. -/
def sequenceNames (t : Trace) : List String :=
  (t.snapshots.toList.flatMap fun s =>
    (s.store.bindings.filter fun (_, v) => v.isSequence).map Prod.fst).eraseDups

/-- The names that have a column.  The last store knows every name that was ever assigned. -/
def columns (t : Trace) : List String :=
  match t.last? with
  | some s =>
    let sequences := t.sequenceNames
    s.store.names.filter fun name => name ∉ sequences
  | none => []

end Trace

/-- One entry of a row: the text of the value, if there is one, and whether the row changed it. -/
structure Entry where
  text : Option String
  changed : Bool
deriving DecidableEq, Repr

/-- One row. -/
structure Row where
  /-- The place of the snapshot in the trace. -/
  step : Nat
  line : Option Nat
  entries : List Entry
  accesses : List Access
  /-- What this step printed. -/
  output : List String

namespace Row

/-- Whether a value counts as unchanged: not-a-number that stays so does, although it does not equal
itself. -/
def unchanged : Value → Value → Bool
  | .number a, .number b => a.equals b || (a.isNaN && b.isNaN)
  | a, b => a.same b

/-- The entry for a value and the value of the same name in the row above. -/
def entry (before now : Option Value) : Entry where
  text := now.map Value.toText
  changed := match now, before with
    | some now, some before => !unchanged now before
    | some _, none => true
    | none, _ => false

/-- The row of a snapshot, under the row of the one before. -/
def ofSnapshot (columns : List String) (before : Option Snapshot) (now : Snapshot) (step : Nat) :
    Row where
  step
  line := now.line
  entries := columns.map fun name => entry (before.bind (·.store.get? name)) (now.store.get? name)
  accesses := now.accesses
  output :=
    let printed := match before with
      | some s => s.output.length
      | none => 0
    (now.output.drop printed).map OutputLine.text

end Row

/-- A trace as a table. -/
structure Table where
  columns : List String
  rows : List Row

/-- The table of a trace. -/
def Trace.table (t : Trace) : Table :=
  let columns := t.columns
  let snapshots := t.snapshots.toList
  { columns
    rows := List.zipWith (fun before (now, step) => Row.ofSnapshot columns before now step)
      (none :: snapshots.map some) snapshots.zipIdx }

end DeskCheck
