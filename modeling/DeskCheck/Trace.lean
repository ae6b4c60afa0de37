import DeskCheck.Machine
import DeskCheck.Program

/-!
# Traces

A trace is the list of snapshots of one run and the reason why it ended.  A run is cut short by two
budgets: the number of lines visited, and the estimated memory of the snapshots kept.  Neither is an
error; the trace keeps what was recorded up to the cut.

The first snapshot, taken before the first line, is always kept.  The order of the tests is part of
the rule: a program that has left its last line is complete even if no visit is left.
-/

namespace DeskCheck

/-- What one run may use. -/
structure Budget where
  /-- Lines visited. -/
  steps : Nat
  /-- Bytes of snapshots. -/
  bytes : Nat
deriving DecidableEq, Repr

/-- Five hundred lines and 64 MiB. -/
def Budget.standard : Budget := ⟨500, 64 * 1024 * 1024⟩

/-- Why a run was cut short. -/
inductive Halt where
  | steps (visited : Nat)
  | memory (used limit : Nat)
deriving DecidableEq, Repr

namespace Halt

def message : Halt → String
  | .steps visited => "Step limit reached after " ++ toString visited ++ " steps"
  | .memory used limit =>
    "Snapshot memory limit exceeded: " ++ toString used ++ " bytes used of " ++ toString limit

end Halt

/-- Why a trace ends. -/
inductive Termination where
  | completed
  | stepLimit (steps : Nat)
  | memoryLimit (limit : Nat)
deriving DecidableEq, Repr

namespace Termination

def isComplete : Termination → Bool
  | .completed => true
  | _ => false

def message : Termination → String
  | .completed => "Program completed"
  | .stepLimit steps => "Stopped after " ++ toString steps ++ " steps (step limit reached)"
  | .memoryLimit limit => "Stopped recording at the " ++ toString limit ++ " byte snapshot budget"

/-- How a trace ends when its run is cut short. -/
def ofHalt : Halt → Termination
  | .steps visited => .stepLimit visited
  | .memory _ limit => .memoryLimit limit

end Termination

/-- The snapshots of a run in order, and why it ended. -/
structure Trace where
  snapshots : Array Snapshot
  termination : Termination

namespace Trace

def size (t : Trace) : Nat := t.snapshots.size

def get? (t : Trace) (i : Nat) : Option Snapshot := t.snapshots[i]?

/-- The last snapshot. -/
def last? (t : Trace) : Option Snapshot := t.snapshots.back?

/-- The texts printed in the whole run. -/
def output (t : Trace) : List String :=
  match t.last? with
  | some s => s.output.map OutputLine.text
  | none => []

/-- How many snapshots a line has. -/
def visits (t : Trace) (line : Nat) : Nat := t.snapshots.toList.countP fun s => s.line == some line

end Trace

/-! ### Runs -/

/-- A run in progress: the machine, and what has been recorded. -/
structure Run where
  machine : Machine
  /-- Lines visited. -/
  steps : Nat
  snapshots : Array Snapshot
  /-- The estimated memory of the snapshots. -/
  bytes : Nat

namespace Run

/-- The run before the first line, with the first snapshot. -/
def start : Run := ⟨.start, 0, #[.initial], Snapshot.initial.bytes⟩

/-- The trace of what has been recorded. -/
def stop (r : Run) (termination : Termination) : Trace := ⟨r.snapshots, termination⟩

/-- The run with one more snapshot, or its trace if the memory budget does not allow that. -/
def keep (r : Run) (limit : Nat) (s : Snapshot) : Except Trace Run :=
  if limit < r.bytes + s.bytes then .error (r.stop (.ofHalt (.memory r.bytes limit)))
  else .ok { r with snapshots := r.snapshots.push s, bytes := r.bytes + s.bytes }

/-- Visits one line and keeps its snapshot. -/
def visit (lines : List Line) (limit : Nat) (r : Run) : Except Trace Run :=
  let (machine, snapshot) := r.machine.visit lines
  let visited := { r with machine, steps := r.steps + 1 }
  match snapshot with
  | none => .ok visited
  | some s => visited.keep limit s

/-- Runs on until the last line is left or a budget is used up; `left` visits remain. -/
def complete (lines : List Line) (limit : Nat) : (left : Nat) → Run → Trace
  | 0, r =>
    r.stop (if lines.length ≤ r.machine.counter then .completed else .ofHalt (.steps r.steps))
  | left + 1, r =>
    if lines.length ≤ r.machine.counter then r.stop .completed
    else
      match r.visit lines limit with
      | .ok next => complete lines limit left next
      | .error trace => trace

end Run

/-- The trace of a program under a budget. -/
def Program.trace (p : Program) (budget : Budget) : Trace :=
  Run.complete p.lines budget.bytes budget.steps .start

end DeskCheck
