import DeskCheck.Expr.Eval
import DeskCheck.Matching
import DeskCheck.Snapshot

/-!
# The line machine

A program is carried out line by line by a machine with a line counter.  One `visit` carries out the
line at the counter, moves the counter, and may take a snapshot: guards, entered branches, prints
and assignments take one, the other lines do not.

A false condition arms the next branch of its chain and goes there.  An `ELSEIF` or `ELSE` runs only
when it is armed, and is disarmed by that; a machine that falls into one from the branch above
leaves the chain instead.  Accesses are pending from the moment they happen until a snapshot takes
them.
-/

namespace DeskCheck

/-- The state between two lines. -/
structure Machine where
  /-- The line to visit next. -/
  counter : Nat
  store : Store
  output : List OutputLine
  /-- The branches that a false condition has chosen and that have not run yet. -/
  armed : List Nat
  /-- The accesses since the last snapshot. -/
  pending : List Access

namespace Machine

/-- The machine before the first line. -/
def start : Machine := ⟨0, .empty, [], [], []⟩

/-- Moves the counter. -/
def goto (m : Machine) (line : Nat) : Machine := { m with counter := line }

/-- The value of an expression; its reads become pending. -/
def evaluate (m : Machine) (e : Expr) : Value × Machine :=
  let result := e.eval m.store
  (result.value, { m with pending := m.pending ++ result.reads })

/-- Whether a guard holds.  A guard that is no expression does not. -/
def test (m : Machine) : Option Expr → Bool × Machine
  | none => (false, m)
  | some e =>
    let (v, m) := m.evaluate e
    (v.isTruthy, m)

/-- The snapshot of the line at the counter, which takes the pending accesses. -/
def capture (m : Machine) : Snapshot × Machine :=
  (⟨some m.counter, m.store, m.output, m.pending⟩, { m with pending := [] })

/-- Takes a snapshot and moves the counter. -/
def captureThen (m : Machine) (line : Nat) : Machine × Option Snapshot :=
  let (snapshot, m) := m.capture
  (m.goto line, some snapshot)

/-- Leaves a chain one branch of which has run. -/
def leaveChain (lines : List Line) (m : Machine) : Machine × Option Snapshot :=
  match Matching.endIf? lines m.counter with
  | some i => (m.goto (i + 1), none)
  | none => (m.goto lines.length, none)

/-- Enters the branch behind a condition, or goes to the next one and arms it. -/
def choose (lines : List Line) (m : Machine) (guard : Option Expr) : Machine × Option Snapshot :=
  let (holds, m) := m.test guard
  if holds then m.captureThen (m.counter + 1)
  else
    match Matching.exit lines m.counter with
    | .branch i =>
      let (m, snapshot) := m.captureThen i
      ({ m with armed := m.armed.insert i }, snapshot)
    | .pastEnd i => m.captureThen i

/-- Carries out the body of a line on which a chain continues, if the line is armed. -/
def ifArmed (lines : List Line) (m : Machine) (run : Machine → Machine × Option Snapshot) :
    Machine × Option Snapshot :=
  if m.counter ∈ m.armed then run { m with armed := m.armed.erase m.counter }
  else m.leaveChain lines

/-- Carries out an assignment.  The index comes before the value, and a write that was not refused
is an access. -/
def assign (m : Machine) (target : Target) (value : Expr) : Machine :=
  match target with
  | .name name =>
    let (v, m) := m.evaluate value
    { m with store := m.store.assign name v }
  | .element name index =>
    let (i, m) := m.evaluate index
    let (v, m) := m.evaluate value
    match m.store.assignAt? name i v, i.toPosition? with
    | some store, some position =>
      { m with store, pending := m.pending ++ [⟨name, position, v, .write⟩] }
    | _, _ => m

/-- Prints the value of an expression. -/
def print (m : Machine) (e : Expr) : Machine :=
  let (v, m) := m.evaluate e
  { m with output := m.output ++ [⟨v.toText, m.counter⟩] }

/-- Carries out a line, which is the one at the counter. -/
def execute (lines : List Line) (m : Machine) : Line → Machine × Option Snapshot
  | .blank | .endIf | .unrecognized => (m.goto (m.counter + 1), none)
  | .whileDo guard =>
    let (holds, m) := m.test guard
    if holds then m.captureThen (m.counter + 1)
    else
      match Matching.endWhile? lines m.counter with
      | some i => m.captureThen (i + 1)
      | none => m.captureThen lines.length
  | .endWhile => (m.goto ((Matching.while? lines m.counter).getD (m.counter + 1)), none)
  | .ifThen guard => m.choose lines guard
  | .elseIf guard => m.ifArmed lines fun m => m.choose lines guard
  | .otherwise => m.ifArmed lines fun m => m.captureThen (m.counter + 1)
  | .print e => (m.print e).captureThen (m.counter + 1)
  | .assign target value => (m.assign target value).captureThen (m.counter + 1)

/-- One visit: carries out the line at the counter.  Past the last line there is nothing to do. -/
def visit (lines : List Line) (m : Machine) : Machine × Option Snapshot :=
  match lines[m.counter]? with
  | some line => m.execute lines line
  | none => (m.goto lines.length, none)

end Machine
end DeskCheck
