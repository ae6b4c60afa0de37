import DeskCheck.Machine
import DeskCheck.Proofs.Matching

/-!
# One visit, seen from the last snapshot

Between two lines the machine holds nothing that the last snapshot does not show: no access is
pending, the variables and the output are those of the snapshot.  Such a machine is `resting`.  What
a visit does can therefore be said of snapshots alone.  `Line.replay` is the snapshot that a line
takes right after another one; it mentions no machine.

The lemmas `visit_…` say for each kind of line what a visit makes of a resting machine.  They are
the only place at which the machine's operations are opened; later proofs use these lemmas.
-/

namespace DeskCheck

/-! ### Replaying a line on a snapshot -/

namespace Guard

/-- Whether a guard holds over a store.  A guard that is no expression does not. -/
def holds (store : Store) : Option Expr → Bool
  | none => false
  | some e => (e.eval store).value.isTruthy

/-- The elements that the evaluation of a guard reads. -/
def reads (store : Store) : Option Expr → List Access
  | none => []
  | some e => (e.eval store).reads

end Guard

/-- The store after an assignment, and the accesses which the assignment makes. -/
def Target.write (store : Store) (value : Expr) : Target → Store × List Access
  | .name n =>
    let v := value.eval store
    (store.assign n v.value, v.reads)
  | .element n index =>
    let i := index.eval store
    let v := value.eval store
    match store.assignAt? n i.value v.value, i.value.toPosition? with
    | some written, some position =>
      (written, i.reads ++ v.reads ++ [⟨n, position, v.value, .write⟩])
    | _, _ => (store, i.reads ++ v.reads)

/-- The snapshot that a line takes as line `l`, if `s` is the snapshot before; `none` for a line of
which no snapshot is taken. -/
def Line.replay (l : Nat) (s : Snapshot) : Line → Option Snapshot
  | .blank | .endWhile | .endIf | .unrecognized => none
  | .whileDo guard | .ifThen guard | .elseIf guard =>
    some ⟨some l, s.store, s.output, Guard.reads s.store guard⟩
  | .otherwise => some ⟨some l, s.store, s.output, []⟩
  | .print e =>
    let v := e.eval s.store
    some ⟨some l, s.store, s.output ++ [⟨v.value.toText, l⟩], v.reads⟩
  | .assign target value =>
    let written := target.write s.store value
    some ⟨some l, written.1, s.output, written.2⟩

theorem Line.replay_line {l : Nat} {s s' : Snapshot} {line : Line}
    (h : line.replay l s = some s') : s'.line = some l := by
  cases line <;> cases h <;> rfl

namespace Machine

/-- The machine in front of line `i`, with the variables and the output of the last snapshot and
nothing pending. -/
def resting (i : Nat) (s : Snapshot) (armed : List Nat) : Machine := ⟨i, s.store, s.output, armed, []⟩

@[simp] theorem counter_resting (i : Nat) (s : Snapshot) (armed : List Nat) :
    (resting i s armed).counter = i := rfl

/-! ### The machine's operations -/

theorem test_eq (m : Machine) (guard : Option Expr) :
    m.test guard =
      (Guard.holds m.store guard, { m with pending := m.pending ++ Guard.reads m.store guard }) := by
  cases guard with
  | none => simp [test, Guard.holds, Guard.reads]
  | some e => rfl

theorem assign_eq (m : Machine) (target : Target) (value : Expr) :
    m.assign target value =
      { m with
        store := (target.write m.store value).1
        pending := m.pending ++ (target.write m.store value).2 } := by
  cases target with
  | name name => rfl
  | element name index =>
    -- both sides refuse the write in the same cases
    simp only [assign, evaluate, Target.write]
    split <;> simp [*]

/-! ### One visit of a resting machine -/

variable {lines : List Line} {i : Nat} {s : Snapshot} {armed : List Nat}

theorem visit_of_line {line : Line} (h : lines[i]? = some line) :
    (resting i s armed).visit lines = (resting i s armed).execute lines line := by
  simp [visit, h]

theorem visit_blank (h : lines[i]? = some .blank) :
    (resting i s armed).visit lines = (resting (i + 1) s armed, none) :=
  visit_of_line h

theorem visit_endIf (h : lines[i]? = some .endIf) :
    (resting i s armed).visit lines = (resting (i + 1) s armed, none) :=
  visit_of_line h

theorem visit_unrecognized (h : lines[i]? = some .unrecognized) :
    (resting i s armed).visit lines = (resting (i + 1) s armed, none) :=
  visit_of_line h

theorem visit_endWhile (h : lines[i]? = some .endWhile) :
    (resting i s armed).visit lines =
      (resting ((Matching.while? lines i).getD (i + 1)) s armed, none) :=
  visit_of_line h

/-- The line behind a block, or the end of the program if the block is not closed. -/
def behind (lines : List Line) (close : Option Nat) : Nat := close.elim lines.length (· + 1)

theorem visit_whileDo {guard : Option Expr} {s' : Snapshot} (h : lines[i]? = some (.whileDo guard))
    (hs : (Line.whileDo guard).replay i s = some s') :
    (resting i s armed).visit lines =
      (resting (if Guard.holds s.store guard then i + 1
        else behind lines (Matching.endWhile? lines i)) s' armed, some s') := by
  cases hs
  rw [visit_of_line h]
  simp only [execute, test_eq]
  by_cases hg : Guard.holds s.store guard = true
  · simp [resting, hg, captureThen, capture, goto]
  · -- a loop that is not closed is left by the end of the program
    rcases he : Matching.endWhile? lines i with _ | e <;>
      simp [resting, hg, he, captureThen, capture, goto, behind]

theorem visit_print {e : Expr} {s' : Snapshot} (h : lines[i]? = some (.print e))
    (hs : (Line.print e).replay i s = some s') :
    (resting i s armed).visit lines = (resting (i + 1) s' armed, some s') := by
  cases hs
  rw [visit_of_line h]
  rfl

theorem visit_assign {target : Target} {value : Expr} {s' : Snapshot}
    (h : lines[i]? = some (.assign target value))
    (hs : (Line.assign target value).replay i s = some s') :
    (resting i s armed).visit lines = (resting (i + 1) s' armed, some s') := by
  cases hs
  rw [visit_of_line h, execute, assign_eq]
  rfl

/-! ### Branches -/

/-- The machine behind a condition at `i`, according to whether the condition holds. -/
def decided (lines : List Line) (i : Nat) (s : Snapshot) (guard : Option Expr) : Machine :=
  if Guard.holds s.store guard then resting (i + 1) s []
  else
    match Matching.exit lines i with
    | .branch b => resting b s [b]
    | .pastEnd e => resting e s []

theorem choose_resting (guard : Option Expr) {s' : Snapshot}
    (hs : (Line.ifThen guard).replay i s = some s') :
    (resting i s []).choose lines guard = (decided lines i s' guard, some s') := by
  cases hs
  simp only [choose, test_eq]
  by_cases hg : Guard.holds s.store guard = true
  · simp [resting, decided, hg, captureThen, capture, goto]
  · -- the branch that is armed is the only one, as none was armed before
    rcases he : Matching.exit lines i with b | e <;>
      simp [resting, decided, hg, he, captureThen, capture, goto]

/-- An armed branch is disarmed as it runs. -/
theorem ifArmed_armed (run : Machine → Machine × Option Snapshot) :
    (resting i s [i]).ifArmed lines run = run (resting i s []) := by
  simp [ifArmed, resting]

/-- A branch that is not armed leaves its chain without a trace. -/
theorem ifArmed_unarmed (run : Machine → Machine × Option Snapshot) :
    (resting i s []).ifArmed lines run =
      (resting (behind lines (Matching.endIf? lines i)) s [], none) := by
  rcases he : Matching.endIf? lines i with _ | e <;>
    simp [ifArmed, resting, leaveChain, he, goto, behind]

theorem visit_ifThen {guard : Option Expr} {s' : Snapshot} (h : lines[i]? = some (.ifThen guard))
    (hs : (Line.ifThen guard).replay i s = some s') :
    (resting i s []).visit lines = (decided lines i s' guard, some s') := by
  rw [visit_of_line h]
  exact choose_resting guard hs

theorem visit_elseIf {guard : Option Expr} {s' : Snapshot} (h : lines[i]? = some (.elseIf guard))
    (hs : (Line.elseIf guard).replay i s = some s') :
    (resting i s [i]).visit lines = (decided lines i s' guard, some s') := by
  rw [visit_of_line h, execute, ifArmed_armed]
  exact choose_resting guard hs

theorem visit_otherwise {s' : Snapshot} (h : lines[i]? = some .otherwise)
    (hs : Line.otherwise.replay i s = some s') :
    (resting i s [i]).visit lines = (resting (i + 1) s' [], some s') := by
  cases hs
  rw [visit_of_line h, execute, ifArmed_armed]
  rfl

theorem visit_branch_unarmed {line : Line} (h : lines[i]? = some line)
    (hbranch : line.isBranch = true) :
    (resting i s []).visit lines =
      (resting (behind lines (Matching.endIf? lines i)) s [], none) := by
  rw [visit_of_line h]
  cases line with
  | elseIf guard => exact ifArmed_unarmed fun m => m.choose lines guard
  | otherwise => exact ifArmed_unarmed fun m => m.captureThen (m.counter + 1)
  | _ => cases hbranch

end Machine
end DeskCheck
