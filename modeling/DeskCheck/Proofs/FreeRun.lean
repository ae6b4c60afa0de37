import DeskCheck.Trace

/-!
# Runs without a budget

A trace is cut by two budgets.  What it is cut from is the run of the bare machine: one visit after
the other, without an end.  Behind the last line a visit does nothing and takes no snapshot, so that
a program that ends goes on here in idle visits.

`Machine.after` is the machine after a number of visits and `Machine.record` the list of the
snapshots which these visits take; both split at every visit (`after_add`, `record_add`).
`Machine.Steps` is the same run as a relation, counted and without idle visits; it is the form in
which pieces of a run are put together.
-/

namespace DeskCheck

/-- The estimated memory of a list of snapshots, in bytes. -/
def Snapshot.totalBytes : List Snapshot → Nat
  | [] => 0
  | s :: ss => s.bytes + totalBytes ss

namespace Snapshot

@[simp] theorem totalBytes_nil : totalBytes [] = 0 := rfl

@[simp] theorem totalBytes_cons (s : Snapshot) (ss : List Snapshot) :
    totalBytes (s :: ss) = s.bytes + totalBytes ss := rfl

@[simp] theorem totalBytes_append (ss ts : List Snapshot) :
    totalBytes (ss ++ ts) = totalBytes ss + totalBytes ts := by
  induction ss with
  | nil => simp
  | cons s ss ih => simp [ih, Nat.add_assoc]

theorem length_mul_le_totalBytes (ss : List Snapshot) : ss.length * ownBytes ≤ totalBytes ss := by
  induction ss with
  | nil => exact Nat.le_of_eq (Nat.zero_mul _)
  | cons s ss ih =>
    have hown : ownBytes ≤ s.bytes := by
      rw [bytes]
      omega
    rw [List.length_cons, Nat.succ_mul, totalBytes_cons]
    omega

theorem totalBytes_mono {ss ts : List Snapshot} (h : ss <+: ts) : totalBytes ss ≤ totalBytes ts := by
  obtain ⟨rest, rfl⟩ := h
  rw [totalBytes_append]
  exact Nat.le_add_right _ _

end Snapshot

namespace Machine

/-- The machine after a number of visits. -/
def after (lines : List Line) : Machine → Nat → Machine
  | m, 0 => m
  | m, k + 1 => after lines (m.visit lines).1 k

/-- The snapshots of a number of visits. -/
def record (lines : List Line) : Machine → Nat → List Snapshot
  | _, 0 => []
  | m, k + 1 => (m.visit lines).2.toList ++ record lines (m.visit lines).1 k

variable {lines : List Line}

theorem after_add (m : Machine) (j k : Nat) :
    m.after lines (j + k) = (m.after lines j).after lines k := by
  induction j generalizing m with
  | zero => rw [Nat.zero_add]; rfl
  | succ j ih => rw [Nat.succ_add]; exact ih _

theorem record_add (m : Machine) (j k : Nat) :
    m.record lines (j + k) = m.record lines j ++ (m.after lines j).record lines k := by
  induction j generalizing m with
  | zero => rw [Nat.zero_add]; rfl
  | succ j ih =>
    rw [Nat.succ_add]
    simp only [record, after, ih, List.append_assoc]

theorem after_succ (m : Machine) (j : Nat) :
    m.after lines (j + 1) = ((m.after lines j).visit lines).1 :=
  after_add m j 1

theorem record_succ (m : Machine) (j : Nat) :
    m.record lines (j + 1) = m.record lines j ++ ((m.after lines j).visit lines).2.toList := by
  rw [record_add]
  simp [record]

/-! ### Behind the last line -/

theorem visit_behind {m : Machine} (h : lines.length ≤ m.counter) :
    m.visit lines = (m.goto lines.length, none) := by
  have hline : lines[m.counter]? = none := List.getElem?_eq_none h
  simp [visit, hline]

theorem behind_after {m : Machine} (h : lines.length ≤ m.counter) (k : Nat) :
    lines.length ≤ (m.after lines k).counter := by
  induction k generalizing m with
  | zero => exact h
  | succ k ih =>
    apply ih
    -- the idle visit leaves the counter right behind the last line
    rw [visit_behind h]
    exact Nat.le_refl _

theorem record_behind {m : Machine} (h : lines.length ≤ m.counter) (k : Nat) :
    m.record lines k = [] := by
  induction k generalizing m with
  | zero => rfl
  | succ k ih =>
    have hnext : m.visit lines = (m.goto lines.length, none) := visit_behind h
    simp only [record, hnext, Option.toList_none, List.nil_append]
    exact ih (Nat.le_refl _)

/-! ### The run as a relation -/

/-- `Steps lines m n ss m'`: from `m` the machine comes to `m'` by `n` visits of lines of the
program, which take the snapshots `ss`. -/
inductive Steps (lines : List Line) : Machine → Nat → List Snapshot → Machine → Prop
  | refl (m : Machine) : Steps lines m 0 [] m
  | visit {m m' : Machine} {n : Nat} {ss : List Snapshot} :
      m.counter < lines.length → Steps lines (m.visit lines).1 n ss m' →
      Steps lines m (n + 1) ((m.visit lines).2.toList ++ ss) m'

namespace Steps

theorem single {m m' : Machine} {s : Option Snapshot} (hm : m.counter < lines.length)
    (h : m.visit lines = (m', s)) : Steps lines m 1 s.toList m' := by
  have hone := Steps.visit hm (.refl (m.visit lines).1)
  rw [h, List.append_nil] at hone
  exact hone

theorem trans {m m' m'' : Machine} {n n' : Nat} {ss ss' : List Snapshot}
    (h : Steps lines m n ss m') (h' : Steps lines m' n' ss' m'') :
    Steps lines m (n + n') (ss ++ ss') m'' := by
  induction h with
  | refl m => rw [Nat.zero_add, List.nil_append]; exact h'
  | visit hm _ ih =>
    rw [Nat.succ_add, List.append_assoc]
    exact .visit hm (ih h')

theorem after_eq {m m' : Machine} {n : Nat} {ss : List Snapshot} (h : Steps lines m n ss m') :
    m.after lines n = m' := by
  induction h with
  | refl m => rfl
  | visit _ _ ih => exact ih

theorem record_eq {m m' : Machine} {n : Nat} {ss : List Snapshot} (h : Steps lines m n ss m') :
    m.record lines n = ss := by
  induction h with
  | refl m => rfl
  | visit _ _ ih => rw [record, ih]

theorem counter_lt {m m' : Machine} {n : Nat} {ss : List Snapshot} (h : Steps lines m n ss m')
    {k : Nat} (hk : k < n) : (m.after lines k).counter < lines.length := by
  induction h generalizing k with
  | refl m => exact absurd hk (Nat.not_lt_zero k)
  | visit hm _ ih =>
    cases k with
    | zero => exact hm
    | succ k => exact ih (Nat.lt_of_succ_lt_succ hk)

end Steps
end Machine

/-! ### The run of a program -/

namespace Program

/-- The machine after a number of visits from the first line on. -/
def machine (p : Program) (k : Nat) : Machine := Machine.start.after p.lines k

/-- The first snapshot and those of a number of visits. -/
def recorded (p : Program) (k : Nat) : List Snapshot :=
  .initial :: Machine.start.record p.lines k

/-- After `n` visits the program has been left. -/
def Leaves (p : Program) (n : Nat) : Prop := p.lines.length ≤ (p.machine n).counter

theorem machine_succ (p : Program) (k : Nat) :
    p.machine (k + 1) = ((p.machine k).visit p.lines).1 :=
  Machine.after_succ Machine.start k

theorem recorded_succ (p : Program) (k : Nat) :
    p.recorded (k + 1) = p.recorded k ++ ((p.machine k).visit p.lines).2.toList := by
  simp [recorded, Machine.record_succ, machine]

theorem recorded_prefix (p : Program) {j k : Nat} (h : j ≤ k) :
    p.recorded j <+: p.recorded k := by
  obtain ⟨d, rfl⟩ := Nat.exists_eq_add_of_le h
  refine ⟨(p.machine j).record p.lines d, ?_⟩
  simp [recorded, Machine.record_add, machine]

theorem Leaves.mono {p : Program} {n k : Nat} (h : p.Leaves n) (hk : n ≤ k) : p.Leaves k := by
  obtain ⟨d, rfl⟩ := Nat.exists_eq_add_of_le hk
  rw [Leaves, machine, Machine.after_add]
  exact Machine.behind_after h d

/-- A program that has been left takes no further snapshot. -/
theorem Leaves.recorded_eq {p : Program} {n k : Nat} (h : p.Leaves n) (hk : n ≤ k) :
    p.recorded k = p.recorded n := by
  obtain ⟨d, rfl⟩ := Nat.exists_eq_add_of_le hk
  have hidle : (Machine.start.after p.lines n).record p.lines d = [] := Machine.record_behind h d
  simp [recorded, Machine.record_add, hidle]

end Program
end DeskCheck
