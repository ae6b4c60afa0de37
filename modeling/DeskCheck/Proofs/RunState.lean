import DeskCheck.Proofs.Succession

/-!
# The state of a run between two lines

A run in progress keeps a machine and what has been recorded, and counts lines and bytes.  Between two
lines these agree with each other (`Run.Sound`): the machine follows the last snapshot that was kept,
there are no more snapshots than visits and the first one, and the bytes are those of the snapshots.

`Run.Reached` are the states between two lines.  One visit keeps `Run.Sound` (`Sound.visit`), so every
such state has it, whatever the program and the budget; `reached_sound` says what that is without
mention of another invariant.  Reached states are those of the loop: the trace is what the loop makes
of each of them (`Reached.complete_eq`), and the snapshots of every trace are those of the reached state
at which the loop ends (`exists_reached_last`).
-/

namespace DeskCheck

namespace Run

variable {lines : List Line} {b : Budget} {r r' : Run}

/-! ### States between two lines -/

/-- The states of a run between two lines: the one before the first line, and the one behind each
visit that the budget allows and whose snapshot, if there is one, was kept. -/
inductive Reached (lines : List Line) (b : Budget) : Run → Prop
  | start : Reached lines b .start
  | visit {r r' : Run} : Reached lines b r → r.machine.counter < lines.length → r.steps < b.steps →
      r.visit lines b.bytes = .ok r' → Reached lines b r'

/-- The parts of a run agree with each other. -/
structure Sound (lines : List Line) (r : Run) : Prop where
  follows : ∃ s, r.snapshots.toList.getLast? = some s ∧ r.machine.Follows lines s
  size : r.snapshots.size ≤ r.steps + 1
  bytes : r.bytes = Snapshot.totalBytes r.snapshots.toList

/-- What a visit does: it takes no snapshot, or it keeps the one that it takes. -/
theorem visit_eq_ok {limit : Nat} (h : r.visit lines limit = .ok r') :
    (∃ m, r.machine.visit lines = (m, none) ∧ r' = ⟨m, r.steps + 1, r.snapshots, r.bytes⟩) ∨
      ∃ m s, r.machine.visit lines = (m, some s) ∧
        r' = ⟨m, r.steps + 1, r.snapshots.push s, r.bytes + s.bytes⟩ := by
  rcases hv : r.machine.visit lines with ⟨m, _ | s⟩
  · simp only [Run.visit, hv, Except.ok.injEq] at h
    exact .inl ⟨m, rfl, h.symm⟩
  · simp only [Run.visit, hv, keep] at h
    split at h
    · cases h
    · exact .inr ⟨m, s, rfl, (Except.ok.inj h).symm⟩

/-- A visit whose snapshot is refused leaves what has been recorded. -/
theorem visit_eq_error {limit : Nat} {t : Trace} (h : r.visit lines limit = .error t) :
    t = r.stop (.memoryLimit limit) := by
  rcases hv : r.machine.visit lines with ⟨m, _ | s⟩
  · simp only [Run.visit, hv] at h
    cases h
  · simp only [Run.visit, hv, keep] at h
    split at h
    · exact (Except.error.inj h).symm
    · cases h

theorem steps_visit {limit : Nat} (h : r.visit lines limit = .ok r') : r'.steps = r.steps + 1 := by
  rcases visit_eq_ok h with ⟨m, -, rfl⟩ | ⟨m, s, -, rfl⟩
  · rfl
  · rfl

/-! ### The invariant -/

theorem sound_start : Sound lines .start where
  follows := ⟨.initial, rfl, .unarmed (Nat.zero_le _) Snapshot.initial_leadsTo⟩
  size := Nat.le_refl 1
  bytes := rfl

theorem Sound.visit {limit : Nat} (h : r.Sound lines) (hv : r.visit lines limit = .ok r') :
    r'.Sound lines := by
  obtain ⟨s, hlast, hfollows⟩ := h.follows
  have hkeeps := hfollows.visit
  rcases visit_eq_ok hv with ⟨m, hm, rfl⟩ | ⟨m, s', hm, rfl⟩
  · -- without a snapshot the machine goes on following the last one
    rw [hm] at hkeeps
    exact ⟨⟨s, hlast, hkeeps⟩, Nat.le_succ_of_le h.size, h.bytes⟩
  · rw [hm] at hkeeps
    obtain ⟨-, hfollows'⟩ := hkeeps
    refine ⟨⟨s', ?_, hfollows'⟩, ?_, ?_⟩
    · show (r.snapshots.push s').toList.getLast? = some s'
      rw [Array.toList_push, List.getLast?_concat]
    · show (r.snapshots.push s').size ≤ r.steps + 1 + 1
      rw [Array.size_push]
      exact Nat.succ_le_succ h.size
    · show r.bytes + s'.bytes = Snapshot.totalBytes (r.snapshots.push s').toList
      rw [Array.toList_push, Snapshot.totalBytes_append, ← h.bytes]
      rfl

theorem Reached.sound (h : r.Reached lines b) : r.Sound lines := by
  induction h with
  | start => exact sound_start
  | visit _ _ _ hv ih => exact ih.visit hv

theorem Reached.steps_le (h : r.Reached lines b) : r.steps ≤ b.steps := by
  cases h with
  | start => exact Nat.zero_le _
  | visit _ _ hmore hv =>
    rw [steps_visit hv]
    exact hmore

/-! ### Reached states are those of the loop -/

/-- From each reached state on, the loop goes to the same end. -/
theorem Reached.complete_eq (h : r.Reached lines b) :
    complete lines b.bytes (b.steps - r.steps) r = complete lines b.bytes b.steps .start := by
  induction h with
  | start => rfl
  | @visit r r' _ hline hmore hv ih =>
    have hleft : b.steps - r.steps = b.steps - r'.steps + 1 := by
      rw [steps_visit hv]
      omega
    rw [← ih, hleft, complete, if_neg (Nat.not_le_of_lt hline), hv]

/-- The loop ends at a reached state, whose snapshots are those of the trace: there the program has
been left, or the step budget is used up, or the next snapshot is refused. -/
theorem Reached.exists_last (h : r.Reached lines b) :
    ∃ last : Run, last.Reached lines b ∧
      (complete lines b.bytes (b.steps - r.steps) r).snapshots = last.snapshots ∧
      (lines.length ≤ last.machine.counter ∨ last.steps = b.steps ∨
        ∃ t, last.visit lines b.bytes = .error t) := by
  generalize hleft : b.steps - r.steps = left
  induction left generalizing r with
  | zero =>
    have hused : r.steps = b.steps := Nat.le_antisymm h.steps_le (Nat.sub_eq_zero_iff_le.mp hleft)
    exact ⟨r, h, rfl, .inr (.inl hused)⟩
  | succ left ih =>
    rw [complete]
    split
    · next hbehind => exact ⟨r, h, rfl, .inl hbehind⟩
    · next hline =>
      rcases hv : r.visit lines b.bytes with t | next
      · refine ⟨r, h, ?_, .inr (.inr ⟨t, hv⟩)⟩
        show t.snapshots = r.snapshots
        rw [visit_eq_error hv]
        rfl
      · apply ih (h.visit (Nat.lt_of_not_le hline) (by omega) hv)
        rw [steps_visit hv]
        omega

end Run

namespace Program

open Run

/-- Every trace is that of a run which has come to its end. -/
theorem exists_reached (p : Program) (b : Budget) :
    ∃ r : Run, r.Reached p.lines b ∧ (p.trace b).snapshots = r.snapshots ∧
      (p.size ≤ r.machine.counter ∨ r.steps = b.steps ∨
        ∃ t, r.visit p.lines b.bytes = .error t) :=
  Reached.start.exists_last

/-- **Between two lines the state of a run is sound.**  For every program, every budget and every
state reached between two lines: the counter is at most the number of lines; no branch is armed, or
the one at the counter alone; no access is pending; there are no more visits than the budget allows,
and no more snapshots than visits and the first one; the bytes are those of the snapshots; and the
machine has the variables and the output of the last snapshot.  The trace is what the loop makes of
this state with the visits that are left. -/
theorem reached_sound (p : Program) (b : Budget) (r : Run) (h : r.Reached p.lines b) :
    r.machine.counter ≤ p.size ∧
    (r.machine.armed = [] ∨ r.machine.armed = [r.machine.counter] ∧
      ∃ line, p.line? r.machine.counter = some line ∧ line.isBranch = true) ∧
    r.machine.pending = [] ∧
    r.steps ≤ b.steps ∧ r.snapshots.size ≤ r.steps + 1 ∧
    r.bytes = Snapshot.totalBytes r.snapshots.toList ∧
    (∃ s, r.snapshots.back? = some s ∧ r.machine.store = s.store ∧ r.machine.output = s.output) ∧
    p.trace b = Run.complete p.lines b.bytes (b.steps - r.steps) r := by
  obtain ⟨⟨s, hlast, hfollows⟩, hsize, hbytes⟩ := h.sound
  have hback : r.snapshots.back? = some s := by
    rw [← Array.getLast?_toList]
    exact hlast
  have htrace : p.trace b = Run.complete p.lines b.bytes (b.steps - r.steps) r := h.complete_eq.symm
  obtain ⟨m, steps, snapshots, bytes⟩ := r
  cases hfollows with
  | unarmed hle _ =>
    exact ⟨hle, .inl rfl, rfl, h.steps_le, hsize, hbytes, ⟨s, hback, rfl, rfl⟩, htrace⟩
  | @armed i hleads =>
    -- the machine stands in front of the branch that a scan has found
    obtain ⟨a, guard, -, -, -, hexit⟩ := hleads
    obtain ⟨-, line, hline, hbranch⟩ := Matching.exit_branch hexit
    have hlt : i < p.lines.length := (List.getElem?_eq_some_iff.mp hline).1
    exact ⟨hlt.le, .inr ⟨rfl, line, hline, hbranch⟩, rfl, h.steps_le, hsize, hbytes,
      ⟨s, hback, rfl, rfl⟩, htrace⟩

/-- Behind the condition of `printedByElse` the `ELSE` is armed. -/
theorem reached_sound_printedByElse :
    let r : Run := ⟨.resting 2 ⟨some 0, .empty, [], []⟩ [2], 1, #[.initial, ⟨some 0, .empty, [], []⟩], 240⟩
    r.Reached printedByElse.lines ⟨9, 5000⟩ ∧
      (∃ line, printedByElse.line? 2 = some line ∧ line.isBranch = true) ∧
      r.bytes = Snapshot.totalBytes r.snapshots.toList := by
  intro r
  have hreached : r.Reached printedByElse.lines ⟨9, 5000⟩ :=
    Reached.start.visit (by decide) (by decide) rfl
  obtain ⟨-, harmed, -, -, -, hbytes, -, -⟩ := reached_sound printedByElse ⟨9, 5000⟩ r hreached
  refine ⟨hreached, ?_, hbytes⟩
  rcases harmed with hnone | ⟨-, hbranch⟩
  · cases hnone
  · exact hbranch

end Program
end DeskCheck
