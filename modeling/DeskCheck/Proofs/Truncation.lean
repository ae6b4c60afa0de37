import DeskCheck.Proofs.FreeRun
import Mathlib.Order.Nat

/-!
# Traces as truncated runs

A trace is the run without a budget, cut off at one of three places: before the first snapshot that
the memory budget does not allow, behind the last line of the program, or after the last visit that
the step budget allows.  `trace_truncates` says which of the three cuts a run, and what the trace
then is.

The proof follows the loop visit by visit: as long as no visit overflows the budget and none
leaves the program, the state of the loop after `j` visits is `runAfter j` (`complete_start`).
Everything about a cut is then read off the one visit at which the loop ends.
-/

namespace DeskCheck.Program

variable {p : Program} {b : Budget}

/-- Visit `j`, counted from zero, takes a snapshot that does not fit into `limit` bytes together
with all snapshots before it. -/
def Overflows (p : Program) (limit j : Nat) : Prop :=
  ∃ s, ((p.machine j).visit p.lines).2 = some s ∧
    limit < Snapshot.totalBytes (p.recorded j) + s.bytes

/-- The state of the loop after `j` visits. -/
def runAfter (p : Program) (j : Nat) : Run :=
  ⟨p.machine j, j, (p.recorded j).toArray, Snapshot.totalBytes (p.recorded j)⟩

theorem Overflows.not_leaves {limit j : Nat} (h : p.Overflows limit j) : ¬ p.Leaves j := by
  intro hleft
  obtain ⟨s, hs, -⟩ := h
  rw [Machine.visit_behind hleft] at hs
  cases hs

theorem Overflows.mono {limit limit' j : Nat} (h : p.Overflows limit' j) (hl : limit ≤ limit') :
    p.Overflows limit j := by
  obtain ⟨s, hs, hbytes⟩ := h
  exact ⟨s, hs, Nat.lt_of_le_of_lt hl hbytes⟩

/-- A property that some number of visits has is first had by one of them. -/
theorem exists_isLeast {P : Nat → Prop} (h : ∃ n, P n) : ∃ n, IsLeast {n | P n} n := by
  classical
  exact ⟨Nat.find h, Nat.isLeast_find h⟩

/-! ### One turn of the loop -/

theorem visit_runAfter {limit j : Nat} (h : ¬ p.Overflows limit j) :
    (p.runAfter j).visit p.lines limit = .ok (p.runAfter (j + 1)) := by
  rcases hv : (p.machine j).visit p.lines with ⟨m, _ | s⟩
  · simp [Run.visit, runAfter, machine_succ, recorded_succ, hv]
  · have hfits : ¬ limit < Snapshot.totalBytes (p.recorded j) + s.bytes := by
      intro hbytes
      exact h ⟨s, by rw [hv], hbytes⟩
    simp [Run.visit, Run.keep, runAfter, machine_succ, recorded_succ, hv, hfits]

theorem visit_runAfter_of_overflows {limit j : Nat} (h : p.Overflows limit j) :
    (p.runAfter j).visit p.lines limit =
      .error ⟨(p.recorded j).toArray, .memoryLimit limit⟩ := by
  obtain ⟨s, hs, hbytes⟩ := h
  rcases hv : (p.machine j).visit p.lines with ⟨m, s'⟩
  rw [hv] at hs
  obtain rfl : s' = some s := hs
  simp [Run.visit, Run.keep, Run.stop, Termination.ofHalt, runAfter, hv, hbytes]

/-- As long as the run is not cut, the loop is at the state after so many visits. -/
theorem complete_start {limit : Nat} (j left : Nat) (hlive : ∀ i < j, ¬ p.Leaves i)
    (hfits : ∀ i < j, ¬ p.Overflows limit i) :
    Run.complete p.lines limit (j + left) .start =
      Run.complete p.lines limit left (p.runAfter j) := by
  induction j generalizing left with
  | zero => rw [Nat.zero_add]; rfl
  | succ j ih =>
    have hprev := ih (left + 1) (fun i hi => hlive i (Nat.lt_succ_of_lt hi))
      (fun i hi => hfits i (Nat.lt_succ_of_lt hi))
    have hcounter : ¬ p.lines.length ≤ (p.runAfter j).machine.counter := hlive j (Nat.lt_succ_self j)
    rw [show j + 1 + left = j + (left + 1) by omega, hprev, Run.complete, if_neg hcounter,
      visit_runAfter (hfits j (Nat.lt_succ_self j))]

/-! ### The three cuts -/

theorem trace_of_overflows {j : Nat} (hj : IsLeast {j | p.Overflows b.bytes j} j)
    (hsteps : j < b.steps) :
    p.trace b = ⟨(p.recorded j).toArray, .memoryLimit b.bytes⟩ := by
  have hlive : ¬ p.Leaves j := hj.1.not_leaves
  obtain ⟨left, hleft⟩ : ∃ left, b.steps = j + (left + 1) := ⟨b.steps - j - 1, by omega⟩
  have hfits : ∀ i < j, ¬ p.Overflows b.bytes i := by
    intro i hi ho
    exact absurd (hj.2 ho) (Nat.not_le_of_lt hi)
  -- had an earlier visit left the program, visit `j` would take no snapshot
  have hlive' : ∀ i < j, ¬ p.Leaves i := by
    intro i hi hl
    exact hlive (hl.mono hi.le)
  have hcounter : ¬ p.lines.length ≤ (p.runAfter j).machine.counter := hlive
  rw [trace, hleft, complete_start j _ hlive' hfits, Run.complete, if_neg hcounter,
    visit_runAfter_of_overflows hj.1]

theorem trace_of_leaves {n : Nat} (hfits : ∀ j < b.steps, ¬ p.Overflows b.bytes j)
    (hn : IsLeast {n | p.Leaves n} n) (hsteps : n ≤ b.steps) :
    p.trace b = ⟨(p.recorded n).toArray, .completed⟩ := by
  obtain ⟨left, hleft⟩ := Nat.exists_eq_add_of_le hsteps
  have hlive : ∀ i < n, ¬ p.Leaves i := by
    intro i hi hl
    exact absurd (hn.2 hl) (Nat.not_le_of_lt hi)
  have hcounter : p.lines.length ≤ (p.runAfter n).machine.counter := hn.1
  rw [trace, hleft, complete_start n left hlive (fun i hi => hfits i (by omega))]
  -- the completion is seen with visits left as well as without
  cases left with
  | zero => rw [Run.complete, if_pos hcounter]; rfl
  | succ left => rw [Run.complete, if_pos hcounter]; rfl

theorem trace_of_neither (hfits : ∀ j < b.steps, ¬ p.Overflows b.bytes j)
    (hlive : ∀ n ≤ b.steps, ¬ p.Leaves n) :
    p.trace b = ⟨(p.recorded b.steps).toArray, .stepLimit b.steps⟩ := by
  have hcounter : ¬ p.lines.length ≤ (p.runAfter b.steps).machine.counter := hlive _ (Nat.le_refl _)
  have hrun := complete_start b.steps 0 (fun i hi => hlive i hi.le) hfits
  rw [Nat.add_zero] at hrun
  rw [trace, hrun, Run.complete, if_neg hcounter]
  rfl

/-- Every trace has the snapshots of a number of visits that the budget allows.  If visits are left
then, the next one overflows the memory budget or there is no next one. -/
theorem exists_snapshots_eq (p : Program) (b : Budget) :
    ∃ c ≤ b.steps, (p.trace b).snapshots.toList = p.recorded c ∧
      (∀ i < c, ¬ p.Overflows b.bytes i) ∧ (c < b.steps → p.Overflows b.bytes c ∨ p.Leaves c) := by
  by_cases ho : ∃ j < b.steps, p.Overflows b.bytes j
  · -- cut in front of the first overflow
    obtain ⟨i, hi, hij⟩ := ho
    obtain ⟨j, hj⟩ := exists_isLeast ⟨i, hij⟩
    have hsteps : j < b.steps := Nat.lt_of_le_of_lt (hj.2 hij) hi
    refine ⟨j, hsteps.le, ?_, fun k hk h => Nat.not_le_of_lt hk (hj.2 h), fun _ => .inl hj.1⟩
    rw [trace_of_overflows hj hsteps]
  · have hfits : ∀ j < b.steps, ¬ p.Overflows b.bytes j := by
      intro j hj h
      exact ho ⟨j, hj, h⟩
    by_cases hl : ∃ n ≤ b.steps, p.Leaves n
    · -- complete
      obtain ⟨k, hk, hleft⟩ := hl
      obtain ⟨n, hn⟩ := exists_isLeast ⟨k, hleft⟩
      have hsteps : n ≤ b.steps := Nat.le_trans (hn.2 hleft) hk
      refine ⟨n, hsteps, ?_, fun i hi => hfits i (by omega), fun _ => .inr hn.1⟩
      rw [trace_of_leaves hfits hn hsteps]
    · -- cut behind the last visit allowed
      refine ⟨b.steps, Nat.le_refl _, ?_, hfits, fun h => absurd h (Nat.lt_irrefl _)⟩
      rw [trace_of_neither hfits fun n hn h => hl ⟨n, hn, h⟩]

/-! ### What follows for every budget -/

theorem totalBytes_recorded_le {limit c : Nat} (hfits : ∀ i < c, ¬ p.Overflows limit i) :
    Snapshot.totalBytes (p.recorded c) ≤ limit ∨ p.recorded c = [.initial] := by
  induction c with
  | zero => exact .inr rfl
  | succ c ih =>
    rw [recorded_succ]
    rcases hs : ((p.machine c).visit p.lines).2 with _ | s
    · simpa using ih fun i hi => hfits i (Nat.lt_succ_of_lt hi)
    · -- the snapshot of visit `c` was accepted, and the test was on all the bytes up to it
      have hbytes : Snapshot.totalBytes (p.recorded c) + s.bytes ≤ limit := by
        by_contra hlt
        exact hfits c (Nat.lt_succ_self c) ⟨s, hs, Nat.lt_of_not_le hlt⟩
      exact .inl (by simpa using hbytes)

theorem length_recorded_le (p : Program) (k : Nat) : (p.recorded k).length ≤ k + 1 := by
  induction k with
  | zero => exact Nat.le_refl 1
  | succ k ih =>
    rw [recorded_succ, List.length_append]
    have hone : (((p.machine k).visit p.lines).2.toList).length ≤ 1 := by
      cases ((p.machine k).visit p.lines).2 <;> simp
    omega

/-- A trace has at most one snapshot for each visit, and the first. -/
theorem size_trace_le (p : Program) (b : Budget) : (p.trace b).size ≤ b.steps + 1 := by
  obtain ⟨c, hc, hs, -, -⟩ := exists_snapshots_eq p b
  have hlength := p.length_recorded_le c
  rw [← hs, Array.length_toList] at hlength
  exact Nat.le_trans hlength (Nat.succ_le_succ hc)

/-- Each snapshot takes some bytes of its own, so the memory budget bounds how many there are. -/
theorem size_trace_mul_le (p : Program) (b : Budget) :
    (p.trace b).size * Snapshot.ownBytes ≤ max b.bytes Snapshot.ownBytes := by
  obtain ⟨c, -, hs, hfits, -⟩ := exists_snapshots_eq p b
  have hlength := Snapshot.length_mul_le_totalBytes (p.recorded c)
  rw [Trace.size, ← Array.length_toList, hs]
  rcases totalBytes_recorded_le hfits with hbytes | honly
  · exact Nat.le_trans (Nat.le_trans hlength hbytes) (Nat.le_max_left _ _)
  · rw [honly]
    exact Nat.le_trans (Nat.le_of_eq (Nat.one_mul _)) (Nat.le_max_right _ _)

/-- If all snapshots of a number of visits fit, no visit among these overflows. -/
theorem not_overflows {limit n j : Nat}
    (hbytes : p.recorded n ≠ [.initial] → Snapshot.totalBytes (p.recorded n) ≤ limit) (hj : j < n) :
    ¬ p.Overflows limit j := by
  rintro ⟨s, hs, hover⟩
  have hnext : p.recorded (j + 1) = p.recorded j ++ [s] := by
    rw [recorded_succ, hs, Option.toList_some]
  -- so the sum over all of them is at least the one that overflows
  have hprefix : p.recorded (j + 1) <+: p.recorded n := recorded_prefix p hj
  have htotal := Snapshot.totalBytes_mono hprefix
  rw [hnext, Snapshot.totalBytes_append, Snapshot.totalBytes_cons] at htotal
  have hmany : p.recorded n ≠ [.initial] := by
    intro honly
    have hlength := hprefix.length_le
    rw [honly, hnext] at hlength
    simp [recorded] at hlength
  have hfits := hbytes hmany
  simp only [Snapshot.totalBytes_nil] at htotal
  omega

/-- A larger budget extends the list of snapshots. -/
theorem snapshots_prefix {b' : Budget} (hsteps : b.steps ≤ b'.steps) (hbytes : b.bytes ≤ b'.bytes) :
    (p.trace b).snapshots.toList <+: (p.trace b').snapshots.toList := by
  obtain ⟨c, hc, hs, hfits, -⟩ := exists_snapshots_eq p b
  obtain ⟨c', -, hs', -, hnext'⟩ := exists_snapshots_eq p b'
  rw [hs, hs']
  rcases Nat.lt_or_ge c' c with hlt | hle
  · -- the larger budget can only stop earlier where the program is left
    have hmore : c' < b'.steps := by omega
    rcases hnext' hmore with ho | hl
    · exact absurd (ho.mono hbytes) (hfits c' hlt)
    · have hidle : p.recorded c = p.recorded c' := hl.recorded_eq hlt.le
      exact hidle ▸ List.prefix_rfl
  · exact recorded_prefix p hle

/-- A program that is left within the step budget is not cut by it. -/
theorem termination_ne_stepLimit {n : Nat} (hl : p.Leaves n) (hsteps : n ≤ b.steps) (k : Nat) :
    (p.trace b).termination ≠ .stepLimit k := by
  by_cases ho : ∃ j < b.steps, p.Overflows b.bytes j
  · obtain ⟨i, hi, hover⟩ := ho
    obtain ⟨j, hj⟩ := exists_isLeast ⟨i, hover⟩
    rw [trace_of_overflows hj (Nat.lt_of_le_of_lt (hj.2 hover) hi)]
    simp
  · obtain ⟨first, hfirst⟩ := exists_isLeast ⟨n, hl⟩
    rw [trace_of_leaves (fun j hj h => ho ⟨j, hj, h⟩) hfirst (Nat.le_trans (hfirst.2 hl) hsteps)]
    simp

/-! ### Complete traces -/

/-- The end of a run is complete if it is reached with the steps and the bytes that there are. -/
theorem trace_of_leaves_of_bytes {n : Nat} (hl : p.Leaves n) (hsteps : n ≤ b.steps)
    (hbytes : p.recorded n ≠ [.initial] → Snapshot.totalBytes (p.recorded n) ≤ b.bytes) :
    (p.trace b).termination = .completed := by
  have hfits : ∀ j < b.steps, ¬ p.Overflows b.bytes j := by
    intro j _ ho
    rcases Nat.lt_or_ge j n with hlt | hge
    · exact not_overflows hbytes hlt ho
    · exact ho.not_leaves (hl.mono hge)
  obtain ⟨first, hfirst⟩ := exists_isLeast ⟨n, hl⟩
  rw [trace_of_leaves hfits hfirst (Nat.le_trans (hfirst.2 hl) hsteps)]

/-- A complete trace has all snapshots of the run, and these fit into the memory budget. -/
theorem exists_leaves_of_completed (h : (p.trace b).termination = .completed) :
    ∃ n ≤ b.steps, p.Leaves n ∧ p.trace b = ⟨(p.recorded n).toArray, .completed⟩ ∧
      (p.recorded n ≠ [.initial] → Snapshot.totalBytes (p.recorded n) ≤ b.bytes) := by
  by_cases ho : ∃ j < b.steps, p.Overflows b.bytes j
  · obtain ⟨i, hi, hover⟩ := ho
    obtain ⟨j, hj⟩ := exists_isLeast ⟨i, hover⟩
    rw [trace_of_overflows hj (Nat.lt_of_le_of_lt (hj.2 hover) hi)] at h
    cases h
  · have hfits : ∀ j < b.steps, ¬ p.Overflows b.bytes j := by
      intro j hj h
      exact ho ⟨j, hj, h⟩
    by_cases hl : ∃ n ≤ b.steps, p.Leaves n
    · obtain ⟨k, hk, hleft⟩ := hl
      obtain ⟨n, hn⟩ := exists_isLeast ⟨k, hleft⟩
      have hsteps : n ≤ b.steps := Nat.le_trans (hn.2 hleft) hk
      refine ⟨n, hsteps, hn.1, trace_of_leaves hfits hn hsteps, fun hmany => ?_⟩
      exact (totalBytes_recorded_le fun i hi => hfits i (by omega)).resolve_right hmany
    · rw [trace_of_neither hfits fun n hn h => hl ⟨n, hn, h⟩] at h
      cases h

/-- **A trace is the exact truncation of the run without a budget.**  If the first overflow of the
memory budget is among the visits that the step budget allows, the trace has the snapshots before it.
If not, and the program is left within the step budget, it has all snapshots of the run and is
complete.  Else it has those of the visits that the step budget allows.

So the first snapshot is always kept, a program that is left on exactly the last visit allowed is not
cut by the step budget, the snapshots fit into the memory budget unless only the first one is kept,
and a larger budget extends the list of snapshots. -/
theorem trace_truncates (p : Program) (b : Budget) :
    (∀ j, IsLeast {j | p.Overflows b.bytes j} j → j < b.steps →
      p.trace b = ⟨(p.recorded j).toArray, .memoryLimit b.bytes⟩) ∧
    ((∀ j < b.steps, ¬ p.Overflows b.bytes j) →
      (∀ n, IsLeast {n | p.Leaves n} n → n ≤ b.steps →
        p.trace b = ⟨(p.recorded n).toArray, .completed⟩ ∧
          ∀ k, n ≤ k → p.recorded k = p.recorded n) ∧
      ((∀ n ≤ b.steps, ¬ p.Leaves n) →
        p.trace b = ⟨(p.recorded b.steps).toArray, .stepLimit b.steps⟩)) ∧
    (p.trace b).get? 0 = some .initial ∧
    (p.Leaves b.steps → ∀ k, (p.trace b).termination ≠ .stepLimit k) ∧
    (Snapshot.totalBytes (p.trace b).snapshots.toList ≤ b.bytes ∨
      (p.trace b).snapshots = #[.initial]) ∧
    ∀ b' : Budget, b.steps ≤ b'.steps → b.bytes ≤ b'.bytes →
      (p.trace b).snapshots.toList <+: (p.trace b').snapshots.toList := by
  obtain ⟨c, -, hs, hfits, -⟩ := exists_snapshots_eq p b
  have hsnapshots : (p.trace b).snapshots = (p.recorded c).toArray := by rw [← hs]
  refine ⟨?_, fun hall => ⟨?_, ?_⟩, ?_, ?_, ?_, ?_⟩
  · intro j hj hsteps
    exact trace_of_overflows hj hsteps
  · intro n hn hsteps
    exact ⟨trace_of_leaves hall hn hsteps, fun k hk => hn.1.recorded_eq hk⟩
  · exact trace_of_neither hall
  · rw [Trace.get?, hsnapshots]
    rfl
  · intro hl
    exact termination_ne_stepLimit hl (Nat.le_refl _)
  · rw [hsnapshots]
    rcases totalBytes_recorded_le hfits with hbytes | honly
    · exact .inl hbytes
    · right
      rw [honly]
  · intro b' hsteps hbytes
    exact snapshots_prefix hsteps hbytes

/-- A snapshot with one printed text of two bytes takes more than the first snapshot leaves of 200
bytes. -/
theorem trace_truncates_print :
    Program.trace ⟨[], [.print (.text "hi")]⟩ ⟨9, 200⟩ = ⟨#[.initial], .memoryLimit 200⟩ :=
  (trace_truncates ⟨[], [.print (.text "hi")]⟩ ⟨9, 200⟩).1 0
    ⟨⟨⟨some 0, .empty, [⟨"hi", 0⟩], []⟩, rfl, by decide⟩, fun _ _ => Nat.zero_le _⟩ (by decide)

end DeskCheck.Program
