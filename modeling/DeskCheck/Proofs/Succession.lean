import DeskCheck.Proofs.Bindings
import DeskCheck.Proofs.Replay
import DeskCheck.Proofs.Truncation
import Mathlib.Data.List.Chain

/-!
# What follows what in a trace

Between two snapshots the machine may visit any number of lines that take none.  Nothing gets lost
or leaks in these visits, and that is one invariant, `Machine.Follows`: a machine that follows a
snapshot is resting on it, and a branch is armed just when the condition on the snapshot's line has
sent the machine there, in which case the machine stands in front of it.

`Follows.visit` says that every visit keeps the invariant, and that a snapshot it takes stands to the
one before as `Snapshot.Next` demands.  So every two neighbours in every trace do
(`trace_isChain`), whatever the program and the budget.  Two results are read off it: each snapshot
can be replayed from its line and the snapshot before (`trace_replayable`), and branches run only
where a condition has sent the machine (`branch_entered_by_jump`).
-/

namespace DeskCheck

variable {lines : List Line}

/-- The condition on the line of `s` does not hold, and leads to the branch at `b`. -/
def Snapshot.LeadsTo (lines : List Line) (s : Snapshot) (b : Nat) : Prop :=
  ∃ a guard, s.line = some a ∧
    (lines[a]? = some (.ifThen guard) ∨ lines[a]? = some (.elseIf guard)) ∧
    Guard.holds s.store guard = false ∧ Matching.exit lines a = .branch b

/-- `s'` is the snapshot of a line right after `s`.  It is at a branch only if `s` leads there, and
if `s` leads to a branch it is at no other line. -/
def Snapshot.Next (lines : List Line) (s s' : Snapshot) : Prop :=
  ∃ l line, lines[l]? = some line ∧ line.replay l s = some s' ∧
    (line.isBranch = true → s.LeadsTo lines l) ∧ ∀ b, s.LeadsTo lines b → b = l

namespace Snapshot

theorem LeadsTo.unique {s : Snapshot} {b b' : Nat} (h : s.LeadsTo lines b)
    (h' : s.LeadsTo lines b') : b = b' := by
  obtain ⟨a, guard, ha, -, -, hexit⟩ := h
  obtain ⟨a', guard', ha', -, -, hexit'⟩ := h'
  obtain rfl : a = a' := Option.some.inj (ha.symm.trans ha')
  exact Matching.Exit.branch.inj (hexit.symm.trans hexit')

/-- Only the condition of the snapshot's own line leads anywhere. -/
theorem LeadsTo.guard {s : Snapshot} {a b : Nat} {line : Line} (h : s.LeadsTo lines b)
    (ha : s.line = some a) (hline : lines[a]? = some line) :
    ∃ guard, (line = .ifThen guard ∨ line = .elseIf guard) ∧
      Guard.holds s.store guard = false ∧ Matching.exit lines a = .branch b := by
  obtain ⟨a', guard, ha', hcond, hfails, hexit⟩ := h
  obtain rfl : a = a' := Option.some.inj (ha.symm.trans ha')
  refine ⟨guard, ?_, hfails, hexit⟩
  rw [hline] at hcond
  exact hcond.imp Option.some.inj Option.some.inj

theorem initial_leadsTo (b : Nat) : ¬ initial.LeadsTo lines b := by
  rintro ⟨a, guard, ha, -⟩
  cases ha

end Snapshot

/-! ### The invariant -/

/-- The machine is resting on the snapshot `s`: either with no branch armed, and then `s` leads to
none, or in front of the branch that `s` leads to, which alone is armed. -/
inductive Machine.Follows (lines : List Line) (s : Snapshot) : Machine → Prop
  | unarmed {i : Nat} : i ≤ lines.length → (∀ b, ¬ s.LeadsTo lines b) →
      Follows lines s (.resting i s [])
  | armed {b : Nat} : s.LeadsTo lines b → Follows lines s (.resting b s [b])

namespace Machine.Follows

open Machine

variable {s : Snapshot} {m : Machine} {i : Nat}

/-- Behind a condition the machine follows the condition's snapshot. -/
theorem decided {guard : Option Expr} {line : Line} (hs : s.line = some i)
    (hline : lines[i]? = some line) (hcond : line = .ifThen guard ∨ line = .elseIf guard) :
    (decided lines i s guard).Follows lines s := by
  have hi : i < lines.length := (List.getElem?_eq_some_iff.mp hline).1
  -- the condition of `line` is the only one that `s` could have failed
  have hguard : ∀ {b}, s.LeadsTo lines b →
      Guard.holds s.store guard = false ∧ Matching.exit lines i = .branch b := by
    intro b hb
    obtain ⟨guard', hcond', hfails, hexit⟩ := hb.guard hs hline
    obtain rfl : guard = guard' := by
      rcases hcond with rfl | rfl <;> rcases hcond' with h | h <;> cases h <;> rfl
    exact ⟨hfails, hexit⟩
  rw [Machine.decided]
  split
  · next hholds =>
    refine .unarmed hi fun b hb => ?_
    rw [(hguard hb).1] at hholds
    cases hholds
  · next hfails =>
    split
    · next b hexit =>
      refine .armed ⟨i, guard, hs, ?_, Bool.eq_false_iff.mpr hfails, hexit⟩
      rw [hline]
      exact hcond.imp (congrArg some) (congrArg some)
    · next e hexit =>
      refine .unarmed (Matching.exit_pastEnd_le hi hexit) fun b hb => ?_
      rw [(hguard hb).2] at hexit
      cases hexit

theorem behind_le {close : Option Nat} (h : ∀ j, close = some j → j < lines.length) :
    behind lines close ≤ lines.length := by
  cases close with
  | none => exact Nat.le_refl _
  | some j => exact h j rfl

/-- What one visit does to a machine that follows `s`: it goes on following `s` without a snapshot,
or it takes the next snapshot and follows that. -/
def Keeps (lines : List Line) (s : Snapshot) (after : Machine × Option Snapshot) : Prop :=
  match after.2 with
  | none => after.1.Follows lines s
  | some s' => s.Next lines s' ∧ after.1.Follows lines s'

/-- A visit at an unconditional line of which a snapshot is taken. -/
theorem keeps_recorded {line : Line} {s' : Snapshot} {j : Nat} (hline : lines[i]? = some line)
    (hs : line.replay i s = some s') (hfree : ∀ b, ¬ s.LeadsTo lines b)
    (hbranch : line.isBranch = false) (hif : line.isIf = false) (hj : j ≤ lines.length) :
    Keeps lines s (.resting j s' [], some s') := by
  refine ⟨⟨i, line, hline, hs, ?_, fun b hb => absurd hb (hfree b)⟩, .unarmed hj fun b hb => ?_⟩
  · rw [hbranch]
    intro h
    cases h
  · obtain ⟨guard, rfl | rfl, -⟩ := hb.guard (Line.replay_line hs) hline
    · cases hif
    · cases hbranch

theorem visit_unarmed (hfree : ∀ b, ¬ s.LeadsTo lines b) :
    Keeps lines s ((resting i s []).visit lines) := by
  rcases hline : lines[i]? with _ | line
  · -- behind the last line
    rw [visit_behind (List.getElem?_eq_none_iff.mp hline)]
    exact .unarmed (Nat.le_refl _) hfree
  have hlt : i < lines.length := (List.getElem?_eq_some_iff.mp hline).1
  cases line with
  | blank => rw [visit_blank hline]; exact .unarmed hlt hfree
  | endIf => rw [visit_endIf hline]; exact .unarmed hlt hfree
  | unrecognized => rw [visit_unrecognized hline]; exact .unarmed hlt hfree
  | endWhile =>
    rw [visit_endWhile hline]
    refine .unarmed ?_ hfree
    rcases hw : Matching.while? lines i with _ | j
    · exact hlt
    · exact (Matching.while?_lt hw).le
  | whileDo guard =>
    rw [visit_whileDo hline rfl]
    refine keeps_recorded hline rfl hfree rfl rfl ?_
    split
    · exact hlt
    · exact behind_le fun j hj => Matching.endWhile?_lt hj
  | ifThen guard =>
    -- the one line from which an unarmed machine can become armed
    rw [visit_ifThen hline rfl]
    refine ⟨⟨i, _, hline, rfl, ?_, fun b hb => absurd hb (hfree b)⟩, ?_⟩
    · intro h
      cases h
    · exact .decided rfl hline (.inl rfl)
  | elseIf guard =>
    -- reached from the body above, and left without a snapshot
    rw [visit_branch_unarmed hline rfl]
    exact .unarmed (behind_le fun j hj => Matching.endIf?_lt hj) hfree
  | otherwise =>
    rw [visit_branch_unarmed hline rfl]
    exact .unarmed (behind_le fun j hj => Matching.endIf?_lt hj) hfree
  | print e =>
    rw [visit_print hline rfl]
    exact keeps_recorded hline rfl hfree rfl rfl hlt
  | assign target value =>
    rw [visit_assign hline rfl]
    exact keeps_recorded hline rfl hfree rfl rfl hlt

theorem visit_armed {b : Nat} (hb : s.LeadsTo lines b) :
    Keeps lines s ((resting b s [b]).visit lines) := by
  obtain ⟨a, guard, -, -, -, hexit⟩ := id hb
  -- what a scan has found is a line on which a chain continues
  obtain ⟨-, line, hline, hbranch⟩ := Matching.exit_branch hexit
  have hlt : b < lines.length := (List.getElem?_eq_some_iff.mp hline).1
  cases line with
  | elseIf guard =>
    rw [visit_elseIf hline rfl]
    refine ⟨⟨b, _, hline, rfl, fun _ => hb, fun b' hb' => hb'.unique hb⟩, ?_⟩
    exact .decided rfl hline (.inr rfl)
  | otherwise =>
    rw [visit_otherwise hline rfl]
    refine ⟨⟨b, _, hline, rfl, fun _ => hb, fun b' hb' => hb'.unique hb⟩, .unarmed hlt ?_⟩
    intro b' hb'
    obtain ⟨guard', hcond | hcond, -⟩ := hb'.guard rfl hline <;> cases hcond
  | _ => cases hbranch

theorem visit (h : m.Follows lines s) : Keeps lines s (m.visit lines) := by
  cases h with
  | unarmed _ hfree => exact visit_unarmed hfree
  | armed hb => exact visit_armed hb

end Machine.Follows

/-! ### Runs and traces -/

theorem Trace.getElem?_snapshots (t : Trace) (i : Nat) : t.snapshots.toList[i]? = t.get? i :=
  Array.getElem?_toList

namespace Program

/-- After every number of visits the machine follows the last snapshot, and each snapshot is the
next of the one before. -/
theorem follows_recorded (p : Program) (k : Nat) :
    (p.recorded k).IsChain (Snapshot.Next p.lines) ∧
      ∃ s, (p.recorded k).getLast? = some s ∧ (p.machine k).Follows p.lines s := by
  induction k with
  | zero =>
    refine ⟨List.isChain_singleton _, .initial, rfl, ?_⟩
    exact .unarmed (Nat.zero_le _) Snapshot.initial_leadsTo
  | succ k ih =>
    obtain ⟨hchain, s, hlast, hfollows⟩ := ih
    have hkeeps := hfollows.visit
    rw [recorded_succ, machine_succ]
    rcases hv : (p.machine k).visit p.lines with ⟨m, _ | s'⟩
    · -- no snapshot: the machine goes on following the last one
      rw [hv] at hkeeps
      rw [Option.toList_none, List.append_nil]
      exact ⟨hchain, s, hlast, hkeeps⟩
    · rw [hv] at hkeeps
      obtain ⟨hnext, hfollows'⟩ := hkeeps
      refine ⟨?_, s', List.getLast?_concat .., hfollows'⟩
      apply List.isChain_append.mpr
      refine ⟨hchain, List.isChain_singleton _, ?_⟩
      intro x hx y hy
      obtain rfl : s = x := Option.some.inj (hlast.symm.trans hx)
      obtain rfl : s' = y := Option.some.inj hy
      exact hnext

theorem trace_isChain (p : Program) (b : Budget) :
    (p.trace b).snapshots.toList.IsChain (Snapshot.Next p.lines) := by
  obtain ⟨c, -, hs, -, -⟩ := exists_snapshots_eq p b
  rw [hs]
  exact (follows_recorded p c).1

theorem next_of_get? {p : Program} {b : Budget} {i : Nat} {s s' : Snapshot}
    (hs : (p.trace b).get? i = some s) (hs' : (p.trace b).get? (i + 1) = some s') :
    s.Next p.lines s' := by
  rw [← Trace.getElem?_snapshots] at hs hs'
  obtain ⟨hi, rfl⟩ := List.getElem?_eq_some_iff.mp hs
  obtain ⟨hi', rfl⟩ := List.getElem?_eq_some_iff.mp hs'
  exact List.isChain_iff_getElem.mp (trace_isChain p b) i hi'

end Program

/-! ### Local replay -/

/-- What `s'` shows as the snapshot of this line, which is line `l`, right after `s`. -/
def Line.Explains (l : Nat) (s s' : Snapshot) : Line → Prop
  | .whileDo guard | .ifThen guard | .elseIf guard =>
    s'.store = s.store ∧ s'.output = s.output ∧ s'.accesses = Guard.reads s.store guard
  | .otherwise => s'.store = s.store ∧ s'.output = s.output ∧ s'.accesses = []
  | .print e =>
    let v := e.eval s.store
    s'.store = s.store ∧ s'.output = s.output ++ [⟨v.value.toText, l⟩] ∧ s'.accesses = v.reads
  | .assign (.name n) e =>
    let v := e.eval s.store
    s'.output = s.output ∧ s'.accesses = v.reads ∧ s'.store = s.store.assign n v.value ∧
      s'.store.get? n = some v.value ∧ ∀ other, other ≠ n → s'.store.get? other = s.store.get? other
  | .assign (.element n index) e =>
    let i := index.eval s.store
    let v := e.eval s.store
    s'.output = s.output ∧
      match s.store.assignAt? n i.value v.value with
      | none => s'.store = s.store ∧ s'.accesses = i.reads ++ v.reads
      | some written => s'.store = written ∧ ∃ position, i.value.toPosition? = some position ∧
          s'.accesses = i.reads ++ v.reads ++ [⟨n, position, v.value, .write⟩]
  | .blank | .endWhile | .endIf | .unrecognized => False

theorem Target.write_refused {store : Store} {n : String} {index value : Expr}
    (h : store.assignAt? n (index.eval store).value (value.eval store).value = none) :
    (Target.element n index).write store value =
      (store, (index.eval store).reads ++ (value.eval store).reads) := by
  simp [Target.write, h]

theorem Target.write_accepted {store written : Store} {n : String} {index value : Expr}
    {position : Nat}
    (h : store.assignAt? n (index.eval store).value (value.eval store).value = some written)
    (hposition : (index.eval store).value.toPosition? = some position) :
    (Target.element n index).write store value =
      (written, (index.eval store).reads ++ (value.eval store).reads ++
        [⟨n, position, (value.eval store).value, .write⟩]) := by
  simp [Target.write, h, hposition]

/-- An assignment to an element is refused, or it is a write, which comes behind the reads. -/
theorem Target.write_element (store : Store) (n : String) (index value : Expr) :
    (store.assignAt? n (index.eval store).value (value.eval store).value = none ∧
      (Target.element n index).write store value =
        (store, (index.eval store).reads ++ (value.eval store).reads)) ∨
    ∃ written position,
      store.assignAt? n (index.eval store).value (value.eval store).value = some written ∧
      (index.eval store).value.toPosition? = some position ∧
      (Target.element n index).write store value =
        (written, (index.eval store).reads ++ (value.eval store).reads ++
          [⟨n, position, (value.eval store).value, .write⟩]) := by
  rcases ha : store.assignAt? n (index.eval store).value (value.eval store).value with
    _ | written
  · exact .inl ⟨rfl, write_refused ha⟩
  · obtain ⟨-, position, -, -, hposition, -, -⟩ := Store.exists_of_assignAt? ha
    exact .inr ⟨written, position, rfl, hposition, write_accepted ha hposition⟩

theorem Line.explains_of_replay {l : Nat} {s t : Snapshot} {line : Line}
    (h : line.replay l s = some t) : line.Explains l s t := by
  cases line with
  | blank | endWhile | endIf | unrecognized => cases h
  | whileDo guard | ifThen guard | elseIf guard => cases h; exact ⟨rfl, rfl, rfl⟩
  | otherwise => cases h; exact ⟨rfl, rfl, rfl⟩
  | print e => cases h; exact ⟨rfl, rfl, rfl⟩
  | assign target e =>
    cases target with
    | name n =>
      cases h
      refine ⟨rfl, rfl, rfl, ?_, fun other hother => ?_⟩
      · simp [Target.write, Store.get?_assign]
      · simp [Target.write, Store.get?_assign, hother]
    | element n index =>
      cases h
      refine ⟨rfl, ?_⟩
      rcases Target.write_element s.store n index e with
        ⟨ha, hwrite⟩ | ⟨written, position, ha, hposition, hwrite⟩
      · simp [ha, hwrite]
      · simp [ha, hposition, hwrite]

theorem Line.replay_of_explains {l : Nat} {s t : Snapshot} {line : Line} (hl : t.line = some l)
    (h : line.Explains l s t) : line.replay l s = some t := by
  obtain ⟨tl, store, output, accesses⟩ := t
  obtain rfl : tl = some l := hl
  cases line with
  | blank | endWhile | endIf | unrecognized => cases h
  | whileDo guard | ifThen guard | elseIf guard => obtain ⟨rfl, rfl, rfl⟩ := h; rfl
  | otherwise => obtain ⟨rfl, rfl, rfl⟩ := h; rfl
  | print e => obtain ⟨rfl, rfl, rfl⟩ := h; rfl
  | assign target e =>
    cases target with
    | name n => obtain ⟨rfl, rfl, rfl, -⟩ := h; rfl
    | element n index =>
      obtain ⟨rfl, h⟩ := h
      rcases ha : s.store.assignAt? n (index.eval s.store).value (e.eval s.store).value with
        _ | written
      · rw [ha] at h
        obtain ⟨rfl, rfl⟩ := h
        simp [Line.replay, Target.write_refused ha]
      · rw [ha] at h
        obtain ⟨rfl, position, hposition, rfl⟩ := h
        simp [Line.replay, Target.write_accepted ha hposition]

namespace Program

/-- **Every trace can be replayed locally.**  A snapshot other than the first has a line of the
program, and is the one snapshot of that line which the line explains by the snapshot before. -/
theorem trace_replayable (p : Program) (b : Budget) {i : Nat} {s s' : Snapshot}
    (hs : (p.trace b).get? i = some s) (hs' : (p.trace b).get? (i + 1) = some s') :
    ∃ l line, l < p.size ∧ p.line? l = some line ∧
      ∀ t : Snapshot, t.line = some l ∧ line.Explains l s t ↔ t = s' := by
  obtain ⟨l, line, hline, hreplay, -, -⟩ := next_of_get? hs hs'
  refine ⟨l, line, (List.getElem?_eq_some_iff.mp hline).1, hline, ?_⟩
  intro t
  constructor
  · rintro ⟨hl, hexplains⟩
    have ht := Line.replay_of_explains hl hexplains
    exact Option.some.inj (ht.symm.trans hreplay)
  · rintro rfl
    exact ⟨Line.replay_line hreplay, Line.explains_of_replay hreplay⟩

/-- An `IF` whose condition is no expression, and an `ELSE` that prints. -/
def printedByElse : Program where
  source := []
  lines := [.ifThen none, .blank, .otherwise, .print (.text "hi"), .endIf]

theorem trace_replayable_printedByElse :
    ∃ l line, l < printedByElse.size ∧ printedByElse.line? l = some line ∧
      ∀ t : Snapshot,
        t.line = some l ∧ line.Explains l ⟨some 2, .empty, [], []⟩ t ↔
          t = ⟨some 3, .empty, [⟨"hi", 3⟩], []⟩ :=
  trace_replayable printedByElse ⟨9, 5000⟩ (i := 2) rfl rfl

/-! ### Branches -/

/-- **Branches run only where a false condition has led.**  If a snapshot is at an `ELSEIF` or
`ELSE`, the one before is at a condition that does not hold and leads there; and if a snapshot leads
to a branch, the next one is at that branch.  So a visit that comes to a branch in another way, from
the body of the branch above, goes behind the chain: it evaluates nothing and changes nothing. -/
theorem branch_entered_by_jump (p : Program) :
    (∀ (b : Budget) (i : Nat) (s s' : Snapshot),
      (p.trace b).get? i = some s → (p.trace b).get? (i + 1) = some s' →
        (∀ l line, s'.line = some l → p.line? l = some line → line.isBranch = true →
          s.LeadsTo p.lines l) ∧
        ∀ l, s.LeadsTo p.lines l → s'.line = some l) ∧
    ∀ (k : Nat) (line : Line) (s : Snapshot),
      p.line? (p.machine k).counter = some line → line.isBranch = true →
        (p.recorded k).getLast? = some s → ¬ s.LeadsTo p.lines (p.machine k).counter →
          (p.machine k).visit p.lines = ((p.machine k).goto
            (Machine.behind p.lines (Matching.endIf? p.lines (p.machine k).counter)), none) := by
  constructor
  · intro b i s s' hs hs'
    obtain ⟨l, line, hline, hreplay, hentered, hunique⟩ := next_of_get? hs hs'
    constructor
    · intro l' line' hl' hline' hbranch
      obtain rfl : l = l' := Option.some.inj ((Line.replay_line hreplay).symm.trans hl')
      obtain rfl : line = line' := Option.some.inj (hline.symm.trans hline')
      exact hentered hbranch
    · intro b hb
      rw [hunique b hb]
      exact Line.replay_line hreplay
  · intro k line s hline hbranch hlast hnot
    obtain ⟨-, s₀, hlast₀, hfollows⟩ := follows_recorded p k
    obtain rfl : s₀ = s := Option.some.inj (hlast₀.symm.trans hlast)
    -- a machine in front of a branch is unarmed, or `s` has led it there
    generalize p.machine k = m at *
    cases hfollows with
    | unarmed _ _ => exact Machine.visit_branch_unarmed hline hbranch
    | armed hb => exact absurd hb hnot

/-- In `printedByElse` the condition leads to the `ELSE`. -/
theorem branch_entered_printedByElse :
    Snapshot.LeadsTo printedByElse.lines ⟨some 0, .empty, [], []⟩ 2 :=
  ((branch_entered_by_jump printedByElse).1 ⟨9, 5000⟩ 1 _ ⟨some 2, .empty, [], []⟩ rfl rfl).1
    2 .otherwise rfl rfl rfl

end Program
end DeskCheck
