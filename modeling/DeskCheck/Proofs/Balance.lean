import DeskCheck.Proofs.Matching
import Mathlib.Data.List.Basic

/-!
# Balanced lines

The scans count the blocks that open and close on their way.  `depth?` is this count by itself: the
number of open blocks behind some lines, unless one of the lines closes a block that is not open.
Lines are balanced if no block is open in front of them and none behind them (`Balanced`).

A scan finds the first line that closes more than is open: the lines down to it leave no block open,
and it closes one (`partner?_eq_some_iff`).  Behind lines whose depth is known the scan goes on from
this depth (`partner?_append`).

The count of one line can be taken back by exchanging what opens and what closes, and so can that of
all lines, from the last to the first (`depth?_reverse`).  For this reason a scan backwards counts
the same blocks.
-/

namespace DeskCheck.Matching

/-- The number of open blocks behind one more line, which must not close a block if none is open. -/
def count? (opens closes : Line → Bool) (depth : Nat) (line : Line) : Option Nat :=
  if opens line then some (depth + 1)
  else if closes line then
    match depth with
    | 0 => none
    | depth + 1 => some depth
  else some depth

/-- The number of open blocks behind lines none of which closes more than is open. -/
def depth? (opens closes : Line → Bool) (depth : Nat) (xs : List Line) : Option Nat :=
  xs.foldlM (count? opens closes) depth

/-- Each of the blocks that open in these lines is closed in them, and no other. -/
def Balanced (opens closes : Line → Bool) (xs : List Line) : Prop :=
  depth? opens closes 0 xs = some 0

instance (opens closes : Line → Bool) (xs : List Line) : Decidable (Balanced opens closes xs) :=
  inferInstanceAs (Decidable (depth? opens closes 0 xs = some 0))

/-- The lines behind line `i` and in front of line `j`. -/
def between (lines : List Line) (i j : Nat) : List Line := (lines.take j).drop (i + 1)

theorem take_drop_eq_between (lines : List Line) (i k : Nat) :
    (lines.drop (i + 1)).take k = between lines i (i + 1 + k) := by
  rw [between, List.take_drop]

section Depth

variable {opens closes : Line → Bool} {depth depth' : Nat} {line : Line} {xs ys : List Line}

@[simp] theorem depth?_nil (depth : Nat) : depth? opens closes depth [] = some depth := rfl

theorem depth?_cons (depth : Nat) (line : Line) (xs : List Line) :
    depth? opens closes depth (line :: xs) =
      (count? opens closes depth line).bind fun d => depth? opens closes d xs :=
  List.foldlM_cons

theorem depth?_append (depth : Nat) (xs ys : List Line) :
    depth? opens closes depth (xs ++ ys) =
      (depth? opens closes depth xs).bind fun d => depth? opens closes d ys :=
  List.foldlM_append

theorem count?_opens (ho : opens line = true) (depth : Nat) :
    count? opens closes depth line = some (depth + 1) := by
  simp [count?, ho]

theorem count?_closes (ho : opens line = false) (hc : closes line = true) (depth : Nat) :
    count? opens closes (depth + 1) line = some depth := by
  simp [count?, ho, hc]

theorem count?_closes_zero (ho : opens line = false) (hc : closes line = true) :
    count? opens closes 0 line = none := by
  simp [count?, ho, hc]

theorem count?_other (ho : opens line = false) (hc : closes line = false) (depth : Nat) :
    count? opens closes depth line = some depth := by
  simp [count?, ho, hc]

/-! ### Scans and depths -/

/-- A scan ends at a line that closes more than is open, and goes on behind any other line. -/
theorem partner?_cons (depth : Nat) (line : Line) (rest : List Line) :
    partner? opens closes depth (line :: rest) =
      match count? opens closes depth line with
      | none => some 0
      | some d => (partner? opens closes d rest).map (· + 1) := by
  simp only [partner?, count?]
  split
  · rfl
  · split
    · cases depth <;> rfl
    · rfl

/-- Behind lines a scan goes on from the depth that they lead to. -/
theorem partner?_append (h : depth? opens closes depth xs = some depth') (rest : List Line) :
    partner? opens closes depth (xs ++ rest) =
      (partner? opens closes depth' rest).map (· + xs.length) := by
  induction xs generalizing depth with
  | nil =>
    cases h
    simp
  | cons line xs ih =>
    rw [depth?_cons] at h
    obtain ⟨middle, hline, hxs⟩ := Option.bind_eq_some_iff.mp h
    rw [List.cons_append, partner?_cons, hline]
    dsimp only
    rw [ih hxs, Option.map_map]
    rfl

/-- A line ends the count exactly if it closes a block and none is open. -/
theorem count?_eq_none_iff :
    count? opens closes depth line = none ↔
      depth = 0 ∧ opens line = false ∧ closes line = true := by
  rcases ho : opens line with - | -
  · rcases hc : closes line with - | -
    · simp [count?_other ho hc]
    · cases depth with
      | zero => simp [count?_closes_zero ho hc]
      | succ depth => simp [count?_closes ho hc]
  · simp [count?_opens ho]

/-- **What a scan finds**: the line closes a block, it does not open one, and no block is open in
front of it. -/
theorem partner?_eq_some_iff {k : Nat} :
    partner? opens closes depth xs = some k ↔
      depth? opens closes depth (xs.take k) = some 0 ∧
        ∃ line, xs[k]? = some line ∧ opens line = false ∧ closes line = true := by
  induction xs generalizing depth k with
  | nil => simp [partner?]
  | cons line xs ih =>
    rw [partner?_cons]
    rcases hline : count? opens closes depth line with - | middle
    · obtain ⟨rfl, ho, hc⟩ := count?_eq_none_iff.mp hline
      cases k with
      | zero => simp [ho, hc]
      | succ k => simp [depth?_cons, hline]
    · cases k with
      | zero =>
        -- the line would have ended the count
        have hnot : ¬ (depth = 0 ∧ opens line = false ∧ closes line = true) := fun hall => by
          rw [count?_eq_none_iff.mpr hall] at hline
          cases hline
        simpa using hnot
      | succ k => simp [depth?_cons, hline, ih]

end Depth

/-! ### Taking a count back -/

section Reverse

variable {opens closes : Line → Bool} (hdisjoint : ∀ line, opens line = true → closes line = false)
include hdisjoint

theorem count?_comm {depth depth' : Nat} {line : Line} :
    count? closes opens depth' line = some depth ↔
      count? opens closes depth line = some depth' := by
  rcases ho : opens line with - | -
  · rcases hc : closes line with - | -
    · simp [count?_other, ho, hc, eq_comm]
    · rw [count?_opens hc]
      cases depth with
      | zero => simp [count?_closes_zero ho hc]
      | succ depth => simp [count?_closes ho hc, eq_comm]
  · have hc := hdisjoint line ho
    rw [count?_opens ho]
    cases depth' with
    | zero => simp [count?_closes_zero hc ho]
    | succ depth' => simp [count?_closes hc ho, eq_comm]

/-- Seen from the end, what opened closes and what closed opens. -/
theorem depth?_reverse {depth depth' : Nat} {xs : List Line} :
    depth? closes opens depth' xs.reverse = some depth ↔
      depth? opens closes depth xs = some depth' := by
  induction xs generalizing depth with
  | nil => simp [eq_comm]
  | cons line xs ih =>
    have hlast : ∀ d, depth? closes opens d [line] = count? closes opens d line := fun d => by
      simp [depth?_cons]
    rw [List.reverse_cons, depth?_append, depth?_cons, Option.bind_eq_some_iff,
      Option.bind_eq_some_iff]
    refine exists_congr fun d => ?_
    rw [ih, hlast, count?_comm hdisjoint]
    exact and_comm

theorem balanced_reverse {xs : List Line} :
    Balanced closes opens xs.reverse ↔ Balanced opens closes xs :=
  depth?_reverse hdisjoint

end Reverse

end DeskCheck.Matching
