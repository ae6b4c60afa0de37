import DeskCheck.Cursor
import DeskCheck.Proofs.Growth

/-!
# Moves of a cursor

A cursor is moved step by step, by a number of steps at once, to a place, or to one of the ends.
Whatever is asked of it, it stays in its trace and has a snapshot (`movesTo_after`), and a move that
is refused leaves it where it is.

A number of steps at once is meant to be as many single steps, of which those behind the end are
refused (`forwards_eq`).  It is computed by a sum of two words instead.  Where the sum is a word the
two ways agree (`forwardBy_eq_forwards`); where it is not, there is no result
(`forwardBy_eq_none_iff`), although the single steps go on to the end as ever.  Nothing else that is
asked of a cursor fails (`after_eq_none_iff`).
-/

namespace DeskCheck.Cursor

/-! ### Where moves go -/

/-- `c'` is a position in the same trace, inside the trace if `c` is. -/
structure MovesTo (c c' : Cursor) : Prop where
  trace : c'.trace = c.trace
  inside : c.position < c.trace.size → c'.position < c.trace.size

variable {c c' : Cursor} {n : Nat}

theorem movesTo_refl (c : Cursor) : c.MovesTo c := ⟨rfl, id⟩

theorem MovesTo.trans {c'' : Cursor} (h : c.MovesTo c') (h' : c'.MovesTo c'') : c.MovesTo c'' := by
  refine ⟨h'.trace.trans h.trace, fun hlt => ?_⟩
  have hinside := h'.inside
  rw [h.trace] at hinside
  exact hinside (h.inside hlt)

theorem forward_eq (c : Cursor) :
    c.forward = if c.trace.size ≤ c.position + 1 then .error .atEnd
      else .ok { c with position := c.position + 1 } := by
  simp [forward, isAtEnd]

theorem movesTo_of_forward (h : c.forward = .ok c') : c.MovesTo c' := by
  rw [forward_eq] at h
  split at h <;> cases h
  next hlt => exact ⟨rfl, fun _ => Nat.lt_of_not_le hlt⟩

theorem movesTo_of_backward (h : c.backward = .ok c') : c.MovesTo c' := by
  simp only [backward] at h
  split at h <;> cases h
  exact ⟨rfl, fun hlt => Nat.lt_of_le_of_lt (Nat.sub_le _ _) hlt⟩

theorem movesTo_of_seek {index : Nat} (h : c.seek index = .ok c') : c.MovesTo c' := by
  simp only [seek] at h
  split at h <;> cases h
  next hlt => exact ⟨rfl, fun _ => hlt⟩

theorem lastPosition_lt (h : c.position < c.trace.size) : c.lastPosition < c.trace.size :=
  Nat.sub_lt (Nat.zero_lt_of_lt h) Nat.one_pos

theorem forwardBy_eq_none_iff : c.forwardBy n = none ↔ wordSize ≤ c.position + n := by
  simp [forwardBy]

theorem forwardBy_of_lt (h : c.position + n < wordSize) :
    c.forwardBy n = some (min (c.position + n) c.lastPosition - c.position,
      { c with position := min (c.position + n) c.lastPosition }) :=
  if_pos h

theorem movesTo_of_forwardBy {taken : Nat} (h : c.forwardBy n = some (taken, c')) : c.MovesTo c' := by
  simp only [forwardBy] at h
  split at h <;> cases h
  exact ⟨rfl, fun hlt => Nat.lt_of_le_of_lt (Nat.min_le_right _ _) (lastPosition_lt hlt)⟩

theorem movesTo_toStart (c : Cursor) : c.MovesTo c.toStart := ⟨rfl, Nat.zero_lt_of_lt⟩

theorem movesTo_toEnd (c : Cursor) : c.MovesTo c.toEnd := ⟨rfl, lastPosition_lt⟩

/-! ### Sequences of moves -/

/-- What can be asked of a cursor. -/
inductive Move where
  | forward | backward
  | seek (index : Nat)
  | forwardBy (n : Nat)
  | toStart | toEnd
deriving DecidableEq, Repr

/-- The cursor at the place to which a move goes, or why the move is refused.  There is neither where
the arithmetic of the move fails. -/
def attempt (c : Cursor) : Move → Option (Except CursorError Cursor)
  | .forward => some c.forward
  | .backward => some c.backward
  | .seek index => some (c.seek index)
  | .forwardBy n => (c.forwardBy n).map fun (_, c') => .ok c'
  | .toStart => some (.ok c.toStart)
  | .toEnd => some (.ok c.toEnd)

/-- The cursor behind a move, refused or not. -/
def move (c : Cursor) (m : Move) : Option Cursor :=
  (c.attempt m).map fun
    | .ok c' => c'
    | .error _ => c

/-- The cursor behind a sequence of moves. -/
def after (c : Cursor) (moves : List Move) : Option Cursor := moves.foldlM move c

/-- The move is a number of steps that is no word together with the position. -/
def Overflows (c : Cursor) : Move → Prop
  | .forwardBy n => wordSize ≤ c.position + n
  | _ => False

/-- The moves that a cursor refuses: those that would leave the trace. -/
inductive Refuses (c : Cursor) : Move → CursorError → Prop
  | forward : c.position = c.lastPosition → c.Refuses .forward .atEnd
  | backward : c.position = 0 → c.Refuses .backward .atStart
  | seek {index : Nat} : c.trace.size ≤ index →
      c.Refuses (.seek index) (.outOfRange index c.trace.size)

theorem movesTo_of_attempt {m : Move} (h : c.attempt m = some (.ok c')) : c.MovesTo c' := by
  cases m with
  | forward => exact movesTo_of_forward (Option.some.inj h)
  | backward => exact movesTo_of_backward (Option.some.inj h)
  | seek index => exact movesTo_of_seek (Option.some.inj h)
  | forwardBy n =>
    obtain ⟨⟨taken, c'⟩, hsome, heq⟩ := Option.map_eq_some_iff.mp h
    cases heq
    exact movesTo_of_forwardBy hsome
  | toStart => cases h; exact c.movesTo_toStart
  | toEnd => cases h; exact c.movesTo_toEnd

theorem movesTo_of_move {m : Move} (h : c.move m = some c') : c.MovesTo c' := by
  obtain ⟨result, hresult, heq⟩ := Option.map_eq_some_iff.mp h
  cases result with
  | ok next =>
    obtain rfl : next = c' := heq
    exact movesTo_of_attempt hresult
  | error e =>
    obtain rfl : c = c' := heq
    exact movesTo_refl c

theorem after_cons (c : Cursor) (m : Move) (moves : List Move) :
    c.after (m :: moves) = (c.move m).bind fun c' => c'.after moves := rfl

theorem movesTo_of_after {moves : List Move} (h : c.after moves = some c') : c.MovesTo c' := by
  induction moves generalizing c with
  | nil =>
    obtain rfl : c = c' := Option.some.inj h
    exact movesTo_refl c
  | cons m moves ih =>
    obtain ⟨next, hnext, hrest⟩ := Option.bind_eq_some_iff.mp (after_cons c m moves ▸ h)
    exact (movesTo_of_move hnext).trans (ih hrest)

theorem move_eq_none_iff {m : Move} : c.move m = none ↔ c.Overflows m := by
  cases m with
  | forwardBy n => simp [move, attempt, Overflows, forwardBy_eq_none_iff]
  | forward | backward | seek | toStart | toEnd => simp [move, attempt, Overflows]

/-- A sequence of moves fails at the first sum that is no word, and nowhere else. -/
theorem after_eq_none_iff {moves : List Move} :
    c.after moves = none ↔
      ∃ before m rest c', moves = before ++ m :: rest ∧ c.after before = some c' ∧ c'.Overflows m := by
  induction moves generalizing c with
  | nil =>
    refine iff_of_false (Option.some_ne_none c) ?_
    rintro ⟨before, m, rest, c', hnil, -⟩
    cases before <;> cases hnil
  | cons m moves ih =>
    rw [after_cons]
    rcases hmove : c.move m with _ | next
    · -- the first move fails
      exact iff_of_true rfl ⟨[], m, moves, c, rfl, rfl, move_eq_none_iff.mp hmove⟩
    · rw [Option.bind_some, ih]
      constructor
      · rintro ⟨before, m', rest, c', rfl, hbefore, hover⟩
        exact ⟨m :: before, m', rest, c', rfl, by rw [after_cons, hmove, Option.bind_some, hbefore],
          hover⟩
      · rintro ⟨before, m', rest, c', heq, hbefore, hover⟩
        cases before with
        | nil =>
          cases heq
          cases hbefore
          rw [move_eq_none_iff.mpr hover] at hmove
          cases hmove
        | cons first before =>
          cases heq
          rw [after_cons, hmove, Option.bind_some] at hbefore
          exact ⟨before, m', rest, c', rfl, hbefore, hover⟩

/-- A cursor in its trace refuses the moves that would leave it, and no others. -/
theorem attempt_eq_error_iff (h : c.position < c.trace.size) {m : Move} {e : CursorError} :
    c.attempt m = some (.error e) ↔ c.Refuses m e := by
  constructor
  · intro hrefused
    cases m with
    | forward =>
      rw [attempt, forward_eq] at hrefused
      split at hrefused <;> cases hrefused
      next hend => exact .forward (by rw [lastPosition]; omega)
    | backward =>
      simp only [attempt, backward, isAtStart, beq_iff_eq] at hrefused
      split at hrefused <;> cases hrefused
      next hstart => exact .backward hstart
    | seek index =>
      simp only [attempt, seek] at hrefused
      split at hrefused <;> cases hrefused
      next hbehind => exact .seek (Nat.le_of_not_lt hbehind)
    | forwardBy n =>
      obtain ⟨_, -, heq⟩ := Option.map_eq_some_iff.mp hrefused
      cases heq
    | toStart | toEnd => cases hrefused
  · rintro (hend | hstart | hbehind)
    · rw [lastPosition] at hend
      rw [attempt, forward_eq, if_pos (by omega)]
    · simp [attempt, backward, isAtStart, hstart]
    · simp [attempt, seek, Nat.not_lt.mpr hbehind]

theorem move_of_attempt_eq_error {m : Move} {e : CursorError} (h : c.attempt m = some (.error e)) :
    c.move m = some c := by
  rw [move, h, Option.map_some]

/-! ### Many steps at once -/

/-- Single steps one after the other: how many of them are not refused, and where they lead. -/
def forwards (c : Cursor) : Nat → Nat × Cursor
  | 0 => (0, c)
  | n + 1 =>
    match (c.forwards n).2.forward with
    | .ok c' => ((c.forwards n).1 + 1, c')
    | .error _ => c.forwards n

/-- Single steps go on up to the last position, and are refused from there on. -/
theorem forwards_eq (h : c.position < c.trace.size) (n : Nat) :
    c.forwards n = (min n (c.lastPosition - c.position),
      { c with position := min (c.position + n) c.lastPosition }) := by
  have hlast : c.lastPosition = c.trace.size - 1 := rfl
  induction n with
  | zero =>
    have hposition : min c.position c.lastPosition = c.position := by omega
    rw [Nat.zero_min, Nat.add_zero, hposition]
    rfl
  | succ n ih =>
    rw [forwards, ih, forward_eq]
    rcases Nat.lt_or_ge (c.position + n) c.lastPosition with hbefore | hend
    · rw [Nat.min_eq_left hbefore.le, if_neg (by simp only; omega)]
      simp only [Prod.mk.injEq, Cursor.mk.injEq, true_and]
      omega
    · rw [Nat.min_eq_right hend, if_pos (by simp only; omega)]
      simp only [Prod.mk.injEq, Cursor.mk.injEq, true_and]
      omega

/-- As long as the sum is a word, many steps at once are as many single steps. -/
theorem forwardBy_eq_forwards (h : c.position < c.trace.size)
    (hword : c.position + n < wordSize) : c.forwardBy n = some (c.forwards n) := by
  have hlast : c.lastPosition = c.trace.size - 1 := rfl
  have htaken : min (c.position + n) c.lastPosition - c.position =
      min n (c.lastPosition - c.position) := by omega
  rw [forwards_eq h, forwardBy_of_lt hword, htaken]

/-- **A cursor stays in its trace.**  Behind any moves it has a snapshot; it refuses the moves that
would leave the trace, and these change nothing.  Many steps at once lead where as many single steps
do, and report how many of those are not refused, as long as the position and the number of steps add
up to a word; otherwise they have no result.  Moves have no result only for such a sum. -/
theorem moves_in_bounds (p : Program) (b : Budget) (moves : List Move) :
    let start := ofTrace (p.trace b)
    (∀ c, start.after moves = some c →
      c.trace = p.trace b ∧ c.position < (p.trace b).size ∧ (∃ s, c.current? = some s) ∧
      (∀ m e, (c.attempt m = some (.error e) ↔ c.Refuses m e) ∧
        (c.attempt m = some (.error e) → c.move m = some c)) ∧
      ∀ n, (c.position + n < wordSize → c.forwardBy n = some (c.forwards n)) ∧
        (wordSize ≤ c.position + n → c.forwardBy n = none)) ∧
    (start.after moves = none ↔
      ∃ before m rest c, moves = before ++ m :: rest ∧ start.after before = some c ∧
        c.Overflows m) := by
  intro start
  refine ⟨fun c hafter => ?_, after_eq_none_iff⟩
  have hmoves : start.MovesTo c := movesTo_of_after hafter
  have htrace : c.trace = p.trace b := hmoves.trace
  have hstart : 0 < (p.trace b).size := (Array.getElem?_eq_some_iff.mp (p.get?_zero b)).1
  have hposition : c.position < (p.trace b).size := hmoves.inside hstart
  have hinside : c.position < c.trace.size := htrace ▸ hposition
  refine ⟨htrace, hposition, ⟨_, Array.getElem?_eq_getElem hinside⟩, fun m e => ?_, fun n => ?_⟩
  · exact ⟨attempt_eq_error_iff hinside, move_of_attempt_eq_error⟩
  · exact ⟨forwardBy_eq_forwards hinside, forwardBy_eq_none_iff.mpr⟩

/-- The trace of two lines that print. -/
def twoLines : Trace := Program.trace ⟨[], [.print (.text "a"), .print (.text "b")]⟩ .standard

/-- On a trace of three snapshots, behind moves some of which are refused: one step back is refused
at the start, and nine steps are two. -/
theorem moves_in_bounds_twoLines :
    ∃ c, (ofTrace twoLines).after [.backward, .forward, .seek 3, .toStart] = some c ∧
      c.position < twoLines.size ∧
      c.attempt .backward = some (.error .atStart) ∧ c.move .backward = some c ∧
      c.position + 9 < wordSize ∧ c.forwardBy 9 = some (c.forwards 9) := by
  have hafter : (ofTrace twoLines).after [.backward, .forward, .seek 3, .toStart] =
      some (ofTrace twoLines) := rfl
  have hrefused : (ofTrace twoLines).attempt .backward = some (.error .atStart) := rfl
  have hword : (ofTrace twoLines).position + 9 < wordSize := by decide
  obtain ⟨-, hposition, -, hmoves, hmany⟩ := (moves_in_bounds _ .standard
    [.backward, .forward, .seek 3, .toStart]).1 (ofTrace twoLines) hafter
  exact ⟨_, hafter, hposition, hrefused, (hmoves _ _).2 hrefused, hword, (hmany 9).1 hword⟩

/-- From the second of three snapshots the largest number of steps has no result, where single steps
lead to the last snapshot and all but one of them are refused. -/
theorem forwardBy_overflows :
    ∃ c, (ofTrace twoLines).after [.forward] = some c ∧ c.position = 1 ∧
      c.forwardBy (wordSize - 1) = none ∧
      c.forwards (wordSize - 1) = (1, { c with position := 2 }) := by
  have hsize : twoLines.size = 3 := by decide +kernel
  refine ⟨⟨twoLines, 1⟩, by rfl, rfl, by decide, ?_⟩
  rw [forwards_eq (by rw [hsize]; decide), lastPosition, hsize]
  rfl

end DeskCheck.Cursor
