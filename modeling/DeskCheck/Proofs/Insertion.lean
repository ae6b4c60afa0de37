import DeskCheck.Proofs.Truncation
import DeskCheck.Proofs.Replay
import Mathlib.Data.List.Basic
import Mathlib.Data.List.InsertIdx

/-!
# Lines that do nothing

A blank line or a line that is no statement may be put anywhere into a program: the program runs as
before, and its snapshots are those from before with the lines behind the new one renumbered
(`trace_insertLine`).

The two runs are in step but for the visits of the new line.  A machine of the one program has a
mirror in the other, `Machine.renumber`, with the branches and the printed lines renumbered and with
a counter of its own: the renumbered one, or the new line, which the machine falls through
(`Lands`).  Every scan finds the renumbered line (`endIf?_insert` and the like), so that a visit of
the mirror is the mirror of the visit (`visit_renumber`); the runs are put together from visits.
-/

namespace DeskCheck

/-- The number of line `l` once a line has been put in front of line `p`. -/
def renumber (p l : Nat) : Nat := if l < p then l else l + 1

theorem renumber_of_lt {p l : Nat} (h : l < p) : renumber p l = l := if_pos h

theorem renumber_of_le {p l : Nat} (h : p ≤ l) : renumber p l = l + 1 := if_neg (Nat.not_lt_of_le h)

theorem renumber_injective (p : Nat) : Function.Injective (renumber p) := by
  intro l l' h
  unfold renumber at h
  split at h <;> split at h <;> omega

theorem renumber_add (p k l : Nat) : renumber (k + p) (k + l) = k + renumber p l := by
  unfold renumber
  split <;> split <;> omega

/-- A counter at `i` stands at `i'` in the program with the new line: at the renumbered line, or
right in front of it at the new one. -/
def Lands (p i i' : Nat) : Prop := i' = renumber p i ∨ i = p ∧ i' = p

theorem lands_renumber (p i : Nat) : Lands p i (renumber p i) := .inl rfl

/-- The line behind another one. -/
theorem lands_succ (p i : Nat) : Lands p (i + 1) (renumber p i + 1) := by
  unfold Lands renumber
  split <;> split <;> omega

/-- The end of the program. -/
theorem lands_length (line : Line) (before after : List Line) :
    Lands before.length (before ++ after).length (before ++ line :: after).length := by
  left
  rw [renumber_of_le (by simp)]
  simp only [List.length_append, List.length_cons]
  omega

/-! ### Scans -/

namespace Matching

/-- Where a condition leads once a line has been put in front of line `p`.  An exit behind an
`ENDIF` stays behind this line. -/
def Exit.renumber (p : Nat) : Exit → Exit
  | .branch i => .branch (DeskCheck.renumber p i)
  | .pastEnd i => .pastEnd (DeskCheck.renumber p (i - 1) + 1)

section Scan

variable {line : Line}

theorem partner?_insert {opens closes : Line → Bool} (ho : opens line = false)
    (hc : closes line = false) (before after : List Line) (depth : Nat) :
    partner? opens closes depth (before ++ line :: after) =
      (partner? opens closes depth (before ++ after)).map (renumber before.length) := by
  have hmap : ∀ {n : Nat} (o : Option Nat),
      (o.map (renumber n)).map (· + 1) = (o.map (· + 1)).map (renumber (n + 1)) := by
    intro n o
    cases o with
    | none => rfl
    | some k =>
      have hk := renumber_add n 1 k
      simp only [Option.map_some, Option.some.injEq, Nat.add_comm _ 1] at hk ⊢
      exact hk.symm
  induction before generalizing depth with
  | nil => exact partner?_other depth after ho hc
  | cons first before ih =>
    simp only [List.cons_append, partner?, List.length_cons]
    split
    · rw [ih, hmap]
    · split
      · cases depth with
        | zero => rfl
        | succ depth =>
          dsimp only
          rw [ih, hmap]
      · rw [ih, hmap]

theorem drop_insert (line : Line) (before after : List Line) {i : Nat} (h : before.length ≤ i) :
    (before ++ line :: after).drop (i + 1 + 1) = (before ++ after).drop (i + 1) := by
  obtain ⟨d, rfl⟩ := Nat.exists_eq_add_of_le h
  rw [Nat.add_assoc, Nat.add_assoc, Nat.add_assoc, List.drop_length_add_append,
    List.drop_length_add_append]
  rfl

/-- A scan over the lines behind line `i`. -/
theorem partner?_drop_insert {opens closes : Line → Bool} (ho : opens line = false)
    (hc : closes line = false) (before after : List Line) (i : Nat) :
    (partner? opens closes 0 ((before ++ line :: after).drop (renumber before.length i + 1))).map
        (renumber before.length i + 1 + ·) =
      ((partner? opens closes 0 ((before ++ after).drop (i + 1))).map (i + 1 + ·)).map
        (renumber before.length) := by
  rcases Nat.lt_or_ge i before.length with hlt | hge
  · -- the new line is among those that are scanned
    obtain ⟨d, hd⟩ := Nat.exists_eq_add_of_le (Nat.succ_le_of_lt hlt)
    have hdrop : (before.drop (i + 1)).length = d := by rw [List.length_drop]; omega
    rw [renumber_of_lt hlt, List.drop_append_of_le_length hlt, List.drop_append_of_le_length hlt,
      partner?_insert ho hc, hdrop, hd, Option.map_map, Option.map_map]
    congr 1
    funext k
    exact (renumber_add d (i + 1) k).symm
  · rw [renumber_of_le hge, drop_insert line before after hge, Option.map_map]
    congr 1
    funext k
    rw [Function.comp_apply, renumber_of_le (by omega)]
    omega

/-! #### Partners -/

variable (hline : line = .blank ∨ line = .unrecognized) (before after : List Line)
include hline

theorem endIf?_insert (i : Nat) :
    endIf? (before ++ line :: after) (renumber before.length i) =
      (endIf? (before ++ after) i).map (renumber before.length) := by
  rcases hline with rfl | rfl <;> exact partner?_drop_insert rfl rfl before after i

theorem endWhile?_insert (i : Nat) :
    endWhile? (before ++ line :: after) (renumber before.length i) =
      (endWhile? (before ++ after) i).map (renumber before.length) := by
  rcases hline with rfl | rfl <;> exact partner?_drop_insert rfl rfl before after i

theorem while?_insert {i : Nat} (hi : i ≤ (before ++ after).length) :
    while? (before ++ line :: after) (renumber before.length i) =
      (while? (before ++ after) i).map (renumber before.length) := by
  have hw : line.isEndWhile = false ∧ line.isWhile = false := by
    rcases hline with rfl | rfl <;> exact ⟨rfl, rfl⟩
  rcases Nat.lt_or_ge i before.length with hlt | hge
  · -- the new line is not among those that are scanned
    rw [renumber_of_lt hlt, while?, while?, List.take_append_of_le_length hlt.le,
      List.take_append_of_le_length hlt.le, Option.map_map]
    refine Option.map_congr fun k _ => ?_
    rw [Function.comp_apply, renumber_of_lt]
    simp only [List.length_reverse, List.length_take]
    omega
  · obtain ⟨d, rfl⟩ := Nat.exists_eq_add_of_le hge
    have hd : d ≤ after.length := by simpa using hi
    have htake : (before ++ line :: after).take (before.length + d + 1) =
        before ++ line :: after.take d := by
      rw [Nat.add_assoc, List.take_length_add_append, List.take_succ_cons]
    rw [renumber_of_le hge, while?, while?, htake, List.take_length_add_append]
    simp only [List.reverse_append, List.reverse_cons, List.append_assoc, List.singleton_append]
    rw [partner?_insert hw.1 hw.2, Option.map_map, Option.map_map]
    refine Option.map_congr fun k hk => ?_
    have hlt := partner?_lt hk
    simp only [List.length_append, List.length_cons, List.length_reverse, List.length_take,
      Function.comp_apply, Nat.min_eq_left hd, renumber] at hlt ⊢
    split <;> split <;> omega

/-! #### The exit of a condition -/

omit hline in
/-- A scan that begins one line further on finds everything one line further on. -/
theorem exitIn?_succ {p i : Nat} (hp : p ≤ i) (depth : Nat) (rest : List Line) :
    exitIn? depth (i + 1) rest = (exitIn? depth i rest).map (Exit.renumber p) := by
  induction rest generalizing depth i with
  | nil => rfl
  | cons first rest ih =>
    simp only [exitIn?]
    split
    · exact ih (by omega) (depth + 1)
    · split
      · cases depth with
        | zero => simp [Exit.renumber, renumber_of_le hp]
        | succ depth => exact ih (by omega) depth
      · split
        · simp [Exit.renumber, renumber_of_le hp]
        · exact ih (by omega) depth

theorem exitIn?_insert (depth i : Nat) :
    exitIn? depth i (before ++ line :: after) =
      (exitIn? depth i (before ++ after)).map (Exit.renumber (i + before.length)) := by
  induction before generalizing depth i with
  | nil =>
    have hpass : exitIn? depth i (line :: after) = exitIn? depth (i + 1) after := by
      rcases hline with rfl | rfl <;> simp [exitIn?, Line.isIf, Line.isEndIf, Line.isBranch]
    rw [List.nil_append, hpass]
    exact exitIn?_succ (Nat.le_refl _) depth after
  | cons first before ih =>
    have hlen : i + (first :: before).length = i + 1 + before.length := by
      rw [List.length_cons]
      omega
    have hhere : DeskCheck.renumber (i + 1 + before.length) i = i := renumber_of_lt (by omega)
    simp only [List.cons_append, exitIn?, hlen]
    split
    · rw [ih]
    · split
      · cases depth with
        | zero => simp [Exit.renumber, hhere]
        | succ depth => exact ih depth (i + 1)
      · split
        · simp [Exit.renumber, hhere]
        · rw [ih]

theorem exitIn?_drop_insert (i : Nat) :
    exitIn? 0 (renumber before.length i + 1)
        ((before ++ line :: after).drop (renumber before.length i + 1)) =
      (exitIn? 0 (i + 1) ((before ++ after).drop (i + 1))).map (Exit.renumber before.length) := by
  rcases Nat.lt_or_ge i before.length with hlt | hge
  · have hlen : i + 1 + (before.drop (i + 1)).length = before.length := by
      rw [List.length_drop]
      omega
    rw [renumber_of_lt hlt, List.drop_append_of_le_length hlt, List.drop_append_of_le_length hlt,
      exitIn?_insert hline, hlen]
  · rw [renumber_of_le hge, drop_insert line before after hge]
    exact exitIn?_succ (by omega) 0 _

omit hline in
/-- An exit that is found lies behind the line that closes the chain. -/
theorem exitIn?_pastEnd_pos {depth i e : Nat} {rest : List Line}
    (h : exitIn? depth i rest = some (.pastEnd e)) : 0 < e := by
  fun_induction exitIn? depth i rest with
  | case1 => cases h
  | case2 depth i line rest _ ih => exact ih h
  | case3 => cases h; exact Nat.succ_pos _
  | case4 i line rest _ _ depth ih => exact ih h
  | case5 => cases h
  | case6 depth i line rest _ _ _ ih => exact ih h

/-- A condition leads to the renumbered branch, or behind the chain as before. -/
theorem exit_insert (i : Nat) :
    (∃ b, exit (before ++ after) i = .branch b ∧
      exit (before ++ line :: after) (renumber before.length i) =
        .branch (renumber before.length b)) ∨
    ∃ e e', exit (before ++ after) i = .pastEnd e ∧
      exit (before ++ line :: after) (renumber before.length i) = .pastEnd e' ∧
      Lands before.length e e' := by
  rw [exit, exit, exitIn?_drop_insert hline]
  rcases hfound : exitIn? 0 (i + 1) ((before ++ after).drop (i + 1)) with _ | b | e
  · refine .inr ⟨_, _, rfl, rfl, ?_⟩
    have := lands_length line before after
    exact this
  · exact .inl ⟨b, rfl, rfl⟩
  · refine .inr ⟨e, _, rfl, rfl, ?_⟩
    obtain ⟨j, rfl⟩ : ∃ j, e = j + 1 := ⟨e - 1, by have := exitIn?_pastEnd_pos hfound; omega⟩
    exact lands_succ before.length j

end Scan

end Matching

/-! ### Machines in step -/

/-- The snapshot behind the new line. -/
def OutputLine.renumber (p : Nat) (o : OutputLine) : OutputLine :=
  { o with line := DeskCheck.renumber p o.line }

/-- The snapshot with its line and the lines that have printed renumbered. -/
def Snapshot.renumber (p : Nat) (s : Snapshot) : Snapshot :=
  { s with
    line := s.line.map (DeskCheck.renumber p)
    output := s.output.map (OutputLine.renumber p) }

namespace Machine

/-- The machine with its branches and the lines that have printed renumbered, at line `i`. -/
def renumber (p i : Nat) (m : Machine) : Machine :=
  { m with
    counter := i
    output := m.output.map (OutputLine.renumber p)
    armed := m.armed.map (DeskCheck.renumber p) }

/-- A visit and its mirror: the same snapshot but for the lines, and a machine that lands where the
other does. -/
def Mirrors (p : Nat) (r r' : Machine × Option Snapshot) : Prop :=
  ∃ i, Lands p r.1.counter i ∧ r' = (r.1.renumber p i, r.2.map (Snapshot.renumber p))

section Operations

variable {p : Nat} {m : Machine}

@[simp] theorem counter_renumber (i : Nat) : (m.renumber p i).counter = i := rfl

@[simp] theorem armed_renumber (i : Nat) :
    (m.renumber p i).armed = m.armed.map (DeskCheck.renumber p) := rfl

theorem test_renumber (i : Nat) (guard : Option Expr) :
    (m.renumber p i).test guard = ((m.test guard).1, (m.test guard).2.renumber p i) := by
  cases guard <;> rfl

theorem counter_test (m : Machine) (guard : Option Expr) :
    (m.test guard).2.counter = m.counter := by
  cases guard <;> rfl

theorem print_renumber (e : Expr) :
    (m.renumber p (DeskCheck.renumber p m.counter)).print e =
      (m.print e).renumber p (DeskCheck.renumber p m.counter) := by
  simp [print, evaluate, renumber, OutputLine.renumber]

theorem assign_renumber (i : Nat) (target : Target) (value : Expr) :
    (m.renumber p i).assign target value = (m.assign target value).renumber p i := by
  rw [assign_eq, assign_eq]
  rfl

theorem counter_assign (m : Machine) (target : Target) (value : Expr) :
    (m.assign target value).counter = m.counter := by
  rw [assign_eq]

theorem mirrors_goto {j j' : Nat} (i : Nat) (h : Lands p j j') :
    Mirrors p (m.goto j, none) ((m.renumber p i).goto j', none) :=
  ⟨j', h, rfl⟩

/-- The snapshot is of the line at the counter, so that the mirror has to be at the renumbered
one. -/
theorem mirrors_captureThen {j j' : Nat} (h : Lands p j j') :
    Mirrors p (m.captureThen j)
      ((m.renumber p (DeskCheck.renumber p m.counter)).captureThen j') :=
  ⟨j', h, rfl⟩

/-- A branch is armed under its new number. -/
theorem insert_renumber (armed : List Nat) (b : Nat) :
    (armed.map (DeskCheck.renumber p)).insert (DeskCheck.renumber p b) =
      (armed.insert b).map (DeskCheck.renumber p) := by
  by_cases hb : b ∈ armed
  · rw [List.insert_of_mem hb, List.insert_of_mem (List.mem_map_of_mem hb)]
  · have hb' : DeskCheck.renumber p b ∉ armed.map (DeskCheck.renumber p) := by
      rwa [List.mem_map_of_injective (renumber_injective p)]
    rw [List.insert_of_not_mem hb, List.insert_of_not_mem hb', List.map_cons]

end Operations

section Visit

variable {line : Line} (hline : line = .blank ∨ line = .unrecognized) (before after : List Line)
include hline

theorem mirrors_choose (m : Machine) (guard : Option Expr) :
    Mirrors before.length (m.choose (before ++ after) guard)
      ((m.renumber before.length (DeskCheck.renumber before.length m.counter)).choose
        (before ++ line :: after) guard) := by
  unfold choose
  rw [test_renumber, ← counter_test m guard]
  rcases m.test guard with ⟨holds, tested⟩
  cases holds with
  | true => exact mirrors_captureThen (lands_succ _ _)
  | false =>
    simp only [Bool.false_eq_true, if_false, counter_renumber]
    rcases Matching.exit_insert hline before after tested.counter with
      ⟨b, hb, hb'⟩ | ⟨e, e', he, he', hland⟩
    · rw [hb, hb']
      refine ⟨_, lands_renumber _ b, ?_⟩
      simp only [renumber, captureThen, capture, goto, insert_renumber]
      rfl
    · rw [he, he']
      exact mirrors_captureThen hland

theorem mirrors_ifArmed (m : Machine) {run run' : Machine → Machine × Option Snapshot}
    (hrun : ∀ m : Machine, Mirrors before.length (run m)
      (run' (m.renumber before.length (DeskCheck.renumber before.length m.counter)))) :
    Mirrors before.length (m.ifArmed (before ++ after) run)
      ((m.renumber before.length (DeskCheck.renumber before.length m.counter)).ifArmed
        (before ++ line :: after) run') := by
  have harmed : DeskCheck.renumber before.length m.counter ∈
      m.armed.map (DeskCheck.renumber before.length) ↔ m.counter ∈ m.armed :=
    List.mem_map_of_injective (renumber_injective _)
  rw [ifArmed, ifArmed, counter_renumber, armed_renumber]
  by_cases hm : m.counter ∈ m.armed
  · -- the line is disarmed in both
    rw [if_pos hm, if_pos (harmed.mpr hm), ← List.map_erase (renumber_injective _)]
    exact hrun { m with armed := m.armed.erase m.counter }
  · rw [if_neg hm, if_neg (harmed.not.mpr hm), leaveChain, leaveChain, counter_renumber,
      Matching.endIf?_insert hline]
    cases Matching.endIf? (before ++ after) m.counter with
    | none => exact mirrors_goto _ (lands_length line before after)
    | some e => exact mirrors_goto _ (lands_succ _ e)

theorem mirrors_whileDo (m : Machine) (guard : Option Expr) :
    Mirrors before.length (m.execute (before ++ after) (.whileDo guard))
      ((m.renumber before.length (DeskCheck.renumber before.length m.counter)).execute
        (before ++ line :: after) (.whileDo guard)) := by
  simp only [execute]
  rw [test_renumber, ← counter_test m guard]
  rcases m.test guard with ⟨holds, tested⟩
  cases holds with
  | true => exact mirrors_captureThen (lands_succ _ _)
  | false =>
    simp only [Bool.false_eq_true, if_false, counter_renumber, Matching.endWhile?_insert hline]
    cases Matching.endWhile? (before ++ after) tested.counter with
    | none => exact mirrors_captureThen (lands_length line before after)
    | some e => exact mirrors_captureThen (lands_succ _ e)

theorem mirrors_endWhile {m : Machine} (hm : m.counter ≤ (before ++ after).length) :
    Mirrors before.length (m.execute (before ++ after) .endWhile)
      ((m.renumber before.length (DeskCheck.renumber before.length m.counter)).execute
        (before ++ line :: after) .endWhile) := by
  rw [execute, execute, counter_renumber, Matching.while?_insert hline before after hm]
  cases Matching.while? (before ++ after) m.counter with
  | none => exact mirrors_goto _ (lands_succ _ _)
  | some w => exact mirrors_goto _ (lands_renumber _ w)

/-- A line of the program does in the mirror what it does. -/
theorem mirrors_execute {m : Machine} (hm : m.counter ≤ (before ++ after).length) (l : Line) :
    Mirrors before.length (m.execute (before ++ after) l)
      ((m.renumber before.length (DeskCheck.renumber before.length m.counter)).execute
        (before ++ line :: after) l) := by
  cases l with
  | blank | endIf | unrecognized => exact mirrors_goto _ (lands_succ _ _)
  | whileDo guard => exact mirrors_whileDo hline before after m guard
  | endWhile => exact mirrors_endWhile hline before after hm
  | ifThen guard => exact mirrors_choose hline before after m guard
  | elseIf guard =>
    rw [execute, execute]
    exact mirrors_ifArmed hline before after m fun m => mirrors_choose hline before after m guard
  | otherwise =>
    rw [execute, execute]
    exact mirrors_ifArmed hline before after m fun m => mirrors_captureThen (lands_succ _ _)
  | print e =>
    rw [execute, execute, print_renumber]
    exact mirrors_captureThen (lands_succ _ _)
  | assign target value =>
    rw [execute, execute, assign_renumber, ← counter_assign m target value]
    exact mirrors_captureThen (lands_succ _ _)

omit hline in
theorem getElem?_insert (i : Nat) :
    (before ++ line :: after)[DeskCheck.renumber before.length i]? = (before ++ after)[i]? := by
  rcases Nat.lt_or_ge i before.length with hlt | hge
  · rw [renumber_of_lt hlt, List.getElem?_append_left hlt, List.getElem?_append_left hlt]
  · rw [renumber_of_le hge, List.getElem?_append_right hge, List.getElem?_append_right (by omega),
      Nat.sub_add_comm hge, List.getElem?_cons_succ]

/-- A visit of the mirror is the mirror of the visit. -/
theorem visit_renumber (m : Machine) :
    Mirrors before.length (m.visit (before ++ after))
      ((m.renumber before.length (DeskCheck.renumber before.length m.counter)).visit
        (before ++ line :: after)) := by
  rw [visit, visit, counter_renumber, getElem?_insert]
  rcases h : (before ++ after)[m.counter]? with _ | l
  · exact mirrors_goto _ (lands_length line before after)
  · have hm : m.counter < (before ++ after).length := (List.getElem?_eq_some_iff.mp h).choose
    exact mirrors_execute hline before after hm.le l

/-- The visit of the new line: the mirror falls through to the line behind it. -/
theorem visit_inserted (m : Machine) :
    (m.renumber before.length before.length).visit (before ++ line :: after) =
      (m.renumber before.length (DeskCheck.renumber before.length before.length), none) := by
  have hline' : (before ++ line :: after)[before.length]? = some line := by simp
  rw [visit, counter_renumber, hline', renumber_of_le (Nat.le_refl _)]
  rcases hline with rfl | rfl <;> rfl

end Visit

end Machine

/-! ### Runs in step -/

namespace Program

/-- The program with a line in front of line `p`. -/
def insertLine (P : Program) (p : Nat) (text : String) (line : Line) : Program :=
  ⟨P.source.insertIdx p text, P.lines.insertIdx p line⟩

/-- After `n` visits of the one program and `n'` of the other, the same snapshots have been taken
but for the numbers of the lines, and the machine of the other is a mirror. -/
def Mirrored (P P' : Program) (p n n' : Nat) : Prop :=
  P'.recorded n' = (P.recorded n).map (Snapshot.renumber p) ∧
    ∃ i, Lands p (P.machine n).counter i ∧ P'.machine n' = (P.machine n).renumber p i

/-- The runs are mirrored and stand at the same line. -/
def Aligned (P P' : Program) (p n n' : Nat) : Prop :=
  P'.recorded n' = (P.recorded n).map (Snapshot.renumber p) ∧
    P'.machine n' = (P.machine n).renumber p (DeskCheck.renumber p (P.machine n).counter)

theorem mirrored_start (P P' : Program) (p : Nat) : Mirrored P P' p 0 0 := by
  refine ⟨rfl, 0, ?_, rfl⟩
  rcases Nat.eq_zero_or_pos p with rfl | hpos
  · exact .inr ⟨rfl, rfl⟩
  · exact .inl (renumber_of_lt hpos).symm

theorem exists_lines_insertLine {P : Program} {p : Nat} (hp : p ≤ P.size) (text : String)
    (line : Line) :
    ∃ before after, P.lines = before ++ after ∧ before.length = p ∧
      (P.insertLine p text line).lines = before ++ line :: after := by
  have hinsert : ∀ before after : List Line,
      (before ++ after).insertIdx before.length line = before ++ line :: after := by
    intro before after
    induction before with
    | nil => rfl
    | cons first before ih => simp [ih]
  have hlength : (P.lines.take p).length = p := List.length_take_of_le hp
  have hlines := hinsert (P.lines.take p) (P.lines.drop p)
  rw [List.take_append_drop, hlength] at hlines
  exact ⟨P.lines.take p, P.lines.drop p, (List.take_append_drop p _).symm, hlength, hlines⟩

section Runs

variable {P : Program} {p : Nat} (hp : p ≤ P.size) (text : String) {line : Line}
  (hline : line = .blank ∨ line = .unrecognized)
include hp

omit hline in
theorem leaves_aligned {n n' : Nat} (h : Aligned P (P.insertLine p text line) p n n') :
    (P.insertLine p text line).Leaves n' ↔ P.Leaves n := by
  obtain ⟨before, after, hlines, rfl, hlines'⟩ := exists_lines_insertLine hp text line
  rw [Leaves, Leaves, h.2, Machine.counter_renumber, hlines, hlines', DeskCheck.renumber]
  simp only [List.length_append, List.length_cons]
  split <;> omega

include hline

theorem mirrored_succ {n n' : Nat} (h : Aligned P (P.insertLine p text line) p n n') :
    Mirrored P (P.insertLine p text line) p (n + 1) (n' + 1) := by
  obtain ⟨before, after, hlines, rfl, hlines'⟩ := exists_lines_insertLine hp text line
  obtain ⟨i, hland, hvisit⟩ := Machine.visit_renumber hline before after (P.machine n)
  rw [← hlines, ← hlines', ← h.2] at hvisit
  rw [← hlines] at hland
  rw [Mirrored, machine_succ, machine_succ, recorded_succ, recorded_succ, hvisit, h.1]
  refine ⟨?_, i, hland, rfl⟩
  rw [List.map_append, Option.toList_map]

/-- A mirror in front of the new line is one visit away from the line behind it. -/
theorem aligned_of_mirrored {n n' : Nat} (h : Mirrored P (P.insertLine p text line) p n n') :
    Aligned P (P.insertLine p text line) p n n' ∨
      Aligned P (P.insertLine p text line) p n (n' + 1) := by
  obtain ⟨hrecorded, i, rfl | ⟨hcounter, rfl⟩, hmachine⟩ := h
  · exact .inl ⟨hrecorded, hmachine⟩
  · right
    obtain ⟨before, after, hlines, rfl, hlines'⟩ := exists_lines_insertLine hp text line
    have hvisit := Machine.visit_inserted hline before after (P.machine n)
    rw [← hlines', ← hmachine] at hvisit
    rw [Aligned, machine_succ, recorded_succ, hvisit, hcounter]
    exact ⟨by simpa using hrecorded, rfl⟩

theorem exists_aligned (n : Nat) : ∃ n', Aligned P (P.insertLine p text line) p n n' := by
  have halign : ∀ {n n' : Nat}, Mirrored P (P.insertLine p text line) p n n' →
      ∃ n', Aligned P (P.insertLine p text line) p n n' := by
    intro n n' h
    rcases aligned_of_mirrored hp text hline h with h | h
    · exact ⟨n', h⟩
    · exact ⟨n' + 1, h⟩
  induction n with
  | zero => exact halign (mirrored_start _ _ p)
  | succ n ih =>
    obtain ⟨n', h⟩ := ih
    exact halign (mirrored_succ hp text hline h)

theorem exists_mirrored (n' : Nat) : ∃ n, Mirrored P (P.insertLine p text line) p n n' := by
  induction n' with
  | zero => exact ⟨0, mirrored_start _ _ p⟩
  | succ n' ih =>
    obtain ⟨n, h⟩ := ih
    rcases aligned_of_mirrored hp text hline h with h | h
    · exact ⟨n + 1, mirrored_succ hp text hline h⟩
    · exact ⟨n, h.1, _, lands_renumber _ _, h.2⟩

/-- The end of the program has an end of the program with the new line. -/
theorem leaves_insertLine {n : Nat} (h : P.Leaves n) :
    ∃ n', (P.insertLine p text line).Leaves n' ∧
      (P.insertLine p text line).recorded n' = (P.recorded n).map (Snapshot.renumber p) := by
  obtain ⟨n', haligned⟩ := exists_aligned hp text hline n
  exact ⟨n', (leaves_aligned hp text haligned).mpr h, haligned.1⟩

theorem leaves_of_leaves_insertLine {n' : Nat} (h : (P.insertLine p text line).Leaves n') :
    ∃ n, P.Leaves n ∧
      (P.insertLine p text line).recorded n' = (P.recorded n).map (Snapshot.renumber p) := by
  obtain ⟨n, hmirrored⟩ := exists_mirrored hp text hline n'
  refine ⟨n, ?_, hmirrored.1⟩
  rcases aligned_of_mirrored hp text hline hmirrored with haligned | haligned
  · exact (leaves_aligned hp text haligned).mp h
  · exact (leaves_aligned hp text haligned).mp (h.mono (Nat.le_succ n'))

end Runs
end Program

/-! ### Traces -/

/-- The trace with the lines of its snapshots renumbered. -/
def Trace.renumber (p : Nat) (t : Trace) : Trace :=
  { t with snapshots := t.snapshots.map (Snapshot.renumber p) }

namespace Snapshot

theorem outputBytes_renumber (p : Nat) (output : List OutputLine) :
    outputBytes (output.map (OutputLine.renumber p)) = outputBytes output := by
  induction output with
  | nil => rfl
  | cons o rest ih => simp only [List.map_cons, outputBytes, ih]; rfl

theorem totalBytes_renumber (p : Nat) (ss : List Snapshot) :
    totalBytes (ss.map (Snapshot.renumber p)) = totalBytes ss := by
  induction ss with
  | nil => rfl
  | cons s ss ih =>
    have hbytes : (s.renumber p).bytes = s.bytes := by
      simp only [bytes, renumber, outputBytes_renumber]
    rw [List.map_cons, totalBytes_cons, totalBytes_cons, ih, hbytes]

end Snapshot

namespace Program

/-- More than the first snapshot has been recorded on both sides or on none. -/
theorem map_renumber_recorded_eq_initial (P : Program) (p n : Nat) :
    (P.recorded n).map (Snapshot.renumber p) = [.initial] ↔ P.recorded n = [.initial] := by
  simp [recorded, Snapshot.renumber, Snapshot.initial]

/-- **A line that does nothing may be put anywhere.**  Under every memory budget a program can be
carried out to its end if and only if it can with the line, and the two complete traces are the same
but for the numbers of the lines behind the new one. -/
theorem trace_insertLine (P : Program) {p : Nat} (hp : p ≤ P.size) (text : String) {line : Line}
    (hline : line = .blank ∨ line = .unrecognized) :
    (∀ bytes, (∃ steps, (P.trace ⟨steps, bytes⟩).termination = .completed) ↔
      ∃ steps, ((P.insertLine p text line).trace ⟨steps, bytes⟩).termination = .completed) ∧
    ∀ b b' : Budget, (P.trace b).termination = .completed →
      ((P.insertLine p text line).trace b').termination = .completed →
        (P.insertLine p text line).trace b' = (P.trace b).renumber p := by
  refine ⟨fun bytes => ⟨?_, ?_⟩, ?_⟩
  · rintro ⟨steps, h⟩
    obtain ⟨n, -, hleaves, -, hbytes⟩ := exists_leaves_of_completed h
    obtain ⟨n', hleaves', hrecorded⟩ := leaves_insertLine hp text hline hleaves
    refine ⟨n', trace_of_leaves_of_bytes hleaves' (Nat.le_refl n') fun hmany => ?_⟩
    rw [hrecorded, ne_eq, map_renumber_recorded_eq_initial] at hmany
    rw [hrecorded, Snapshot.totalBytes_renumber]
    exact hbytes hmany
  · rintro ⟨steps, h⟩
    obtain ⟨n', -, hleaves', -, hbytes⟩ := exists_leaves_of_completed h
    obtain ⟨n, hleaves, hrecorded⟩ := leaves_of_leaves_insertLine hp text hline hleaves'
    rw [hrecorded, ne_eq, map_renumber_recorded_eq_initial, Snapshot.totalBytes_renumber] at hbytes
    exact ⟨n, trace_of_leaves_of_bytes hleaves (Nat.le_refl n) hbytes⟩
  · intro b b' h h'
    obtain ⟨n, -, hleaves, htrace, -⟩ := exists_leaves_of_completed h
    obtain ⟨n', -, hleaves', htrace', -⟩ := exists_leaves_of_completed h'
    obtain ⟨k, hk, hrecorded⟩ := leaves_of_leaves_insertLine hp text hline hleaves'
    -- wherever the program is left, all of it has been recorded
    have hsame : P.recorded k = P.recorded n := by
      rcases Nat.le_total n k with hnk | hkn
      · exact hleaves.recorded_eq hnk
      · exact (hk.recorded_eq hkn).symm
    rw [htrace, htrace', hrecorded, hsame, Trace.renumber, List.map_toArray]

/-- A loop that runs once and leaves a chain from its first branch. -/
def chainInLoop : Program :=
  ⟨[], [.assign (.name "go") (.boolean true), .whileDo (some (.variable "go")),
    .ifThen (some (.variable "go")), .assign (.name "go") (.boolean false), .otherwise,
    .print (.text "no"), .endIf, .endWhile, .print (.text "yes")]⟩

/-- A blank line at the end of the branch that runs costs one visit more. -/
theorem trace_insertLine_chainInLoop :
    (chainInLoop.trace ⟨8, 4096⟩).termination = .completed ∧
      ((chainInLoop.insertLine 4 "" .blank).trace ⟨9, 4096⟩).termination = .completed ∧
      (chainInLoop.insertLine 4 "" .blank).trace ⟨9, 4096⟩ =
        (chainInLoop.trace ⟨8, 4096⟩).renumber 4 ∧
      (chainInLoop.trace ⟨8, 4096⟩).last?.map Snapshot.output = some [⟨"yes", 8⟩] ∧
      ((chainInLoop.insertLine 4 "" .blank).trace ⟨9, 4096⟩).last?.map Snapshot.output =
        some [⟨"yes", 9⟩] := by
  have hcompleted : (chainInLoop.trace ⟨8, 4096⟩).termination = .completed := by decide +kernel
  have hcompleted' : ((chainInLoop.insertLine 4 "" .blank).trace ⟨9, 4096⟩).termination =
      .completed := by decide +kernel
  have hp : 4 ≤ chainInLoop.size := by decide
  have hrenumbered := (trace_insertLine chainInLoop hp "" (.inl rfl)).2 _ _ hcompleted hcompleted'
  exact ⟨hcompleted, hcompleted', hrenumbered, by decide +kernel, by decide +kernel⟩

end Program
end DeskCheck
