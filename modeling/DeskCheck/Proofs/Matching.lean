import DeskCheck.Matching

/-!
# Where the scans lead

No scan leads out of the program: what it finds is one of the lines, and the exit of a condition is
at most one behind the last line.  A branch found by `exit` is a later line on which a chain
continues (`exit_branch`).
-/

namespace DeskCheck.Matching

variable {lines : List Line}

/-! ### One line of a scan -/

section Scan

variable {opens closes : Line → Bool} {line : Line} (depth : Nat) (rest : List Line)

theorem partner?_opens (ho : opens line = true) :
    partner? opens closes depth (line :: rest) =
      (partner? opens closes (depth + 1) rest).map (· + 1) := by
  simp [partner?, ho]

theorem partner?_closes (ho : opens line = false) (hc : closes line = true) :
    partner? opens closes (depth + 1) (line :: rest) =
      (partner? opens closes depth rest).map (· + 1) := by
  simp [partner?, ho, hc]

theorem partner?_closes_zero (ho : opens line = false) (hc : closes line = true) :
    partner? opens closes 0 (line :: rest) = some 0 := by
  simp [partner?, ho, hc]

theorem partner?_other (ho : opens line = false) (hc : closes line = false) :
    partner? opens closes depth (line :: rest) =
      (partner? opens closes depth rest).map (· + 1) := by
  simp [partner?, ho, hc]

end Scan

/-! ### What a scan finds -/

theorem partner?_lt {opens closes : Line → Bool} {depth i : Nat} {xs : List Line}
    (h : partner? opens closes depth xs = some i) : i < xs.length := by
  fun_induction partner? opens closes depth xs generalizing i with
  | case1 => cases h
  | case2 depth line rest _ ih =>
    obtain ⟨j, hj, rfl⟩ := Option.map_eq_some_iff.mp h
    exact Nat.succ_lt_succ (ih hj)
  | case3 line rest =>
    cases h
    exact Nat.succ_pos _
  | case4 line rest _ _ depth ih =>
    obtain ⟨j, hj, rfl⟩ := Option.map_eq_some_iff.mp h
    exact Nat.succ_lt_succ (ih hj)
  | case5 depth line rest _ _ ih =>
    obtain ⟨j, hj, rfl⟩ := Option.map_eq_some_iff.mp h
    exact Nat.succ_lt_succ (ih hj)

theorem endIf?_lt {i j : Nat} (h : endIf? lines i = some j) : j < lines.length := by
  obtain ⟨k, hk, rfl⟩ := Option.map_eq_some_iff.mp h
  have hlt := partner?_lt hk
  rw [List.length_drop] at hlt
  omega

theorem endWhile?_lt {i j : Nat} (h : endWhile? lines i = some j) : j < lines.length := by
  obtain ⟨k, hk, rfl⟩ := Option.map_eq_some_iff.mp h
  have hlt := partner?_lt hk
  rw [List.length_drop] at hlt
  omega

theorem while?_lt {i j : Nat} (h : while? lines i = some j) : j < lines.length := by
  obtain ⟨k, hk, rfl⟩ := Option.map_eq_some_iff.mp h
  have hlt := partner?_lt hk
  simp only [List.length_reverse, List.length_take] at hlt ⊢
  omega

/-! ### The exit of a condition -/

/-- A line that the scan passes only moves the branch which it finds further on. -/
theorem branch_later {i b : Nat} {line : Line} {rest : List Line}
    (h : ∃ k l, b = i + 1 + k ∧ rest[k]? = some l ∧ l.isBranch = true) :
    ∃ k l, b = i + k ∧ (line :: rest)[k]? = some l ∧ l.isBranch = true := by
  obtain ⟨k, l, rfl, hl, hbranch⟩ := h
  exact ⟨k + 1, l, by omega, hl, hbranch⟩

theorem exitIn?_branch {depth i b : Nat} {xs : List Line}
    (h : exitIn? depth i xs = some (.branch b)) :
    ∃ k line, b = i + k ∧ xs[k]? = some line ∧ line.isBranch = true := by
  fun_induction exitIn? depth i xs with
  | case1 => cases h
  | case2 depth i line rest _ ih => exact branch_later (ih h)
  | case3 => cases h
  | case4 i line rest _ _ depth ih => exact branch_later (ih h)
  | case5 depth i line rest _ _ hbranch =>
    cases h
    exact ⟨0, line, rfl, rfl, hbranch.1⟩
  | case6 depth i line rest _ _ _ ih => exact branch_later (ih h)

theorem exitIn?_pastEnd {depth i e : Nat} {xs : List Line}
    (h : exitIn? depth i xs = some (.pastEnd e)) : e ≤ i + xs.length := by
  have hcons : ∀ (i : Nat) (line : Line) (rest : List Line),
      i + 1 + rest.length = i + (line :: rest).length := by
    intro i line rest
    rw [List.length_cons]
    omega
  fun_induction exitIn? depth i xs with
  | case1 => cases h
  | case2 depth i line rest _ ih => exact hcons i line rest ▸ ih h
  | case3 i line rest =>
    cases h
    exact hcons i line rest ▸ Nat.le_add_right _ _
  | case4 i line rest _ _ depth ih => exact hcons i line rest ▸ ih h
  | case5 => cases h
  | case6 depth i line rest _ _ _ ih => exact hcons i line rest ▸ ih h

/-- The branch to which a false condition leads is a later line on which a chain continues. -/
theorem exit_branch {i b : Nat} (h : exit lines i = .branch b) :
    i < b ∧ ∃ line, lines[b]? = some line ∧ line.isBranch = true := by
  rw [exit] at h
  rcases he : exitIn? 0 (i + 1) (lines.drop (i + 1)) with _ | out
  · simp [he] at h
  · obtain rfl : out = .branch b := by simpa [he] using h
    obtain ⟨k, line, rfl, hline, hbranch⟩ := exitIn?_branch he
    rw [List.getElem?_drop] at hline
    exact ⟨by omega, line, hline, hbranch⟩

theorem exit_pastEnd_le {i e : Nat} (hi : i < lines.length) (h : exit lines i = .pastEnd e) :
    e ≤ lines.length := by
  rw [exit] at h
  rcases he : exitIn? 0 (i + 1) (lines.drop (i + 1)) with _ | out
  · simp only [he, Option.getD_none, Exit.pastEnd.injEq] at h
    exact Nat.le_of_eq h.symm
  · obtain rfl : out = .pastEnd e := by simpa [he] using h
    have hle := exitIn?_pastEnd he
    rw [List.length_drop] at hle
    omega

end DeskCheck.Matching
