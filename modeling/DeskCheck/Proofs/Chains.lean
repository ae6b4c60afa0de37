import DeskCheck.Proofs.Balance
import DeskCheck.Proofs.Replay
import Mathlib.Logic.Relation

/-!
# Chains and their ends

Two searches look for the places of a chain of branches: the one for the exit of a condition that
does not hold, which stops at the next branch, and the one for the `ENDIF` by which a chain is left
that has run.  Each counts the chains inside of it for itself.

They agree in every list of lines.  The first search ends where the second one does, unless it meets
a branch behind lines whose chains are balanced (`exitIn?_cases`), and from this branch the second
search finds the same `ENDIF` as before (`endIf?_of_balanced`).  So wherever a chain is left, be it
from a branch that has run or by the last condition that does not hold, the machine goes to the same
line (`exit_agrees`).
-/

namespace DeskCheck

namespace Matching

variable {lines : List Line} {start b : Nat}

theorem eq_endIf {line : Line} (h : line.isEndIf = true) : line = .endIf := by
  cases line with
  | endIf => rfl
  | _ => cases h

theorem count?_branch {line : Line} (h : line.isBranch = true) (depth : Nat) :
    count? Line.isIf Line.isEndIf depth line = some depth := by
  cases line with
  | elseIf | otherwise => rfl
  | _ => cases h

/-! ### The search for the next branch -/

/-- The search for the next branch counts as the scan for the `ENDIF` does, and stops at a branch as
well. -/
theorem exitIn?_cons (depth i : Nat) (line : Line) (rest : List Line) :
    exitIn? depth i (line :: rest) =
      match count? Line.isIf Line.isEndIf depth line with
      | none => some (.pastEnd (i + 1))
      | some d =>
        if line.isBranch ∧ depth = 0 then some (.branch i) else exitIn? d (i + 1) rest := by
  cases line with
  | endIf => cases depth <;> simp [exitIn?, count?, Line.isIf, Line.isEndIf, Line.isBranch]
  | _ => simp [exitIn?, count?, Line.isIf, Line.isEndIf, Line.isBranch]

/-- What the search for the next branch finds: nothing, if the scan finds nothing; the line behind
what the scan finds; or a branch, down to which no chain is left open. -/
theorem exitIn?_cases (depth i : Nat) (xs : List Line) :
    (exitIn? depth i xs = none ∧ partner? Line.isIf Line.isEndIf depth xs = none) ∨
    (∃ k, exitIn? depth i xs = some (.pastEnd (i + k + 1)) ∧
      partner? Line.isIf Line.isEndIf depth xs = some k) ∨
    ∃ k line, exitIn? depth i xs = some (.branch (i + k)) ∧
      depth? Line.isIf Line.isEndIf depth (xs.take k) = some 0 ∧
      xs[k]? = some line ∧ line.isBranch = true := by
  induction xs generalizing depth i with
  | nil => exact .inl ⟨rfl, rfl⟩
  | cons line xs ih =>
    rw [exitIn?_cons, partner?_cons]
    rcases hline : count? Line.isIf Line.isEndIf depth line with - | d
    · exact .inr (.inl ⟨0, rfl, rfl⟩)
    · dsimp only
      by_cases hbranch : line.isBranch = true ∧ depth = 0
      · obtain ⟨hbranch, rfl⟩ := hbranch
        refine .inr (.inr ⟨0, line, ?_, rfl, rfl, hbranch⟩)
        rw [if_pos ⟨hbranch, rfl⟩, Nat.add_zero]
      · rw [if_neg hbranch]
        rcases ih d (i + 1) with
          ⟨hexit, hscan⟩ | ⟨k, hexit, hscan⟩ | ⟨k, found, hexit, hdepth, hfound⟩
        · exact .inl ⟨hexit, by rw [hscan, Option.map_none]⟩
        · refine .inr (.inl ⟨k + 1, ?_, by rw [hscan, Option.map_some]⟩)
          rw [hexit, Nat.add_right_comm i 1 k, Nat.add_assoc i k 1]
        · refine .inr (.inr ⟨k + 1, found, ?_, ?_, hfound⟩)
          · rw [hexit, Nat.add_assoc, Nat.add_comm 1 k]
          · rw [List.take_succ_cons, depth?_cons, hline]
            exact hdepth

/-- The lines behind a line, cut at a later one. -/
theorem drop_eq_between {line : Line} (hlt : start < b) (hline : lines[b]? = some line) :
    lines.drop (start + 1) = between lines start b ++ line :: lines.drop (b + 1) := by
  obtain ⟨hb, hget⟩ := List.getElem?_eq_some_iff.mp hline
  obtain ⟨k, rfl⟩ := Nat.exists_eq_add_of_le (Nat.succ_le_of_lt hlt)
  calc lines.drop (start + 1)
      = (lines.drop (start + 1)).take k ++ (lines.drop (start + 1)).drop k :=
        (List.take_append_drop k _).symm
    _ = between lines start (start + 1 + k) ++ lines.drop (start + 1 + k) := by
        rw [take_drop_eq_between, List.drop_drop]
    _ = between lines start (start + 1 + k) ++ line :: lines.drop (start + 1 + k + 1) := by
        rw [List.drop_eq_getElem_cons hb, hget]

theorem length_between (hlt : start < b) (hb : b < lines.length) :
    (between lines start b).length = b - start - 1 := by
  rw [between, List.length_drop, List.length_take]
  omega

/-- A branch behind lines whose chains are balanced belongs to the same `ENDIF`. -/
theorem endIf?_of_balanced {line : Line} (hlt : start < b) (hline : lines[b]? = some line)
    (hbranch : line.isBranch = true)
    (hbalanced : Balanced Line.isIf Line.isEndIf (between lines start b)) :
    endIf? lines b = endIf? lines start := by
  have hb : b < lines.length := (List.getElem?_eq_some_iff.mp hline).1
  have hplace : ∀ k, b + 1 + k = start + 1 + (k + 1 + (b - start - 1)) := by omega
  rw [endIf?, endIf?, drop_eq_between hlt hline, partner?_append hbalanced, partner?_cons,
    count?_branch hbranch, length_between hlt hb]
  dsimp only
  rw [Option.map_map, Option.map_map]
  exact congrArg (Option.map · _) (funext hplace)

/-! ### The exit of a condition -/

/-- On the way to the next branch, every chain that begins ends. -/
theorem balanced_of_exit (h : exit lines start = .branch b) :
    Balanced Line.isIf Line.isEndIf (between lines start b) := by
  rw [exit] at h
  rcases exitIn?_cases 0 (start + 1) (lines.drop (start + 1)) with
    ⟨hexit, -⟩ | ⟨k, hexit, -⟩ | ⟨k, line, hexit, hdepth, -⟩
  · rw [hexit] at h
    cases h
  · rw [hexit] at h
    cases h
  · rw [hexit] at h
    cases h
    rwa [take_drop_eq_between] at hdepth

/-- A condition that leads out of its chain leads behind what the scan for the `ENDIF` finds. -/
theorem endIf?_of_exit {k : Nat} (h : exit lines start = .pastEnd k) :
    (∃ e, k = e + 1 ∧ endIf? lines start = some e) ∨
      (endIf? lines start = none ∧ k = lines.length) := by
  rw [exit] at h
  rcases exitIn?_cases 0 (start + 1) (lines.drop (start + 1)) with
    ⟨hexit, hscan⟩ | ⟨j, hexit, hscan⟩ | ⟨j, line, hexit, -⟩
  · rw [hexit] at h
    cases h
    exact .inr ⟨by rw [endIf?, hscan, Option.map_none], rfl⟩
  · rw [hexit] at h
    cases h
    exact .inl ⟨start + 1 + j, rfl, by rw [endIf?, hscan, Option.map_some]⟩
  · rw [hexit] at h
    cases h

theorem getElem?_of_endIf? {e : Nat} (h : endIf? lines start = some e) :
    lines[e]? = some .endIf := by
  obtain ⟨k, hk, rfl⟩ := Option.map_eq_some_iff.mp h
  obtain ⟨-, line, hline, -, hcloses⟩ := partner?_eq_some_iff.mp hk
  rwa [List.getElem?_drop, eq_endIf hcloses] at hline

/-! ### Along a chain -/

/-- A condition at line `i` that does not hold leads to the branch at line `b`. -/
def NextBranch (lines : List Line) (i b : Nat) : Prop := exit lines i = .branch b

theorem endIf?_nextBranch (h : NextBranch lines start b) : endIf? lines b = endIf? lines start := by
  obtain ⟨hlt, line, hline, hbranch⟩ := exit_branch h
  exact endIf?_of_balanced hlt hline hbranch (balanced_of_exit h)

/-- All branches of a chain have the same `ENDIF`. -/
theorem endIf?_chain_eq (h : Relation.ReflTransGen (NextBranch lines) start b) :
    endIf? lines b = endIf? lines start := by
  induction h with
  | refl => rfl
  | tail _ hnext ih => rw [endIf?_nextBranch hnext, ih]

/-- The last condition leads to where a branch that has run leads. -/
theorem eq_behind_of_exit {k : Nat} (h : exit lines b = .pastEnd k) :
    k = Machine.behind lines (endIf? lines b) := by
  rcases endIf?_of_exit h with ⟨e, rfl, hend⟩ | ⟨hend, rfl⟩
  · rw [hend]
    rfl
  · rw [hend]
    rfl

/-- A chain goes forward, so it has a last condition. -/
theorem exists_last (lines : List Line) (start : Nat) :
    ∃ last k, Relation.ReflTransGen (NextBranch lines) start last ∧
      exit lines last = .pastEnd k := by
  induction hleft : lines.length - start using Nat.strongRecOn generalizing start with
  | _ left ih =>
    rcases hexit : exit lines start with b | k
    · obtain ⟨hlt, line, hline, -⟩ := exit_branch hexit
      have hb : b < lines.length := (List.getElem?_eq_some_iff.mp hline).1
      obtain ⟨last, k, hchain, hlast⟩ := ih (lines.length - b) (by omega) b rfl
      exact ⟨last, k, .head hexit hchain, hlast⟩
    · exact ⟨start, k, .refl, hexit⟩

theorem counter_leaveChain (m : Machine) :
    (m.leaveChain lines).1.counter = Machine.behind lines (endIf? lines m.counter) := by
  rw [Machine.leaveChain]
  split
  · next e hend => rw [hend]; rfl
  · next hend => rw [hend]; rfl

/-- **The exit of a condition and the end of its chain agree.**  A condition that leads out of the
chain leads behind the `ENDIF`, or to the end of the program if there is none; one that leads to a
branch leads to a later line, with balanced chains on the way, from which the `ENDIF` is the same.
So the conditions of a chain that do not hold lead, one after the other, to one line in the end, and
from each of its branches the chain is left to this line. -/
theorem exit_agrees (lines : List Line) (start : Nat) :
    (∀ k, exit lines start = .pastEnd k →
      (∃ e, k = e + 1 ∧ endIf? lines start = some e ∧ lines[e]? = some .endIf) ∨
        (endIf? lines start = none ∧ k = lines.length)) ∧
    (∀ b, exit lines start = .branch b →
      start < b ∧ b < lines.length ∧ (∃ line, lines[b]? = some line ∧ line.isBranch = true) ∧
        Balanced Line.isIf Line.isEndIf (between lines start b) ∧
        endIf? lines b = endIf? lines start) ∧
    ∃ k, (∃ last, Relation.ReflTransGen (NextBranch lines) start last ∧
        exit lines last = .pastEnd k) ∧
      ∀ b, Relation.ReflTransGen (NextBranch lines) start b →
        (∀ k', exit lines b = .pastEnd k' → k' = k) ∧
        ∀ m : Machine, m.counter = b → (m.leaveChain lines).1.counter = k := by
  refine ⟨fun k hk => ?_, fun b hb => ?_, ?_⟩
  · rcases endIf?_of_exit hk with ⟨e, rfl, hend⟩ | hnone
    · exact .inl ⟨e, rfl, hend, getElem?_of_endIf? hend⟩
    · exact .inr hnone
  · obtain ⟨hlt, line, hline, hbranch⟩ := exit_branch hb
    exact ⟨hlt, (List.getElem?_eq_some_iff.mp hline).1, ⟨line, hline, hbranch⟩,
      balanced_of_exit hb, endIf?_nextBranch hb⟩
  · obtain ⟨last, k, hchain, hlast⟩ := exists_last lines start
    have hk : k = Machine.behind lines (endIf? lines start) := by
      rw [eq_behind_of_exit hlast, endIf?_chain_eq hchain]
    refine ⟨k, ⟨last, hchain, hlast⟩, fun b hb => ⟨fun k' hk' => ?_, ?_⟩⟩
    · rw [eq_behind_of_exit hk', endIf?_chain_eq hb, hk]
    · rintro m rfl
      rw [counter_leaveChain, endIf?_chain_eq hb, hk]

/-- A chain that begins in front of a loop and goes on in it; its own inner chain has a branch, and
there is one `ENDIF` too many. -/
def acrossLoop : List Line :=
  [.ifThen none, .whileDo none, .ifThen none, .otherwise, .endIf, .elseIf none, .endWhile,
    .otherwise, .endIf, .endIf]

theorem exit_agrees_acrossLoop :
    exit acrossLoop 0 = .branch 5 ∧ exit acrossLoop 5 = .branch 7 ∧
      exit acrossLoop 7 = .pastEnd 9 ∧ endIf? acrossLoop 5 = endIf? acrossLoop 0 ∧
      Balanced Line.isIf Line.isEndIf (between acrossLoop 0 5) ∧
      ∀ m : Machine, m.counter = 5 → (m.leaveChain acrossLoop).1.counter = 9 := by
  have hfirst : exit acrossLoop 0 = .branch 5 := rfl
  have hsecond : exit acrossLoop 5 = .branch 7 := rfl
  have hlast : exit acrossLoop 7 = .pastEnd 9 := rfl
  obtain ⟨-, hbranch, k, -, hleft⟩ := exit_agrees acrossLoop 0
  obtain ⟨-, -, -, hbalanced, hend⟩ := hbranch 5 hfirst
  have hchain : Relation.ReflTransGen (NextBranch acrossLoop) 0 5 := .single hfirst
  obtain rfl : 9 = k := (hleft 7 (hchain.tail hsecond)).1 9 hlast
  exact ⟨hfirst, hsecond, hlast, hend, hbalanced, (hleft 5 hchain).2⟩

end Matching
end DeskCheck
