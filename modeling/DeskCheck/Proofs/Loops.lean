import DeskCheck.Proofs.Balance
import DeskCheck.Proofs.Replay

/-!
# Loops and their ends

The end of a loop is found by a scan forwards from its `WHILE`, the beginning by a scan backwards
from its `ENDWHILE`.  Both find the same thing: `w` and `e` belong together if the loops between
them are balanced (`endWhile?_eq_some_iff`, `while?_eq_some_iff`), which does not depend on the
direction in which they are counted.  So the two scans agree in every list of lines, balanced or
not, and a machine goes back from an `ENDWHILE` to exactly the loop that it would leave by it
(`loops_paired`).
-/

namespace DeskCheck

namespace Matching

variable {lines : List Line} {w e : Nat}

theorem eq_whileDo {line : Line} (h : line.isWhile = true) : ∃ guard, line = .whileDo guard := by
  cases line with
  | whileDo guard => exact ⟨guard, rfl⟩
  | _ => cases h

theorem eq_endWhile {line : Line} (h : line.isEndWhile = true) : line = .endWhile := by
  cases line with
  | endWhile => rfl
  | _ => cases h

theorem isEndWhile_of_isWhile (line : Line) (h : line.isWhile = true) :
    line.isEndWhile = false := by
  obtain ⟨guard, rfl⟩ := eq_whileDo h
  rfl

/-! ### What the scans find -/

theorem endWhile?_eq_some_iff :
    endWhile? lines w = some e ↔
      w < e ∧ Balanced Line.isWhile Line.isEndWhile (between lines w e) ∧
        lines[e]? = some .endWhile := by
  rw [endWhile?, Option.map_eq_some_iff]
  constructor
  · rintro ⟨k, hk, rfl⟩
    obtain ⟨hbalanced, line, hline, -, hcloses⟩ := partner?_eq_some_iff.mp hk
    rw [take_drop_eq_between] at hbalanced
    rw [List.getElem?_drop, eq_endWhile hcloses] at hline
    exact ⟨by omega, hbalanced, hline⟩
  · rintro ⟨hlt, hbalanced, hline⟩
    obtain ⟨k, rfl⟩ := Nat.exists_eq_add_of_le (Nat.succ_le_of_lt hlt)
    refine ⟨k, partner?_eq_some_iff.mpr ⟨?_, .endWhile, ?_, rfl, rfl⟩, rfl⟩
    · rw [take_drop_eq_between]
      exact hbalanced
    · rw [List.getElem?_drop]
      exact hline

/-- The lines behind, read backwards up to line `w`. -/
theorem take_reverse_take {k : Nat} (hk : w + 1 + k = e) (he : e ≤ lines.length) :
    (lines.take e).reverse.take k = (between lines w e).reverse := by
  have hplace : (lines.take e).length - k = w + 1 := by
    rw [List.length_take_of_le he]
    omega
  rw [List.take_reverse, hplace, between]

theorem getElem?_reverse_take {k : Nat} (hk : w + 1 + k = e) (he : e ≤ lines.length) :
    (lines.take e).reverse[k]? = lines[w]? := by
  have hlength : (lines.take e).length = e := List.length_take_of_le he
  rw [List.getElem?_reverse (by omega), hlength, List.getElem?_take_of_lt (by omega)]
  congr 1
  omega

theorem while?_eq_some_iff (he : e ≤ lines.length) :
    while? lines e = some w ↔
      w < e ∧ Balanced Line.isWhile Line.isEndWhile (between lines w e) ∧
        ∃ guard, lines[w]? = some (.whileDo guard) := by
  have hlength : (lines.take e).reverse.length = e := by
    rw [List.length_reverse, List.length_take_of_le he]
  rw [while?, Option.map_eq_some_iff, hlength]
  constructor
  · rintro ⟨k, hk, rfl⟩
    have hlt := partner?_lt hk
    have hplace : e - 1 - k + 1 + k = e := by omega
    obtain ⟨hbalanced, line, hline, -, hcloses⟩ := partner?_eq_some_iff.mp hk
    rw [take_reverse_take hplace he] at hbalanced
    rw [getElem?_reverse_take hplace he] at hline
    obtain ⟨guard, rfl⟩ := eq_whileDo hcloses
    exact ⟨by omega, (balanced_reverse isEndWhile_of_isWhile).mp hbalanced, guard, hline⟩
  · rintro ⟨hlt, hbalanced, guard, hline⟩
    obtain ⟨k, hk⟩ := Nat.exists_eq_add_of_le (Nat.succ_le_of_lt hlt)
    refine ⟨k, partner?_eq_some_iff.mpr ⟨?_, .whileDo guard, ?_, rfl, rfl⟩, by omega⟩
    · rw [take_reverse_take hk.symm he]
      exact (balanced_reverse isEndWhile_of_isWhile).mpr hbalanced
    · rw [getElem?_reverse_take hk.symm he]
      exact hline

/-- The scans from the two ends of a loop agree. -/
theorem endWhile?_iff_while? {guard : Option Expr} (hw : lines[w]? = some (.whileDo guard))
    (he : lines[e]? = some .endWhile) : endWhile? lines w = some e ↔ while? lines e = some w := by
  have hlt : e < lines.length := (List.getElem?_eq_some_iff.mp he).1
  rw [endWhile?_eq_some_iff, while?_eq_some_iff (Nat.le_of_lt hlt)]
  exact and_congr_right fun _ => and_congr_right fun _ => ⟨fun _ => ⟨guard, hw⟩, fun _ => he⟩

end Matching

/-! ### Where a machine goes -/

namespace Machine

variable {lines : List Line} {m : Machine}

theorem counter_visit_endWhile (h : lines[m.counter]? = some .endWhile) :
    (m.visit lines).1.counter = (Matching.while? lines m.counter).getD (m.counter + 1) := by
  rw [visit, h]
  rfl

theorem counter_visit_whileDo {guard : Option Expr}
    (h : lines[m.counter]? = some (.whileDo guard)) :
    (m.visit lines).1.counter =
      if Guard.holds m.store guard then m.counter + 1
      else behind lines (Matching.endWhile? lines m.counter) := by
  rw [visit, h]
  simp only [execute, test_eq]
  by_cases hguard : Guard.holds m.store guard = true
  · simp [hguard, captureThen, capture, goto]
  · rcases hend : Matching.endWhile? lines m.counter with _ | e <;>
      simp [hguard, captureThen, capture, goto, behind]

end Machine

namespace Matching

variable {lines : List Line} {w e : Nat} {guard : Option Expr}

/-- **A loop and its end find each other.**  The `WHILE` at `w` and the `ENDWHILE` at `e` are
partners seen from the one exactly if they are seen from the other.  Then the loops between them are
balanced, neither has another partner, the machine goes from `e` back to `w`, and where the
condition of `w` does not hold it goes on behind `e`. -/
theorem loops_paired (hw : lines[w]? = some (.whileDo guard)) (he : lines[e]? = some .endWhile) :
    (endWhile? lines w = some e ↔ while? lines e = some w) ∧
    (endWhile? lines w = some e →
      w < e ∧ Balanced Line.isWhile Line.isEndWhile (between lines w e) ∧
      (∀ w' guard', lines[w']? = some (.whileDo guard') → endWhile? lines w' = some e → w' = w) ∧
      (∀ e', lines[e']? = some .endWhile → while? lines e' = some w → e' = e) ∧
      (∀ m : Machine, m.counter = e → (m.visit lines).1.counter = w) ∧
      ∀ m : Machine, m.counter = w → Guard.holds m.store guard = false →
        (m.visit lines).1.counter = e + 1) := by
  refine ⟨endWhile?_iff_while? hw he, fun hpair => ?_⟩
  have hback : while? lines e = some w := (endWhile?_iff_while? hw he).mp hpair
  obtain ⟨hlt, hbalanced, -⟩ := endWhile?_eq_some_iff.mp hpair
  refine ⟨hlt, hbalanced, fun w' guard' hw' hpair' => ?_, fun e' he' hback' => ?_, ?_, ?_⟩
  · have hback' := (endWhile?_iff_while? hw' he).mp hpair'
    exact Option.some.inj (hback'.symm.trans hback)
  · have hpair' := (endWhile?_iff_while? hw he').mpr hback'
    exact Option.some.inj (hpair'.symm.trans hpair)
  · rintro m rfl
    rw [Machine.counter_visit_endWhile he, hback, Option.getD_some]
  · rintro m rfl hguard
    rw [Machine.counter_visit_whileDo hw, hguard, hpair]
    rfl

/-- A loop in a loop, with the end of a branch that is open nowhere, and one end too many. -/
def looseEnds : List Line :=
  [.whileDo none, .endIf, .whileDo none, .endWhile, .blank, .endWhile, .endWhile]

theorem loops_paired_looseEnds :
    endWhile? looseEnds 0 = some 5 ∧ while? looseEnds 5 = some 0 ∧ while? looseEnds 6 = none ∧
      Balanced Line.isWhile Line.isEndWhile (between looseEnds 0 5) ∧
      ∀ m : Machine, m.counter = 5 → (m.visit looseEnds).1.counter = 0 := by
  have hwhile : looseEnds[0]? = some (.whileDo none) := rfl
  have hend : looseEnds[5]? = some .endWhile := rfl
  have hpaired := loops_paired hwhile hend
  have hpair : endWhile? looseEnds 0 = some 5 := by decide
  obtain ⟨-, hbalanced, -, -, hback, -⟩ := hpaired.2 hpair
  exact ⟨hpair, hpaired.1.mp hpair, by decide, hbalanced, hback⟩

end Matching
end DeskCheck
