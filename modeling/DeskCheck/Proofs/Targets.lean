import DeskCheck.Proofs.Brackets
import DeskCheck.Proofs.Replay

/-!
# What an assignment may change

A line changes variables only if it is read as an assignment (`Machine.store_visit`), and it is read
as one only if there is a target left of its assignment sign (`Line.classify_assign`): a name, or a
name and an index in brackets.

Three readers look at the brackets of a target.  The search for the assignment sign counts them and
passes over those that close none; the index is what is between the first opening bracket and a
closing one at the end; and the parser reads an expression of a front of this and ignores the
tokens behind it.  Because the search and the parser count alike, the tokens that are read have
balanced brackets, whatever they are.  The ignored ones need not: `a[0][1]` is a target, with the
index `0` and the tokens of `][1` behind it (`Line.element_unmatched`).
-/

namespace DeskCheck

open Text (isBlank trim trimEnd trimStart)

namespace Nesting

variable {n : Nesting}

theorem after_of_blank {text : List Char} (h : ∀ c ∈ text, isBlank c = true) : n.after text = n := by
  refine after_of_not_isCounted fun c hc hcounted => ?_
  have hblank := h c hc
  rcases hcounted with rfl | (rfl | rfl) | rfl | rfl <;> exact absurd hblank (by decide)

/-- Blanks around a text do not count. -/
theorem after_trim (text : List Char) : n.after (trim text) = n.after text := by
  obtain ⟨before, after, htext, hbefore, hafter⟩ := Text.exists_trim text
  have hwhole := congrArg n.after htext
  rw [after_append, after_append, after_of_blank hbefore, after_of_blank hafter] at hwhole
  exact hwhole.symm

theorem after_of_isName {text : List Char} (h : Line.isName (trim text) = true) :
    n.after text = n := by
  rw [← after_trim]
  exact after_of_not_isCounted fun c hc =>
    Token.not_isCounted_of_isWordChar (Token.isWordChar_of_isName h c hc)

end Nesting

/-- What is read is a result. -/
theorem eq_ok_of_toOption {ε α : Type} {x : Except ε α} {a : α} (h : x.toOption = some a) :
    x = .ok a := by
  cases x <;> cases h
  rfl

namespace Line

variable {text left : List Char} {target : Target} {index value : Expr}

/-- A line that is read as an assignment has a target and a value around its assignment sign. -/
theorem exists_of_classify_eq_assign (h : classify text = .assign target value) :
    ∃ left right, splitAssignment? (trim text) = some (left, right) ∧
      target? (trim left) = some target ∧ Expr.parse right = .ok value := by
  have hassignment : assignment? (trim text) = some (.assign target value) := by
    simp only [classify, classifyTrimmed] at h
    repeat' split at h
    all_goals try cases h
    -- the one case in which the line has no first word of another statement
    rcases hread : assignment? (trim text) with _ | line
    · rw [hread] at h
      cases h
    · rw [hread, Option.getD_some] at h
      rw [h]
  simp only [assignment?, Option.bind_eq_bind, Option.bind_eq_some_iff] at hassignment
  obtain ⟨⟨left, right⟩, hsplit, target', htarget, value', hvalue, hassign⟩ := hassignment
  obtain ⟨rfl, rfl⟩ := Line.assign.inj (Option.some.inj hassign)
  exact ⟨left, right, hsplit, htarget, eq_ok_of_toOption hvalue⟩

/-- A target is a name, or it has an index between its first opening bracket and its last character,
which closes one. -/
theorem target?_cases (h : target? left = some target) :
    (isName left = true ∧ target = .name (String.ofList left)) ∨
      ∃ before inner index, left = before ++ '[' :: (inner ++ [']']) ∧ '[' ∉ before ∧
        isName (trim before) = true ∧ Expr.parse inner = .ok index ∧
        target = .element (String.ofList (trim before)) index := by
  have hbefore : '[' ∉ left.takeWhile (· ≠ '[') := fun hmem => by
    simpa using List.mem_takeWhile_imp hmem
  have hleft : left.takeWhile (· ≠ '[') ++ left.dropWhile (· ≠ '[') = left :=
    List.takeWhile_append_dropWhile
  rw [target?] at h
  rcases hrest : left.dropWhile (· ≠ '[') with _ | ⟨c, rest⟩
  · rw [hrest] at h
    dsimp only at h
    split at h
    · next hname => exact .inl ⟨hname, (Option.some.inj h).symm⟩
    · cases h
  · have hc := List.head?_dropWhile_not (· ≠ '[') left
    rw [hrest] at h hleft hc
    obtain rfl : c = '[' := by simpa using hc
    simp only [Option.bind_eq_bind, Option.bind_eq_some_iff] at h
    obtain ⟨inner, hinner, h⟩ := h
    obtain rfl := List.isSuffixOf?_eq_some_iff_append_eq.mp hinner
    split at h
    · next hname =>
      obtain ⟨index, hindex, htarget⟩ := Option.bind_eq_some_iff.mp h
      exact .inr ⟨_, inner, index, hleft.symm, hbefore, hname, eq_ok_of_toOption hindex,
        (Option.some.inj htarget).symm⟩
    · cases h

/-! ### Brackets around an index -/

/-- The brackets around a text belong to each other: inside of it every bracket that opens is closed,
and no other.  Brackets in quotes do not count. -/
def Matched (inner : List Char) : Prop := Nesting.outside.after? inner = some .outside

instance (inner : List Char) : Decidable (Matched inner) :=
  inferInstanceAs (Decidable (Nesting.outside.after? inner = some .outside))

/-- What is read of the tokens of a text. -/
theorem exists_reading {e : Expr} (h : Expr.parse text = .ok e) :
    ∃ rest read missing, Parse.Reading (Derives .or · e) (Token.scan text) rest read missing := by
  rw [Expr.parse, Expr.ofTokens, Parse.front] at h
  split at h
  · next result hresult =>
    cases h
    obtain ⟨-, read, missing, hread⟩ := (Parse.sound_ofLevels maxLevels).tier .or _ _ _ hresult
    exact ⟨_, read, missing, hread⟩
  · cases h

/-- A search that passes over a name and an index in brackets has counted every bracket that the
index leaves open. -/
theorem open_eq_zero {before inner : List Char} {quoted : Bool} {depth : Nat}
    (hname : isName (trim before) = true)
    (hinner : Nesting.outside.after? inner = some ⟨quoted, depth⟩)
    (hafter : Nesting.outside.after (before ++ '[' :: (inner ++ [']'])) = .outside) :
    quoted = false ∧ depth = 0 := by
  have hopen : Nesting.outside.after ['['] = ⟨false, 0 + 1⟩ := rfl
  have hclose : (Nesting.mk quoted (depth + 1)).after [']'] = .outside := by
    rw [Nesting.after_append, Nesting.after_of_isName hname, ← List.singleton_append,
      Nesting.after_append, hopen, Nesting.after_append, Nesting.after_add hinner 1] at hafter
    exact hafter
  cases quoted with
  | false => exact ⟨rfl, (Nesting.mk.inj hclose).2⟩
  | true => cases (Nesting.mk.inj hclose).1

/-- The text left of an assignment sign is a target: a name, or a name, perhaps blanks, and a text in
brackets.  The index is read of a front of the tokens of this text, the others are ignored; and
whether the brackets around the text belong to each other depends on those alone. -/
inductive IsTarget (left : List Char) : Target → (ignored : List Token) → Prop
  | name : isName left = true → IsTarget left (.name (String.ofList left)) []
  | element {before inner : List Char} {read ignored : List Token} {index : Expr} :
      left = before ++ '[' :: (inner ++ [']']) → '[' ∉ before → isName (trim before) = true →
      Token.scan inner = read ++ ignored → Derives .or read index →
      (Matched inner ↔ Token.nesting? 0 ignored = some 0) →
      IsTarget left (.element (String.ofList (trim before)) index) ignored

/-- In front of the assignment sign no bracket is left open, so none is missing behind the tokens of
the index. -/
theorem isTarget_element {before inner : List Char} (hbefore : '[' ∉ before)
    (hname : isName (trim before) = true) (hindex : Expr.parse inner = .ok index)
    (hafter : Nesting.outside.after (before ++ '[' :: (inner ++ [']'])) = .outside) :
    ∃ ignored, IsTarget (before ++ '[' :: (inner ++ [']']))
      (.element (String.ofList (trim before)) index) ignored := by
  obtain ⟨ignored, read, missing, hread⟩ := exists_reading hindex
  have hscan := Nesting.after?_scan inner
  have hopen : Token.nesting? 0 read = some missing.length := by
    have hsentence := nesting?_of_derives hread.sentence 0
    rw [Token.nesting?_append] at hsentence
    obtain ⟨depth, hdepth, hclosers⟩ := Option.bind_eq_some_iff.mp hsentence
    rw [hdepth, Token.depth_eq_of_closers hread.closers hclosers, Nat.zero_add]
  rw [hread.split, Token.nesting?_append, hopen, Option.bind_some] at hscan
  have hnone : missing = [] := by
    rcases List.eq_nil_or_concat ignored with rfl | ⟨more, tok, rfl⟩
    · exact List.length_eq_zero_iff.mp (open_eq_zero hname hscan hafter).2
    · exact hread.complete (by simp)
  subst hnone
  refine ⟨ignored, .element rfl hbefore hname hread.split (by simpa using hread.sentence) ?_⟩
  constructor
  · intro hmatched
    rw [Matched, hscan] at hmatched
    obtain ⟨depth, hdepth, hzero⟩ := Option.map_eq_some_iff.mp hmatched
    obtain rfl : depth = 0 := (Nesting.mk.inj hzero).2
    exact hdepth
  · intro hignored
    rw [List.length_nil, hignored, Option.map_some] at hscan
    rw [Matched, hscan, (open_eq_zero hname hscan hafter).1]
    rfl

theorem isTarget_of_classify (h : classify text = .assign target value) :
    ∃ left right ignored, splitAssignment? (trim text) = some (left, right) ∧
      IsTarget (trim left) target ignored ∧ Expr.parse right = .ok value := by
  obtain ⟨left, right, hsplit, htarget, hvalue⟩ := exists_of_classify_eq_assign h
  have hafter : Nesting.outside.after (trim left) = .outside := by
    obtain ⟨front, hfront, hafter⟩ := splitFrom_eq_some (n := .outside) hsplit
    rw [Nesting.after_trim, hfront]
    exact hafter
  rcases target?_cases htarget with ⟨hname, rfl⟩ | ⟨before, inner, index, hleft, hbefore, hname, hindex, rfl⟩
  · exact ⟨left, right, [], hsplit, .name hname, hvalue⟩
  · rw [hleft] at hafter
    obtain ⟨ignored, hignored⟩ := isTarget_element hbefore hname hindex hafter
    exact ⟨left, right, ignored, hsplit, hleft ▸ hignored, hvalue⟩

end Line

/-! ### What a visit leaves as it is -/

namespace Machine

variable {lines : List Line} {m : Machine}

theorem store_captureThen (m : Machine) (line : Nat) : (m.captureThen line).1.store = m.store := rfl

theorem store_leaveChain (lines : List Line) (m : Machine) :
    (m.leaveChain lines).1.store = m.store := by
  rw [leaveChain]
  split <;> rfl

theorem store_choose (lines : List Line) (m : Machine) (guard : Option Expr) :
    (m.choose lines guard).1.store = m.store := by
  rw [choose, test_eq]
  dsimp only
  split
  · rfl
  · split <;> rfl

theorem store_ifArmed {run : Machine → Machine × Option Snapshot}
    (hrun : ∀ m, (run m).1.store = m.store) (lines : List Line) (m : Machine) :
    (m.ifArmed lines run).1.store = m.store := by
  rw [ifArmed]
  split
  · exact hrun _
  · exact store_leaveChain lines m

/-- Only an assignment changes variables. -/
theorem store_execute {line : Line} (h : ∀ target value, line ≠ .assign target value)
    (lines : List Line) (m : Machine) : (m.execute lines line).1.store = m.store := by
  cases line with
  | blank | endIf | unrecognized | endWhile => rfl
  | whileDo guard =>
    rw [execute, test_eq]
    dsimp only
    split
    · rfl
    · split <;> rfl
  | ifThen guard => exact store_choose lines m guard
  | elseIf guard => exact store_ifArmed (fun m => store_choose lines m guard) lines m
  | otherwise => exact store_ifArmed (fun m => store_captureThen m _) lines m
  | print e => rfl
  | assign target value => exact absurd rfl (h target value)

theorem store_visit {line : Line} (hline : lines[m.counter]? = some line)
    (h : ∀ target value, line ≠ .assign target value) : (m.visit lines).1.store = m.store := by
  rw [visit, hline]
  exact store_execute h lines m

end Machine

namespace Line

/-! ### Assignments -/

/-- **What an assignment may change.**  A line is read as an assignment only if there is a target left
of its assignment sign, and the assignment is to this target; and a visit of a line that is not read
as an assignment changes no variable. -/
theorem classify_assign (text : List Char) :
    (∀ target value, classify text = .assign target value →
      ∃ left right ignored, splitAssignment? (trim text) = some (left, right) ∧
        IsTarget (trim left) target ignored ∧ Expr.parse right = .ok value) ∧
    ((∀ target value, classify text ≠ .assign target value) →
      ∀ lines (m : Machine), lines[m.counter]? = some (classify text) →
        (m.visit lines).1.store = m.store) :=
  ⟨fun _ _ => isTarget_of_classify, fun h _ _ hline => Machine.store_visit hline h⟩

/-- Two indices behind a name. -/
def doubleIndex : List Char := "a[0][1] = 5".toList

theorem exists_classify_doubleIndex :
    ∃ index value, classify doubleIndex = .assign (.element "a" index) value := ⟨_, _, rfl⟩

theorem splitAssignment?_doubleIndex :
    splitAssignment? (trim doubleIndex) = some ("a[0][1] ".toList, " 5".toList) := by
  decide

/-- The line is read as an assignment to an element of `a`. -/
theorem classify_assign_doubleIndex :
    ∃ index value ignored, classify doubleIndex = .assign (.element "a" index) value ∧
      IsTarget "a[0][1]".toList (.element "a" index) ignored := by
  obtain ⟨index, value, hread⟩ := exists_classify_doubleIndex
  obtain ⟨left, right, ignored, hsplit, htarget, -⟩ := (classify_assign doubleIndex).1 _ _ hread
  obtain ⟨rfl, -⟩ := Prod.mk.inj (Option.some.inj (splitAssignment?_doubleIndex.symm.trans hsplit))
  have htrim : trim "a[0][1] ".toList = "a[0][1]".toList := by decide
  exact ⟨index, value, ignored, hread, htrim ▸ htarget⟩

/-- **A target may go on behind its index**: the brackets around what is between the first opening
bracket and the last character of a target need not belong to each other. -/
theorem element_unmatched :
    ¬ ∀ text name index value, classify text = .assign (.element name index) value →
      ∃ left right before inner, splitAssignment? (trim text) = some (left, right) ∧
        trim left = before ++ '[' :: (inner ++ [']']) ∧ '[' ∉ before ∧
        isName (trim before) = true ∧ Matched inner := by
  intro hall
  obtain ⟨index, value, hread⟩ := exists_classify_doubleIndex
  obtain ⟨left, right, before, inner, hsplit, hleft, hbefore, -, hmatched⟩ := hall _ _ _ _ hread
  obtain ⟨rfl, -⟩ := Prod.mk.inj (Option.some.inj (splitAssignment?_doubleIndex.symm.trans hsplit))
  -- from the first opening bracket on
  have hfront : ∀ c ∈ before, decide (c ≠ '[') = true := by
    intro c hc
    refine decide_eq_true ?_
    rintro rfl
    exact hbefore hc
  have hdrop := congrArg (List.dropWhile (· ≠ '[')) hleft
  rw [List.dropWhile_append_of_pos hfront, List.dropWhile_cons_of_neg (by simp)] at hdrop
  have hindices : (trim "a[0][1] ".toList).dropWhile (· ≠ '[') = "[0][1".toList ++ [']'] := by decide
  obtain rfl : "0][1".toList = inner :=
    List.append_cancel_right (List.cons.inj (hindices.symm.trans hdrop)).2
  exact absurd hmatched (by decide)

end Line
end DeskCheck
