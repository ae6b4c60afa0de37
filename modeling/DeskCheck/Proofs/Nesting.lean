import DeskCheck.Proofs.Matching

/-!
# Well-nested programs

A program is a flat list of lines, and most lists of lines are not well nested.  Those that are come
from a tree: a block is a list of simple lines, loops and chains of branches, and `Block.lines`
writes it out as lines.

A scan which comes to the lines of a whole block passes over them without noticing, because all ways
to put blocks together keep that (`NestingClosed`): the forward scans for an `ENDIF` (`closed_if`) and
for an `ENDWHILE` (`closed_while`), the backward scan for a `WHILE` (`closed_reverse`), and the search
for the exit of a condition (`closed_exit`).  So in a written-out block every scan finds the line that
the tree says, wherever the block occurs in a program: the end of a loop (`endWhile?_loop`), its
beginning (`while?_loop`), the end of a chain (`endIf?_chain`) and the exit of a condition
(`exit_chain`).
-/

namespace DeskCheck

/-! ### Block trees -/

/-- A line that neither opens, continues nor closes a block. -/
inductive Simple where
  | blank
  | unrecognized
  | print (e : Expr)
  | assign (target : Target) (value : Expr)

def Simple.line : Simple → Line
  | .blank => .blank
  | .unrecognized => .unrecognized
  | .print e => .print e
  | .assign target value => .assign target value

mutual

/-- A block: lines, loops and chains of branches one below the other. -/
inductive Block where
  | empty
  | simple (first : Simple) (rest : Block)
  /-- `WHILE guard`, the body, `ENDWHILE`. -/
  | loop (guard : Option Expr) (body rest : Block)
  /-- `IF guard`, the body, the further branches, `ENDIF`. -/
  | chain (guard : Option Expr) (body : Block) (branches : Branches) (rest : Block)

/-- The branches of a chain behind the first one. -/
inductive Branches where
  | done
  | elseIf (guard : Option Expr) (body : Block) (more : Branches)
  | otherwise (body : Block)

end

mutual

/-- The block written out as lines. -/
def Block.lines : Block → List Line
  | .empty => []
  | .simple first rest => first.line :: rest.lines
  | .loop guard body rest => .whileDo guard :: (body.lines ++ .endWhile :: rest.lines)
  | .chain guard body branches rest =>
    .ifThen guard :: (body.lines ++ branches.lines ++ .endIf :: rest.lines)

/-- The branches written out as lines, down to the `ENDIF` and without it. -/
def Branches.lines : Branches → List Line
  | .done => []
  | .elseIf guard body more => .elseIf guard :: (body.lines ++ more.lines)
  | .otherwise body => .otherwise :: body.lines

end

/-! A block is written here with its parts in one piece; `lines` writes all that follows a part
behind it. -/

section Lines

variable (guard : Option Expr) (body rest : Block) (more : Branches)

theorem Block.lines_loop :
    (Block.loop guard body rest).lines =
      (.whileDo guard :: (body.lines ++ [.endWhile])) ++ rest.lines := by
  simp [Block.lines]

theorem Block.lines_chain :
    (Block.chain guard body more rest).lines =
      (.ifThen guard :: (body.lines ++ (more.lines ++ [.endIf]))) ++ rest.lines := by
  simp [Block.lines]

theorem Branches.lines_elseIf :
    (Branches.elseIf guard body more).lines ++ [.endIf] =
      .elseIf guard :: (body.lines ++ (more.lines ++ [.endIf])) := by
  simp [Branches.lines]

@[simp] theorem Block.length_loop :
    (Block.loop guard body rest).lines.length = body.lines.length + 2 + rest.lines.length := by
  simp only [Block.lines_loop, List.length_append, List.length_cons, List.length_nil]

@[simp] theorem Block.length_chain :
    (Block.chain guard body more rest).lines.length =
      body.lines.length + more.lines.length + 2 + rest.lines.length := by
  simp only [Block.lines_chain, List.length_append, List.length_cons, List.length_nil]
  omega

@[simp] theorem Branches.length_elseIf :
    (Branches.elseIf guard body more).lines.length = body.lines.length + more.lines.length + 1 := by
  simp [Branches.lines]

@[simp] theorem Branches.length_otherwise :
    (Branches.otherwise body).lines.length = body.lines.length + 1 := rfl

end Lines

/-- Two properties of lists of lines, `P` for whole blocks and `Q` for what stands between an `IF` and
its `ENDIF`, that are kept by every way in which blocks are put together. -/
structure NestingClosed (P Q : List Line → Prop) : Prop where
  nil : P []
  append : ∀ {xs ys}, P xs → P ys → P (xs ++ ys)
  simple : ∀ first : Simple, P [first.line]
  loop : ∀ (guard : Option Expr) {xs}, P xs → P (.whileDo guard :: (xs ++ [.endWhile]))
  chain : ∀ (guard : Option Expr) {xs}, Q xs → P (.ifThen guard :: (xs ++ [.endIf]))
  body : ∀ {xs}, P xs → Q xs
  appendBranch : ∀ {xs ys}, Q xs → Q ys → Q (xs ++ ys)
  elseIf : ∀ guard : Option Expr, Q [.elseIf guard]
  otherwise : Q [.otherwise]

namespace NestingClosed

variable {P Q : List Line → Prop}

mutual

theorem block (h : NestingClosed P Q) : (b : Block) → P b.lines
  | .empty => h.nil
  | .simple first rest => h.append (h.simple first) (h.block rest)
  | .loop guard body rest => by
    rw [Block.lines_loop]
    exact h.append (h.loop guard (h.block body)) (h.block rest)
  | .chain guard body branches rest => by
    have hinner := h.appendBranch (h.body (h.block body)) (h.branches branches)
    rw [Block.lines_chain, ← List.append_assoc]
    exact h.append (h.chain guard hinner) (h.block rest)

theorem branches (h : NestingClosed P Q) : (br : Branches) → Q br.lines
  | .done => h.body h.nil
  | .elseIf guard body more =>
    h.appendBranch (h.elseIf guard) (h.appendBranch (h.body (h.block body)) (h.branches more))
  | .otherwise body => h.appendBranch h.otherwise (h.body (h.block body))

end

end NestingClosed

namespace Matching

/-! ### Lines that a scan passes over -/

theorem map_add_add (o : Option Nat) (a b : Nat) :
    (o.map (· + a)).map (· + b) = o.map (· + (a + b)) := by
  cases o with
  | none => rfl
  | some n => exact congrArg some (Nat.add_assoc n a b)

/-- The scan passes over the lines `xs`: it finds behind them what it would find without them. -/
def Passes (opens closes : Line → Bool) (xs : List Line) : Prop :=
  ∀ depth rest, partner? opens closes depth (xs ++ rest) =
    (partner? opens closes depth rest).map (· + xs.length)

namespace Passes

variable {opens closes : Line → Bool} {xs ys : List Line}

theorem nil : Passes opens closes [] := by
  intro depth rest
  simp

theorem append (hx : Passes opens closes xs) (hy : Passes opens closes ys) :
    Passes opens closes (xs ++ ys) := by
  intro depth rest
  rw [List.append_assoc, hx, hy, map_add_add, List.length_append, Nat.add_comm ys.length]

theorem single (line : Line) (ho : opens line = false) (hc : closes line = false) :
    Passes opens closes [line] :=
  fun depth rest => partner?_other depth rest ho hc

/-- What one line opens and another one closes is passed over with both. -/
theorem enclosed (opener closer : Line) (ho : opens opener = true) (hco : opens closer = false)
    (hc : closes closer = true) (hx : Passes opens closes xs) :
    Passes opens closes (opener :: (xs ++ [closer])) := by
  intro depth rest
  have hbody : partner? opens closes (depth + 1) (xs ++ ([closer] ++ rest)) =
      (partner? opens closes depth rest).map (· + (1 + xs.length)) := by
    rw [hx, List.singleton_append, partner?_closes depth rest hco hc, map_add_add]
  have hlength : (opener :: (xs ++ [closer])).length = 1 + xs.length + 1 := by
    rw [List.length_cons, List.length_append, List.length_singleton]
    omega
  rw [List.cons_append, List.append_assoc, partner?_opens depth _ ho, hbody, map_add_add, hlength]

theorem partner?_eq {closer : Line} (hx : Passes opens closes xs) (hco : opens closer = false)
    (hc : closes closer = true) (rest : List Line) :
    partner? opens closes 0 (xs ++ closer :: rest) = some xs.length := by
  rw [hx, partner?_closes_zero rest hco hc]
  simp

end Passes

/-- The search for the next branch skips the lines `xs`, if it is at least at the depth `least`. -/
def Skips (least : Nat) (xs : List Line) : Prop :=
  ∀ depth i rest, least ≤ depth → exitIn? depth i (xs ++ rest) = exitIn? depth (i + xs.length) rest

namespace Skips

variable {least : Nat} {xs ys : List Line}

theorem nil : Skips least [] := by
  intro depth i rest _
  rfl

theorem mono {more : Nat} (h : Skips least xs) (hle : least ≤ more) : Skips more xs :=
  fun depth i rest hd => h depth i rest (Nat.le_trans hle hd)

theorem append (hx : Skips least xs) (hy : Skips least ys) : Skips least (xs ++ ys) := by
  intro depth i rest hd
  rw [List.append_assoc, hx depth i _ hd, hy depth _ rest hd, List.length_append, Nat.add_assoc]

theorem single (line : Line) (hif : line.isIf = false) (hend : line.isEndIf = false)
    (hbranch : line.isBranch = false) : Skips least [line] := by
  intro depth i rest _
  simp [exitIn?, hif, hend, hbranch]

/-- The branches of an inner chain are skipped. -/
theorem branch (line : Line) (hif : line.isIf = false) (hend : line.isEndIf = false) :
    Skips 1 [line] := by
  intro depth i rest hd
  have hdepth : ¬ depth = 0 := by omega
  simp [exitIn?, hif, hend, hdepth]

theorem enclosed {guard : Option Expr} (hx : Skips 1 xs) :
    Skips 0 (.ifThen guard :: (xs ++ [.endIf])) := by
  intro depth i rest _
  have hbody := hx (depth + 1) (i + 1) (.endIf :: rest) (Nat.succ_pos depth)
  simp only [List.cons_append, List.append_assoc, List.nil_append, exitIn?, Line.isIf, if_true,
    hbody, Line.isEndIf, Bool.false_eq_true, if_false]
  -- both searches go on behind the `ENDIF`
  have hplace : i + 1 + xs.length + 1 = i + (.ifThen guard :: (xs ++ [Line.endIf])).length := by
    rw [List.length_cons, List.length_append, List.length_singleton]
    omega
  exact hplace ▸ rfl

end Skips

/-! ### Scans pass over blocks -/

theorem closed_if :
    NestingClosed (Passes Line.isIf Line.isEndIf) (Passes Line.isIf Line.isEndIf) where
  nil := .nil
  append := .append
  simple := fun first => by cases first <;> exact .single _ rfl rfl
  loop := fun guard _ hx =>
    .append (.single (.whileDo guard) rfl rfl) (.append hx (.single .endWhile rfl rfl))
  chain := fun guard _ hx => .enclosed (.ifThen guard) .endIf rfl rfl rfl hx
  body := id
  appendBranch := .append
  elseIf := fun guard => .single (.elseIf guard) rfl rfl
  otherwise := .single .otherwise rfl rfl

theorem closed_while :
    NestingClosed (Passes Line.isWhile Line.isEndWhile) (Passes Line.isWhile Line.isEndWhile) where
  nil := .nil
  append := .append
  simple := fun first => by cases first <;> exact .single _ rfl rfl
  loop := fun guard _ hx => .enclosed (.whileDo guard) .endWhile rfl rfl rfl hx
  chain := fun guard _ hx =>
    .append (.single (.ifThen guard) rfl rfl) (.append hx (.single .endIf rfl rfl))
  body := id
  appendBranch := .append
  elseIf := fun guard => .single (.elseIf guard) rfl rfl
  otherwise := .single .otherwise rfl rfl

/-- Seen from its end, a block is passed over as well. -/
theorem closed_reverse :
    NestingClosed (fun xs => Passes Line.isEndWhile Line.isWhile xs.reverse)
      (fun xs => Passes Line.isEndWhile Line.isWhile xs.reverse) where
  nil := .nil
  append := by
    intro xs ys hx hy
    rw [List.reverse_append]
    exact .append hy hx
  simple := fun first => by cases first <;> exact .single _ rfl rfl
  loop := by
    intro guard xs hx
    have henclosed := Passes.enclosed .endWhile (.whileDo guard) rfl rfl rfl hx
    simpa using henclosed
  chain := by
    intro guard xs hx
    have hall := Passes.append (.append (.single .endIf rfl rfl) hx)
      (.single (.ifThen guard) rfl rfl)
    simpa using hall
  body := id
  appendBranch := by
    intro xs ys hx hy
    rw [List.reverse_append]
    exact .append hy hx
  elseIf := fun guard => .single (.elseIf guard) rfl rfl
  otherwise := .single .otherwise rfl rfl

theorem closed_exit : NestingClosed (Skips 0) (Skips 1) where
  nil := .nil
  append := .append
  simple := fun first => by cases first <;> exact .single _ rfl rfl rfl
  loop := fun guard _ hx =>
    .append (.single (.whileDo guard) rfl rfl rfl) (.append hx (.single .endWhile rfl rfl rfl))
  chain := fun _ _ hx => .enclosed hx
  body := fun hx => hx.mono (Nat.zero_le 1)
  appendBranch := .append
  elseIf := fun guard => .branch (.elseIf guard) rfl rfl
  otherwise := .branch .otherwise rfl rfl

end Matching

/-! ### Blocks in a program -/

/-- The lines `xs` stand in a program from line `i` on. -/
def Occurs (lines : List Line) (i : Nat) (xs : List Line) : Prop :=
  ∃ before after, lines = before ++ (xs ++ after) ∧ before.length = i

namespace Occurs

variable {lines xs ys : List Line} {i : Nat} {line : Line}

theorem head (h : Occurs lines i (line :: xs)) : lines[i]? = some line := by
  obtain ⟨before, after, rfl, rfl⟩ := h
  simp

theorem left (h : Occurs lines i (xs ++ ys)) : Occurs lines i xs := by
  obtain ⟨before, after, rfl, rfl⟩ := h
  exact ⟨before, ys ++ after, by rw [List.append_assoc], rfl⟩

theorem right (h : Occurs lines i (xs ++ ys)) : Occurs lines (i + xs.length) ys := by
  obtain ⟨before, after, rfl, rfl⟩ := h
  exact ⟨before ++ xs, after, by simp, by simp⟩

theorem tail (h : Occurs lines i (line :: xs)) : Occurs lines (i + 1) xs := by
  have hparts : Occurs lines i ([line] ++ xs) := h
  exact hparts.right

theorem lt_length (h : Occurs lines i (line :: xs)) : i < lines.length :=
  (List.getElem?_eq_some_iff.mp h.head).1

/-- The lines behind the first one. -/
theorem drop (h : Occurs lines i (line :: xs)) : ∃ after, lines.drop (i + 1) = xs ++ after := by
  obtain ⟨before, after, rfl, rfl⟩ := h
  exact ⟨after, by simp⟩

/-- The lines down to the end of the first part. -/
theorem take (h : Occurs lines i (xs ++ ys)) :
    ∃ before, lines.take (i + xs.length) = before ++ xs ∧ before.length = i := by
  obtain ⟨before, after, rfl, rfl⟩ := h
  refine ⟨before, ?_, rfl⟩
  rw [List.append_assoc, ← List.append_assoc, ← List.length_append]
  exact List.take_left

end Occurs

/-- Where a false condition leads if the further branches of its chain stand from line `i` on. -/
def Branches.exit (i : Nat) : Branches → Matching.Exit
  | .done => .pastEnd (i + 1)
  | .elseIf _ _ _ | .otherwise _ => .branch i

namespace Matching

variable {lines : List Line} {i : Nat} {guard : Option Expr} {line : Line} {body : Block}
  {more : Branches}

theorem endWhile?_loop (h : Occurs lines i (.whileDo guard :: (body.lines ++ [.endWhile]))) :
    endWhile? lines i = some (i + 1 + body.lines.length) := by
  obtain ⟨after, hdrop⟩ := h.drop
  rw [endWhile?, hdrop, List.append_assoc, List.singleton_append,
    (closed_while.block body).partner?_eq rfl rfl]
  rfl

theorem while?_loop (h : Occurs lines i (.whileDo guard :: (body.lines ++ [.endWhile]))) :
    while? lines (i + 1 + body.lines.length) = some i := by
  have hparts : Occurs lines i ((.whileDo guard :: body.lines) ++ [.endWhile]) := h
  obtain ⟨before, htake, hbefore⟩ := hparts.take
  have hcount : i + (Line.whileDo guard :: body.lines).length = i + 1 + body.lines.length := by
    rw [List.length_cons]
    omega
  have hreverse : (lines.take (i + 1 + body.lines.length)).reverse =
      body.lines.reverse ++ .whileDo guard :: before.reverse := by
    rw [← hcount, htake]
    simp
  -- the scan counts from the `ENDWHILE` upwards
  have hplace : (body.lines.reverse ++ Line.whileDo guard :: before.reverse).length - 1 -
      body.lines.reverse.length = i := by
    simp only [List.length_append, List.length_cons, List.length_reverse, hbefore]
    omega
  rw [while?, hreverse, (closed_reverse.block body).partner?_eq rfl rfl, Option.map_some, hplace]

/-- The branches behind the body of a branch end at the chain's `ENDIF`. -/
theorem endIf?_chain (h : Occurs lines i (line :: (body.lines ++ (more.lines ++ [.endIf])))) :
    endIf? lines i = some (i + 1 + body.lines.length + more.lines.length) := by
  obtain ⟨after, hdrop⟩ := h.drop
  have hpasses := (closed_if.block body).append (closed_if.branches more)
  rw [endIf?, hdrop, ← List.append_assoc, List.append_assoc, List.singleton_append,
    hpasses.partner?_eq rfl rfl]
  simp [Nat.add_assoc]

theorem exit_chain (h : Occurs lines i (line :: (body.lines ++ (more.lines ++ [.endIf])))) :
    exit lines i = more.exit (i + 1 + body.lines.length) := by
  obtain ⟨after, hdrop⟩ := h.drop
  rw [exit, hdrop, List.append_assoc, (closed_exit.block body) 0 _ _ (Nat.le_refl 0)]
  cases more <;> rfl

end Matching
end DeskCheck
