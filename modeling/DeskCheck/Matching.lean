import DeskCheck.Line

/-!
# Matching lines

Blocks are not nested data: a program is a flat list of lines, and the partner of a line is found by
a scan that counts the blocks of the same kind which open and close on the way.  The scans for `IF`
do not look at loops, those for `WHILE` do not look at branches, and none of them looks at the line
that it starts from.

`partner?` is the scan over the lines ahead; the partner of an `ENDWHILE` is the same scan over the
lines before it, in reverse.
-/

namespace DeskCheck.Matching

/-- How many lines stand in front of the first line that closes a block which none of them opens. -/
def partner? (opens closes : Line → Bool) : (depth : Nat) → List Line → Option Nat
  | _, [] => none
  | depth, line :: rest =>
    if opens line then (partner? opens closes (depth + 1) rest).map (· + 1)
    else if closes line then
      match depth with
      | 0 => some 0
      | depth + 1 => (partner? opens closes depth rest).map (· + 1)
    else (partner? opens closes depth rest).map (· + 1)

/-- The `ENDIF` of the chain that the line at `start` belongs to. -/
def endIf? (lines : List Line) (start : Nat) : Option Nat :=
  (partner? Line.isIf Line.isEndIf 0 (lines.drop (start + 1))).map (start + 1 + ·)

/-- The `ENDWHILE` of the loop that begins at `start`. -/
def endWhile? (lines : List Line) (start : Nat) : Option Nat :=
  (partner? Line.isWhile Line.isEndWhile 0 (lines.drop (start + 1))).map (start + 1 + ·)

/-- The `WHILE` of the loop that ends at `start`. -/
def while? (lines : List Line) (start : Nat) : Option Nat :=
  let before := (lines.take start).reverse
  (partner? Line.isEndWhile Line.isWhile 0 before).map (before.length - 1 - ·)

/-! ### The next branch -/

/-- Where a false condition leads. -/
inductive Exit where
  /-- To the next `ELSEIF` or `ELSE` of the chain. -/
  | branch (i : Nat)
  /-- Behind the `ENDIF` of the chain, or to the end of the program if there is none. -/
  | pastEnd (i : Nat)
deriving DecidableEq, Repr

/-- The first branch or end of the chain in the lines ahead, the first of which has index `i`. -/
def exitIn? : (depth i : Nat) → List Line → Option Exit
  | _, _, [] => none
  | depth, i, line :: rest =>
    if line.isIf then exitIn? (depth + 1) (i + 1) rest
    else if line.isEndIf then
      match depth with
      | 0 => some (.pastEnd (i + 1))
      | depth + 1 => exitIn? depth (i + 1) rest
    else if line.isBranch ∧ depth = 0 then some (.branch i)
    else exitIn? depth (i + 1) rest

/-- Where the `IF` or `ELSEIF` at `start` leads when its condition is false. -/
def exit (lines : List Line) (start : Nat) : Exit :=
  (exitIn? 0 (start + 1) (lines.drop (start + 1))).getD (.pastEnd lines.length)

end DeskCheck.Matching
