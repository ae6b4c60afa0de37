import DeskCheck.Expr

/-!
# Lines

A program is a list of lines, each with at most one statement.  A line that is no statement is
kept and does nothing when it is reached.
-/

namespace DeskCheck

/-- What an assignment changes: a name, or an element of the sequence that a name holds. -/
inductive Target where
  | name (name : String)
  | element (name : String) (index : Expr)

/-- The name on the left of an assignment. -/
def Target.root : Target → String
  | .name n => n
  | .element n _ => n

/-- One line.  A guard is `none` if its text is no expression; the line still opens or continues
its block, and such a guard never holds. -/
inductive Line where
  | blank
  | whileDo (guard : Option Expr)
  | endWhile
  | ifThen (guard : Option Expr)
  | elseIf (guard : Option Expr)
  | otherwise
  | endIf
  | print (e : Expr)
  | assign (target : Target) (value : Expr)
  | unrecognized
deriving Inhabited

namespace Line

/-! ### The part that a line has in a block -/

def isWhile : Line → Bool
  | .whileDo _ => true
  | _ => false

def isEndWhile : Line → Bool
  | .endWhile => true
  | _ => false

def isIf : Line → Bool
  | .ifThen _ => true
  | _ => false

def isEndIf : Line → Bool
  | .endIf => true
  | _ => false

/-- A further branch of an `IF`. -/
def isBranch : Line → Bool
  | .elseIf _ => true
  | .otherwise => true
  | _ => false

end Line
end DeskCheck
