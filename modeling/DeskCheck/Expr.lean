import DeskCheck.Number

/-!
# Expressions

The tree of one expression: literals, names, elements of a named sequence, sequences written out,
and applications of the thirteen binary and two unary operators.
-/

namespace DeskCheck

/-- A binary operator. -/
inductive BinaryOp where
  | add | sub | mul | div | mod
  | eq | ne | lt | le | gt | ge
  | and | or
deriving DecidableEq, Repr

/-- A unary operator: minus or `NOT`. -/
inductive UnaryOp where
  | neg | not
deriving DecidableEq, Repr

/-- An expression. -/
inductive Expr where
  | number (n : Number)
  | text (s : String)
  | boolean (b : Bool)
  | variable (name : String)
  /-- The element of the sequence `name` at a computed index. -/
  | index (name : String) (index : Expr)
  | sequence (items : List Expr)
  | binary (op : BinaryOp) (left right : Expr)
  | unary (op : UnaryOp) (operand : Expr)
deriving Inhabited

namespace BinaryOp

/-- The thirteen binary operators, arithmetic first. -/
def all : List BinaryOp := [.add, .sub, .mul, .div, .mod, .eq, .ne, .lt, .le, .gt, .ge, .and, .or]

/-- The operator as it is written. -/
def symbol : BinaryOp → String
  | .add => "+" | .sub => "-" | .mul => "*" | .div => "/" | .mod => "%"
  | .eq => "==" | .ne => "!=" | .lt => "<" | .le => "<=" | .gt => ">" | .ge => ">="
  | .and => "AND" | .or => "OR"

end BinaryOp

/-- The operator as it is written. -/
def UnaryOp.symbol : UnaryOp → String
  | .neg => "-" | .not => "NOT"

end DeskCheck
