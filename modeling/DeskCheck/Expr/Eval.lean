import DeskCheck.Expr
import DeskCheck.Store
import DeskCheck.Access

/-!
# Evaluation

An expression always has a value.  A name that is not bound is zero, and so is an element that is
not there; an operator takes operands of every kind.  Besides the value an evaluation yields the
elements that were read, in order.

`AND` and `OR` leave out their right operand when the left one decides; all other operators take
the left operand first and then the right one.
-/

namespace DeskCheck

/-- Whether an ordering comparison of two values holds; values that are not ordered hold none. -/
def Value.ordered (a b : Value) (accept : Ordering → Bool) : Value :=
  .boolean ((a.looseCompare? b).any accept)

/-- The sum of two values: their texts joined if one of them is a text, else of their numbers. -/
def Value.plus : Value → Value → Value
  | .text a, b => .text (a ++ b.toText)
  | a, .text b => .text (a.toText ++ b)
  | a, b => .number (a.toNumber.add b.toNumber)

/-- A binary operator applied to two values. -/
def BinaryOp.apply (op : BinaryOp) (a b : Value) : Value :=
  match op with
  | .add => a.plus b
  | .sub => .number (a.toNumber.sub b.toNumber)
  | .mul => .number (a.toNumber.mul b.toNumber)
  | .div => .number (a.toNumber.div b.toNumber)
  | .mod => .number (a.toNumber.rem b.toNumber)
  | .eq => .boolean (a.looseEq b)
  | .ne => .boolean (!a.looseEq b)
  | .lt => a.ordered b (· == .lt)
  | .le => a.ordered b (· != .gt)
  | .gt => a.ordered b (· == .gt)
  | .ge => a.ordered b (· != .lt)
  | .and => .boolean (a.isTruthy && b.isTruthy)
  | .or => .boolean (a.isTruthy || b.isTruthy)

/-- A unary operator applied to a value. -/
def UnaryOp.apply (op : UnaryOp) (a : Value) : Value :=
  match op with
  | .neg => .number a.toNumber.neg
  | .not => .boolean (!a.isTruthy)

/-- A value and the reads that led to it. -/
structure Evaluated (α : Type) where
  value : α
  reads : List Access

namespace Evaluated

/-- A value that took no read. -/
def pure {α : Type} (value : α) : Evaluated α := ⟨value, []⟩

/-- Goes on with the value; the reads of the rest come behind. -/
def andThen {α β : Type} (a : Evaluated α) (rest : α → Evaluated β) : Evaluated β :=
  let b := rest a.value
  ⟨b.value, a.reads ++ b.reads⟩

end Evaluated

namespace Expr

/-- The element of a named sequence at an index, and the read, if the element is there. -/
def readAt (store : Store) (name : String) (index : Value) : Evaluated Value :=
  match store.getAt? name index, index.toPosition? with
  | some v, some position => ⟨v, [⟨name, position, v, .read⟩]⟩
  | _, _ => .pure .missing

mutual

/-- The value of an expression over a store, and the reads in their order. -/
def eval (store : Store) : Expr → Evaluated Value
  | .number n => .pure (.number n)
  | .text s => .pure (.text s)
  | .boolean b => .pure (.boolean b)
  | .variable name => .pure ((store.get? name).getD .missing)
  | .index name position => (eval store position).andThen (readAt store name)
  | .sequence items => (evalAll store items).andThen fun values => .pure (.sequence values)
  | .binary .and left right =>
    (eval store left).andThen fun a =>
      if a.isTruthy then
        (eval store right).andThen fun b => .pure (.boolean b.isTruthy)
      else .pure (.boolean false)
  | .binary .or left right =>
    (eval store left).andThen fun a =>
      if a.isTruthy then .pure (.boolean true)
      else (eval store right).andThen fun b => .pure (.boolean b.isTruthy)
  | .binary op left right =>
    (eval store left).andThen fun a =>
      (eval store right).andThen fun b => .pure (op.apply a b)
  | .unary op operand => (eval store operand).andThen fun a => .pure (op.apply a)

/-- The values of expressions from left to right. -/
def evalAll (store : Store) : List Expr → Evaluated (List Value)
  | [] => .pure []
  | e :: rest =>
    (eval store e).andThen fun v =>
      (evalAll store rest).andThen fun vs => .pure (v :: vs)

end

end Expr
end DeskCheck
