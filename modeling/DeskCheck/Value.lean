import DeskCheck.Number.Shortest
import DeskCheck.Text.Blank

/-!
# Values

The language has no static types: a variable may hold a number on one line and a text on the
next, and a sequence mixes kinds.  No operation fails on a kind.  Instead every value can be seen
as a truth value (`isTruthy`), as a number (`toNumber`) and as a text (`toText`), and `looseEq`
and `looseCompare?` compare values of any two kinds through these views.
-/

namespace DeskCheck

/-- What a variable holds. -/
inductive Value where
  | number (n : Number)
  | text (s : String)
  | boolean (b : Bool)
  | sequence (items : List Value)
deriving Inhabited

namespace Value

/-- Induction over values, in which the elements of a sequence are below it. -/
@[elab_as_elim, induction_eliminator]
theorem induction {motive : Value → Prop} (number : ∀ n, motive (.number n))
    (text : ∀ s, motive (.text s)) (boolean : ∀ b, motive (.boolean b))
    (sequence : ∀ items, (∀ v ∈ items, motive v) → motive (.sequence items)) (v : Value) :
    motive v :=
  @Value.rec motive (fun items => ∀ v ∈ items, motive v) number text boolean sequence
    (fun _ h => absurd h List.not_mem_nil)
    (fun _ _ hfirst hrest => List.forall_mem_cons.mpr ⟨hfirst, hrest⟩) v

/-- The value of a name that is not bound and of an element that is not there. -/
def missing : Value := .number (.zero false)

/-- The elements of a sequence. -/
def items? : Value → Option (List Value)
  | .sequence items => some items
  | _ => none

def isSequence : Value → Bool
  | .sequence _ => true
  | _ => false

/-- The name of the value's kind. -/
def kind : Value → String
  | .number _ => "number"
  | .text _ => "string"
  | .boolean _ => "boolean"
  | .sequence _ => "array"

/-! ### Views -/

/-- False are `false`, zero, not-a-number and the empty text; every sequence is true. -/
def isTruthy : Value → Bool
  | .number n => !n.isZero && !n.isNaN
  | .text s => s ≠ ""
  | .boolean b => b
  | .sequence _ => true

/-- The number that a text stands for: a decimal between blanks, or zero if all is blank. -/
def numberOfText (text : List Char) : Number :=
  let trimmed := Text.trim text
  if trimmed = [] then .zero false else (Number.read? trimmed).getD .nan

/-- The value as a number: `true` is one, a sequence of one element is that element, an empty one
is zero, and what stands for no number is not-a-number. -/
def toNumber : Value → Number
  | .number n => n
  | .text s => numberOfText s.toList
  | .boolean b => if b then .ofNat 1 else .zero false
  | .sequence [] => .zero false
  | .sequence [v] => v.toNumber
  | .sequence (_ :: _ :: _) => .nan

/-- The value as a position in a sequence. -/
def toPosition? (v : Value) : Option Nat := v.toNumber.toPosition?

mutual

/-- The text of a value.  Elements of a sequence are separated by a comma and a space, and a text
among them stands in quotes. -/
def toChars : Value → List Char
  | .number n => n.toChars
  | .text s => s.toList
  | .boolean b => if b then "true".toList else "false".toList
  | .sequence items => '[' :: itemsToChars items ++ [']']

/-- The text of the elements of a sequence, between its brackets. -/
def itemsToChars : List Value → List Char
  | [] => []
  | v :: rest =>
    let own := match v with
      | .text s => '"' :: s.toList ++ ['"']
      | _ => toChars v
    match rest with
    | [] => own
    | _ :: _ => own ++ ',' :: ' ' :: itemsToChars rest

end

/-- The text of a value as a string. -/
def toText (v : Value) : String := String.ofList v.toChars

/-! ### Comparison -/

mutual

/-- Equality of the language.  Values of one kind are compared by content; a number and a text or
truth value as numbers; all other kinds differ. -/
def looseEq : Value → Value → Bool
  | .number a, .number b => a.equals b
  | .text a, .text b => a == b
  | .boolean a, .boolean b => a == b
  | .sequence a, .sequence b => looseEqAll a b
  | .number a, .text s => a.equals (Value.text s).toNumber
  | .number a, .boolean b => a.equals (Value.boolean b).toNumber
  | .text s, .number b => (Value.text s).toNumber.equals b
  | .boolean a, .number b => (Value.boolean a).toNumber.equals b
  | _, _ => false

/-- Two sequences are equal if they are equally long and equal element by element. -/
def looseEqAll : List Value → List Value → Bool
  | [], [] => true
  | a :: as, b :: bs => looseEq a b && looseEqAll as bs
  | _, _ => false

end

/-- Order of the language: two texts by their code points, all else by number. -/
def looseCompare? : Value → Value → Option Ordering
  | .text a, .text b => some (compare a b)
  | a, b => a.toNumber.compare? b.toNumber

mutual

/-- Equality of kind and content, in which numbers are compared as numbers. -/
def same : Value → Value → Bool
  | .number a, .number b => a.equals b
  | .text a, .text b => a == b
  | .boolean a, .boolean b => a == b
  | .sequence a, .sequence b => sameAll a b
  | _, _ => false

/-- Equality of kind and content, element by element. -/
def sameAll : List Value → List Value → Bool
  | [], [] => true
  | a :: as, b :: bs => same a b && sameAll as bs
  | _, _ => false

end

/-! ### Size -/

/-- The bytes that a value takes besides its text or elements. -/
def ownBytes : Nat := 32

mutual

/-- The estimated memory of a value, in bytes. -/
def bytes : Value → Nat
  | .text s => ownBytes + s.utf8ByteSize
  | .sequence items => ownBytes + itemsBytes items
  | _ => ownBytes

/-- The estimated memory of the elements of a sequence. -/
def itemsBytes : List Value → Nat
  | [] => 0
  | v :: rest => bytes v + itemsBytes rest

end

end Value
end DeskCheck
