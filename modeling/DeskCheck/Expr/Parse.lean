import DeskCheck.Expr.Token

/-!
# Reading expressions

The grammar has eight tiers, from the one that binds least:

    or             ::= and ("OR" and)*
    and            ::= not ("AND" not)*
    not            ::= "NOT" not | comparison
    comparison     ::= additive (("==" | "!=" | "<" | "<=" | ">" | ">=") additive)*
    additive       ::= multiplicative (("+" | "-") multiplicative)*
    multiplicative ::= unary (("*" | "/" | "%") unary)*
    unary          ::= "-" unary | atom
    atom           ::= number | text | "true" | "false" | "(" or ")"
                     | "[" [or ("," or)*] "]" | name ["[" or "]"]

A closing bracket may be missing at the end of the input, and tokens behind a complete expression
are ignored.

Nesting is bounded: an opening bracket, a prefix operator and every further operator of a chain
each go one level deeper for what follows them.  The parser is built along this bound.  A `Layer`
is the parser for a number of levels that are left; `Layer.above` builds it from the layer with one
level less, and where there is none, going deeper is the error `tooDeep`.  The recursion is thus on
the levels alone; only the elements of a sequence, which do not nest, are counted by the tokens
that are left.
-/

namespace DeskCheck

/-- Why tokens are no expression. -/
inductive ParseCause where
  | unexpectedEnd
  | unexpected (token : Token)
  | unclosedParen
  | unclosedSequence
  | unclosedIndex
  | tooDeep
deriving DecidableEq

/-- A cause, and the index of the token where it shows. -/
structure ParseError where
  cause : ParseCause
  position : Nat
deriving DecidableEq

/-- The levels of nesting that an expression may have. -/
def maxLevels : Nat := 64

namespace ParseCause

def message : ParseCause → String
  | .unexpectedEnd => "Unexpected end of expression"
  | .unexpected token => "Unexpected " ++ token.describe
  | .unclosedParen => "Expected ')' after expression"
  | .unclosedSequence => "Expected ']' after array elements"
  | .unclosedIndex => "Expected ']' after index"
  | .tooDeep => "Expression nested deeper than " ++ toString maxLevels ++ " levels"

end ParseCause

/-- The whole text of an error. -/
def ParseError.message (e : ParseError) : String :=
  "Parse error at token " ++ toString e.position ++ ": " ++ e.cause.message

/-- The tiers of the grammar. -/
inductive Tier where
  | or | and | not | comparison | additive | multiplicative | unary | atom
deriving DecidableEq, Repr

namespace Tier

/-- The tier of the operands in a chain. -/
def next : Tier → Tier
  | .or => .and
  | .and => .not
  | .not => .comparison
  | .comparison => .additive
  | .additive => .multiplicative
  | .multiplicative => .unary
  | .unary | .atom => .atom

/-- The operator by which a token continues a chain of the tier. -/
def operator? : Tier → Token → Option BinaryOp
  | .or, .keyword .or => some .or
  | .and, .keyword .and => some .and
  | .comparison, .mark .equal => some .eq
  | .comparison, .mark .notEqual => some .ne
  | .comparison, .mark .less => some .lt
  | .comparison, .mark .lessEqual => some .le
  | .comparison, .mark .greater => some .gt
  | .comparison, .mark .greaterEqual => some .ge
  | .additive, .mark .plus => some .add
  | .additive, .mark .minus => some .sub
  | .multiplicative, .mark .star => some .mul
  | .multiplicative, .mark .slash => some .div
  | .multiplicative, .mark .percent => some .mod
  | _, _ => none

end Tier

namespace Parse

/-- A failure inside the parser: the cause, and how many tokens are left where it shows. -/
structure Failure where
  cause : ParseCause
  left : Nat
deriving DecidableEq

/-- A parser takes tokens from the front and hands on the rest. -/
abbrev Parser (α : Type) := List Token → Except Failure (α × List Token)

/-- The parser with a given number of levels left. -/
structure Layer where
  /-- An expression of a tier. -/
  tier : Tier → Parser Expr
  /-- The rest of a chain of a tier, behind the operands that are already joined. -/
  chain : Tier → Expr → Parser Expr

/-- Goes one level deeper, if one is left. -/
def deeper {α : Type} (below : Option Layer) (parser : Layer → Parser α) : Parser α := fun ts =>
  match below with
  | none => .error ⟨.tooDeep, ts.length⟩
  | some layer => parser layer ts

/-- A closing bracket.  At the end of the input it may be missing. -/
def close (bracket : Mark) (cause : ParseCause) : Parser Unit
  | [] => .ok ((), [])
  | t :: ts => if t = .mark bracket then .ok ((), ts) else .error ⟨cause, ts.length + 1⟩

/-- Items separated by commas; `commas` bounds their number. -/
def items {α : Type} (item : Parser α) : (commas : Nat) → Parser (List α)
  | 0, ts => do
    let (first, ts) ← item ts
    return ([first], ts)
  | commas + 1, ts => do
    let (first, ts) ← item ts
    match ts with
    | .mark .comma :: ts =>
      let (others, ts) ← items item commas ts
      return (first :: others, ts)
    | ts => return ([first], ts)

/-- A literal, a name or something in brackets. -/
def atom (below : Option Layer) : Parser Expr
  | [] => .error ⟨.unexpectedEnd, 0⟩
  | .number n :: ts => .ok (.number n, ts)
  | .text s :: ts => .ok (.text s, ts)
  | .keyword .true :: ts => .ok (.boolean true, ts)
  | .keyword .false :: ts => .ok (.boolean false, ts)
  | .mark .leftParen :: ts =>
    deeper below (fun layer ts => do
      let (inner, ts) ← layer.tier .or ts
      let ((), ts) ← close .rightParen .unclosedParen ts
      return (inner, ts)) ts
  | .mark .leftBracket :: .mark .rightBracket :: ts => .ok (.sequence [], ts)
  | .mark .leftBracket :: ts =>
    deeper below (fun layer ts => do
      let (elements, ts) ← items (layer.tier .or) ts.length ts
      let ((), ts) ← close .rightBracket .unclosedSequence ts
      return (.sequence elements, ts)) ts
  | .name s :: .mark .leftBracket :: ts =>
    deeper below (fun layer ts => do
      let (index, ts) ← layer.tier .or ts
      let ((), ts) ← close .rightBracket .unclosedIndex ts
      return (.index s index, ts)) ts
  | .name s :: ts => .ok (.variable s, ts)
  | t :: ts => .error ⟨.unexpected t, ts.length + 1⟩

/-- An operator in front of an operand of its own tier, or an expression without it. -/
def prefixed (below : Option Layer) (mark : Token) (op : UnaryOp) (tier : Tier)
    (otherwise : Parser Expr) : Parser Expr := fun ts =>
  match ts with
  | [] => otherwise []
  | t :: ts =>
    if t = mark then
      deeper below (fun layer ts => do
        let (operand, ts) ← layer.tier tier ts
        return (.unary op operand, ts)) ts
    else otherwise (t :: ts)

/-- The rest of a chain: each further operator goes one level deeper for all that follows it. -/
def chain (below : Option Layer) (tier : Tier) (left : Expr) : Parser Expr
  | [] => .ok (left, [])
  | t :: ts =>
    match tier.operator? t with
    | none => .ok (left, t :: ts)
    | some op =>
      deeper below (fun layer ts => do
        let (right, ts) ← layer.tier tier.next ts
        layer.chain tier (.binary op left right) ts) ts

/-- Operands joined by the operators of a tier, from the left. -/
def chained (below : Option Layer) (tier : Tier) (operand : Parser Expr) : Parser Expr := fun ts => do
  let (left, ts) ← operand ts
  chain below tier left ts

/-! ### The tiers of one layer -/

def unary (below : Option Layer) : Parser Expr :=
  prefixed below (.mark .minus) .neg .unary (atom below)

def multiplicative (below : Option Layer) : Parser Expr :=
  chained below .multiplicative (unary below)

def additive (below : Option Layer) : Parser Expr :=
  chained below .additive (multiplicative below)

def comparison (below : Option Layer) : Parser Expr :=
  chained below .comparison (additive below)

def negation (below : Option Layer) : Parser Expr :=
  prefixed below (.keyword .not) .not .not (comparison below)

def conjunction (below : Option Layer) : Parser Expr :=
  chained below .and (negation below)

def disjunction (below : Option Layer) : Parser Expr :=
  chained below .or (conjunction below)

namespace Layer

/-- The layer with one level more than the given one, or with no level if there is none. -/
def above (below : Option Layer) : Layer where
  tier
    | .or => disjunction below
    | .and => conjunction below
    | .not => negation below
    | .comparison => comparison below
    | .additive => additive below
    | .multiplicative => multiplicative below
    | .unary => unary below
    | .atom => atom below
  chain := Parse.chain below

/-- The layer with a given number of levels left. -/
def ofLevels : Nat → Layer
  | 0 => above none
  | levels + 1 => above (some (ofLevels levels))

end Layer

/-- The expression at the front of the tokens, and the tokens behind it. -/
def front (tokens : List Token) : Except ParseError (Expr × List Token) :=
  match (Layer.ofLevels maxLevels).tier .or tokens with
  | .ok result => .ok result
  | .error failure => .error ⟨failure.cause, tokens.length - failure.left⟩

end Parse

namespace Expr

/-- The expression that tokens begin with. -/
def ofTokens (tokens : List Token) : Except ParseError Expr :=
  (Parse.front tokens).map Prod.fst

/-- Reads the expression at the front of a text. -/
def parse (text : List Char) : Except ParseError Expr := ofTokens (Token.scan text)

end Expr
end DeskCheck
