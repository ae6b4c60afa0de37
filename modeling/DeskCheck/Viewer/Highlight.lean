import DeskCheck.Viewer.Style
import DeskCheck.Text.Alphanumeric

/-!
# Highlighting

A source line is cut into spans of one colour each: words, texts in quotes, and single characters.
It is a scan of its own that needs no expression to be right, so a line in error is coloured as well.
A word is a run of alphanumeric characters and underscores, and of points that are not its first
character.
-/

namespace DeskCheck.Viewer.Highlight

/-- The words by which a line is told. -/
def statementWords : List String :=
  ["IF", "THEN", "ELSEIF", "ELSE", "ENDIF", "WHILE", "ENDWHILE", "PRINT"]

/-- The style of a word. -/
def wordStyle (word : List Char) : Style :=
  if word ∈ statementWords.map String.toList then (Style.ink .blue).strong
  else if word ∈ ["AND".toList, "OR".toList, "NOT".toList] then .ink .blue
  else if word ∈ ["true".toList, "false".toList] then .ink .orange
  else if (word.head?).any Char.isDigit then .ink .orange
  else .ink .text

/-- The span of a word, if there is one. -/
def wordSpan (word : List Char) : List Span :=
  if word = [] then [] else [⟨word, wordStyle word⟩]

/-- The style of a character that stands alone. -/
def charStyle (c : Char) : Style :=
  if c ∈ ['(', ')', '[', ']'] then .ink .blue else .ink .text

/-- What the scan is in the middle of; the characters come in reverse. -/
inductive Mode where
  /-- A word, perhaps without a character yet. -/
  | word (read : List Char)
  /-- A text, with its opening quote. -/
  | quoted (read : List Char)

/-- The spans of the rest of a line. -/
def spansFrom : Mode → List Char → List Span
  | .word read, [] => wordSpan read.reverse
  | .quoted read, [] => [⟨read.reverse, .ink .orange⟩]
  | .word read, c :: rest =>
    if c = '"' then wordSpan read.reverse ++ spansFrom (.quoted [c]) rest
    else if Text.isAlphanumeric c ∨ c = '_' ∨ (c = '.' ∧ read ≠ []) then
      spansFrom (.word (c :: read)) rest
    else wordSpan read.reverse ++ ⟨[c], charStyle c⟩ :: spansFrom (.word []) rest
  | .quoted read, c :: rest =>
    if c = '"' then ⟨(c :: read).reverse, .ink .orange⟩ :: spansFrom (.word []) rest
    else spansFrom (.quoted (c :: read)) rest

/-- The spans of a line. -/
def spans (line : List Char) : List Span := spansFrom (.word []) line

end DeskCheck.Viewer.Highlight
