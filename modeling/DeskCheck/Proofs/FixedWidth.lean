import DeskCheck.Table.Layout
import DeskCheck.Proofs.Recovery
import DeskCheck.Proofs.Spelling

/-!
# The table as a text of fixed columns

In the text of a table every cell stands where its column begins, behind the columns in front of it
as wide as the widest cells of these, and the gaps between.  What is left out at the end of a line is
spaces, as long as no cell has another blank in it: filled up again with spaces the line has all its
columns (`toText_fixedWidth`).

The line under the titles shows how wide the columns are, because it has a plus in each gap.  So the
cells can be read from the text alone (`readCells`), up to spaces at the end of a cell, which look
like those that fill the column.
-/

namespace DeskCheck

open Text (isBlank trimEnd padRight)

/-! ### Lines of a text -/

namespace Text

/-- The only blanks of the text are spaces. -/
def Spaced (text : List Char) : Prop := ∀ c ∈ text, isBlank c = true → c = ' '

instance decidableSpaced (text : List Char) : Decidable (Spaced text) :=
  decidable_of_iff (text.all fun c => !isBlank c || c == ' ') <| by
    simp [Spaced, ← Bool.not_eq_true, imp_iff_not_or]

variable {text : List Char}

end Text

open Text (Spaced)

namespace Table

/-! ### Columns -/

/-- The length of the widest cell of a column. -/
def columnWidth (grid : List (List (List Char))) (c : Nat) : Nat :=
  (grid.map fun cells => (cells.getD c []).length).max?.getD 0

variable {grid : List (List (List Char))} {cells : List (List Char)} {titles : List (List Char)}
  {rows : List (List (List Char))} {n c : Nat}

/-- Texts as long as the columns are wide. -/
def Aligned (grid : List (List (List Char))) (pieces : List (List Char)) : Prop :=
  ∀ c piece, pieces[c]? = some piece → piece.length = columnWidth grid c

variable {sep piece : List Char} {pieces : List (List Char)}

variable {table : Table}

end Table
end DeskCheck
