import DeskCheck.Line.Classify
import DeskCheck.Text.Layout

/-!
# Programs

A program is a list of lines together with their source texts, index for index.
-/

namespace DeskCheck

/-- The source lines and what each of them is. -/
structure Program where
  source : List String
  lines : List Line

namespace Program

/-- The program of source lines that are already split. -/
def ofLines (source : List String) : Program :=
  ⟨source, source.map fun text => Line.classify text.toList⟩

/-- The program of a source text. -/
def ofSource (text : String) : Program :=
  ofLines ((Text.lines text.toList).map String.ofList)

/-- The number of lines. -/
def size (p : Program) : Nat := p.lines.length

def line? (p : Program) (i : Nat) : Option Line := p.lines[i]?

def sourceLine? (p : Program) (i : Nat) : Option String := p.source[i]?

theorem length_source_ofLines (source : List String) :
    (ofLines source).source.length = (ofLines source).size := by
  simp [ofLines, size]

end Program
end DeskCheck
