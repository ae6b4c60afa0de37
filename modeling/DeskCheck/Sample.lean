import DeskCheck.Text.Blank

/-!
# Samples

Six programs to learn from.  Each runs to its end well inside the standard budget.  A sample is found
by its name in any case, with hyphens and underscores for the spaces.
-/

namespace DeskCheck

/-- A named program. -/
structure Sample where
  name : String
  description : String
  source : String
deriving DecidableEq, Repr

namespace Sample

/-- A sample from its lines. -/
def ofLines (name description : String) (lines : List String) : Sample :=
  ⟨name, description, String.intercalate "\n" lines⟩

def linearSearch : Sample := ofLines "Linear Search"
  "Scan a list until the target value is found" [
    "items = [5, 3, 8, 1, 9]",
    "target = 8",
    "found = false",
    "i = 0",
    "WHILE i < 5 AND found == false",
    "  IF items[i] == target THEN",
    "    found = true",
    "  ENDIF",
    "  i = i + 1",
    "ENDWHILE",
    "PRINT found"]

def countdown : Sample := ofLines "Countdown"
  "Count down from 5 and launch" [
    "n = 5",
    "WHILE n > 0",
    "  PRINT n",
    "  n = n - 1",
    "ENDWHILE",
    "PRINT \"Go!\""]

def bubbleSort : Sample := ofLines "Bubble Sort"
  "Sort a list by swapping adjacent elements" [
    "items = [5, 1, 4, 2, 8]",
    "n = 5",
    "i = 0",
    "WHILE i < n - 1",
    "  j = 0",
    "  WHILE j < n - 1 - i",
    "    IF items[j] > items[j + 1] THEN",
    "      temp = items[j]",
    "      items[j] = items[j + 1]",
    "      items[j + 1] = temp",
    "    ENDIF",
    "    j = j + 1",
    "  ENDWHILE",
    "  i = i + 1",
    "ENDWHILE",
    "PRINT items"]

def sumOfArray : Sample := ofLines "Sum of Array"
  "Add up every element of a list" [
    "numbers = [4, 8, 15, 16, 23, 42]",
    "total = 0",
    "i = 0",
    "WHILE i < 6",
    "  total = total + numbers[i]",
    "  i = i + 1",
    "ENDWHILE",
    "PRINT \"Total: \" + total"]

def fizzbuzz : Sample := ofLines "FizzBuzz"
  "Multiples of 3 and 5 from 1 to 15" [
    "i = 1",
    "WHILE i <= 15",
    "  IF i % 15 == 0 THEN",
    "    PRINT \"FizzBuzz\"",
    "  ELSEIF i % 3 == 0 THEN",
    "    PRINT \"Fizz\"",
    "  ELSEIF i % 5 == 0 THEN",
    "    PRINT \"Buzz\"",
    "  ELSE",
    "    PRINT i",
    "  ENDIF",
    "  i = i + 1",
    "ENDWHILE"]

def gradeClassifier : Sample := ofLines "Grade Classifier"
  "Map scores to letter grades with an ELSEIF chain" [
    "scores = [95, 82, 67, 45]",
    "i = 0",
    "WHILE i < 4",
    "  score = scores[i]",
    "  IF score >= 90 THEN",
    "    grade = \"A\"",
    "  ELSEIF score >= 80 THEN",
    "    grade = \"B\"",
    "  ELSEIF score >= 60 THEN",
    "    grade = \"C\"",
    "  ELSE",
    "    grade = \"F\"",
    "  ENDIF",
    "  PRINT score + \": \" + grade",
    "  i = i + 1",
    "ENDWHILE"]

/-- All samples, in the order in which they are listed. -/
def all : List Sample :=
  [linearSearch, countdown, bubbleSort, sumOfArray, fizzbuzz, gradeClassifier]

/-- A name as it is compared: without blanks at the ends, with spaces for hyphens and underscores,
and with small ASCII letters. -/
def normalize (name : String) : List Char :=
  (Text.trim name.toList).map fun c => if c = '-' ∨ c = '_' then ' ' else c.toLower

/-- The sample with a given name. -/
def find? (name : String) : Option Sample :=
  all.find? fun sample => normalize sample.name = normalize name

end Sample
end DeskCheck
