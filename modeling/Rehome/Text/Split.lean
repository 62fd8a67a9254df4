import Rehome.Text.Blank

/-!
# Splitting — the words and lines of a text

Words are what blanks separate. A line ends at a line feed, or at a carriage return before one;
the last line needs no end.
-/

namespace Rehome.Text

/-- The parts of a text between the characters that pass a test, empty ones included: one more
    than there are such characters. -/
def splitWhere (p : Char → Bool) (cs : List Char) : List (List Char) :=
  cs.foldr
    (fun c parts =>
      if p c then [] :: parts
      else
        match parts with
        | [] => [[c]]
        | part :: parts => (c :: part) :: parts)
    [[]]

/-- The words of a text: its longest parts without blanks. -/
def words (text : String) : List String :=
  ((splitWhere isBlank text.toList).filter (· ≠ [])).map String.ofList

/-- Without a carriage return at the end. -/
def dropReturn (cs : List Char) : List Char :=
  if cs.getLast? = some '\r' then cs.dropLast else cs

/-- The lines from the parts between line feeds. What follows the last line feed is a line only if
    it is not empty, and keeps its carriage return. -/
def linesOfParts (parts : List (List Char)) : List (List Char) :=
  parts.dropLast.map dropReturn ++ (parts.getLast?.filter (· ≠ [])).toList

/-- The lines of a text, without their ends. -/
def lines (text : String) : List String :=
  (linesOfParts (splitWhere (· == '\n') text.toList)).map String.ofList

end Rehome.Text
