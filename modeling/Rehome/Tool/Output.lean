import Rehome.Text.Blank
import Rehome.Text.Lowercase

/-!
# Output — what a finished tool leaves behind

A tool leaves an exit code and the lines of its two output streams. A message is looked for in
them without regard to case: both sides are put into lower case, and then the one has to occur in
the other.
-/

namespace Rehome.Tool

/-- What a finished tool leaves behind. -/
structure Output where
  exitCode : Int
  stdout : List String
  stderr : List String
  deriving DecidableEq

/-- Whether a row of characters occurs in another without a gap. -/
def occursIn (needle : List Char) : List Char → Bool
  | [] => needle.isEmpty
  | c :: cs => needle.isPrefixOf (c :: cs) || occursIn needle cs

namespace Output

/-- Whether the tool reported success. -/
def success (o : Output) : Bool := o.exitCode == 0

/-- All lines, those of the standard output first. -/
def lines (o : Output) : List String := o.stdout ++ o.stderr

/-- Whether a message is in some line, in letters of either case. -/
def mentions (o : Output) (needle : String) : Bool :=
  o.lines.any fun line => occursIn (Text.lowercase needle.toList) (Text.lowercase line.toList)

/-- A short description of what went wrong: the first line of the standard error that is not
    blank, else the last such line of the standard output, else the exit code. -/
def reason (o : Output) : String :=
  ((o.stderr ++ o.stdout.reverse).map Text.trim |>.find? (· ≠ "")).getD
    ("exit status " ++ toString o.exitCode)

end Output

end Rehome.Tool
