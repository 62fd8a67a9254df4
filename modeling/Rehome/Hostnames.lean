import Rehome.HostSet
import Rehome.Text.Split

/-!
# Files of host names

One name a line, with blanks around it left out. Blank lines and lines that start with a number
sign are left out too.
-/

namespace Rehome

/-- The name on a line, unless it is blank or a comment. -/
def hostnameOf? (line : String) : Option Host :=
  let name := Text.trim line
  if name = "" ∨ name.toList.head? = some '#' then none else some name

/-- The hosts that a file lists. -/
def hostnames (text : String) : HostSet := .ofList ((Text.lines text).filterMap hostnameOf?)

end Rehome
