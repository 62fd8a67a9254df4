import Rehome.Json.Token
import Rehome.Json.Value

/-!
# Reading JSON — from words to a value

The reader takes one word at a time. The arrays and objects that are still open are kept as a list
of frames, innermost first, so a text may be nested as deep as it is long. `Json.read?` accepts
the texts that hold one value and nothing else.
-/

namespace Rehome.Json

/-- An array or object that is still open. What it holds so far is in reverse. -/
inductive Frame where
  | array (before : List Json)
  | object (before : List (Option String × Json)) (name : Option String)

/-- What has been read so far, by what has to come next. -/
inductive Reading where
  /-- A value. -/
  | value (frames : List Frame)
  /-- The first item of an array, or its end. -/
  | item (frames : List Frame)
  /-- A name. The object may only end here if it is empty. -/
  | member (frames : List Frame) (before : List (Option String × Json))
  /-- The colon after a name. -/
  | colon (frames : List Frame) (before : List (Option String × Json)) (name : Option String)
  /-- What follows a complete value. -/
  | after (frames : List Frame) (value : Json)

namespace Reading

/-- Start a value with a word. -/
def start (frames : List Frame) : Token → Option Reading
  | .null => some (.after frames .null)
  | .bool b => some (.after frames (.bool b))
  | .number text => some (.after frames (.number text))
  | .string text => some (.after frames (.string text))
  | .openArray => some (.item frames)
  | .openObject => some (.member frames [])
  | _ => none

/-- Take the next word, if it may come here. -/
def step : Reading → Token → Option Reading
  | .value frames, t => start frames t
  | .item frames, .closeArray => some (.after frames (.array []))
  | .item frames, t => start (.array [] :: frames) t
  | .member frames before, .string name => some (.colon frames before name)
  | .member frames [], .closeObject => some (.after frames (.object []))
  | .member .., _ => none
  | .colon frames before name, .colon => some (.value (.object before name :: frames))
  | .colon .., _ => none
  | .after (.array before :: frames) v, .comma => some (.value (.array (v :: before) :: frames))
  | .after (.array before :: frames) v, .closeArray =>
    some (.after frames (.array (v :: before).reverse))
  | .after (.object before name :: frames) v, .comma =>
    some (.member frames ((name, v) :: before))
  | .after (.object before name :: frames) v, .closeObject =>
    some (.after frames (.object ((name, v) :: before).reverse))
  | .after .., _ => none

/-- The value, if it is complete and nothing is open. -/
def finish : Reading → Option Json
  | .after [] v => some v
  | _ => none

end Reading

/-- The value whose words these are. -/
def ofTokens? (tokens : List Token) : Option Json :=
  (tokens.foldlM Reading.step (.value [])).bind Reading.finish

/-- The value that a text holds. -/
def read? (text : String) : Option Json := (tokens? text.toList).bind ofTokens?

end Rehome.Json
