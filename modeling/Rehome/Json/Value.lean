/-!
# JSON values — and how they are printed

An object keeps its members in the order they are written, repeated names included. A string whose
escapes hold half a surrogate pair stands for no text, so the text of a string or of a name is
optional.

The printer takes a layout: `Json.compact` puts everything on one line, `Json.pretty` puts every
item on a line of its own, indented by two blanks a level.
-/

namespace Rehome

/-- A JSON value. Numbers are kept as they are written. -/
inductive Json where
  | null
  | bool (value : Bool)
  | number (text : String)
  | string (text : Option String)
  | array (items : List Json)
  | object (members : List (Option String × Json))

namespace Json

/-- A text as a value. -/
def ofString (text : String) : Json := .string (some text)

/-- An object with the given names. -/
def ofFields (fields : List (String × Json)) : Json :=
  .object (fields.map fun (name, value) => (some name, value))

/-! ## Strings -/

/-- A hexadecimal digit, in lower case. -/
def hexDigit (n : Nat) : Char := Nat.digitChar n

/-- A character inside quotes: the quote, the backslash and the control characters below the
    blank are escaped, by a letter if they have one. -/
def escapeChar (c : Char) : List Char :=
  if c = '"' then ['\\', '"']
  else if c = '\\' then ['\\', '\\']
  else if c = '\x08' then ['\\', 'b']
  else if c = '\x0c' then ['\\', 'f']
  else if c = '\n' then ['\\', 'n']
  else if c = '\r' then ['\\', 'r']
  else if c = '\t' then ['\\', 't']
  else if c.toNat < 32 then
    ['\\', 'u', '0', '0', hexDigit (c.toNat / 16), hexDigit (c.toNat % 16)]
  else [c]

/-- A string in quotes. One that stands for no text is written as half a surrogate pair. -/
def quote : Option String → List Char
  | some text => '"' :: (text.toList.flatMap escapeChar ++ ['"'])
  | none => ['"', '\\', 'u', 'd', '8', '0', '0', '"']

/-! ## Layouts -/

/-- What is written between the parts of a value. -/
structure Layout where
  /-- What comes before an item, and before the closing bracket, at a depth. -/
  lineBreak : Nat → List Char
  /-- What comes after the colon. -/
  afterColon : List Char

/-- Nothing between the parts. -/
def Layout.compact : Layout := ⟨fun _ => [], []⟩

/-- A line for each item. -/
def Layout.pretty : Layout := ⟨fun depth => '\n' :: List.replicate (2 * depth) ' ', [' ']⟩

mutual

/-- A value at a depth. An array or object without members has no line of its own. -/
def write (layout : Layout) (depth : Nat) : Json → List Char
  | .null => ['n', 'u', 'l', 'l']
  | .bool true => ['t', 'r', 'u', 'e']
  | .bool false => ['f', 'a', 'l', 's', 'e']
  | .number text => text.toList
  | .string text => quote text
  | .array [] => ['[', ']']
  | .array (item :: items) =>
    '[' :: (layout.lineBreak (depth + 1) ++ write layout (depth + 1) item
      ++ writeItems layout (depth + 1) items ++ layout.lineBreak depth ++ [']'])
  | .object [] => ['{', '}']
  | .object ((name, value) :: members) =>
    '{' :: (layout.lineBreak (depth + 1) ++ quote name ++ ':' :: layout.afterColon
      ++ write layout (depth + 1) value
      ++ writeMembers layout (depth + 1) members ++ layout.lineBreak depth ++ ['}'])

/-- The items after the first, each after a comma. -/
def writeItems (layout : Layout) (depth : Nat) : List Json → List Char
  | [] => []
  | item :: items =>
    ',' :: (layout.lineBreak depth ++ write layout depth item ++ writeItems layout depth items)

/-- The members after the first, each after a comma. -/
def writeMembers (layout : Layout) (depth : Nat) : List (Option String × Json) → List Char
  | [] => []
  | (name, value) :: members =>
    ',' :: (layout.lineBreak depth ++ quote name ++ ':' :: layout.afterColon
      ++ write layout depth value ++ writeMembers layout depth members)

end

/-- The text of a value on one line. -/
def compact (j : Json) : String := String.ofList (j.write .compact 0)

/-- The text of a value with a line for each item. -/
def pretty (j : Json) : String := String.ofList (j.write .pretty 0)

end Json

end Rehome
