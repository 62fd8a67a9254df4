/-!
# Blanks — white space, and texts without it at their ends

White space is what the Unicode property of that name says: 25 characters, the line separators
among them.
-/

namespace Rehome.Text

/-- The characters with the property White_Space. -/
def isBlank (c : Char) : Bool :=
  let n := c.toNat
  9 ≤ n && n ≤ 13 || n == 0x20 || n == 0x85 || n == 0xa0 || n == 0x1680
    || 0x2000 ≤ n && n ≤ 0x200a || n == 0x2028 || n == 0x2029 || n == 0x202f || n == 0x205f
    || n == 0x3000

/-! ## Trimming -/

/-- Without the blanks at the start. -/
def dropBlanks (cs : List Char) : List Char := cs.dropWhile isBlank

/-- Without the blanks at the end. -/
def dropFinalBlanks (cs : List Char) : List Char := (cs.reverse.dropWhile isBlank).reverse

/-- Without the blanks at both ends. -/
def trimmed (cs : List Char) : List Char := dropFinalBlanks (dropBlanks cs)

/-- A text without the blanks at both ends. -/
def trim (text : String) : String := String.ofList (trimmed text.toList)

/-- Whether a text has nothing but blanks. -/
def isBlankText (text : String) : Bool := text.toList.all isBlank

end Rehome.Text
