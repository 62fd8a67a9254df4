import Rehome.Numeric.Binary

/-!
# Decimals — numbers as they are written

A decimal is a sign, a natural number of digits and a power of ten. Its value in a binary format
is the nearest one, found from the exact quotient; a power so large or small that the result is
certain without it (`Decimal.toBinary`) is never computed.

`Binary.ofText?` reads a number: a sign may come first, then `inf`, `infinity` or `nan` in
letters of either case, or digits with at most one point among or around them and an exponent.
-/

namespace Rehome.Numeric

/-- The number `digits * 10 ^ exponent`, or minus it. -/
structure Decimal where
  negative : Bool
  digits : Nat
  exponent : Int
  deriving DecidableEq

namespace Decimal

/-- The value of the format nearest to a decimal. With an exponent from `width` up any digits but
    zero are out of range; and since `8 ^ k < 10 ^ k`, three binary digits of the exponent's size
    for each of its powers are enough to see that a number is below half a unit. -/
def toBinary {f : Format} (d : Decimal) : Binary f :=
  if d.digits = 0 then .signedZero d.negative
  else if 0 ≤ d.exponent then
    if f.width ≤ d.exponent.toNat then .infinite d.negative
    else .ofRatio d.negative (d.digits * Nat.pow 10 d.exponent.toNat * f.one) 1
  else
    let places := (-d.exponent).toNat
    if Nat.log2 d.digits + f.scale + 3 ≤ 3 * places then .signedZero d.negative
    else .ofRatio d.negative (d.digits * f.one) (Nat.pow 10 places)

/-- The number that a row of decimal digits stands for. -/
def ofDigits (cs : List Char) : Nat :=
  cs.foldl (fun n c => 10 * n + (c.toNat - '0'.toNat)) 0

/-- A row of digits that fills the text, at least one. -/
def wholeDigits? (cs : List Char) : Option Nat :=
  if cs ≠ [] ∧ cs.all Char.isDigit then some (ofDigits cs) else none

/-- A sign at the start of a text, and what follows. -/
def splitSign : List Char → Bool × List Char
  | '-' :: cs => (true, cs)
  | '+' :: cs => (false, cs)
  | cs => (false, cs)

/-- The exponent at the end of a number: nothing, or `e` and an integer. -/
def exponent? : List Char → Option Int
  | [] => some 0
  | c :: cs =>
    if c = 'e' ∨ c = 'E' then
      let (negative, digits) := splitSign cs
      (wholeDigits? digits).map fun n => if negative then -(n : Int) else n
    else none

/-- Digits, a point and more digits, an exponent. There has to be a digit on one side of the
    point. -/
def unsigned? (negative : Bool) (cs : List Char) : Option Decimal :=
  let whole := cs.takeWhile Char.isDigit
  let afterWhole := cs.dropWhile Char.isDigit
  let (fraction, rest) :=
    match afterWhole with
    | '.' :: rest => (rest.takeWhile Char.isDigit, rest.dropWhile Char.isDigit)
    | rest => ([], rest)
  if whole = [] ∧ fraction = [] then none
  else
    (exponent? rest).map fun e =>
      ⟨negative, ofDigits (whole ++ fraction), e - fraction.length⟩

end Decimal

/-- Read a number as the nearest value of the format. -/
def Binary.ofText? {f : Format} (text : String) : Option (Binary f) :=
  let (negative, cs) := Decimal.splitSign text.toList
  let word := cs.map Char.toLower
  if word = ['n', 'a', 'n'] then some (.nan negative)
  else if word = ['i', 'n', 'f'] ∨ word = ['i', 'n', 'f', 'i', 'n', 'i', 't', 'y'] then
    some (.infinite negative)
  else (Decimal.unsigned? negative cs).map Decimal.toBinary

end Rehome.Numeric
