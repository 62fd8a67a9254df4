import Rehome.Numeric.Binary

/-!
# Shortest decimals — the fewest digits that read back

A unit is `2 ^ -scale = 5 ^ scale / 10 ^ scale`, so every finite value is a whole number of the
decimal unit `10 ^ -scale`, and the real numbers that round to it are an interval between two
such numbers. Of the decimals in that interval the one with the fewest digits is printed, and of
several the one nearest to the value, the upper one when two are equally near. It is written with
a point where needed, never with an exponent.
-/

namespace Rehome.Numeric

namespace Format

/-- Whether a decimal, as a number of decimal units, rounds to a magnitude. It lies less than half
    a gap away, or just half a gap when the magnitude is an even multiple of its gap. -/
def readsBack (f : Format) (units decimal : Nat) : Bool :=
  let exact := units * Nat.pow 5 f.scale
  let above := f.gap units * Nat.pow 5 f.scale
  let below := f.gap (units - 1) * Nat.pow 5 f.scale
  let low := 2 * exact
  if units / f.gap units % 2 = 0 then
    decide (low ≤ 2 * decimal + below ∧ 2 * decimal ≤ low + above)
  else decide (low < 2 * decimal + below ∧ 2 * decimal < low + above)

/-- The better of the two neighbours of a magnitude on the grid of the multiples of `step`, if one
    of them reads back. -/
def nearestOn? (f : Format) (units step : Nat) : Option Nat :=
  let exact := units * Nat.pow 5 f.scale
  let down := exact / step * step
  let up := down + step
  match f.readsBack units down, f.readsBack units up with
  | true, true => some (if exact - down < up - exact then down else up)
  | true, false => some down
  | false, true => some up
  | false, false => none

/-- The shortest decimal that reads back, as a number of decimal units: grids are tried from one
    significant digit upwards. The finest grid holds the exact value. -/
def shortest (f : Format) (units : Nat) : Nat :=
  let exact := units * Nat.pow 5 f.scale
  let length := (Nat.toDigits 10 exact).length
  let found := (List.range length).findSome? fun i =>
    f.nearestOn? units (Nat.pow 10 (length - 1 - i))
  found.getD exact

/-- A number of decimal units in digits, with a point only before digits that are not all zero. -/
def positional (f : Format) (decimal : Nat) : String :=
  let whole := Nat.toDigits 10 (decimal / Nat.pow 10 f.scale)
  let digits := Nat.toDigits 10 (decimal % Nat.pow 10 f.scale)
  let fraction := List.replicate (f.scale - digits.length) '0' ++ digits
  let kept := (fraction.reverse.dropWhile (· = '0')).reverse
  String.ofList (if kept = [] then whole else whole ++ '.' :: kept)

end Format

/-- The text of a value: the shortest decimal, after a minus sign if negative, or a word. A NaN is
    written without its sign. -/
def Binary.toText {f : Format} : Binary f → String
  | .nan _ => "NaN"
  | .infinite negative => if negative then "-inf" else "inf"
  | .finite negative units _ =>
    (if negative then "-" else "") ++ f.positional (f.shortest units)

end Rehome.Numeric
