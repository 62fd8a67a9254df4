import Rehome.Numeric.Format

/-!
# Binary floating point — values and arithmetic

A value of a binary format is a signed number of units that fits the format, an infinity or a
NaN. Each operation on finite values is the exact result on integers, rounded once to the nearest
value, a half to the even neighbour; a result beyond the range is an infinity.

There are two orders: the numeric one (`lt`, `le`), in which zeros are equal and a NaN is
incomparable, and a total one (`totalRank`), in which minus zero comes before zero and NaNs come
at the ends.
-/

namespace Rehome.Numeric

/-- A value of a binary format. Finite values count units, the sign apart, so that zero has two
    signs. -/
inductive Binary (f : Format) where
  | nan (negative : Bool)
  | infinite (negative : Bool)
  | finite (negative : Bool) (units : Nat) (fits : f.Fits units)
  deriving DecidableEq

/-- The values of the format of 64 bits. -/
abbrev Binary64 := Binary binary64

/-- The values of the format of 32 bits. -/
abbrev Binary32 := Binary binary32

namespace Binary

variable {f : Format}

/-! ## Making values -/

/-- The zero of either sign. -/
def signedZero (negative : Bool) : Binary f := .finite negative 0 f.zero_fits

/-- The value nearest to `num / den` units. -/
def ofRatio (negative : Bool) (num den : Nat) : Binary f :=
  if h : f.round num den < f.limit then
    .finite negative (f.round num den) (f.round_fits num den h)
  else .infinite negative

/-- The value nearest to a natural number. -/
def ofNat (n : Nat) : Binary f := ofRatio false (n * f.one) 1

/-- The value nearest to a quotient of natural numbers. -/
def ofQuotient (num den : Nat) : Binary f := ofRatio false (num * f.one) den

instance : Inhabited (Binary f) := ⟨signedZero false⟩

/-! ## Asking about values -/

/-- Whether the value is a number in range. -/
def isFinite : Binary f → Bool
  | .finite .. => true
  | _ => false

/-- The sign. -/
def isNegative : Binary f → Bool
  | .nan negative => negative
  | .infinite negative => negative
  | .finite negative _ _ => negative

/-- A magnitude with a sign. -/
def signed (negative : Bool) (n : Nat) : Int := if negative then -(n : Int) else n

/-- The place of a value on the number line, in units; an infinity stands where the range ends,
    and a NaN has no place. -/
def rank? : Binary f → Option Int
  | .nan _ => none
  | .infinite negative => some (signed negative f.limit)
  | .finite negative units _ => some (signed negative units)

/-- Numeric order: a NaN is not less than anything, nor anything less than a NaN. -/
def lt (a b : Binary f) : Bool :=
  match a.rank?, b.rank? with
  | some x, some y => decide (x < y)
  | _, _ => false

/-- Numeric order or equality, false for a NaN. -/
def le (a b : Binary f) : Bool :=
  match a.rank?, b.rank? with
  | some x, some y => decide (x ≤ y)
  | _, _ => false

/-- The place of a value in the total order: negative values, minus zero among them, come before
    the others and in reverse, and NaNs lie beyond the infinities. -/
def totalRank (a : Binary f) : Int :=
  let magnitude : Nat :=
    match a with
    | .nan _ => f.limit + 1
    | .infinite _ => f.limit
    | .finite _ units _ => units
  if a.isNegative then -(magnitude : Int) - 1 else magnitude

/-! ## Arithmetic -/

/-- The value with the other sign. -/
def neg : Binary f → Binary f
  | .nan negative => .nan (!negative)
  | .infinite negative => .infinite (!negative)
  | .finite negative units fits => .finite (!negative) units fits

/-- The sum. Opposite infinities have none, and an exact zero is negative only if both are. -/
def add (a b : Binary f) : Binary f :=
  match a, b with
  | .nan n, _ => .nan n
  | _, .nan n => .nan n
  | .infinite n, .infinite m => if n = m then .infinite n else .nan false
  | .infinite n, .finite .. => .infinite n
  | .finite .., .infinite m => .infinite m
  | .finite n x _, .finite m y _ =>
    let sum := signed n x + signed m y
    if sum = 0 then signedZero (n && m)
    else ofRatio (decide (sum < 0)) sum.natAbs 1

/-- The difference. -/
def sub (a b : Binary f) : Binary f := a.add b.neg

/-- The product. Zero and an infinity have none. -/
def mul (a b : Binary f) : Binary f :=
  match a, b with
  | .nan n, _ => .nan n
  | _, .nan n => .nan n
  | .infinite n, .infinite m => .infinite (n != m)
  | .infinite n, .finite m y _ => if y = 0 then .nan false else .infinite (n != m)
  | .finite n x _, .infinite m => if x = 0 then .nan false else .infinite (n != m)
  | .finite n x _, .finite m y _ => ofRatio (n != m) (x * y) f.one

/-- The quotient. Two zeros and two infinities have none; anything else over zero is infinite. -/
def div (a b : Binary f) : Binary f :=
  match a, b with
  | .nan n, _ => .nan n
  | _, .nan n => .nan n
  | .infinite _, .infinite _ => .nan false
  | .infinite n, .finite m _ _ => .infinite (n != m)
  | .finite n _ _, .infinite m => signedZero (n != m)
  | .finite n x _, .finite m y _ =>
    if y = 0 then (if x = 0 then .nan false else .infinite (n != m))
    else ofRatio (n != m) (x * f.one) y

/-- The largest integer that is not above the value; the sign stays. -/
def floor : Binary f → Binary f
  | .finite false units _ => ofRatio false (units / f.one * f.one) 1
  | .finite true units _ => ofRatio true ((units + f.one - 1) / f.one * f.one) 1
  | a => a

/-- The whole part of a value as a natural number, held between zero and a limit. A NaN counts as
    zero. -/
def toNatClamped (limit : Nat) : Binary f → Nat
  | .finite false units _ => min (units / f.one) limit
  | .infinite false => limit
  | _ => 0

end Binary

end Rehome.Numeric
