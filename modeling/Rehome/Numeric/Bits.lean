import Rehome.Numeric.Binary

/-!
# Bit patterns — the interchange encoding of binary values

The sign is the highest bit. Below it, the magnitudes of the format in ascending order have
ascending patterns, from all zeros up; infinity follows the largest magnitude, and NaNs follow
infinity. So the pattern of a magnitude counts the magnitudes below it.
-/

namespace Rehome.Numeric

namespace Format

/-- The pattern of a magnitude: each doubling of the gap starts another run of patterns. -/
def magnitudeBits (f : Format) (units : Nat) : Nat :=
  f.excess units <<< (f.precision - 1) + units / f.gap units

/-- The pattern of infinity. -/
def infinityBits (f : Format) : Nat :=
  (f.width - f.precision + 2) <<< (f.precision - 1)

/-- The pattern of the sign alone, one bit above that of infinity. -/
def signBit (f : Format) : Nat := 1 <<< (Nat.log2 f.infinityBits + 1)

end Format

namespace Binary

variable {f : Format}

/-- The bit pattern of a value, as a number. A NaN has the highest bit of its fraction set and no
    other. -/
def toBits (a : Binary f) : Nat :=
  (if a.isNegative then f.signBit else 0) +
    match a with
    | .nan _ => f.infinityBits + 1 <<< (f.precision - 2)
    | .infinite _ => f.infinityBits
    | .finite _ units _ => f.magnitudeBits units

end Binary

example : (Binary.ofNat 1 : Binary64).toBits = 0x3ff0000000000000 := by decide +kernel
example : (.infinite true : Binary64).toBits = 0xfff0000000000000 := by decide +kernel
example : (.nan false : Binary64).toBits = 0x7ff8000000000000 := by decide +kernel
example : (Binary.ofQuotient 16 10 : Binary32).toBits = 0x3fcccccd := by decide +kernel

end Rehome.Numeric
