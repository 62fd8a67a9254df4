/-!
# Binary formats — which magnitudes there are, and rounding to them

A binary format counts magnitudes in its smallest positive value, the unit `2 ^ -scale`. A
magnitude belongs to the format when it is in range and its binary digits, from the first to the
last that is not zero, are at most `precision` many. So every finite value is a natural number of
units, and the arithmetic of the format is exact arithmetic on naturals followed by one rounding.

`Format.round` is that rounding: to the nearest magnitude, a half to the even neighbour. What it
gives belongs to the format unless it is out of range (`Format.round_fits`).
-/

namespace Rehome.Numeric

/-- A binary format, given by its counts of bits. -/
structure Format where
  /-- Significant binary digits. -/
  precision : Nat
  /-- The unit is two to the power of minus this. -/
  scale : Nat
  /-- Magnitudes are below two to the power of this, in units. -/
  width : Nat
  precision_pos : 0 < precision

/-- The format of 64 bits: 53 significant digits, magnitudes below `2 ^ 1024`. -/
def binary64 : Format := ⟨53, 1074, 2098, by decide⟩

/-- The format of 32 bits: 24 significant digits, magnitudes below `2 ^ 128`. -/
def binary32 : Format := ⟨24, 149, 277, by decide⟩

/-- The integer nearest to a quotient, of two the even one. -/
def roundDiv (num den : Nat) : Nat :=
  let q := num / den
  let r := num % den
  if 2 * r < den then q
  else if den < 2 * r then q + 1
  else q + q % 2

theorem roundDiv_le (num den : Nat) : roundDiv num den ≤ num / den + 1 := by
  unfold roundDiv
  dsimp only
  split
  · omega
  · split <;> omega

namespace Format

/-- The binary digits that a magnitude has beyond the precision: the distance to the next larger
    magnitude is two to the power of this. -/
def excess (f : Format) (units : Nat) : Nat := Nat.log2 units + 1 - f.precision

/-- The distance between a magnitude and the next larger one. -/
def gap (f : Format) (units : Nat) : Nat := 1 <<< f.excess units

/-- The number one, in units. -/
def one (f : Format) : Nat := 1 <<< f.scale

/-- The first magnitude that is out of range. -/
def limit (f : Format) : Nat := 1 <<< f.width

/-- The magnitudes of the format. -/
def Fits (f : Format) (units : Nat) : Prop :=
  units < f.limit ∧ f.gap units ∣ units

instance (f : Format) (units : Nat) : Decidable (f.Fits units) := by
  unfold Fits
  infer_instance

/-- The magnitude nearest to `num / den` units as if the range had no end, of two the even one. -/
def round (f : Format) (num den : Nat) : Nat :=
  roundDiv num (den * f.gap (num / den)) * f.gap (num / den)

theorem zero_fits (f : Format) : f.Fits 0 :=
  ⟨Nat.lt_of_lt_of_eq (Nat.two_pow_pos f.width) (Nat.one_shiftLeft f.width).symm, Nat.dvd_zero _⟩

theorem excess_le {f : Format} {n e : Nat} (h : n < 1 <<< (f.precision + e)) :
    f.excess n ≤ e := by
  rw [Nat.one_shiftLeft] at h
  unfold excess
  rcases Nat.eq_zero_or_pos n with rfl | hn
  · rw [Nat.log2_zero]
    have := f.precision_pos
    omega
  · have := (Nat.log2_lt (Nat.pos_iff_ne_zero.mp hn)).mpr h
    omega

private theorem roundDiv_gap_le (f : Format) (num den : Nat) :
    roundDiv num (den * f.gap (num / den)) ≤ 1 <<< f.precision := by
  refine Nat.le_trans (roundDiv_le _ _) ?_
  refine Nat.succ_le_of_lt ?_
  rw [← Nat.div_div_eq_div_mul]
  refine Nat.div_lt_of_lt_mul ?_
  unfold gap
  rw [Nat.one_shiftLeft, Nat.one_shiftLeft, ← Nat.pow_add]
  refine Nat.lt_of_lt_of_le (Nat.lt_log2_self (n := num / den)) ?_
  refine Nat.pow_le_pow_right (by decide) ?_
  unfold excess
  omega

/-- A rounded magnitude that is in range belongs to the format. -/
theorem round_fits (f : Format) (num den : Nat)
    (h : f.round num den < f.limit) : f.Fits (f.round num den) := by
  refine ⟨h, ?_⟩
  have hk := roundDiv_gap_le f num den
  revert hk
  unfold round
  generalize roundDiv num (den * f.gap (num / den)) = k
  intro hk
  unfold gap
  generalize f.excess (num / den) = e
  rw [Nat.one_shiftLeft] at hk
  rw [Nat.one_shiftLeft, Nat.one_shiftLeft]
  rcases Nat.lt_or_eq_of_le hk with hlt | rfl
  · have : k * 2 ^ e < 1 <<< (f.precision + e) := by
      rw [Nat.one_shiftLeft, Nat.pow_add]
      exact Nat.mul_lt_mul_of_pos_right hlt (Nat.two_pow_pos e)
    exact Nat.dvd_trans (Nat.pow_dvd_pow 2 (excess_le this)) (Nat.dvd_mul_left _ _)
  · rw [← Nat.pow_add]
    have hle : f.excess (2 ^ (f.precision + e)) ≤ e + 1 := by
      refine excess_le ?_
      rw [Nat.one_shiftLeft]
      exact Nat.pow_lt_pow_right (by decide) (by omega)
    have := f.precision_pos
    exact Nat.pow_dvd_pow 2 (by omega)

end Format

end Rehome.Numeric
