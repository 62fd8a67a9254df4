import Rehome.Numeric.Binary
import Rehome.Proofs.Rounding

/-!
# Magnitudes — arithmetic on values that are not negative

Finite values that are not below zero are their units, up to the sign of a zero. On them every
operation is one rounding of the exact result (`Rounds`): sums, products and quotients of magnitudes
are magnitudes again, or infinite when the range ends before them. Whole parts are exact.
-/

namespace Rehome.Numeric.Binary

variable {f : Format} {a b : Binary f} {num den : Nat}

/-! ## Values without a sign -/

/-- Finite values that are not below zero. Minus zero is one of them. -/
inductive IsMagnitude : Binary f → Prop
  | unsigned (units : Nat) (fits : f.Fits units) : IsMagnitude (.finite false units fits)
  | minusZero : IsMagnitude (signedZero true)

/-- The units of a finite value, without its sign. -/
def units : Binary f → Nat
  | .finite _ units _ => units
  | _ => 0

/-- The value that rounding a quotient gives: a magnitude, or infinite when out of range. -/
def Rounds (num den : Nat) (a : Binary f) : Prop :=
  if f.round num den < f.limit then a.IsMagnitude ∧ a.units = f.round num den
  else a = .infinite false

theorem isMagnitude_signedZero (negative : Bool) :
    (signedZero negative : Binary f).IsMagnitude := by
  cases negative with
  | false => exact .unsigned 0 f.zero_fits
  | true => exact .minusZero

theorem IsMagnitude.eq_finite (ha : a.IsMagnitude) :
    ∃ negative units fits, a = .finite negative units fits := by
  cases ha with
  | unsigned units fits => exact ⟨false, units, fits, rfl⟩
  | minusZero => exact ⟨true, 0, f.zero_fits, rfl⟩

theorem IsMagnitude.fits (ha : a.IsMagnitude) : f.Fits a.units := by
  cases ha with
  | unsigned units fits => exact fits
  | minusZero => exact f.zero_fits

theorem IsMagnitude.isFinite (ha : a.IsMagnitude) : a.isFinite = true := by
  cases ha <;> rfl

theorem isMagnitude_iff :
    a.IsMagnitude ↔ a.isFinite = true ∧ a.lt (signedZero false) = false := by
  constructor
  · intro ha
    refine ⟨ha.isFinite, ?_⟩
    cases ha <;> simp [lt, rank?, signed, signedZero]
  · rintro ⟨hfinite, hnotlt⟩
    match a, hfinite, hnotlt with
    | .finite false units fits, _, _ => exact .unsigned units fits
    | .finite true units fits, _, hnotlt =>
        obtain rfl : units = 0 := by simpa [lt, rank?, signed, signedZero] using hnotlt
        exact .minusZero

theorem IsMagnitude.zero_lt_iff (ha : a.IsMagnitude) :
    (signedZero false : Binary f).lt a = true ↔ 0 < a.units := by
  cases ha <;> simp [lt, rank?, signed, signedZero, units]

theorem IsMagnitude.le_zero_iff (ha : a.IsMagnitude) :
    a.le (signedZero false) = true ↔ a.units = 0 := by
  cases ha <;> simp [le, rank?, signed, signedZero, units]

/-! ## One rounding -/

theorem Rounds.of_lt (h : a.Rounds num den) (hlt : f.round num den < f.limit) :
    a.IsMagnitude ∧ a.units = f.round num den := by
  rwa [Rounds, if_pos hlt] at h

/-- A quotient that is not above a magnitude stays in range. -/
theorem Rounds.of_le {m : Nat} (h : a.Rounds num den) (hden : 0 < den) (hm : f.Fits m)
    (hle : num ≤ m * den) : a.IsMagnitude ∧ a.units = f.round num den :=
  h.of_lt (Nat.lt_of_le_of_lt (Format.round_le hden hm.2 hle) hm.1)

theorem Rounds.of_isFinite (h : a.Rounds num den) (hfinite : a.isFinite = true) :
    a.IsMagnitude ∧ a.units = f.round num den := by
  by_cases hlt : f.round num den < f.limit
  · exact h.of_lt hlt
  · rw [Rounds, if_neg hlt] at h
    rw [h] at hfinite
    exact nomatch hfinite

theorem rounds_ofRatio (f : Format) (num den : Nat) :
    (ofRatio false num den : Binary f).Rounds num den := by
  unfold Rounds ofRatio
  by_cases hlt : f.round num den < f.limit
  · rw [if_pos hlt, dif_pos hlt]
    exact ⟨.unsigned _ _, rfl⟩
  · rw [if_neg hlt, dif_neg hlt]

theorem rounds_signedZero (negative : Bool) (hden : 0 < den) :
    (signedZero negative : Binary f).Rounds 0 den := by
  rw [Rounds, if_pos (f.round_zero_lt_limit hden), f.round_zero hden]
  exact ⟨isMagnitude_signedZero negative, rfl⟩

theorem ofRatio_zero (negative : Bool) (hden : 0 < den) :
    (ofRatio negative 0 den : Binary f) = signedZero negative := by
  rw [ofRatio, dif_pos (f.round_zero_lt_limit hden)]
  simp only [f.round_zero hden, signedZero]

theorem units_ofNat {n : Nat} (hn : n ≤ 2 ^ f.precision) (hlt : n * f.one < f.limit) :
    (ofNat n : Binary f).IsMagnitude ∧ (ofNat n : Binary f).units = n * f.one := by
  have hself := Format.round_eq_self Nat.one_pos (Format.gap_dvd_mul_one hn)
  rw [Nat.mul_one] at hself
  have h := (rounds_ofRatio f (n * f.one) 1).of_lt (hself.symm ▸ hlt)
  rwa [hself] at h

/-! ## Operations -/

theorem IsMagnitude.add (ha : a.IsMagnitude) (hb : b.IsMagnitude) :
    (a.add b).Rounds (a.units + b.units) 1 := by
  obtain ⟨n, x, hx, rfl⟩ := ha.eq_finite
  obtain ⟨m, y, hy, rfl⟩ := hb.eq_finite
  have hsum : signed n x + signed m y = ((x + y : Nat) : Int) := by
    cases ha <;> cases hb <;> simp [signed]
  show Rounds (x + y) 1 (if signed n x + signed m y = 0 then signedZero (n && m)
    else ofRatio (decide (signed n x + signed m y < 0)) (signed n x + signed m y).natAbs 1)
  rw [hsum]
  by_cases hzero : x + y = 0
  · rw [if_pos (by exact_mod_cast hzero), hzero]
    exact rounds_signedZero (n && m) Nat.one_pos
  · rw [if_neg (by exact_mod_cast hzero), Int.natAbs_natCast,
      decide_eq_false (Int.not_lt.mpr (Int.natCast_nonneg _))]
    exact rounds_ofRatio f (x + y) 1

/-- The difference of a magnitude and one that is not larger. -/
theorem IsMagnitude.sub (ha : a.IsMagnitude) (hb : b.IsMagnitude) (hle : b.units ≤ a.units) :
    (a.sub b).Rounds (a.units - b.units) 1 := by
  obtain ⟨n, x, hx, rfl⟩ := ha.eq_finite
  obtain ⟨m, y, hy, rfl⟩ := hb.eq_finite
  have hle' : y ≤ x := hle
  have hdifference : signed n x + signed (!m) y = ((x - y : Nat) : Int) := by
    rw [Nat.cast_sub hle']
    cases ha <;> cases hb <;> simp [signed, sub_eq_add_neg]
  show Rounds (x - y) 1 (if signed n x + signed (!m) y = 0 then signedZero (n && !m)
    else ofRatio (decide (signed n x + signed (!m) y < 0)) (signed n x + signed (!m) y).natAbs 1)
  rw [hdifference]
  by_cases hzero : x - y = 0
  · rw [if_pos (by exact_mod_cast hzero), hzero]
    exact rounds_signedZero (n && !m) Nat.one_pos
  · rw [if_neg (by exact_mod_cast hzero), Int.natAbs_natCast,
      decide_eq_false (Int.not_lt.mpr (Int.natCast_nonneg _))]
    exact rounds_ofRatio f (x - y) 1

theorem IsMagnitude.mul (ha : a.IsMagnitude) (hb : b.IsMagnitude) :
    (a.mul b).Rounds (a.units * b.units) f.one := by
  cases ha with
  | unsigned x hx =>
      cases hb with
      | unsigned y hy => exact rounds_ofRatio f (x * y) f.one
      | minusZero =>
          show Rounds (x * 0) f.one (ofRatio true (x * 0) f.one)
          rw [Nat.mul_zero, ofRatio_zero true f.one_pos]
          exact rounds_signedZero true f.one_pos
  | minusZero =>
      obtain ⟨m, y, hy, rfl⟩ := hb.eq_finite
      show Rounds (0 * y) f.one (ofRatio (true != m) (0 * y) f.one)
      rw [Nat.zero_mul, ofRatio_zero _ f.one_pos]
      exact rounds_signedZero _ f.one_pos

theorem IsMagnitude.div (ha : a.IsMagnitude) (hb : b.IsMagnitude) (hpos : 0 < b.units) :
    (a.div b).Rounds (a.units * f.one) b.units := by
  cases hb with
  | minusZero => exact absurd hpos (Nat.lt_irrefl 0)
  | unsigned y hy =>
      have hy0 : y ≠ 0 := Nat.pos_iff_ne_zero.mp hpos
      cases ha with
      | unsigned x hx =>
          show Rounds (x * f.one) y (if y = 0 then _ else ofRatio false (x * f.one) y)
          rw [if_neg hy0]
          exact rounds_ofRatio f (x * f.one) y
      | minusZero =>
          show Rounds (0 * f.one) y (if y = 0 then _ else ofRatio true (0 * f.one) y)
          rw [if_neg hy0, Nat.zero_mul, ofRatio_zero true (Nat.pos_of_ne_zero hy0)]
          exact rounds_signedZero true hpos

theorem IsMagnitude.div_infinite (ha : a.IsMagnitude) :
    (a.div (.infinite false)).IsMagnitude ∧ (a.div (.infinite false)).units = 0 := by
  cases ha with
  | unsigned x hx => exact ⟨isMagnitude_signedZero false, rfl⟩
  | minusZero => exact ⟨isMagnitude_signedZero true, rfl⟩

/-- The whole part of a magnitude has no more digits than it. -/
theorem IsMagnitude.gap_dvd_whole (ha : a.IsMagnitude) :
    f.gap (a.units / f.one * f.one) ∣ a.units / f.one * f.one := by
  have hone : f.one = 2 ^ f.scale := Nat.one_shiftLeft _
  rcases Nat.le_total f.scale (f.excess a.units) with hle | hge
  · -- the magnitude is whole
    have hdvd : f.one ∣ a.units := by
      refine Nat.dvd_trans ?_ ha.fits.2
      rw [hone, Format.gap_eq]
      exact Nat.pow_dvd_pow 2 hle
    rw [Nat.div_mul_cancel hdvd]
    exact ha.fits.2
  · rw [hone]
    refine Format.gap_dvd_mul_pow (Nat.div_le_of_le_mul ?_)
    calc a.units
        ≤ 2 ^ f.precision * f.gap a.units := Nat.le_of_lt (f.lt_pow_mul_gap a.units)
      _ ≤ 2 ^ f.precision * 2 ^ f.scale := by
          rw [Format.gap_eq]
          exact Nat.mul_le_mul_left _ (Nat.pow_le_pow_right (by decide) hge)
      _ = 2 ^ f.scale * 2 ^ f.precision := Nat.mul_comm _ _

theorem IsMagnitude.floor (ha : a.IsMagnitude) :
    a.floor.IsMagnitude ∧ a.floor.units = a.units / f.one * f.one := by
  have hdvd := ha.gap_dvd_whole
  have hle : a.units / f.one * f.one ≤ a.units := Nat.div_mul_le_self _ _
  cases ha with
  | unsigned x hx =>
      have hself := Format.round_eq_self Nat.one_pos hdvd
      rw [Nat.mul_one] at hself
      have h := (rounds_ofRatio f (x / f.one * f.one) 1).of_lt
        (hself.symm ▸ Nat.lt_of_le_of_lt hle hx.1)
      exact ⟨h.1, h.2.trans hself⟩
  | minusZero =>
      have hone := f.one_pos
      have hwhole : (0 + f.one - 1) / f.one * f.one = 0 := by
        rw [Nat.div_eq_of_lt (by omega), Nat.zero_mul]
      show (ofRatio true ((0 + f.one - 1) / f.one * f.one) 1).IsMagnitude ∧
        (ofRatio true ((0 + f.one - 1) / f.one * f.one) 1).units = 0 / f.one * f.one
      rw [hwhole, ofRatio_zero true Nat.one_pos, Nat.zero_div, Nat.zero_mul]
      exact ⟨isMagnitude_signedZero true, rfl⟩

theorem IsMagnitude.toNatClamped (ha : a.IsMagnitude) (limit : Nat) :
    a.toNatClamped limit = min (a.units / f.one) limit := by
  cases ha with
  | unsigned x hx => rfl
  | minusZero =>
      show 0 = min (0 / f.one) limit
      rw [Nat.zero_div, Nat.zero_min]

end Rehome.Numeric.Binary
