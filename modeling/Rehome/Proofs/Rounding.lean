import Mathlib.Data.Nat.Cast.Order.Field
import Mathlib.Tactic.Linarith
import Mathlib.Tactic.Positivity
import Mathlib.Tactic.Ring
import Rehome.Numeric.Format

/-!
# Rounding — what it keeps and how far it is off

A magnitude has at most `precision` binary digits when its own gap divides it. Rounding leaves such
magnitudes alone and never steps over one (`round_eq_self`, `round_le`, `le_round`), so it keeps
order. On what lies between them it is off by half a gap at most. Where the gap is the unit that is
half a unit, and nothing for whole numbers of units; everywhere else it is a fixed fraction of the
quotient, the `roundoff` (`abs_round_sub_le`, `abs_round_sub_le_of_dvd`).
-/

namespace Rehome.Numeric

/-! ## Quotients -/

theorem div_le_roundDiv (num den : Nat) : num / den ≤ roundDiv num den := by
  unfold roundDiv
  dsimp only
  split
  · exact Nat.le_refl _
  · split <;> omega

theorem le_roundDiv {num den k : Nat} (hden : 0 < den) (h : k * den ≤ num) :
    k ≤ roundDiv num den :=
  Nat.le_trans ((Nat.le_div_iff_mul_le hden).mpr h) (div_le_roundDiv num den)

theorem roundDiv_le_of_le_mul {num den k : Nat} (hden : 0 < den) (h : num ≤ k * den) :
    roundDiv num den ≤ k := by
  have hq : num / den ≤ k := Nat.div_le_of_le_mul (Nat.mul_comm k den ▸ h)
  rcases Nat.lt_or_eq_of_le hq with hlt | heq
  · exact Nat.le_trans (roundDiv_le num den) hlt
  · -- the quotient is `k`, so there is no remainder
    have hr : num % den = 0 := by
      have := Nat.div_add_mod' num den
      rw [heq] at this
      omega
    unfold roundDiv
    simp [hr, hden, heq]

/-- The nearest integer is off by half at most. -/
theorem roundDiv_near (num : Nat) {den : Nat} (hden : 0 < den) :
    2 * (roundDiv num den * den) ≤ 2 * num + den ∧
      2 * num ≤ 2 * (roundDiv num den * den) + den := by
  have hsplit := Nat.div_add_mod' num den
  have hlt := Nat.mod_lt num hden
  unfold roundDiv
  dsimp only
  rcases Nat.lt_trichotomy (2 * (num % den)) den with hr | hr | hr
  · rw [if_pos hr]
    omega
  · rw [if_neg (by omega), if_neg (by omega), Nat.add_mul]
    rcases Nat.mod_two_eq_zero_or_one (num / den) with h2 | h2
    · rw [h2, Nat.zero_mul]
      omega
    · rw [h2, Nat.one_mul]
      omega
  · rw [if_neg (by omega), if_pos hr, Nat.add_mul, Nat.one_mul]
    omega

namespace Format

variable {f : Format} {num den m : Nat}

/-! ## Gaps -/

theorem gap_eq (f : Format) (units : Nat) : f.gap units = 2 ^ f.excess units :=
  Nat.one_shiftLeft _

theorem gap_pos (f : Format) (units : Nat) : 0 < f.gap units := by
  rw [gap_eq]
  exact Nat.two_pow_pos _

theorem one_pos (f : Format) : 0 < f.one := by
  rw [one, Nat.one_shiftLeft]
  exact Nat.two_pow_pos _

theorem gap_dvd_gap {a b : Nat} (h : f.excess a ≤ f.excess b) : f.gap a ∣ f.gap b := by
  rw [gap_eq, gap_eq]
  exact Nat.pow_dvd_pow 2 h

theorem lt_pow_mul_gap (f : Format) (m : Nat) : m < 2 ^ f.precision * f.gap m := by
  rw [gap_eq, ← Nat.pow_add]
  refine Nat.lt_of_lt_of_le Nat.lt_log2_self (Nat.pow_le_pow_right (by decide) ?_)
  unfold excess
  omega

theorem excess_mono {a b : Nat} (h : a ≤ b) : f.excess a ≤ f.excess b := by
  refine excess_le ?_
  rw [Nat.one_shiftLeft, Nat.pow_add, ← gap_eq]
  exact Nat.lt_of_le_of_lt h (f.lt_pow_mul_gap b)

/-- A gap is the unit, or small beside the magnitude. -/
theorem gap_eq_one_or (f : Format) (m : Nat) :
    f.gap m = 1 ∨ 2 ^ (f.precision - 1) * f.gap m ≤ m := by
  rw [gap_eq]
  rcases Nat.eq_zero_or_pos (f.excess m) with hzero | hpos
  · left
    rw [hzero, Nat.pow_zero]
  · right
    rcases Nat.eq_zero_or_pos m with rfl | hm
    · have := f.precision_pos
      rw [excess, Nat.log2_zero] at hpos
      omega
    · rw [← Nat.pow_add]
      refine Nat.le_trans (Nat.pow_le_pow_right (by decide) ?_)
        (Nat.log2_self_le (Nat.pos_iff_ne_zero.mp hm))
      unfold excess at hpos ⊢
      have := f.precision_pos
      omega

/-- Few digits with zeros after them. -/
theorem gap_dvd_mul_pow {k e : Nat} (h : k ≤ 2 ^ f.precision) :
    f.gap (k * 2 ^ e) ∣ k * 2 ^ e := by
  rcases Nat.lt_or_eq_of_le h with hlt | rfl
  · have hexcess : f.excess (k * 2 ^ e) ≤ e := by
      refine excess_le ?_
      rw [Nat.one_shiftLeft, Nat.pow_add]
      exact Nat.mul_lt_mul_of_pos_right hlt (Nat.two_pow_pos e)
    rw [gap_eq]
    exact Nat.dvd_trans (Nat.pow_dvd_pow 2 hexcess) (Nat.dvd_mul_left _ _)
  · have hexcess : f.excess (2 ^ f.precision * 2 ^ e) ≤ e + 1 := by
      refine excess_le ?_
      rw [Nat.one_shiftLeft, ← Nat.pow_add]
      exact Nat.pow_lt_pow_right (by decide) (by omega)
    have := f.precision_pos
    rw [gap_eq]
    refine Nat.dvd_trans (Nat.pow_dvd_pow 2 hexcess) ?_
    rw [← Nat.pow_add]
    exact Nat.pow_dvd_pow 2 (by omega)

theorem gap_dvd_mul_one {k : Nat} (h : k ≤ 2 ^ f.precision) :
    f.gap (k * f.one) ∣ k * f.one := by
  rw [one, Nat.one_shiftLeft]
  exact gap_dvd_mul_pow h

/-! ## Rounding and order -/

/-- Rounding does not step over a multiple of the gap. -/
theorem le_round_of_gap_dvd (hden : 0 < den) (hm : f.gap (num / den) ∣ m) (h : m * den ≤ num) :
    m ≤ f.round num den := by
  obtain ⟨k, rfl⟩ := hm
  rw [Nat.mul_comm _ k, round]
  refine Nat.mul_le_mul_right _ (le_roundDiv (Nat.mul_pos hden (f.gap_pos _)) ?_)
  refine Nat.le_trans (Nat.le_of_eq ?_) h
  ac_rfl

theorem round_le (hden : 0 < den) (hm : f.gap m ∣ m) (h : num ≤ m * den) :
    f.round num den ≤ m := by
  have hq : num / den ≤ m := Nat.div_le_of_le_mul (Nat.mul_comm m den ▸ h)
  obtain ⟨k, hk⟩ := Nat.dvd_trans (gap_dvd_gap (excess_mono hq)) hm
  have hround : roundDiv num (den * f.gap (num / den)) ≤ k := by
    refine roundDiv_le_of_le_mul (Nat.mul_pos hden (f.gap_pos _)) ?_
    refine Nat.le_trans h (Nat.le_of_eq ?_)
    conv_lhs => rw [hk]
    ac_rfl
  calc f.round num den
      ≤ k * f.gap (num / den) := Nat.mul_le_mul_right _ hround
    _ = m := by rw [Nat.mul_comm]; exact hk.symm

theorem le_round (hden : 0 < den) (hm : f.gap m ∣ m) (h : m * den ≤ num) :
    m ≤ f.round num den := by
  rcases Nat.lt_or_ge (f.excess m) (f.excess (num / den)) with hlt | hge
  · -- the power of two where the gap of the quotient begins lies between
    have hgap : 2 * f.gap m ≤ f.gap (num / den) := by
      rw [gap_eq, gap_eq, ← Nat.pow_succ']
      exact Nat.pow_le_pow_right (by decide) hlt
    have hpower : 2 ^ (f.precision - 1) * f.gap (num / den) ≤ num / den := by
      rcases f.gap_eq_one_or (num / den) with hone | hle
      · have := f.gap_pos m
        omega
      · exact hle
    calc m
        ≤ 2 ^ f.precision * f.gap m := Nat.le_of_lt (f.lt_pow_mul_gap m)
      _ = 2 ^ (f.precision - 1) * (2 * f.gap m) := by
          rw [← Nat.mul_assoc, Nat.pow_pred_mul f.precision_pos]
      _ ≤ 2 ^ (f.precision - 1) * f.gap (num / den) := Nat.mul_le_mul_left _ hgap
      _ ≤ f.round num den := by
          refine le_round_of_gap_dvd hden (Nat.dvd_mul_left _ _) ?_
          exact Nat.le_trans (Nat.mul_le_mul_right den hpower) (Nat.div_mul_le_self num den)
  · have hq : m ≤ num / den := (Nat.le_div_iff_mul_le hden).mpr h
    refine le_round_of_gap_dvd hden (Nat.dvd_trans (gap_dvd_gap ?_) hm) h
    exact hge

theorem round_eq_self (hden : 0 < den) (hm : f.gap m ∣ m) : f.round (m * den) den = m :=
  Nat.le_antisymm (round_le hden hm (Nat.le_refl _)) (le_round hden hm (Nat.le_refl _))

theorem round_zero (f : Format) (hden : 0 < den) : f.round 0 den = 0 := by
  have h := round_eq_self hden (Nat.dvd_zero (f.gap 0))
  rwa [Nat.zero_mul] at h

theorem round_zero_lt_limit (f : Format) (hden : 0 < den) : f.round 0 den < f.limit := by
  rw [f.round_zero hden]
  exact f.zero_fits.1

/-! ## Rounding errors -/

/-- The largest part of a quotient that rounding takes away or adds, where gaps are more than a
    unit. -/
def roundoff (f : Format) : ℚ := 1 / 2 ^ f.precision

theorem roundoff_pos (f : Format) : 0 < f.roundoff := by
  unfold roundoff
  positivity

/-- Rounding is off by half a gap at most. -/
theorem abs_round_sub_le_gap (f : Format) (num : Nat) (hden : 0 < den) :
    |(f.round num den : ℚ) - num / den| ≤ f.gap (num / den) / 2 := by
  have hden' : (0 : ℚ) < den := by exact_mod_cast hden
  obtain ⟨hup, hdown⟩ := roundDiv_near num (Nat.mul_pos hden (f.gap_pos (num / den)))
  have hround : f.round num den = roundDiv num (den * f.gap (num / den)) * f.gap (num / den) := rfl
  have hproduct : roundDiv num (den * f.gap (num / den)) * (den * f.gap (num / den)) =
      f.round num den * den := by
    rw [hround]
    ac_rfl
  rw [hproduct] at hup hdown
  have hup' : 2 * ((f.round num den : ℚ) * den) ≤ 2 * num + den * f.gap (num / den) := by
    exact_mod_cast hup
  have hdown' : 2 * (num : ℚ) ≤ 2 * (f.round num den * den) + den * f.gap (num / den) := by
    exact_mod_cast hdown
  have hnum : (num : ℚ) = num / den * den := (div_mul_cancel₀ _ hden'.ne').symm
  rw [abs_le]
  constructor
  · refine le_of_mul_le_mul_right ?_ hden'
    linarith
  · refine le_of_mul_le_mul_right ?_ hden'
    linarith

/-- Beyond the unit, half a gap is no more than the roundoff. -/
theorem gap_le_roundoff {q : Nat} (hgap : f.gap q ≠ 1) : (f.gap q : ℚ) / 2 ≤ f.roundoff * q := by
  rcases f.gap_eq_one_or q with hone | hle
  · exact absurd hone hgap
  · have hle' : (2 : ℚ) ^ (f.precision - 1) * f.gap q ≤ q := by exact_mod_cast hle
    have hpower : (2 : ℚ) ^ f.precision = 2 ^ (f.precision - 1) * 2 := by
      rw [← pow_succ, Nat.sub_add_cancel f.precision_pos]
    have hpos : (0 : ℚ) < 2 ^ (f.precision - 1) := by positivity
    rw [roundoff, hpower, div_mul_eq_mul_div, one_mul, le_div_iff₀ (by positivity)]
    linarith

/-- Rounding is off by half a unit or by the roundoff. -/
theorem abs_round_sub_le (f : Format) (num : Nat) (hden : 0 < den) :
    |(f.round num den : ℚ) - num / den| ≤ 1 / 2 + f.roundoff * (num / den) := by
  refine le_trans (f.abs_round_sub_le_gap num hden) ?_
  have hquotient : ((num / den : Nat) : ℚ) ≤ num / den := Nat.cast_div_le
  have hnonneg : (0 : ℚ) ≤ f.roundoff * (num / den) :=
    mul_nonneg f.roundoff_pos.le (by positivity)
  by_cases hgap : f.gap (num / den) = 1
  · rw [hgap, Nat.cast_one]
    linarith
  · have hle := gap_le_roundoff hgap
    have := mul_le_mul_of_nonneg_left hquotient f.roundoff_pos.le
    linarith

/-- On a whole number of units rounding is off by the roundoff alone. -/
theorem abs_round_sub_le_of_dvd (f : Format) (hden : 0 < den) (hdvd : den ∣ num) :
    |(f.round num den : ℚ) - num / den| ≤ f.roundoff * (num / den) := by
  obtain ⟨q, rfl⟩ := hdvd
  have hden' : (den : ℚ) ≠ 0 := by exact_mod_cast hden.ne'
  have hquotient : ((den * q : Nat) : ℚ) / den = q := by
    rw [Nat.cast_mul, mul_div_cancel_left₀ _ hden']
  rw [hquotient]
  by_cases hgap : f.gap q = 1
  · have hself : f.round (den * q) den = q := by
      rw [Nat.mul_comm]
      exact round_eq_self hden (hgap ▸ Nat.one_dvd q)
    rw [hself, sub_self, abs_zero]
    exact mul_nonneg f.roundoff_pos.le (Nat.cast_nonneg q)
  · have herror := f.abs_round_sub_le_gap (den * q) hden
    rw [hquotient, Nat.mul_div_cancel_left q hden] at herror
    exact le_trans herror (gap_le_roundoff hgap)

theorem roundoff_le_one (f : Format) : f.roundoff ≤ 1 :=
  div_le_one_of_le₀ (one_le_pow₀ one_le_two) (by positivity)

end Format

/-! ## Agreement up to a part -/

/-- Neither of two quantities falls short of the other by more than a part of it. -/
structure Agree (part a b : ℚ) : Prop where
  le_left : (1 - part) * b ≤ a
  le_right : (1 - part) * a ≤ b

namespace Agree

variable {part rest a b c : ℚ}

theorem refl (a : ℚ) : Agree 0 a a := by
  constructor <;> linarith

theorem symm (h : Agree part a b) : Agree part b a :=
  ⟨h.le_right, h.le_left⟩

theorem of_abs_sub_le (hpart : 0 ≤ part) (hone : part ≤ 1) (ha : 0 ≤ a)
    (h : |b - a| ≤ part * a) : Agree part a b := by
  obtain ⟨hlow, hhigh⟩ := abs_le.mp h
  constructor
  · calc (1 - part) * b
        ≤ (1 - part) * ((1 + part) * a) :=
          mul_le_mul_of_nonneg_left (by linarith) (by linarith)
      _ = a - part * part * a := by ring
      _ ≤ a := by linarith [mul_nonneg (mul_nonneg hpart hpart) ha]
  · linarith

/-- Parts add up along a chain. -/
theorem trans (h : Agree part a b) (h' : Agree rest b c) (hpart : 0 ≤ part) (hrest : 0 ≤ rest)
    (hpart1 : part ≤ 1) (hrest1 : rest ≤ 1) (ha : 0 ≤ a) (hc : 0 ≤ c) :
    Agree (part + rest) a c := by
  have hproduct := mul_nonneg hpart hrest
  constructor
  · calc (1 - (part + rest)) * c
        ≤ (1 - part) * ((1 - rest) * c) := by linarith [mul_nonneg hproduct hc]
      _ ≤ (1 - part) * b := mul_le_mul_of_nonneg_left h'.le_left (by linarith)
      _ ≤ a := h.le_left
  · calc (1 - (part + rest)) * a
        ≤ (1 - rest) * ((1 - part) * a) := by linarith [mul_nonneg hproduct ha]
      _ ≤ (1 - rest) * b := mul_le_mul_of_nonneg_left h.le_right (by linarith)
      _ ≤ c := h'.le_right

theorem add_right (h : Agree part a b) (hpart : 0 ≤ part) (hc : 0 ≤ c) :
    Agree part (a + c) (b + c) := by
  obtain ⟨hleft, hright⟩ := h
  have := mul_nonneg hpart hc
  constructor <;> linarith

theorem mul_left (h : Agree part a b) (hc : 0 ≤ c) : Agree part (c * a) (c * b) := by
  constructor
  · linarith [mul_le_mul_of_nonneg_left h.le_left hc]
  · linarith [mul_le_mul_of_nonneg_left h.le_right hc]

end Agree

/-- Rounding a whole number of units agrees with it up to the roundoff. -/
theorem agree_round (f : Format) {num den : Nat} (hden : 0 < den) (hdvd : den ∣ num) :
    Agree f.roundoff (num / den) (f.round num den) :=
  .of_abs_sub_le f.roundoff_pos.le f.roundoff_le_one (by positivity)
    (f.abs_round_sub_le_of_dvd hden hdvd)

end Rehome.Numeric
