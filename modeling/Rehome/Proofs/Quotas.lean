import Mathlib.Tactic.LinearCombination
import Rehome.Proofs.Magnitudes
import Rehome.Proofs.Seats

/-!
# Quotas — when the seats come out even

A weight's quota is its share of the seats, and every step on the way to it is rounded: the total of
the weights, the share, and the share times the seats. No quota is more than the seats, whatever is
lost (`quota_of_share`). All the quotas together agree with the seats up to one roundoff for each
addition and two more, so with few enough weights and seats for that to stay below one seat, their
whole parts leave over what the indices can take, and the counts add up (`sum_apportion`).

Two things are in the way beyond that. With many weights or seats the whole parts can be too many or
too few. And where the total of the weights is out of range every share is zero, so that each index
gets one seat at most. Then it is asserted in vain that the counts add up, and nobody gets a seat.
-/

namespace Rehome

open Numeric (Binary64 Binary Format binary64 Agree)
open Numeric.Binary (IsMagnitude units isMagnitude_iff)
open Chance (Source)

namespace Apportion

variable {weights : List Binary64} {w sum share : Binary64} {seats : Nat}

theorem isWeight_iff : isWeight w = true ↔ w.IsMagnitude := by
  rw [isMagnitude_iff, isWeight, Bool.and_eq_true, Bool.not_eq_true']

/-! ## The total -/

theorem total_concat (weights : List Binary64) (w : Binary64) :
    total (weights ++ [w]) = (total weights).add w := by
  unfold total
  rw [List.foldl_append]
  rfl

theorem total_nil : total [] = .signedZero false := rfl

/-- The total of weights is a magnitude, or out of range. -/
theorem total_cases (hweights : ∀ w ∈ weights, w.IsMagnitude) :
    (total weights).IsMagnitude ∨ total weights = .infinite false := by
  induction weights using List.reverseRecOn with
  | nil => exact .inl (Numeric.Binary.isMagnitude_signedZero false)
  | append_singleton weights w ih =>
      rw [List.forall_mem_append, List.forall_mem_singleton] at hweights
      obtain ⟨hbefore, hw⟩ := hweights
      rw [total_concat]
      rcases ih hbefore with hsum | hinfinite
      · have hadd := hsum.add hw
        by_cases hlt : binary64.round ((total weights).units + w.units) 1 < binary64.limit
        · exact .inl (hadd.of_lt hlt).1
        · rw [Numeric.Binary.Rounds, if_neg hlt] at hadd
          exact .inr hadd
      · obtain ⟨negative, units, fits, rfl⟩ := hw.eq_finite
        rw [hinfinite]
        exact .inr rfl

/-- A total in range is a magnitude. -/
theorem isMagnitude_total (hweights : ∀ w ∈ weights, w.IsMagnitude)
    (hfinite : (total weights).isFinite = true) : (total weights).IsMagnitude := by
  rcases total_cases hweights with hsum | hinfinite
  · exact hsum
  · rw [hinfinite] at hfinite
    exact nomatch hfinite

/-- The last step to a total in range was one rounding. -/
theorem total_concat_of_isFinite (hweights : ∀ w ∈ weights, w.IsMagnitude) (hw : w.IsMagnitude)
    (hfinite : (total (weights ++ [w])).isFinite = true) :
    (total weights).IsMagnitude ∧
      (total (weights ++ [w])).units = binary64.round ((total weights).units + w.units) 1 := by
  rw [total_concat] at hfinite ⊢
  rcases total_cases hweights with hsum | hinfinite
  · exact ⟨hsum, ((hsum.add hw).of_isFinite hfinite).2⟩
  · obtain ⟨negative, units, fits, rfl⟩ := hw.eq_finite
    rw [hinfinite] at hfinite
    exact nomatch hfinite

theorem units_le_total (hweights : ∀ w ∈ weights, w.IsMagnitude)
    (hfinite : (total weights).isFinite = true) (hmem : w ∈ weights) :
    w.units ≤ (total weights).units := by
  induction weights using List.reverseRecOn with
  | nil => exact nomatch hmem
  | append_singleton weights last ih =>
      rw [List.forall_mem_append, List.forall_mem_singleton] at hweights
      obtain ⟨hbefore, hlast⟩ := hweights
      obtain ⟨hsum, hunits⟩ := total_concat_of_isFinite hbefore hlast hfinite
      rw [hunits]
      rcases List.mem_append.mp hmem with hmem | hmem
      · refine Nat.le_trans (ih hbefore hsum.isFinite hmem) ?_
        exact Format.le_round Nat.one_pos hsum.fits.2 (by omega)
      · rw [List.mem_singleton.mp hmem]
        exact Format.le_round Nat.one_pos hlast.fits.2 (by omega)

theorem pred_mul_add {n : Nat} (hn : 0 < n) (part : ℚ) :
    ((n - 1 : Nat) : ℚ) * part + part = n * part := by
  rw [← add_one_mul, ← Nat.cast_add_one, Nat.sub_add_cancel hn]

/-- The exact total, in units. -/
def exactTotal (weights : List Binary64) : Nat := (weights.map units).sum

/-- A total in range agrees with the exact one up to a roundoff for each addition but the first. -/
theorem agree_total (hweights : ∀ w ∈ weights, w.IsMagnitude)
    (hfinite : (total weights).isFinite = true)
    (hfew : weights.length * binary64.roundoff ≤ 1) :
    Agree ((weights.length - 1 : Nat) * binary64.roundoff)
      (exactTotal weights) (total weights).units := by
  induction weights using List.reverseRecOn with
  | nil =>
      have h := Agree.refl 0
      simpa [exactTotal, total_nil, Numeric.Binary.signedZero, units] using h
  | append_singleton weights w ih =>
      rw [List.forall_mem_append, List.forall_mem_singleton] at hweights
      obtain ⟨hbefore, hw⟩ := hweights
      obtain ⟨hsum, hunits⟩ := total_concat_of_isFinite hbefore hw hfinite
      have hexact : exactTotal (weights ++ [w]) = exactTotal weights + w.units := by
        simp [exactTotal]
      have hε := binary64.roundoff_pos
      rw [hunits, hexact, List.length_append, List.length_singleton, Nat.add_sub_cancel]
      rw [List.length_append, List.length_singleton, Nat.cast_add, Nat.cast_one] at hfew
      rcases eq_or_ne weights [] with rfl | hne
      · -- nothing is lost where zero is added
        have hself := Format.round_eq_self Nat.one_pos hw.fits.2
        rw [Nat.mul_one] at hself
        have hzero : (total []).units = 0 := rfl
        have hzero' : exactTotal [] = 0 := rfl
        rw [hzero, hzero', Nat.zero_add, hself, List.length_nil, Nat.cast_zero, zero_mul]
        exact Agree.refl _
      · have hlen : 0 < weights.length := List.length_pos_iff.mpr hne
        have hbefore' := (ih hbefore hsum.isFinite (by linarith)).add_right
          (mul_nonneg (Nat.cast_nonneg _) hε.le) (Nat.cast_nonneg w.units)
        have hround := Numeric.agree_round binary64 Nat.one_pos
          (Nat.one_dvd ((total weights).units + w.units))
        rw [Nat.cast_one, div_one, Nat.cast_add] at hround
        have hpart := pred_mul_add hlen binary64.roundoff
        rw [← hpart, Nat.cast_add]
        exact hbefore'.trans hround (mul_nonneg (Nat.cast_nonneg _) hε.le) hε.le (by linarith)
          binary64.roundoff_le_one (by positivity) (by positivity)

/-! ## The quota of a weight -/

theorem one_fits : binary64.Fits binary64.one := by
  refine ⟨by decide, ?_⟩
  have h := @Format.gap_dvd_mul_one binary64 1 (by decide)
  rwa [Nat.one_mul] at h

/-- The share of a weight in a total that is not less is a rounded quotient, and not above one. -/
theorem share_of_weight (hw : w.IsMagnitude) (hsum : sum.IsMagnitude) (hpos : 0 < sum.units)
    (hle : w.units ≤ sum.units) :
    (w.div sum).IsMagnitude ∧
      (w.div sum).units = binary64.round (w.units * binary64.one) sum.units ∧
      (w.div sum).units ≤ binary64.one := by
  have hnum : w.units * binary64.one ≤ binary64.one * sum.units := by
    rw [Nat.mul_comm binary64.one]
    exact Nat.mul_le_mul_right _ hle
  obtain ⟨hshare, hunits⟩ := (hw.div hsum hpos).of_le hpos one_fits hnum
  refine ⟨hshare, hunits, ?_⟩
  rw [hunits]
  exact Format.round_le hpos one_fits.2 hnum

/-- The quota of a share is a rounded product, and not above the seats. -/
theorem quota_of_share (hshare : share.IsMagnitude) (hle : share.units ≤ binary64.one)
    (hseats : seats ≤ 2 ^ 53) :
    (share.mul (.ofNat seats)).IsMagnitude ∧
      (share.mul (.ofNat seats)).units =
        binary64.round (share.units * (seats * binary64.one)) binary64.one ∧
      (share.mul (.ofNat seats)).units ≤ seats * binary64.one := by
  have hlt : seats * binary64.one < binary64.limit :=
    Nat.lt_of_le_of_lt (Nat.mul_le_mul_right _ hseats) (by decide)
  obtain ⟨hmagnitude, hof⟩ := Numeric.Binary.units_ofNat hseats hlt
  have hnum : share.units * (seats * binary64.one) ≤ seats * binary64.one * binary64.one :=
    calc share.units * (seats * binary64.one)
        ≤ binary64.one * (seats * binary64.one) := Nat.mul_le_mul_right _ hle
      _ = seats * binary64.one * binary64.one := Nat.mul_comm _ _
  have hfits : binary64.Fits (seats * binary64.one) := ⟨hlt, Format.gap_dvd_mul_one hseats⟩
  have hmul := hshare.mul hmagnitude
  rw [hof] at hmul
  obtain ⟨hquota, hunits⟩ := hmul.of_le binary64.one_pos hfits hnum
  refine ⟨hquota, hunits, ?_⟩
  rw [hunits]
  exact Format.round_le binary64.one_pos hfits.2 hnum

/-- A quota is off by a roundoff, since the product is a whole number of units. -/
theorem abs_quota_sub_le (hshare : share.IsMagnitude) (hle : share.units ≤ binary64.one)
    (hseats : seats ≤ 2 ^ 53) :
    |((share.mul (.ofNat seats)).units : ℚ) - share.units * seats| ≤
      binary64.roundoff * (share.units * seats) := by
  rw [(quota_of_share hshare hle hseats).2.1, ← Nat.mul_assoc]
  have hone0 : ((binary64.one : Nat) : ℚ) ≠ 0 := by exact_mod_cast binary64.one_pos.ne'
  have hround := binary64.abs_round_sub_le_of_dvd binary64.one_pos
    (Nat.dvd_mul_left binary64.one (share.units * seats))
  rwa [Nat.cast_mul _ binary64.one, mul_div_cancel_right₀ _ hone0, Nat.cast_mul] at hround

/-- The whole seats of a share are the whole part of its quota. -/
theorem full_of_share (hshare : share.IsMagnitude) (hle : share.units ≤ binary64.one)
    (hseats : seats ≤ 2 ^ 53) :
    (share.mul (.ofNat seats)).floor.toNatClamped maxCount =
      (share.mul (.ofNat seats)).units / binary64.one := by
  obtain ⟨hquota, -, hbound⟩ := quota_of_share hshare hle hseats
  obtain ⟨hfloor, hwhole⟩ := hquota.floor
  rw [hfloor.toNatClamped, hwhole, Nat.mul_div_cancel _ binary64.one_pos]
  refine Nat.min_eq_left ?_
  have hfull : (share.mul (.ofNat seats)).units / binary64.one ≤ seats :=
    Nat.div_le_of_le_mul (Nat.mul_comm seats _ ▸ hbound)
  exact Nat.le_trans hfull (Nat.le_trans hseats (by decide))

/-! ## Sums and whole parts -/

/-- Errors with a fixed and a relative part add up over a list. -/
theorem abs_sum_sub_le {α : Type} (items : List α) (computed exact : α → Nat)
    (factor fixed relative : ℚ)
    (h : ∀ a ∈ items, |(computed a : ℚ) - exact a * factor| ≤
      fixed + relative * (exact a * factor)) :
    |((items.map computed).sum : ℚ) - (items.map exact).sum * factor| ≤
      items.length * fixed + relative * ((items.map exact).sum * factor) := by
  induction items with
  | nil => simp
  | cons a items ih =>
      have hfirst := h a List.mem_cons_self
      have hrest := ih fun b hb => h b (List.mem_cons_of_mem a hb)
      have hsplit : ((computed a + (items.map computed).sum : Nat) : ℚ) -
            (exact a + (items.map exact).sum : Nat) * factor =
          (computed a - exact a * factor) +
            ((items.map computed).sum - (items.map exact).sum * factor) := by
        push_cast
        ring
      rw [List.map_cons, List.sum_cons, List.map_cons, List.sum_cons, hsplit]
      refine le_trans (abs_add_le _ _) (le_trans (add_le_add hfirst hrest) (le_of_eq ?_))
      rw [List.length_cons]
      push_cast
      ring

/-- The whole parts of some quantities leave less than one over for each. -/
theorem sum_div_bounds (quantities : List Nat) {one : Nat} (hone : 0 < one) :
    (quantities.map (· / one)).sum * one ≤ quantities.sum ∧
      quantities.sum ≤ ((quantities.map (· / one)).sum + quantities.length) * one := by
  induction quantities with
  | nil => simp
  | cons q quantities ih =>
      obtain ⟨hlow, hhigh⟩ := ih
      have hq := Nat.div_add_mod' q one
      have hr := Nat.mod_lt q hone
      rw [List.map_cons, List.sum_cons, List.sum_cons, List.length_cons]
      constructor
      · rw [Nat.add_mul]
        omega
      · rw [Nat.add_mul] at hhigh ⊢
        rw [Nat.add_mul, Nat.add_mul _ 1, Nat.one_mul]
        omega

/-- Quotas that agree with the seats up to less than one seat leave over no less than nothing, and
    no more than one seat for each of them. -/
theorem whole_of_agree {part one quotas : ℚ} {whole n : Nat} (hone : 0 < one)
    (hagree : Agree part (seats * one) quotas) (hpart : (seats + 1) * part < 1) (hpart0 : 0 ≤ part)
    (hlow : whole * one ≤ quotas) (hhigh : quotas ≤ (whole + n) * one) :
    whole ≤ seats ∧ seats ≤ whole + n := by
  have hscaled : (seats + 1) * part * one < one := by
    linarith [mul_lt_mul_of_pos_right hpart hone]
  have hpart1 : part < 1 := by
    linarith [mul_nonneg (Nat.cast_nonneg (α := ℚ) seats) hpart0]
  constructor
  · by_contra hmore
    have hmore' : (seats + 1 : ℚ) ≤ whole := by exact_mod_cast Nat.lt_of_not_le hmore
    have h₁ : (1 - part) * ((seats + 1) * one) ≤ seats * one :=
      calc (1 - part) * ((seats + 1) * one)
          ≤ (1 - part) * quotas := by
            refine mul_le_mul_of_nonneg_left ?_ (by linarith)
            exact le_trans (mul_le_mul_of_nonneg_right hmore' hone.le) hlow
        _ ≤ seats * one := hagree.le_left
    linarith
  · by_contra hless
    have hless' : (whole + n + 1 : ℚ) ≤ seats := by exact_mod_cast Nat.lt_of_not_le hless
    have h₁ : (1 - part) * (seats * one) ≤ (seats - 1) * one :=
      calc (1 - part) * (seats * one)
          ≤ quotas := hagree.le_right
        _ ≤ (whole + n) * one := hhigh
        _ ≤ (seats - 1) * one := mul_le_mul_of_nonneg_right (by linarith) hone.le
    linarith [mul_nonneg hpart0 hone.le]

/-- With few enough weights and seats, what is lost of all seats and one more is not a whole one. -/
theorem lost_lt_one {n : Nat} (hfew : (n + 1) * (seats + 1) < 2 ^ 53) :
    (seats + 1) * ((n + 1) * binary64.roundoff + binary64.roundoff ^ 2) < 1 := by
  have hs : seats + 1 ≤ (n + 1) * (seats + 1) := Nat.le_mul_of_pos_left _ (Nat.succ_pos n)
  have hs' : (seats + 1 : ℚ) < 2 ^ 53 := by exact_mod_cast Nat.lt_of_le_of_lt hs hfew
  have hfew' : (n + 1 : ℚ) * (seats + 1) + 1 ≤ 2 ^ 53 := by
    exact_mod_cast Nat.succ_le_of_lt hfew
  have hε : 0 < binary64.roundoff := binary64.roundoff_pos
  have hunit : binary64.roundoff * 2 ^ 53 = 1 := by
    show (1 : ℚ) / 2 ^ 53 * 2 ^ 53 = 1
    norm_num
  calc (seats + 1) * ((n + 1) * binary64.roundoff + binary64.roundoff ^ 2)
      = ((n + 1) * (seats + 1)) * binary64.roundoff +
          (seats + 1) * binary64.roundoff * binary64.roundoff := by ring
    _ < (2 ^ 53 - 1) * binary64.roundoff + 2 ^ 53 * binary64.roundoff * binary64.roundoff := by
        refine add_lt_add_of_le_of_lt (mul_le_mul_of_nonneg_right (by linarith) hε.le) ?_
        exact mul_lt_mul_of_pos_right (mul_lt_mul_of_pos_right hs' hε) hε
    _ = 1 := by linear_combination (1 + binary64.roundoff) * hunit

/-! ## All quotas together -/

/-- All weights over their total, in units and not rounded. -/
def exactShares (weights : List Binary64) : ℚ :=
  exactTotal weights * (binary64.one / (total weights).units)

/-- The units of all shares together. -/
def sharesTotal (weights : List Binary64) : Nat :=
  (weights.map fun w => (w.div (total weights)).units).sum

/-- The units of all quotas together. -/
def quotasTotal (weights : List Binary64) (seats : Nat) : Nat :=
  (weights.map fun w => ((w.div (total weights)).mul (.ofNat seats)).units).sum

/-- The whole parts of all quotas together. -/
def wholeSeats (weights : List Binary64) (seats : Nat) : Nat :=
  (weights.map fun w =>
    ((w.div (total weights)).mul (.ofNat seats)).floor.toNatClamped maxCount).sum

section

variable (hweights : ∀ w ∈ weights, w.IsMagnitude) (hfinite : (total weights).isFinite = true)
  (hpos : 0 < (total weights).units)

include hweights hfinite hpos

theorem share_of_mem (hw : w ∈ weights) :
    (w.div (total weights)).IsMagnitude ∧
      (w.div (total weights)).units =
        binary64.round (w.units * binary64.one) (total weights).units ∧
      (w.div (total weights)).units ≤ binary64.one :=
  share_of_weight (hweights w hw) (isMagnitude_total hweights hfinite) hpos
    (units_le_total hweights hfinite hw)

/-- Each share is off by half a unit, where it is very small, or else by a roundoff. -/
theorem abs_sharesTotal_sub_le :
    |(sharesTotal weights : ℚ) - exactShares weights| ≤
      weights.length * (1 / 2) + binary64.roundoff * exactShares weights := by
  refine abs_sum_sub_le weights _ _ _ _ _ ?_
  intro w hw
  rw [(share_of_mem hweights hfinite hpos hw).2.1]
  have hround := binary64.abs_round_sub_le (w.units * binary64.one) hpos
  rwa [Nat.cast_mul, mul_div_assoc] at hround

/-- All quotas together are off by a roundoff, as each of them is. -/
theorem abs_quotasTotal_sub_le (hseats : seats ≤ 2 ^ 53) :
    |(quotasTotal weights seats : ℚ) - sharesTotal weights * seats| ≤
      binary64.roundoff * (sharesTotal weights * seats) := by
  have h := abs_sum_sub_le weights
    (fun w => ((w.div (total weights)).mul (.ofNat seats)).units)
    (fun w => (w.div (total weights)).units) seats 0 binary64.roundoff ?_
  · rwa [mul_zero, zero_add] at h
  intro w hw
  obtain ⟨hshare, -, hone⟩ := share_of_mem hweights hfinite hpos hw
  rw [zero_add]
  exact abs_quota_sub_le hshare hone hseats

/-- The exact shares agree with one as the total does with the exact one. -/
theorem agree_exactShares (hfew : weights.length * binary64.roundoff ≤ 1) :
    Agree ((weights.length - 1 : Nat) * binary64.roundoff) binary64.one (exactShares weights) := by
  have hpos' : ((total weights).units : ℚ) ≠ 0 := by exact_mod_cast hpos.ne'
  have hscale : (0 : ℚ) ≤ binary64.one / (total weights).units :=
    div_nonneg (Nat.cast_nonneg _) (Nat.cast_nonneg _)
  have htotal := (agree_total hweights hfinite hfew).mul_left hscale
  rw [div_mul_cancel₀ _ hpos', mul_comm (binary64.one / _ : ℚ)] at htotal
  exact htotal.symm

/-- Half a unit for each weight is next to nothing beside the shares. -/
theorem half_units_le (hfew : weights.length * binary64.roundoff ≤ 1 - binary64.roundoff) :
    0 ≤ exactShares weights ∧
      weights.length * (1 / 2) ≤ binary64.roundoff ^ 2 * exactShares weights := by
  have hε : 0 < binary64.roundoff := binary64.roundoff_pos
  have hε' : binary64.roundoff = 1 / 2 ^ 53 := rfl
  have hagree := (agree_exactShares hweights hfinite hpos (by linarith)).le_right
  have hone : (2 : ℚ) ^ 212 ≤ binary64.one := by
    exact_mod_cast (by decide : 2 ^ 212 ≤ binary64.one)
  generalize ((binary64.one : Nat) : ℚ) = one at hagree hone
  have hone0 : 0 ≤ one := le_trans (by positivity) hone
  have hlow : binary64.roundoff * one ≤ exactShares weights := by
    refine le_trans (mul_le_mul_of_nonneg_right ?_ hone0) hagree
    have hfirst : ((weights.length - 1 : Nat) : ℚ) ≤ weights.length :=
      Nat.cast_le.mpr (Nat.sub_le _ _)
    linarith [mul_le_mul_of_nonneg_right hfirst hε.le]
  refine ⟨le_trans (mul_nonneg hε.le hone0) hlow, ?_⟩
  refine le_trans ?_ (mul_le_mul_of_nonneg_left hlow (sq_nonneg _))
  rw [hε'] at hfew ⊢
  linarith

/-- The shares agree with one up to a roundoff for each weight, and next to nothing. -/
theorem agree_shares (hfew : weights.length * binary64.roundoff ≤ 1 - binary64.roundoff) :
    Agree (weights.length * binary64.roundoff + binary64.roundoff ^ 2)
      binary64.one (sharesTotal weights) := by
  have hε : 0 < binary64.roundoff := binary64.roundoff_pos
  have hpart : binary64.roundoff + binary64.roundoff ^ 2 ≤ 1 := by
    rw [show binary64.roundoff = 1 / 2 ^ 53 from rfl]
    norm_num
  have hlength : 0 < weights.length := by
    refine List.length_pos_iff.mpr ?_
    rintro rfl
    exact Nat.lt_irrefl 0 hpos
  have hfirst := pred_mul_add hlength binary64.roundoff
  obtain ⟨hexact0, hhalf⟩ := half_units_le hweights hfinite hpos hfew
  have hexact := agree_exactShares hweights hfinite hpos (by linarith)
  have hnear := abs_sharesTotal_sub_le hweights hfinite hpos
  have hshares : Agree (binary64.roundoff + binary64.roundoff ^ 2) (exactShares weights)
      (sharesTotal weights) :=
    .of_abs_sub_le (by positivity) hpart hexact0 (by linarith)
  have hchain := hexact.trans hshares (mul_nonneg (Nat.cast_nonneg _) hε.le) (by positivity)
    (by linarith) hpart (Nat.cast_nonneg _) (Nat.cast_nonneg _)
  rwa [← add_assoc, hfirst] at hchain

/-- The quotas agree with the seats up to a roundoff for each weight and one more, and next to
    nothing. -/
theorem agree_quotas (hseats : seats ≤ 2 ^ 53)
    (hfew : weights.length * binary64.roundoff ≤ 1 - binary64.roundoff) :
    Agree ((weights.length + 1) * binary64.roundoff + binary64.roundoff ^ 2)
      (seats * binary64.one) (quotasTotal weights seats) := by
  have hε : 0 < binary64.roundoff := binary64.roundoff_pos
  have hsquare : binary64.roundoff ^ 2 ≤ binary64.roundoff := by
    rw [sq]
    exact mul_le_of_le_one_left hε.le binary64.roundoff_le_one
  have hshares := (agree_shares hweights hfinite hpos hfew).mul_left (Nat.cast_nonneg seats)
  have hquotas := abs_quotasTotal_sub_le hweights hfinite hpos hseats
  rw [mul_comm (sharesTotal weights : ℚ)] at hquotas
  have hround := Agree.of_abs_sub_le hε.le binary64.roundoff_le_one (by positivity) hquotas
  have hchain := hshares.trans hround (by positivity) hε.le (by linarith)
    binary64.roundoff_le_one (mul_nonneg (Nat.cast_nonneg _) (Nat.cast_nonneg _)) (by positivity)
  convert hchain using 1
  ring

/-- The whole parts are whole parts of units. -/
theorem wholeSeats_eq (hseats : seats ≤ 2 ^ 53) :
    wholeSeats weights seats =
      ((weights.map fun w => ((w.div (total weights)).mul (.ofNat seats)).units).map
        (· / binary64.one)).sum := by
  rw [List.map_map]
  refine congrArg List.sum (List.map_congr_left ?_)
  intro w hw
  obtain ⟨hshare, -, hone⟩ := share_of_mem hweights hfinite hpos hw
  exact full_of_share hshare hone hseats

/-- Where the total is in range and weights and seats are few enough, the seats that are left over
    are no more than the weights. -/
theorem wholeSeats_bounds (hfew : (weights.length + 1) * (seats + 1) < 2 ^ 53) :
    wholeSeats weights seats ≤ seats ∧ seats ≤ wholeSeats weights seats + weights.length := by
  have hε : 0 < binary64.roundoff := binary64.roundoff_pos
  have hpart0 : 0 ≤ (weights.length + 1) * binary64.roundoff + binary64.roundoff ^ 2 := by
    positivity
  have hpart := lost_lt_one hfew
  have hone' : (weights.length + 1) * binary64.roundoff + binary64.roundoff ^ 2 ≤ 1 := by
    linarith [mul_nonneg (Nat.cast_nonneg (α := ℚ) seats) hpart0]
  have hmore : seats + 1 ≤ (weights.length + 1) * (seats + 1) :=
    Nat.le_mul_of_pos_left _ (Nat.succ_pos weights.length)
  have hseats : seats ≤ 2 ^ 53 := by omega
  have hagree := agree_quotas hweights hfinite hpos hseats
    (by linarith [sq_nonneg binary64.roundoff])
  obtain ⟨hlow, hhigh⟩ := sum_div_bounds
    (weights.map fun w => ((w.div (total weights)).mul (.ofNat seats)).units) binary64.one_pos
  rw [← wholeSeats_eq hweights hfinite hpos hseats] at hlow hhigh
  rw [List.length_map] at hhigh
  have hone : (0 : ℚ) < binary64.one := Nat.cast_pos.mpr binary64.one_pos
  generalize binary64.one = one at hone hlow hhigh hagree
  exact whole_of_agree hone hagree hpart hpart0 (by exact_mod_cast hlow)
    (by exact_mod_cast hhigh)

end

/-! ## Handing out -/

theorem firstInvalid?_eq_none (hweights : ∀ w ∈ weights, isWeight w = true) :
    firstInvalid? weights = none := by
  unfold firstInvalid?
  rw [Option.map_eq_none_iff, List.find?_eq_none]
  rintro ⟨v, i⟩ hv
  simp [hweights v (List.fst_mem_of_mem_zipIdx hv)]

/-- Weights of which one is positive have shares. -/
theorem shares_eq (hweights : ∀ w ∈ weights, w.IsMagnitude)
    (hpositive : ∃ w ∈ weights, 0 < w.units) :
    shares weights = .ok (weights.map (·.div (total weights))) := by
  obtain ⟨w, hw, hunits⟩ := hpositive
  have hne : weights ≠ [] := List.ne_nil_of_mem hw
  have hvalid : firstInvalid? weights = none :=
    firstInvalid?_eq_none fun v hv => isWeight_iff.mpr (hweights v hv)
  have hnotle : (total weights).le (.signedZero false) = false := by
    rcases total_cases hweights with hsum | hinfinite
    · rw [Bool.eq_false_iff, Ne, hsum.le_zero_iff]
      have := units_le_total hweights hsum.isFinite hw
      omega
    · rw [hinfinite]
      decide
  rw [shares, if_neg hne, hvalid]
  simp [hnotle]

/-- Where the total is out of range no weight has a share. -/
theorem wholeSeats_of_infinite (hweights : ∀ w ∈ weights, w.IsMagnitude)
    (hinfinite : total weights = .infinite false) (hseats : seats ≤ 2 ^ 53) :
    wholeSeats weights seats = 0 := by
  refine List.sum_eq_zero ?_
  intro whole hwhole
  obtain ⟨w, hw, rfl⟩ := List.mem_map.mp hwhole
  rw [hinfinite]
  obtain ⟨hshare, hzero⟩ := (hweights w hw).div_infinite
  have hle : (w.div (.infinite false)).units ≤ binary64.one := hzero ▸ Nat.zero_le _
  have hquota := (quota_of_share hshare hle hseats).2.1
  rw [hzero, Nat.zero_mul, binary64.round_zero binary64.one_pos] at hquota
  rw [full_of_share hshare hle hseats, hquota, Nat.zero_div]

/-- Each weight gets a count. The counts add up to the whole seats, and as many of the others as there
    are weights. -/
theorem sum_handOut {σ : Type} (source : Source σ) (weights : List Binary64) (seats : Nat) (s : σ) :
    (handOut source (weights.map (·.div (total weights))) seats s).1.length = weights.length ∧
      (handOut source (weights.map (·.div (total weights))) seats s).1.sum =
        wholeSeats weights seats + min (seats - wholeSeats weights seats) weights.length := by
  have hlength := source.length_draws (weights.map (·.div (total weights))).length s
  have hentitlements := length_entitlements seats hlength
  have hfull : fullSeats (entitlements seats (weights.map (·.div (total weights)))
      (source.draws (weights.map (·.div (total weights))).length s).1) =
        wholeSeats weights seats := by
    rw [fullSeats, map_full_entitlements seats hlength, List.map_map]
    rfl
  unfold handOut
  constructor
  · rw [length_counts, hentitlements, List.length_map]
  · rw [sum_counts (nodup_index_entitlements _ _ _), hfull, hentitlements, List.length_map]

/-- The whole seats are no more than there are, and leave over no more than one for each weight. -/
def ComesOut (weights : List Binary64) (seats : Nat) : Prop :=
  wholeSeats weights seats ≤ seats ∧ seats ≤ wholeSeats weights seats + weights.length

/-- The counts add up to the seats where the whole seats allow that. -/
theorem sum_handOut_eq_iff {σ : Type} (source : Source σ) (s : σ) :
    (handOut source (weights.map (·.div (total weights))) seats s).1.sum = seats ↔
      ComesOut weights seats := by
  rw [(sum_handOut source weights seats s).2, ComesOut]
  omega

section

variable {σ : Type} (source : Source σ) (s : σ) (hweights : ∀ w ∈ weights, w.IsMagnitude)
  (hpositive : ∃ w ∈ weights, 0 < w.units)

include hweights hpositive

theorem apportion_of_sum_eq
    (hsum : (handOut source (weights.map (·.div (total weights))) seats s).1.sum = seats) :
    apportion source weights seats s =
      .ok (.ok (handOut source (weights.map (·.div (total weights))) seats s).1,
        (handOut source (weights.map (·.div (total weights))) seats s).2) := by
  rw [List.sum_eq_foldl_nat] at hsum
  rw [apportion, shares_eq hweights hpositive]
  exact if_pos hsum

theorem apportion_of_sum_ne
    (hsum : (handOut source (weights.map (·.div (total weights))) seats s).1.sum ≠ seats) :
    apportion source weights seats s = .error .miscount := by
  rw [List.sum_eq_foldl_nat] at hsum
  rw [apportion, shares_eq hweights hpositive]
  exact if_neg hsum

/-- Where the seats come out, they are all handed out. -/
theorem apportion_of_comesOut (hout : ComesOut weights seats) :
    ∃ counts s', apportion source weights seats s = .ok (.ok counts, s') ∧
      counts.length = weights.length ∧ counts.sum = seats := by
  have hsum := (sum_handOut_eq_iff source s).mpr hout
  exact ⟨_, _, apportion_of_sum_eq source s hweights hpositive hsum,
    (sum_handOut source weights seats s).1, hsum⟩

/-- Where they do not, none is. -/
theorem apportion_of_not_comesOut (hout : ¬ ComesOut weights seats) :
    apportion source weights seats s = .error .miscount :=
  apportion_of_sum_ne source s hweights hpositive (mt (sum_handOut_eq_iff source s).mp hout)

end

/-- Weights of which one is positive are apportioned, with a count for each and the counts adding up
    to the seats, exactly when the whole seats leave over no more than the weights can take. That they
    do if the total of the weights is in range and weights and seats are few enough, and if the total
    is out of range and there is a weight for each seat. Otherwise the counts would not add up, and
    nothing is apportioned. -/
theorem sum_apportion {σ : Type} (source : Source σ) (s : σ)
    (hweights : ∀ w ∈ weights, isWeight w = true)
    (hpositive : ∃ w ∈ weights, (Binary.signedZero false).lt w = true) (hseats : seats ≤ 2 ^ 53) :
    (ComesOut weights seats → ∃ counts s', apportion source weights seats s = .ok (.ok counts, s') ∧
      counts.length = weights.length ∧ counts.sum = seats) ∧
    (¬ ComesOut weights seats → apportion source weights seats s = .error .miscount) ∧
    ((total weights).isFinite = true → (weights.length + 1) * (seats + 1) < 2 ^ 53 →
      ComesOut weights seats) ∧
    ((total weights).isFinite = false → (ComesOut weights seats ↔ seats ≤ weights.length)) := by
  have hmagnitudes : ∀ w ∈ weights, w.IsMagnitude := fun w hw => isWeight_iff.mp (hweights w hw)
  obtain ⟨w, hw, hlt⟩ := hpositive
  have hunits : 0 < w.units := (hmagnitudes w hw).zero_lt_iff.mp hlt
  have hsome : ∃ w ∈ weights, 0 < w.units := ⟨w, hw, hunits⟩
  refine ⟨apportion_of_comesOut source s hmagnitudes hsome,
    apportion_of_not_comesOut source s hmagnitudes hsome, ?_, ?_⟩
  · intro hfinite hfew
    have hpos := Nat.lt_of_lt_of_le hunits (units_le_total hmagnitudes hfinite hw)
    exact wholeSeats_bounds hmagnitudes hfinite hpos hfew
  · intro hfinite
    rcases total_cases hmagnitudes with htotal | hinfinite
    · rw [htotal.isFinite] at hfinite
      exact nomatch hfinite
    · rw [ComesOut, wholeSeats_of_infinite hmagnitudes hinfinite hseats]
      omega

-- the whole seats of one and four can be more than there are seats
example : wholeSeats [.ofNat 1, .ofNat 4] (2 ^ 53 - 3) = 2 ^ 53 - 2 := by decide +kernel

/-- Two weights in range, whose total is not. -/
def outOfRange : List Binary64 := [.ofNat (10 ^ 308), .ofNat (10 ^ 308)]

/-- Of four seats two would not be handed out where the total is out of range, and so none is. -/
theorem seats_lost_out_of_range :
    (∀ w ∈ outOfRange, isWeight w = true) ∧
      (∃ w ∈ outOfRange, (Binary.signedZero false).lt w = true) ∧ 4 ≤ 2 ^ 53 ∧
      (handOut Chance.Generator.source (outOfRange.map (·.div (total outOfRange))) 4
        (.seeded 1)).1.sum = 2 ∧
      apportion Chance.Generator.source outOfRange 4 (.seeded 1) = .error .miscount := by
  have hweights : ∀ w ∈ outOfRange, isWeight w = true := by decide +kernel
  have hpositive : ∃ w ∈ outOfRange, (Binary.signedZero false).lt w = true := by decide +kernel
  have hmagnitudes : ∀ w ∈ outOfRange, w.IsMagnitude := fun w hw =>
    isWeight_iff.mp (hweights w hw)
  have hwhole : wholeSeats outOfRange 4 = 0 := by decide +kernel
  have hsum := (sum_handOut Chance.Generator.source outOfRange 4 (.seeded 1)).2
  rw [hwhole] at hsum
  refine ⟨hweights, hpositive, by decide, hsum, ?_⟩
  obtain ⟨w, hw, hlt⟩ := hpositive
  refine apportion_of_sum_ne Chance.Generator.source (.seeded 1) hmagnitudes
    ⟨w, hw, (hmagnitudes w hw).zero_lt_iff.mp hlt⟩ ?_
  rw [hsum]
  decide

/-- Two weights with their total in range. -/
def oneAndThree : List Binary64 := [.ofNat 1, .ofNat 3]

/-- All of ten seats are handed out. -/
theorem sum_apportion_one_and_three :
    (∀ w ∈ oneAndThree, isWeight w = true) ∧
      (∃ w ∈ oneAndThree, (Binary.signedZero false).lt w = true) ∧ 10 ≤ 2 ^ 53 ∧
      (total oneAndThree).isFinite = true ∧
      ∃ counts s', apportion Chance.Generator.source oneAndThree 10 (.seeded 1) =
        .ok (.ok counts, s') ∧ counts.length = 2 ∧ counts.sum = 10 := by
  have hweights : ∀ w ∈ oneAndThree, isWeight w = true := by decide +kernel
  have hpositive : ∃ w ∈ oneAndThree, (Binary.signedZero false).lt w = true := by decide +kernel
  have hfinite : (total oneAndThree).isFinite = true := by decide +kernel
  obtain ⟨hall, -, hfew, -⟩ :=
    sum_apportion Chance.Generator.source (.seeded 1) hweights hpositive (by decide : 10 ≤ 2 ^ 53)
  exact ⟨hweights, hpositive, by decide, hfinite, hall (hfew hfinite (by decide))⟩

end Apportion

end Rehome
