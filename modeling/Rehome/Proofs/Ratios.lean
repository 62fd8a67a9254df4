import Rehome.Proofs.Remainders
import Rehome.Proofs.Splitting

/-!
# Ratios — how many items a ratio moves

A ratio and what is left of one beside it add up to one after rounding, though one minus the ratio
was rounded before (`units_total_pair`): the sum is off by a quarter of the gap of one at most, and
where it lies halfway between two magnitudes one is the even one of them. So the shares are the
two weights themselves, and what is lost is lost in the two products.

With no more than `2 ^ 51` items that is a quarter of an item for each. So none, one or two seats
are left over, and one that is left over goes to the larger remainder. That keeps the count less
than one item away from the exact product (`abs_sub_lt_of_counts`), and so it is never more than the
items that there are to sample from (`transferSize_near`).
-/

namespace Rehome

open Numeric (Binary64 Binary Format binary64)
open Numeric.Binary (IsMagnitude units)
open Chance (Source)

namespace Numeric

/-! ## Rounding to one -/

/-- A quotient that is off an even integer by a half at most is rounded to it. -/
theorem roundDiv_eq_of_even {num den k : Nat} (hden : 0 < den) (heven : k % 2 = 0)
    (hlow : 2 * (k * den) ≤ 2 * num + den) (hhigh : 2 * num ≤ 2 * (k * den) + den) :
    roundDiv num den = k := by
  have hsplit := Nat.div_add_mod' num den
  have hrest := Nat.mod_lt num hden
  have hle : num / den < k + 1 := by
    refine Nat.div_lt_of_lt_mul ?_
    rw [Nat.mul_comm, Nat.add_mul]
    omega
  have hge : k < num / den + 2 := by
    refine Nat.lt_of_mul_lt_mul_right (a := den) ?_
    rw [Nat.add_mul]
    omega
  unfold roundDiv
  dsimp only
  rcases Nat.lt_or_ge (num / den) k with hlt | hge'
  · -- the integer is the next one, and the quotient is odd
    obtain rfl : k = num / den + 1 := by omega
    rw [Nat.add_mul] at hlow
    rw [if_neg (by omega)]
    split <;> omega
  · obtain rfl : k = num / den := by omega
    rw [heven, if_neg (by omega : ¬ den < 2 * (num % den))]
    split <;> rfl

namespace Format

variable {f : Format} {n e : Nat}

theorem gap_le (h : n < 2 * (2 ^ f.precision * 2 ^ e)) : f.gap n ≤ 2 * 2 ^ e := by
  have hexcess : f.excess n ≤ e + 1 := by
    refine excess_le ?_
    rw [Nat.one_shiftLeft, ← Nat.add_assoc, Nat.pow_succ', Nat.pow_add]
    exact h
  rw [gap_eq, ← Nat.pow_succ']
  exact Nat.pow_le_pow_right (by decide) hexcess

/-- Between two powers of two that follow each other there is one gap. -/
theorem gap_of_bounds (hlow : 2 ^ f.precision * 2 ^ e ≤ n)
    (hhigh : n < 2 * (2 ^ f.precision * 2 ^ e)) : f.gap n = 2 * 2 ^ e := by
  refine Nat.le_antisymm (gap_le hhigh) ?_
  have hlt := Nat.lt_of_le_of_lt hlow (f.lt_pow_mul_gap n)
  rw [gap_eq] at hlt ⊢
  have hexcess := (Nat.pow_lt_pow_iff_right (by decide : 1 < 2)).mp (Nat.lt_of_mul_lt_mul_left hlt)
  rw [← Nat.pow_succ']
  exact Nat.pow_le_pow_right (by decide) hexcess

/-- Rounding a whole number of units is off by half the gap there. -/
theorem round_near (f : Format) (n : Nat) :
    2 * f.round n 1 ≤ 2 * n + f.gap n ∧ 2 * n ≤ 2 * f.round n 1 + f.gap n := by
  have hnear := roundDiv_near n (Nat.mul_pos Nat.one_pos (f.gap_pos (n / 1)))
  rw [Nat.div_one, Nat.one_mul] at hnear
  rw [round, Nat.div_one, Nat.one_mul]
  exact hnear

/-- What is off a power of two by a quarter of the gap there is rounded to it. -/
theorem round_eq_pow (hprecision : 2 ≤ f.precision)
    (hlow : 2 * (2 ^ f.precision * 2 ^ e) ≤ n + 2 ^ e)
    (hhigh : n ≤ 2 * (2 ^ f.precision * 2 ^ e) + 2 ^ e) :
    f.round n 1 = 2 * (2 ^ f.precision * 2 ^ e) := by
  have hpos : 0 < 2 ^ e := Nat.two_pow_pos e
  have hdigits : 2 ^ f.precision = 2 * (2 * 2 ^ (f.precision - 2)) := by
    rw [← Nat.pow_succ', ← Nat.pow_succ']
    congr 1
    omega
  have hmany : 4 * 2 ^ e ≤ 2 ^ f.precision * 2 ^ e := by
    refine Nat.mul_le_mul_right _ ?_
    have := Nat.two_pow_pos (f.precision - 2)
    omega
  rw [round, Nat.div_one, Nat.one_mul]
  rcases Nat.lt_or_ge n (2 * (2 ^ f.precision * 2 ^ e)) with hbelow | habove
  · -- the power is the gap there times all digits
    have hproduct : 2 ^ f.precision * (2 * 2 ^ e) = 2 * (2 ^ f.precision * 2 ^ e) := by ring
    rw [gap_of_bounds (by omega) hbelow,
      roundDiv_eq_of_even (k := 2 ^ f.precision) (by omega) (by omega) (by omega) (by omega)]
    exact hproduct
  · -- the gap there is twice as large
    have hdouble : 2 ^ f.precision * 2 ^ (e + 1) = 2 * (2 ^ f.precision * 2 ^ e) := by ring
    have hproduct : 2 * 2 ^ (f.precision - 2) * (2 * 2 ^ (e + 1)) =
        2 * (2 ^ f.precision * 2 ^ e) := by
      rw [hdigits]
      ring
    have hgap : f.gap n = 2 * 2 ^ (e + 1) := gap_of_bounds (by omega) (by omega)
    have hgap' : 2 * 2 ^ (e + 1) = 4 * 2 ^ e := by ring
    rw [hgap, roundDiv_eq_of_even (k := 2 * 2 ^ (f.precision - 2)) (by omega) (by omega) (by omega)
      (by omega)]
    exact hproduct

end Format

/-- The exact value of a finite value. The others have none, for which zero stands. -/
def Binary.value {f : Format} : Binary f → ℚ
  | .finite negative units _ => signed negative units / f.one
  | _ => 0

theorem Binary.IsMagnitude.value_eq {f : Format} {a : Binary f} (ha : a.IsMagnitude) :
    a.value = a.units / f.one := by
  cases ha with
  | unsigned x hx =>
      show (((x : Int) : ℚ)) / f.one = x / f.one
      rw [Int.cast_natCast]
  | minusZero =>
      show (((-((0 : Nat) : Int) : Int) : ℚ)) / f.one = (0 : Nat) / f.one
      rw [Nat.cast_zero, neg_zero, Int.cast_zero, Nat.cast_zero]

end Numeric

/-! ## A ratio and the rest of one -/

/-- One is a power of two with all digits and a quarter of its gap. -/
theorem one_eq_pow : ∃ e, binary64.one = 2 * (2 ^ binary64.precision * 2 ^ e) :=
  ⟨1020, by decide +kernel⟩

/-- The shares of weights in a total of one are the weights. -/
theorem Apportion.share_of_total_one {w sum : Binary64} (hw : w.IsMagnitude)
    (hle : w.units ≤ binary64.one) (hsum : sum.IsMagnitude) (hone : sum.units = binary64.one) :
    (w.div sum).IsMagnitude ∧ (w.div sum).units = w.units := by
  obtain ⟨hshare, hunits, -⟩ :=
    share_of_weight hw hsum (hone ▸ binary64.one_pos) (hone ▸ hle)
  rw [hone, Format.round_eq_self binary64.one_pos hw.fits.2] at hunits
  exact ⟨hshare, hunits⟩

section

variable {ratio : Binary64} (hratio : Settings.InUnitInterval ratio)

include hratio

/-- Rounding what is left of one beside a ratio is off by a quarter of the gap of one. -/
theorem complement_near {e : Nat} (hone : binary64.one = 2 * (2 ^ binary64.precision * 2 ^ e)) :
    binary64.one ≤ ratio.units + ((Binary.ofNat 1).sub ratio).units + 2 ^ e ∧
      ratio.units + ((Binary.ofNat 1).sub ratio).units ≤ binary64.one + 2 ^ e := by
  obtain ⟨-, hle⟩ := isMagnitude_of_inUnitInterval hratio
  rw [(rounded_complement hratio).2]
  rcases Nat.eq_zero_or_pos ratio.units with hzero | hpos
  · -- one itself is not rounded
    have hself := Format.round_eq_self Nat.one_pos Apportion.one_fits.2
    rw [Nat.mul_one] at hself
    rw [hzero, Nat.sub_zero, hself, Nat.zero_add]
    exact ⟨Nat.le_add_right _ _, Nat.le_add_right _ _⟩
  · obtain ⟨hlow, hhigh⟩ := binary64.round_near (binary64.one - ratio.units)
    have hgap : binary64.gap (binary64.one - ratio.units) ≤ 2 * 2 ^ e := by
      refine Format.gap_le ?_
      omega
    omega

/-- A ratio and what is left of one beside it have the total one. -/
theorem units_total_pair :
    (Apportion.total [ratio, (Binary.ofNat 1).sub ratio]).IsMagnitude ∧
      (Apportion.total [ratio, (Binary.ofNat 1).sub ratio]).units = binary64.one := by
  obtain ⟨hfirst, hfirst_le⟩ := isMagnitude_of_inUnitInterval hratio
  obtain ⟨hsecond, hsecond_le, -⟩ := complement_of_inUnitInterval hratio
  obtain ⟨e, hone⟩ := one_eq_pow
  obtain ⟨hlow, hhigh⟩ := complement_near hratio hone
  generalize (Binary.ofNat 1).sub ratio = rest at hsecond hsecond_le hlow hhigh
  have hweights : ∀ w ∈ [ratio, rest], w.IsMagnitude := by simp [hfirst, hsecond]
  have hle : ∀ w ∈ [ratio, rest], w.units ≤ binary64.one := by simp [hfirst_le, hsecond_le]
  obtain ⟨hsum, -⟩ := Apportion.total_of_le_one hweights hle (show 2 ≤ 2 ^ 53 by decide)
  refine ⟨hsum, ?_⟩
  -- the first sum adds the ratio to zero, and the second one the rest to the ratio
  have hnil : ∀ w ∈ ([] : List Binary64), w.IsMagnitude := fun w hw => nomatch hw
  have hfirsts : ∀ w ∈ [ratio], w.IsMagnitude := by simp [hfirst]
  obtain ⟨hbefore, hunits⟩ := Apportion.total_concat_of_isFinite hfirsts hsecond hsum.isFinite
  obtain ⟨-, hratio_units⟩ := Apportion.total_concat_of_isFinite hnil hfirst hbefore.isFinite
  have hself := Format.round_eq_self Nat.one_pos hfirst.fits.2
  have hzero : (Apportion.total []).units = 0 := rfl
  rw [hzero, Nat.zero_add, ← Nat.mul_one ratio.units, hself] at hratio_units
  calc (Apportion.total [ratio, rest]).units
      = binary64.round ((Apportion.total [ratio]).units + rest.units) 1 := hunits
    _ = binary64.round (ratio.units + rest.units) 1 := congrArg (binary64.round · 1)
        (congrArg (· + rest.units) hratio_units)
    _ = 2 * (2 ^ binary64.precision * 2 ^ e) :=
        Format.round_eq_pow (by decide) (hone ▸ hlow) (hone ▸ hhigh)
    _ = binary64.one := hone.symm

end

/-! ## Two counts -/

/-- A quota near an exact product, in units, cut into its whole part and the remainder. -/
structure NearProduct (product : ℚ) (whole remainder : Nat) : Prop where
  near : |(whole * binary64.one + remainder : ℚ) - product| ≤ binary64.one / 4
  lt_one : remainder < binary64.one

/-- Two quotas that all seats are handed out by: one more for neither of them, for both, or for that
    with the larger remainder. Then the count is less than one away from the exact product. -/
theorem abs_sub_lt_of_counts {product product' : ℚ} {whole whole' remainder remainder' : Nat}
    {count count' seats : Nat} (hquota : NearProduct product whole remainder)
    (hquota' : NearProduct product' whole' remainder')
    (hproducts : |product + product' - seats * binary64.one| ≤ binary64.one / 8)
    (hsum : count + count' = seats)
    (hcount : count = whole ∧ (count' = whole' + 1 → remainder ≤ remainder') ∨
      count = whole + 1 ∧ (count' = whole' → remainder' ≤ remainder))
    (hcount' : count' = whole' ∨ count' = whole' + 1) :
    |(count : ℚ) * binary64.one - product| < binary64.one := by
  obtain ⟨hlow, hhigh⟩ := abs_le.mp hquota.near
  obtain ⟨hlow', hhigh'⟩ := abs_le.mp hquota'.near
  obtain ⟨hless, hmore⟩ := abs_le.mp hproducts
  have hnonneg : (0 : ℚ) ≤ remainder := Nat.cast_nonneg _
  have hnonneg' : (0 : ℚ) ≤ remainder' := Nat.cast_nonneg _
  have hlt : (remainder : ℚ) < binary64.one := Nat.cast_lt.mpr hquota.lt_one
  have hlt' : (remainder' : ℚ) < binary64.one := Nat.cast_lt.mpr hquota'.lt_one
  rw [← hsum, Nat.cast_add] at hless hmore
  rw [abs_lt]
  rcases hcount with ⟨rfl, hsmaller⟩ | ⟨rfl, hlarger⟩
  · rcases hcount' with rfl | rfl
    · -- no seat is left over
      constructor <;> linarith
    · have hle : (remainder : ℚ) ≤ remainder' := Nat.cast_le.mpr (hsmaller rfl)
      rw [Nat.cast_succ] at hless hmore
      constructor <;> linarith
  · rw [Nat.cast_succ] at hless hmore ⊢
    rcases hcount' with rfl | rfl
    · have hle : (remainder' : ℚ) ≤ remainder := Nat.cast_le.mpr (hlarger rfl)
      constructor <;> linarith
    · -- both get one more
      rw [Nat.cast_succ] at hless hmore
      constructor <;> linarith

namespace Apportion

variable {share w v : Binary64} {e d : Entitlement} {seats length : Nat} {counts : List Nat}

theorem Entitlement.RanksAbove.units_le (he : e.Unsigned) (hd : d.Unsigned) (h : e.RanksAbove d) :
    d.remainder.units ≤ e.remainder.units := by
  rcases h with hlt | ⟨heq, -⟩
  · exact Nat.le_of_lt ((hd.remainder.lt_iff he.remainder).mp hlt)
  · rw [heq]

/-- Handed out between two, a seat more goes to the larger remainder, or to both. -/
theorem HandedOut.two (h : HandedOut seats [e, d] counts) (he : e.Unsigned) (hd : d.Unsigned)
    (hlow : e.full + d.full ≤ seats) (hhigh : seats ≤ e.full + d.full + 2) :
    ∃ count other, counts = [count, other] ∧ count + other = seats ∧
      (count = e.full ∧ (other = d.full + 1 → e.remainder.units ≤ d.remainder.units) ∨
        count = e.full + 1 ∧ (other = d.full → d.remainder.units ≤ e.remainder.units)) ∧
      (other = d.full ∨ other = d.full + 1) := by
  obtain ⟨count, other, rfl⟩ := List.length_eq_two.mp h.length
  have hfirst : (count, e) ∈ [count, other].zip [e, d] := by simp
  have hsecond : (other, d) ∈ [count, other].zip [e, d] := by simp
  refine ⟨count, other, rfl, ?_, ?_, h.whole _ hsecond⟩
  · have heven := h.even
    simp only [fullSeats, List.map_cons, List.map_nil, List.sum_cons, List.sum_nil,
      List.length_cons, List.length_nil] at heven
    omega
  · rcases h.whole _ hfirst with hcount | hcount
    · refine .inl ⟨hcount, ?_⟩
      intro hother
      exact (h.ranked _ hsecond _ hfirst hother hcount).units_le hd he
    · refine .inr ⟨hcount, ?_⟩
      intro hother
      exact (h.ranked _ hfirst _ hsecond hcount hother).units_le he hd

/-- Up to `2 ^ 51` seats a quota is a quarter of a seat off at most. -/
theorem nearProduct_ofShare (hshare : share.IsMagnitude) (hle : share.units ≤ binary64.one)
    (hseats : seats ≤ 2 ^ 51) (index : Nat) (draw : Binary64) :
    NearProduct (share.units * seats) (Entitlement.ofShare seats index share draw).full
      (Entitlement.ofShare seats index share draw).remainder.units := by
  have hmany : seats ≤ 2 ^ 53 := by omega
  obtain ⟨hquota, -, -⟩ := quota_of_share hshare hle hmany
  have hfull : (Entitlement.ofShare seats index share draw).full =
      (share.mul (.ofNat seats)).units / binary64.one := full_of_share hshare hle hmany
  have hremainder : (Entitlement.ofShare seats index share draw).remainder.units =
      (share.mul (.ofNat seats)).units % binary64.one := hquota.sub_floor.2
  rw [hfull, hremainder]
  constructor
  · have hsplit := Nat.div_add_mod' (share.mul (.ofNat seats)).units binary64.one
    rw [← Nat.cast_mul, ← Nat.cast_add, hsplit]
    refine le_trans (abs_quota_sub_le hshare hle hmany) ?_
    have hproduct : (share.units * seats : ℚ) ≤ binary64.one * 2 ^ 51 := by
      exact_mod_cast Nat.mul_le_mul hle hseats
    calc binary64.roundoff * (share.units * seats : ℚ)
        ≤ binary64.roundoff * (binary64.one * 2 ^ 51) :=
          mul_le_mul_of_nonneg_left hproduct binary64.roundoff_pos.le
      _ = binary64.one / 4 := by
          rw [show binary64.roundoff = 1 / 2 ^ 53 from rfl]
          ring
  · exact Nat.mod_lt _ binary64.one_pos

/-- Two weights with the total one share out all items where their products with the number of
    items add up to it, but for an eighth of an item. The count of the first is less than one away
    from its product. -/
theorem apportion_pair {τ : Type} (source : Source τ) (start : τ) (hw : w.IsMagnitude)
    (hv : v.IsMagnitude) (hw_le : w.units ≤ binary64.one) (hv_le : v.units ≤ binary64.one)
    (htotal : (total [w, v]).IsMagnitude) (hunits : (total [w, v]).units = binary64.one)
    (hlength : length ≤ 2 ^ 51)
    (hproducts : |(w.units * length : ℚ) + v.units * length - length * binary64.one| ≤
      binary64.one / 8) :
    ∃ count other s, apportion source [w, v] length start = .ok (.ok [count, other], s) ∧
      count + other = length ∧ |(count : ℚ) * binary64.one - w.units * length| < binary64.one := by
  have hmany : length ≤ 2 ^ 53 := by omega
  have hweights : ∀ x ∈ [w, v], x.IsMagnitude := by simp [hw, hv]
  have hsome : ∃ x ∈ [w, v], 0 < x.units := by
    by_contra hnone
    push Not at hnone
    have hzero := (total_of_zero hweights fun x hx => Nat.le_zero.mp (hnone x hx)).2
    rw [hunits] at hzero
    exact binary64.one_pos.ne' hzero
  obtain ⟨counts, hcounts, -, hhanded⟩ :=
    handOut_by_remainders source start hweights hsome hmany
  have hunsigned := unsigned_entitlements hweights hsome hmany
    (source.words [w, v].length start).1
  obtain ⟨word, word', hwords⟩ := List.length_eq_two.mp (source.length_words [w, v].length start)
  have hes : entitlements length ([w, v].map (·.div (total [w, v])))
      ([word, word'].map Source.ofWord) =
        [.ofShare length 0 (w.div (total [w, v])) (Source.ofWord word),
          .ofShare length 1 (v.div (total [w, v])) (Source.ofWord word')] := rfl
  rw [hwords, hes] at hhanded hunsigned
  -- each weight is its share
  obtain ⟨hshare, hshare_units⟩ := share_of_total_one hw hw_le htotal hunits
  obtain ⟨hshare', hshare_units'⟩ := share_of_total_one hv hv_le htotal hunits
  have hquota := nearProduct_ofShare hshare (hshare_units ▸ hw_le) hlength 0 (Source.ofWord word)
  have hquota' :=
    nearProduct_ofShare hshare' (hshare_units' ▸ hv_le) hlength 1 (Source.ofWord word')
  rw [hshare_units] at hquota
  rw [hshare_units'] at hquota'
  obtain ⟨hlow, hhigh⟩ := wholeSeats_bounds hweights htotal.isFinite
    (hunits ▸ binary64.one_pos) (show (2 + 1) * (length + 1) < 2 ^ 53 by omega)
  obtain ⟨count, other, rfl, hsum, hcount, hother⟩ :=
    hhanded.two (hunsigned _ List.mem_cons_self)
      (hunsigned _ (List.mem_cons_of_mem _ List.mem_cons_self)) hlow hhigh
  have hall : (handOut source ([w, v].map (·.div (total [w, v]))) length start).1.sum = length := by
    rw [hcounts]
    exact hsum
  have hrun := apportion_of_sum_eq source start hweights hsome hall
  rw [hcounts] at hrun
  exact ⟨count, other, _, hrun, hsum,
    abs_sub_lt_of_counts hquota hquota' hproducts hsum hcount hother⟩

end Apportion

/-! ## The count -/

section

variable {ratio : Binary64} (hratio : Settings.InUnitInterval ratio) {length : Nat}
  (hlength : length ≤ 2 ^ 51)

include hratio hlength

/-- The products of a number of items with a ratio and with what is left of one beside it. -/
theorem products_near :
    |(ratio.units * length : ℚ) + ((Binary.ofNat 1).sub ratio).units * length -
      length * binary64.one| ≤ binary64.one / 8 := by
  obtain ⟨e, hone⟩ := one_eq_pow
  obtain ⟨hlow, hhigh⟩ := complement_near hratio hone
  generalize ((Binary.ofNat 1).sub ratio).units = rest at hlow hhigh
  have hlow' : (binary64.one : ℚ) ≤ ratio.units + rest + 2 ^ e := by exact_mod_cast hlow
  have hhigh' : (ratio.units + rest : ℚ) ≤ binary64.one + 2 ^ e := by exact_mod_cast hhigh
  have hone' : (binary64.one : ℚ) = 2 * (2 ^ binary64.precision * 2 ^ e) := by
    rw [hone, Nat.cast_mul, Nat.cast_mul, Nat.cast_pow, Nat.cast_pow, Nat.cast_ofNat]
  have hlength' : (length : ℚ) ≤ 2 ^ 51 := by exact_mod_cast hlength
  have hnear : |(ratio.units + rest - binary64.one : ℚ)| ≤ 2 ^ e := by
    rw [abs_le]
    constructor <;> linarith
  calc |(ratio.units * length : ℚ) + rest * length - length * binary64.one|
      = |(ratio.units + rest - binary64.one : ℚ) * length| := by
        rw [sub_mul, add_mul, mul_comm (length : ℚ)]
    _ = |(ratio.units + rest - binary64.one : ℚ)| * length := by
        rw [abs_mul, Nat.abs_cast]
    _ ≤ 2 ^ e * 2 ^ 51 := mul_le_mul hnear hlength' (Nat.cast_nonneg _) (by positivity)
    _ = binary64.one / 8 := by
        rw [hone', show binary64.precision = 53 from rfl]
        ring

/-- A ratio and the rest of one share out all items, and the count of the ratio is less than one
    away from its exact product with them. -/
theorem apportion_ratio {τ : Type} (source : Source τ) (start : τ) :
    ∃ count other s, apportion source [ratio, (Binary.ofNat 1).sub ratio] length start =
        .ok (.ok [count, other], s) ∧
      count + other = length ∧ |(count : ℚ) - ratio.value * length| < 1 := by
  obtain ⟨hfirst, hfirst_le⟩ := isMagnitude_of_inUnitInterval hratio
  obtain ⟨hsecond, hsecond_le, -⟩ := complement_of_inUnitInterval hratio
  obtain ⟨htotal, hunits⟩ := units_total_pair hratio
  obtain ⟨count, other, s, hrun, hsum, hnear⟩ :=
    Apportion.apportion_pair source start hfirst hsecond hfirst_le hsecond_le htotal hunits hlength
      (products_near hratio hlength)
  refine ⟨count, other, s, hrun, hsum, ?_⟩
  have hone : (0 : ℚ) < binary64.one := Nat.cast_pos.mpr binary64.one_pos
  have hscaled : (count : ℚ) - ratio.value * length =
      (count * binary64.one - ratio.units * length) / binary64.one := by
    rw [hfirst.value_eq, sub_div, mul_div_cancel_right₀ _ hone.ne', div_mul_eq_mul_div]
  rw [hscaled, abs_div, abs_of_pos hone, div_lt_one hone]
  exact hnear

end

theorem Partition.length_retain {α : Type} {items : List α} {chosen : List Nat}
    (h : Source.IsSample items.length chosen) :
    (ofPositions items chosen).retain.length = items.length - chosen.length := by
  have hboth := (perm_ofPositions items chosen).length_eq
  rw [List.length_append, length_ofPositions h] at hboth
  omega

/-- A ratio from zero to one entitles to a count of items, and what is left of one beside it to the
    others. The count is less than one away from the exact product, nothing for zero and all for one.
    So no more positions are sampled than there are, and each of them moves an item. -/
theorem transferSize_near {τ : Type} (source : Source τ) (start : τ) {ratio : Binary64}
    {length : Nat} (hratio : Settings.InUnitInterval ratio) (hlength : length ≤ 2 ^ 51) :
    ∃ count other s,
      apportion source [ratio, (Binary.ofNat 1).sub ratio] length start =
        .ok (.ok [count, other], s) ∧
      transferSize source length ratio start = .ok (.ok count, s) ∧
      count + other = length ∧ count ≤ length ∧ |(count : ℚ) - ratio.value * length| < 1 ∧
      (ratio.value = 0 → count = 0) ∧ (ratio.value = 1 → count = length) ∧
      ∀ (α : Type) (items : List α) (tries : Nat), items.length = length →
        (source.sample tries count items.length s = none →
          partition source tries items ratio start = .error .noSample) ∧
        (∀ chosen s', source.sample tries count items.length s = some (chosen, s') →
          partition source tries items ratio start = .ok (.ok (.ofPositions items chosen), s')) ∧
        ∀ groups s', partition source tries items ratio start = .ok (.ok groups, s') →
          groups.transfer.length = count ∧ groups.retain.length = items.length - count := by
  obtain ⟨count, other, s, hrun, hsum, hnear⟩ := apportion_ratio hratio hlength source start
  have hle : count ≤ length := by omega
  have hsize : transferSize source length ratio start = .ok (.ok count, s) := by
    rw [transferSize, if_pos (Settings.isRatio_iff.mpr hratio), hrun]
    rfl
  refine ⟨count, other, s, hrun, hsize, hsum, hle, hnear, ?_, ?_, ?_⟩
  · intro hzero
    rw [hzero, zero_mul, sub_zero, Nat.abs_cast] at hnear
    exact Nat.lt_one_iff.mp (by exact_mod_cast hnear)
  · intro hone
    rw [hone, one_mul, abs_lt] at hnear
    have hmore : (length : ℚ) < count + 1 := by linarith
    have hmore' : length < count + 1 := by exact_mod_cast hmore
    omega
  · rintro α items tries rfl
    refine ⟨Partition.partition_of_no_sample hsize, fun chosen s' =>
      Partition.partition_of_sample hsize, ?_⟩
    intro groups s' hgroups
    cases hsample : source.sample tries count items.length s with
    | none =>
        rw [Partition.partition_of_no_sample hsize hsample] at hgroups
        cases hgroups
    | some drawn =>
        obtain ⟨chosen, s''⟩ := drawn
        rw [Partition.partition_of_sample hsize hsample] at hgroups
        cases hgroups
        obtain ⟨hchosen, hcount⟩ := Source.isSample_sampleBy hle hsample
        rw [Partition.length_ofPositions hchosen, Partition.length_retain hchosen, hcount]
        exact ⟨rfl, rfl⟩

/-- Of seven items one half moves three or four. -/
theorem transferSize_half_of_seven :
    Settings.InUnitInterval (Binary.ofQuotient 1 2) ∧ 7 ≤ 2 ^ 51 ∧
      ∃ count s, transferSize Chance.Generator.source 7 (Binary.ofQuotient 1 2) (.seeded 7) =
          .ok (.ok count, s) ∧
        (count = 3 ∨ count = 4) := by
  have hratio : Settings.InUnitInterval (Binary.ofQuotient 1 2) :=
    Settings.isRatio_iff.mp (by decide +kernel)
  have hvalue : (Binary.ofQuotient 1 2 : Binary64).value = 1 / 2 := by decide +kernel
  obtain ⟨count, -, s, -, hsize, -, -, hnear, -⟩ := transferSize_near Chance.Generator.source
    (.seeded 7) hratio (by decide : 7 ≤ 2 ^ 51)
  refine ⟨hratio, by decide, count, s, hsize, ?_⟩
  rw [hvalue, abs_lt] at hnear
  obtain ⟨hlow, hhigh⟩ := hnear
  have hmore : (2 : ℚ) < count := by
    push_cast at hlow
    linarith
  have hless : (count : ℚ) < 5 := by
    push_cast at hhigh
    linarith
  have hmore' : 2 < count := by exact_mod_cast hmore
  have hless' : count < 5 := by exact_mod_cast hless
  omega

end Rehome
