import Mathlib.Data.List.Nodup
import Rehome.Proofs.Quotas

/-!
# Remainders — who gets the seats that are left over

The remainder of a quota is what its whole part leaves, and nothing of it is lost to rounding
(`IsMagnitude.sub_floor`). Remainders and draws have no sign, so the total order of all values is the
order of numbers on them. The seats that are left over go to the first of an order by them; the order
of the indices stays where both are equal, because sorting is stable (`pairwise_order`).

Weights are rejected before anything is drawn, and otherwise there is one word for each of them. The
counts come of it if they add up to the seats (`apportion_by_remainders`).
-/

namespace Rehome

open Numeric (Binary64 Binary Format binary64)
open Numeric.Binary (IsMagnitude units)
open Chance (Source)

/-! ## Values without a sign -/

namespace Numeric

/-- What is left of a magnitude beyond its whole part has no more digits than it. -/
theorem Format.gap_dvd_mod_one {f : Format} {m : Nat} (hm : f.gap m ∣ m) :
    f.gap (m % f.one) ∣ m % f.one := by
  have hone : f.one = 2 ^ f.scale := Nat.one_shiftLeft _
  have hgap : f.gap (m % f.one) ∣ f.gap m :=
    gap_dvd_gap (excess_mono (Nat.mod_le m f.one))
  have hexcess : f.excess (m % f.one) ≤ f.scale := by
    refine excess_le ?_
    rw [Nat.one_shiftLeft]
    refine Nat.lt_of_lt_of_le (Nat.mod_lt m f.one_pos) ?_
    rw [hone]
    exact Nat.pow_le_pow_right (by decide) (Nat.le_add_left _ _)
  have hscale : f.gap (m % f.one) ∣ f.one := by
    rw [gap_eq]
    conv_rhs => rw [hone]
    exact Nat.pow_dvd_pow 2 hexcess
  exact (Nat.dvd_mod_iff hscale).mpr (Nat.dvd_trans hgap hm)

namespace Binary

variable {f : Format} {a b : Binary f}

/-- Finite values without a sign. Minus zero is not one of them. -/
def IsUnsigned (a : Binary f) : Prop := ∃ units fits, a = .finite false units fits

theorem IsUnsigned.totalRank_eq (ha : a.IsUnsigned) : a.totalRank = a.units := by
  obtain ⟨x, hx, rfl⟩ := ha
  rfl

theorem IsUnsigned.lt_iff (ha : a.IsUnsigned) (hb : b.IsUnsigned) :
    a.lt b = true ↔ a.units < b.units := by
  obtain ⟨x, hx, rfl⟩ := ha
  obtain ⟨y, hy, rfl⟩ := hb
  simp [lt, rank?, signed, units]

theorem IsUnsigned.eq_of_units (ha : a.IsUnsigned) (hb : b.IsUnsigned) (h : a.units = b.units) :
    a = b := by
  obtain ⟨x, hx, rfl⟩ := ha
  obtain ⟨y, hy, rfl⟩ := hb
  obtain rfl : x = y := h
  rfl

theorem IsMagnitude.isUnsigned (ha : a.IsMagnitude) (hsign : a.isNegative = false) :
    a.IsUnsigned := by
  cases ha with
  | unsigned x hx => exact ⟨x, hx, rfl⟩
  | minusZero => exact nomatch hsign

theorem isNegative_ofRatio (negative : Bool) (num den : Nat) :
    (ofRatio negative num den : Binary f).isNegative = negative := by
  unfold ofRatio
  split <;> rfl

theorem isNegative_floor (a : Binary f) : a.floor.isNegative = a.isNegative := by
  match a with
  | .nan _ => rfl
  | .infinite _ => rfl
  | .finite false _ _ => exact isNegative_ofRatio false _ _
  | .finite true _ _ => exact isNegative_ofRatio true _ _

/-- Magnitudes of one sign have a difference without it. -/
theorem IsMagnitude.isNegative_sub (ha : a.IsMagnitude) (hb : b.IsMagnitude)
    (hle : b.units ≤ a.units) (hsign : b.isNegative = a.isNegative) :
    (a.sub b).isNegative = false := by
  obtain ⟨n, x, hx, rfl⟩ := ha.eq_finite
  obtain ⟨m, y, hy, rfl⟩ := hb.eq_finite
  obtain rfl : m = n := hsign
  have hle' : y ≤ x := hle
  have hdifference : 0 ≤ signed m x + signed (!m) y := by
    cases ha with
    | unsigned =>
        show (0 : Int) ≤ x + -y
        omega
    | minusZero =>
        show (0 : Int) ≤ -0 + y
        omega
  show (if signed m x + signed (!m) y = 0 then signedZero (m && !m)
    else ofRatio (decide (signed m x + signed (!m) y < 0))
      (signed m x + signed (!m) y).natAbs 1).isNegative = false
  rw [Bool.and_not_self, decide_eq_false (Int.not_lt.mpr hdifference)]
  split
  · rfl
  · exact isNegative_ofRatio false _ _

/-- The remainder of a magnitude is exact. That of minus zero is zero. -/
theorem IsMagnitude.sub_floor (ha : a.IsMagnitude) :
    (a.sub a.floor).IsUnsigned ∧ (a.sub a.floor).units = a.units % f.one := by
  obtain ⟨hfloor, hwhole⟩ := ha.floor
  have hle : a.floor.units ≤ a.units := by
    rw [hwhole]
    exact Nat.div_mul_le_self _ _
  have hrest : a.units - a.floor.units = a.units % f.one := by
    have := Nat.div_add_mod' a.units f.one
    omega
  have hself := Format.round_eq_self Nat.one_pos (Format.gap_dvd_mod_one ha.fits.2)
  rw [Nat.mul_one] at hself
  have hlt : f.round (a.units % f.one) 1 < f.limit := by
    rw [hself]
    exact Nat.lt_of_le_of_lt (Nat.mod_le _ _) ha.fits.1
  have hsub := ha.sub hfloor hle
  rw [hrest] at hsub
  obtain ⟨hmagnitude, hunits⟩ := hsub.of_lt hlt
  have hsign := ha.isNegative_sub hfloor hle (isNegative_floor a)
  exact ⟨hmagnitude.isUnsigned hsign, hunits.trans hself⟩

end Binary

end Numeric

/-! ## Words and draws -/

namespace Chance.Source

variable {σ : Type}

/-- So many words of 64 bits, in order. -/
def words (source : Source σ) : Nat → σ → List UInt64 × σ
  | 0, s => ([], s)
  | n + 1, s =>
    let (word, s) := source.next64 s
    let (rest, s) := source.words n s
    (word :: rest, s)

/-- The number that is drawn by a word. -/
def ofWord (word : UInt64) : Binary64 := .ofQuotient (word >>> 11).toNat (1 <<< 53)

/-- Draws are made by one word each, in order. -/
theorem draws_eq_words (source : Source σ) (n : Nat) (s : σ) :
    source.draws n s = ((source.words n s).1.map ofWord, (source.words n s).2) := by
  induction n generalizing s with
  | zero => rfl
  | succ n ih =>
      show (((source.draw s).1 :: (source.draws n (source.draw s).2).1,
        (source.draws n (source.draw s).2).2) : List Binary64 × σ) = _
      rw [ih]
      rfl

theorem length_words (source : Source σ) (n : Nat) (s : σ) :
    (source.words n s).1.length = n := by
  have h := source.length_draws n s
  rwa [draws_eq_words, List.length_map] at h

theorem isUnsigned_ofWord (word : UInt64) : (ofWord word).IsUnsigned := by
  have hnum : (word >>> 11).toNat * binary64.one ≤ binary64.one * (1 <<< 53) := by
    rw [Nat.mul_comm]
    refine Nat.mul_le_mul_left _ ?_
    have hword := word.toNat_lt
    rw [UInt64.toNat_shiftRight, Nat.shiftRight_eq_div_pow]
    exact Nat.le_of_lt (Nat.div_lt_of_lt_mul (by simpa using hword))
  obtain ⟨hmagnitude, -⟩ := (Numeric.Binary.rounds_ofRatio binary64 _ _).of_le
    (by decide) Apportion.one_fits hnum
  exact hmagnitude.isUnsigned (Numeric.Binary.isNegative_ofRatio false _ _)

end Chance.Source

namespace Apportion

/-! ## The order -/

namespace Entitlement

variable {a b : Entitlement}

/-- The larger remainder ranks above, of equal ones the larger draw, and of equal draws too the
    smaller index. -/
def RanksAbove (a b : Entitlement) : Prop :=
  b.remainder.lt a.remainder = true ∨
    a.remainder = b.remainder ∧
      (b.draw.lt a.draw = true ∨ a.draw = b.draw ∧ a.index < b.index)

/-- Neither the remainder nor the draw has a sign. -/
structure Unsigned (e : Entitlement) : Prop where
  remainder : e.remainder.IsUnsigned
  draw : e.draw.IsUnsigned

theorem before_iff :
    a.before b = true ↔ b.remainder.totalRank < a.remainder.totalRank ∨
      a.remainder.totalRank = b.remainder.totalRank ∧ b.draw.totalRank ≤ a.draw.totalRank := by
  unfold before
  by_cases heq : a.remainder.totalRank = b.remainder.totalRank
  · rw [if_pos heq, decide_eq_true_iff]
    omega
  · rw [if_neg heq, decide_eq_true_iff]
    omega

theorem before_trans (a b c : Entitlement) (hab : a.before b = true) (hbc : b.before c = true) :
    a.before c = true := by
  rw [before_iff] at hab hbc ⊢
  omega

theorem before_total (a b : Entitlement) : (a.before b || b.before a) = true := by
  rw [Bool.or_eq_true, before_iff, before_iff]
  omega

/-- What comes before another ranks above it, if by a smaller index where the other comes before it
    too. -/
theorem ranksAbove_of_before (ha : a.Unsigned) (hb : b.Unsigned) (h : a.before b = true)
    (hindex : b.before a = true → a.index < b.index) : a.RanksAbove b := by
  rw [before_iff, ha.remainder.totalRank_eq, hb.remainder.totalRank_eq, ha.draw.totalRank_eq,
    hb.draw.totalRank_eq] at hindex
  rw [before_iff, ha.remainder.totalRank_eq, hb.remainder.totalRank_eq, ha.draw.totalRank_eq,
    hb.draw.totalRank_eq] at h
  rcases h with hlt | ⟨heq, hle⟩
  · exact .inl ((hb.remainder.lt_iff ha.remainder).mpr (Int.ofNat_lt.mp hlt))
  · have hremainder := ha.remainder.eq_of_units hb.remainder (Int.ofNat_inj.mp heq)
    rcases Int.lt_or_eq_of_le hle with hlt | hdraws
    · exact .inr ⟨hremainder, .inl ((hb.draw.lt_iff ha.draw).mpr (Int.ofNat_lt.mp hlt))⟩
    · have hdraw := ha.draw.eq_of_units hb.draw (Int.ofNat_inj.mp hdraws.symm)
      exact .inr ⟨hremainder, .inr ⟨hdraw, hindex (.inr ⟨heq.symm, Int.le_of_eq hdraws.symm⟩)⟩⟩

end Entitlement

variable {weights : List Binary64} {seats : Nat} {es : List Entitlement}

/-- Each entitlement stands at its index. -/
def InOrder (es : List Entitlement) : Prop := es.map (·.index) = List.range' 0 es.length

theorem InOrder.nodup (h : InOrder es) : (es.map (·.index)).Nodup := by
  rw [h]
  exact List.nodup_range'

theorem InOrder.index_eq (h : InOrder es) {x : Entitlement × Nat} (hx : x ∈ es.zipIdx) :
    x.1.index = x.2 := by
  obtain ⟨e, i⟩ := x
  rw [List.mem_zipIdx_iff_getElem?] at hx
  have hindex : (es.map (·.index))[i]? = some e.index := by
    rw [List.getElem?_map, hx]
    rfl
  obtain ⟨hi, -⟩ := List.getElem?_eq_some_iff.mp hx
  rw [h, List.getElem?_range' hi, Nat.one_mul, Nat.zero_add] at hindex
  exact (Option.some.inj hindex).symm

/-- Sorted, each entitlement ranks above all after it. -/
theorem pairwise_order (horder : InOrder es) (hunsigned : ∀ e ∈ es, e.Unsigned) :
    (es.mergeSort Entitlement.before).Pairwise Entitlement.RanksAbove := by
  rw [← List.mergeSort_zipIdx, List.pairwise_map]
  have hperm := List.mergeSort_perm es.zipIdx (List.zipIdxLE Entitlement.before)
  have hsorted := List.pairwise_mergeSort (List.zipIdxLE_trans Entitlement.before_trans)
    (List.zipIdxLE_total Entitlement.before_total) es.zipIdx
  have hplaces : ((es.zipIdx.mergeSort (List.zipIdxLE Entitlement.before)).map Prod.snd).Nodup := by
    rw [(hperm.map Prod.snd).nodup_iff, List.zipIdx_map_snd]
    exact List.nodup_range'
  have hdistinct := List.pairwise_map.mp (List.nodup_iff_pairwise_ne.mp hplaces)
  refine (hsorted.and hdistinct).imp_of_mem ?_
  rintro x y hx hy ⟨hle, hne⟩
  rw [hperm.mem_iff] at hx hy
  have hx' := horder.index_eq hx
  have hy' := horder.index_eq hy
  unfold List.zipIdxLE at hle
  by_cases hbefore : x.1.before y.1 = true
  · refine Entitlement.ranksAbove_of_before (hunsigned _ (List.fst_mem_of_mem_zipIdx hx))
      (hunsigned _ (List.fst_mem_of_mem_zipIdx hy)) hbefore ?_
    intro hback
    rw [if_pos hbefore, if_pos hback, decide_eq_true_iff] at hle
    omega
  · rw [if_neg hbefore] at hle
    exact nomatch hle

/-! ## Handing out -/

/-- How seats are handed out between entitlements: the whole ones, one more for as many as are left
    over or as there are indices, and that to those that rank above all others. So the counts add up
    to the seats if no more are left over than there are indices. -/
structure HandedOut (seats : Nat) (es : List Entitlement) (counts : List Nat) : Prop where
  length : counts.length = es.length
  whole : ∀ x ∈ counts.zip es, x.1 = x.2.full ∨ x.1 = x.2.full + 1
  more : (counts.zip es).countP (fun x => x.1 = x.2.full + 1) = min (seats - fullSeats es) es.length
  ranked : ∀ x ∈ counts.zip es, ∀ y ∈ counts.zip es, x.1 = x.2.full + 1 → y.1 = y.2.full →
    x.2.RanksAbove y.2
  even : counts.sum = seats ↔ fullSeats es ≤ seats ∧ seats ≤ fullSeats es + es.length

theorem zip_counts (seats : Nat) (es : List Entitlement) :
    (counts seats es).zip es = es.map fun e =>
      (if e.index ∈ extraIndices seats es then e.full + 1 else e.full, e) := by
  unfold counts
  conv_lhs => rw [← List.map_id es]
  rw [List.map_map, List.zip_map', List.map_id]
  rfl

/-- An index that gets a seat more ranks above one that does not. -/
theorem ranksAbove_of_extra (horder : InOrder es) (hunsigned : ∀ e ∈ es, e.Unsigned)
    {e d : Entitlement} (he : e ∈ es) (hd : d ∈ es) (hextra : e.index ∈ extraIndices seats es)
    (hnot : ¬ d.index ∈ extraIndices seats es) : e.RanksAbove d := by
  have hperm := List.mergeSort_perm es Entitlement.before
  have hpairwise := pairwise_order horder hunsigned
  unfold extraIndices at hextra hnot
  dsimp only at hextra hnot
  generalize seats - es.foldl (fun n e => n + e.full) 0 = leftover at hextra hnot
  rw [← hperm.mem_iff] at hd
  obtain ⟨e', he', hindex⟩ := List.mem_map.mp hextra
  -- indices tell entitlements apart
  have hmem : e' ∈ es := hperm.mem_iff.mp (List.mem_of_mem_take he')
  obtain rfl : e' = e := List.inj_on_of_nodup_map horder.nodup hmem he hindex
  rw [← List.take_append_drop leftover (es.mergeSort Entitlement.before)] at hpairwise hd
  obtain ⟨-, -, hranks⟩ := List.pairwise_append.mp hpairwise
  rcases List.mem_append.mp hd with hfirst | hlater
  · exact absurd (List.mem_map_of_mem hfirst) hnot
  · exact hranks e' he' d hlater

theorem handedOut_counts (seats : Nat) (horder : InOrder es) (hunsigned : ∀ e ∈ es, e.Unsigned) :
    HandedOut seats es (counts seats es) := by
  constructor
  case length => exact length_counts seats es
  case whole =>
    rw [zip_counts]
    intro x hx
    obtain ⟨e, -, rfl⟩ := List.mem_map.mp hx
    by_cases hextra : e.index ∈ extraIndices seats es
    · exact .inr (if_pos hextra)
    · exact .inl (if_neg hextra)
  case more =>
    rw [zip_counts, List.countP_map, ← countP_extraIndices horder.nodup]
    refine List.countP_congr ?_
    intro e _
    by_cases hextra : e.index ∈ extraIndices seats es <;> simp [hextra]
  case ranked =>
    rw [zip_counts]
    intro x hx y hy hmore hless
    obtain ⟨e, he, rfl⟩ := List.mem_map.mp hx
    obtain ⟨d, hd, rfl⟩ := List.mem_map.mp hy
    have hextra : e.index ∈ extraIndices seats es := by
      by_contra hnot
      rw [if_neg hnot] at hmore
      exact Nat.succ_ne_self _ hmore.symm
    have hnot : ¬ d.index ∈ extraIndices seats es := by
      intro hd'
      rw [if_pos hd'] at hless
      exact Nat.succ_ne_self _ hless
    exact ranksAbove_of_extra horder hunsigned he hd hextra hnot
  case even =>
    rw [sum_counts horder.nodup]
    omega

/-! ## The entitlements of weights -/

section

variable (hweights : ∀ w ∈ weights, w.IsMagnitude) (hpositive : ∃ w ∈ weights, 0 < w.units)

include hweights hpositive

/-- Shares are magnitudes that are not above one, also where the total is out of range. -/
theorem isMagnitude_share {w : Binary64} (hw : w ∈ weights) :
    (w.div (total weights)).IsMagnitude ∧ (w.div (total weights)).units ≤ binary64.one := by
  rcases total_cases hweights with hsum | hinfinite
  · obtain ⟨v, hv, hunits⟩ := hpositive
    have hpos := Nat.lt_of_lt_of_le hunits (units_le_total hweights hsum.isFinite hv)
    obtain ⟨hshare, -, hone⟩ := share_of_mem hweights hsum.isFinite hpos hw
    exact ⟨hshare, hone⟩
  · rw [hinfinite]
    obtain ⟨hshare, hzero⟩ := (hweights w hw).div_infinite
    refine ⟨hshare, ?_⟩
    rw [hzero]
    exact Nat.zero_le _

/-- A count of whole seats is the whole part of a quota, and nothing of that is cut off. -/
theorem units_floor_quota (hseats : seats ≤ 2 ^ 53) {w : Binary64} (hw : w ∈ weights) :
    ((w.div (total weights)).mul (.ofNat seats)).floor.units =
      ((w.div (total weights)).mul (.ofNat seats)).floor.toNatClamped maxCount * binary64.one := by
  obtain ⟨hshare, hone⟩ := isMagnitude_share hweights hpositive hw
  obtain ⟨hquota, -, -⟩ := quota_of_share hshare hone hseats
  rw [hquota.floor.2, full_of_share hshare hone hseats]

theorem unsigned_entitlements (hseats : seats ≤ 2 ^ 53) (words : List UInt64) :
    ∀ e ∈ entitlements seats (weights.map (·.div (total weights))) (words.map Source.ofWord),
      e.Unsigned := by
  intro e he
  unfold entitlements at he
  obtain ⟨⟨⟨share, draw⟩, i⟩, hx, rfl⟩ := List.mem_map.mp he
  obtain ⟨hshare, hdraw⟩ := List.of_mem_zip (List.fst_mem_of_mem_zipIdx hx)
  obtain ⟨w, hw, rfl⟩ := List.mem_map.mp hshare
  obtain ⟨word, -, rfl⟩ := List.mem_map.mp hdraw
  obtain ⟨hmagnitude, hone⟩ := isMagnitude_share hweights hpositive hw
  obtain ⟨hquota, -, -⟩ := quota_of_share hmagnitude hone hseats
  exact ⟨hquota.sub_floor.1, Source.isUnsigned_ofWord word⟩

end

theorem inOrder_entitlements (seats : Nat) {shares draws : List Binary64}
    (hlength : draws.length = shares.length) : InOrder (entitlements seats shares draws) := by
  have hzip : (shares.zip draws).length = shares.length := by
    rw [List.length_zip, hlength, Nat.min_self]
  rw [InOrder, map_index_entitlements, length_entitlements seats hlength, hzip]

/-! ## Rejected weights -/

/-- Weights that are rejected: none, some of which the first that is no weight is reported, and some
    that are all zero. -/
inductive Rejects : List Binary64 → Rejection → Prop
  | none : Rejects [] .noWeights
  | invalid (before : List Binary64) (w : Binary64) (after : List Binary64)
      (hbefore : ∀ v ∈ before, isWeight v = true) (hw : isWeight w = false) :
      Rejects (before ++ w :: after) (.badWeight before.length w)
  | zero (weights : List Binary64) (hsome : weights ≠ [])
      (hweights : ∀ w ∈ weights, isWeight w = true) (hzero : ∀ w ∈ weights, w.units = 0) :
      Rejects weights .zeroTotal

theorem firstInvalid?_append {before after : List Binary64} {w : Binary64}
    (hbefore : ∀ v ∈ before, isWeight v = true) (hw : isWeight w = false) :
    firstInvalid? (before ++ w :: after) = some (before.length, w) := by
  have hnone := firstInvalid?_eq_none hbefore
  unfold firstInvalid? at hnone ⊢
  rw [Option.map_eq_none_iff] at hnone
  rw [List.zipIdx_append, List.find?_append, hnone, List.zipIdx_cons, List.find?_cons]
  simp [hw]

theorem total_of_zero (hweights : ∀ w ∈ weights, w.IsMagnitude)
    (hzero : ∀ w ∈ weights, w.units = 0) :
    (total weights).IsMagnitude ∧ (total weights).units = 0 := by
  induction weights using List.reverseRecOn with
  | nil => exact ⟨Numeric.Binary.isMagnitude_signedZero false, rfl⟩
  | append_singleton weights w ih =>
      rw [List.forall_mem_append, List.forall_mem_singleton] at hweights hzero
      obtain ⟨hsum, hunits⟩ := ih hweights.1 hzero.1
      have hadd := hsum.add hweights.2
      rw [hunits, hzero.2] at hadd
      obtain ⟨hmagnitude, hround⟩ := hadd.of_lt (binary64.round_zero_lt_limit Nat.one_pos)
      rw [binary64.round_zero Nat.one_pos] at hround
      rw [total_concat]
      exact ⟨hmagnitude, hround⟩

theorem Rejects.shares_eq {e : Rejection} (h : Rejects weights e) : shares weights = .error e := by
  cases h with
  | none => rfl
  | invalid before w after hbefore hw =>
      rw [shares, if_neg (by simp), firstInvalid?_append hbefore hw]
  | zero _ hsome hweights hzero =>
      have hmagnitudes : ∀ w ∈ weights, w.IsMagnitude := fun w hw => isWeight_iff.mp (hweights w hw)
      obtain ⟨hsum, hunits⟩ := total_of_zero hmagnitudes hzero
      rw [shares, if_neg hsome, firstInvalid?_eq_none hweights]
      simp [hsum.le_zero_iff.mpr hunits]

/-- Weights are rejected, or all of them are weights and one is positive. -/
theorem rejects_or (weights : List Binary64) :
    (∃ e, Rejects weights e) ∨
      (∀ w ∈ weights, w.IsMagnitude) ∧ ∃ w ∈ weights, 0 < w.units := by
  rcases eq_or_ne weights [] with rfl | hsome
  · exact .inl ⟨_, .none⟩
  cases hfind : weights.find? (fun w => !isWeight w) with
  | some w =>
      obtain ⟨hw, before, after, rfl, hbefore⟩ := List.find?_eq_some_iff_append.mp hfind
      refine .inl ⟨_, .invalid before w after ?_ (by simpa using hw)⟩
      intro v hv
      simpa using hbefore v hv
  | none =>
      have hweights : ∀ w ∈ weights, isWeight w = true := by
        intro w hw
        simpa using List.find?_eq_none.mp hfind w hw
      by_cases hzero : ∀ w ∈ weights, w.units = 0
      · exact .inl ⟨_, .zero weights hsome hweights hzero⟩
      · right
        push Not at hzero
        obtain ⟨w, hw, hunits⟩ := hzero
        exact ⟨fun v hv => isWeight_iff.mp (hweights v hv), w, hw, Nat.pos_of_ne_zero hunits⟩

/-! ## Apportionment -/

theorem Rejects.apportion_eq {σ : Type} {e : Rejection} (h : Rejects weights e) (source : Source σ)
    (seats : Nat) (s : σ) : apportion source weights seats s = .ok (.error e, s) := by
  rw [apportion, h.shares_eq]

section

variable {σ : Type} (source : Source σ) (s : σ) (hweights : ∀ w ∈ weights, w.IsMagnitude)
  (hpositive : ∃ w ∈ weights, 0 < w.units)

include hweights hpositive

/-- The counts go by the remainders, with a word for each weight. -/
theorem handOut_by_remainders (hseats : seats ≤ 2 ^ 53) :
    ∃ counts, handOut source (weights.map (·.div (total weights))) seats s =
        (counts, (source.words weights.length s).2) ∧
      counts.length = weights.length ∧
      HandedOut seats (entitlements seats (weights.map (·.div (total weights)))
        ((source.words weights.length s).1.map Source.ofWord)) counts := by
  have hlength : ((source.words weights.length s).1.map Source.ofWord).length =
      (weights.map (·.div (total weights))).length := by
    rw [List.length_map, List.length_map, Source.length_words]
  refine ⟨_, ?_, ?_, handedOut_counts seats (inOrder_entitlements seats hlength)
    (unsigned_entitlements hweights hpositive hseats _)⟩
  · show (counts seats (entitlements seats _ (source.draws _ s).1), (source.draws _ s).2) = _
    rw [Source.draws_eq_words, List.length_map]
  · rw [length_counts, length_entitlements seats hlength, List.length_map]

/-- Weights that have shares are not rejected. -/
theorem apportion_ne_error (e : Rejection) (s' : σ) :
    apportion source weights seats s ≠ .ok (.error e, s') := by
  intro h
  by_cases hsum : (handOut source (weights.map (·.div (total weights))) seats s).1.sum = seats
  · rw [apportion_of_sum_eq source s hweights hpositive hsum] at h
    cases h
  · rw [apportion_of_sum_ne source s hweights hpositive hsum] at h
    cases h

end

/-- Weights are rejected for one of three reasons, and nothing is drawn then. Between others seats
    are handed out with one word for each of them, in order: by largest remainder, where a count of
    whole seats is the whole part of a quota. The counts come of it if they add up to the seats, and
    nothing if they do not. -/
theorem apportion_by_remainders {σ : Type} (source : Source σ) (weights : List Binary64) (s : σ)
    (hseats : seats ≤ 2 ^ 53) :
    (∀ e s', apportion source weights seats s = .ok (.error e, s') ↔ Rejects weights e ∧ s' = s) ∧
    ((∀ e, ¬ Rejects weights e) →
      (∃ counts,
        handOut source (weights.map (·.div (total weights))) seats s =
            (counts, (source.words weights.length s).2) ∧
          counts.length = weights.length ∧
          HandedOut seats (entitlements seats (weights.map (·.div (total weights)))
            ((source.words weights.length s).1.map Source.ofWord)) counts ∧
          (counts.sum = seats → apportion source weights seats s =
            .ok (.ok counts, (source.words weights.length s).2)) ∧
          (counts.sum ≠ seats → apportion source weights seats s = .error .miscount)) ∧
      ∀ w ∈ weights, ((w.div (total weights)).mul (.ofNat seats)).floor.units =
        ((w.div (total weights)).mul (.ofNat seats)).floor.toNatClamped maxCount *
          binary64.one) := by
  rcases rejects_or weights with ⟨e, hrejects⟩ | ⟨hweights, hpositive⟩
  · refine ⟨?_, fun hnot => absurd hrejects (hnot e)⟩
    intro e' s'
    constructor
    · intro h
      rw [hrejects.apportion_eq source seats s] at h
      cases h
      exact ⟨hrejects, rfl⟩
    · rintro ⟨hrejects', rfl⟩
      exact hrejects'.apportion_eq source seats s'
  · refine ⟨?_, fun _ => ⟨?_, ?_⟩⟩
    · intro e s'
      constructor
      · intro h
        exact absurd h (apportion_ne_error source s hweights hpositive e s')
      · rintro ⟨hrejects, -⟩
        exact absurd (hrejects.apportion_eq source seats s)
          (apportion_ne_error source s hweights hpositive e s)
    · obtain ⟨counts, hcounts, hlength, hhanded⟩ :=
        handOut_by_remainders source s hweights hpositive hseats
      refine ⟨counts, hcounts, hlength, hhanded, ?_, ?_⟩
      · intro hsum
        rw [apportion_of_sum_eq source s hweights hpositive (by rw [hcounts]; exact hsum), hcounts]
      · intro hsum
        exact apportion_of_sum_ne source s hweights hpositive (by rw [hcounts]; exact hsum)
    · intro w hw
      exact units_floor_quota hweights hpositive hseats hw

/-- Three equal weights. -/
def thirds : List Binary64 := [.ofNat 1, .ofNat 1, .ofNat 1]

/-- Two seats are handed out between them, the words for which are the first three of a counter. -/
theorem apportion_thirds :
    2 ≤ 2 ^ 53 ∧ (∀ e, ¬ Rejects thirds e) ∧
      ∃ counts, apportion Chance.Generator.source thirds 2 (.counter 0 2048) =
          .ok (.ok counts, .counter 6144 2048) ∧
        counts.length = 3 ∧ counts.sum = 2 ∧
        HandedOut 2 (entitlements 2 (thirds.map (·.div (total thirds)))
          (([0, 2048, 4096] : List UInt64).map Source.ofWord)) counts := by
  have hnot : ∀ e, ¬ Rejects thirds e := by
    intro e he
    have hok : (shares thirds).isOk = true := by decide +kernel
    rw [he.shares_eq] at hok
    exact nomatch hok
  obtain ⟨-, hothers⟩ := apportion_by_remainders Chance.Generator.source thirds
    (.counter 0 2048) (by decide : 2 ≤ 2 ^ 53)
  obtain ⟨⟨counts, -, hlength, hhanded, hall, -⟩, -⟩ := hothers hnot
  have hwords : (Chance.Generator.source.words thirds.length (.counter 0 2048)).1 =
      [0, 2048, 4096] := rfl
  rw [hwords] at hhanded
  have hfull : fullSeats (entitlements 2 (thirds.map (·.div (total thirds)))
      (([0, 2048, 4096] : List UInt64).map Source.ofWord)) = 0 := by
    decide +kernel
  have hentitled : (entitlements 2 (thirds.map (·.div (total thirds)))
      (([0, 2048, 4096] : List UInt64).map Source.ofWord)).length = 3 := rfl
  have hsum : counts.sum = 2 := by
    refine hhanded.even.mpr ?_
    rw [hfull, hentitled]
    decide
  exact ⟨by decide, hnot, counts, hall hsum, hlength, hsum, hhanded⟩

end Apportion

end Rehome
