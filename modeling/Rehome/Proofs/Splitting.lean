import Rehome.Proofs.Failures
import Rehome.Proofs.Fates
import Rehome.Proofs.Planning
import Rehome.Proofs.Quotas
import Rehome.Proofs.Samples

/-!
# Splitting — every host of a pass goes into one group

Whoever splits the hosts of a pass, by lot or by a plan decided ahead of time, puts every one of them
into one group and no other host into any (`Plan.Splits`, `splits_hosts`). By lot the ratio decides
how many move. One minus a ratio is a weight beside it, and the total of the two is in range, so all
the seats are handed out and no more move than there are. A plan decided ahead of time has to have a
group for each host, and the ratio is of no interest to it.
-/

namespace Rehome

open Numeric (Binary64 Binary Format binary64)
open Numeric.Binary (IsMagnitude units)
open Chance (Source Generator)
open Chance.Source (IsSample)

/-! ## How many move -/

namespace Apportion

variable {weights : List Binary64} {seats : Nat}

/-- The total of weights that are not above one is in range. -/
theorem total_of_le_one (hweights : ∀ w ∈ weights, w.IsMagnitude)
    (hone : ∀ w ∈ weights, w.units ≤ binary64.one) (hfew : weights.length ≤ 2 ^ 53) :
    (total weights).IsMagnitude ∧ (total weights).units ≤ weights.length * binary64.one := by
  induction weights using List.reverseRecOn with
  | nil => exact ⟨Numeric.Binary.isMagnitude_signedZero false, Nat.zero_le _⟩
  | append_singleton weights w ih =>
      rw [List.forall_mem_append, List.forall_mem_singleton] at hweights hone
      rw [List.length_append, List.length_singleton] at hfew ⊢
      obtain ⟨hsum, hle⟩ := ih hweights.1 hone.1 (Nat.le_of_succ_le hfew)
      have hlt : (weights.length + 1) * binary64.one < binary64.limit :=
        Nat.lt_of_le_of_lt (Nat.mul_le_mul_right _ hfew) (by decide)
      have hfits : binary64.Fits ((weights.length + 1) * binary64.one) :=
        ⟨hlt, Format.gap_dvd_mul_one hfew⟩
      have hnum : (total weights).units + w.units ≤ (weights.length + 1) * binary64.one * 1 := by
        rw [Nat.mul_one, Nat.add_mul, Nat.one_mul]
        exact Nat.add_le_add hle hone.2
      rw [total_concat]
      obtain ⟨hmagnitude, hunits⟩ := (hsum.add hweights.2).of_le Nat.one_pos hfits hnum
      refine ⟨hmagnitude, ?_⟩
      rw [hunits]
      exact Format.round_le Nat.one_pos hfits.2 hnum

/-- Few weights that are not above one share out all the seats. -/
theorem apportion_of_le_one {σ : Type} (source : Source σ) (s : σ)
    (hweights : ∀ w ∈ weights, w.IsMagnitude) (hpositive : ∃ w ∈ weights, 0 < w.units)
    (hone : ∀ w ∈ weights, w.units ≤ binary64.one)
    (hfew : (weights.length + 1) * (seats + 1) < 2 ^ 53) :
    ∃ counts s', apportion source weights seats s = .ok (.ok counts, s') ∧ counts.sum = seats := by
  have hlength : weights.length + 1 ≤ (weights.length + 1) * (seats + 1) :=
    Nat.le_mul_of_pos_right _ (Nat.succ_pos seats)
  have hfinite := (total_of_le_one hweights hone (by omega)).1.isFinite
  obtain ⟨w, hw, hunits⟩ := hpositive
  have hpos := Nat.lt_of_lt_of_le hunits (units_le_total hweights hfinite hw)
  -- no more seats are left over than there are weights, so each of them is handed out
  have hout : ComesOut weights seats := wholeSeats_bounds hweights hfinite hpos hfew
  obtain ⟨counts, s', hrun, -, hsum⟩ := apportion_of_comesOut source s hweights ⟨w, hw, hunits⟩ hout
  exact ⟨counts, s', hrun, hsum⟩

end Apportion

variable {ratio : Binary64}

theorem isMagnitude_of_inUnitInterval (hratio : Settings.InUnitInterval ratio) :
    ratio.IsMagnitude ∧ ratio.units ≤ binary64.one := by
  obtain ⟨negative, n, fits, rfl, hlow, hhigh⟩ := hratio
  cases negative with
  | false => exact ⟨.unsigned n fits, Int.ofNat_le.mp hhigh⟩
  | true =>
      obtain rfl : n = 0 := by
        simp only [Numeric.Binary.signed, if_true] at hlow
        omega
      exact ⟨.minusZero, Nat.zero_le _⟩

/-- What is left of one beside a ratio is rounded once. -/
theorem rounded_complement (hratio : Settings.InUnitInterval ratio) :
    ((Binary.ofNat 1).sub ratio).IsMagnitude ∧
      ((Binary.ofNat 1).sub ratio).units = binary64.round (binary64.one - ratio.units) 1 := by
  obtain ⟨hmagnitude, hle⟩ := isMagnitude_of_inUnitInterval hratio
  have hlt : 1 * binary64.one < binary64.limit := by
    rw [Nat.one_mul]
    exact Apportion.one_fits.1
  obtain ⟨hone, hunits⟩ := Numeric.Binary.units_ofNat Nat.one_le_two_pow hlt
  rw [Nat.one_mul] at hunits
  rw [← hunits] at hle
  have hsub := hone.sub hmagnitude hle
  rw [hunits] at hsub
  exact hsub.of_le Nat.one_pos Apportion.one_fits (by omega)

/-- What is left of one beside a ratio is a weight that is not above one, and not zero where the
    ratio is. -/
theorem complement_of_inUnitInterval (hratio : Settings.InUnitInterval ratio) :
    ((Binary.ofNat 1).sub ratio).IsMagnitude ∧
      ((Binary.ofNat 1).sub ratio).units ≤ binary64.one ∧
      (ratio.units = 0 → 0 < ((Binary.ofNat 1).sub ratio).units) := by
  obtain ⟨hrest, hrounded⟩ := rounded_complement hratio
  rw [hrounded]
  refine ⟨hrest, Format.round_le Nat.one_pos Apportion.one_fits.2 (by omega), ?_⟩
  intro hzero
  have hself := Format.round_eq_self Nat.one_pos Apportion.one_fits.2
  rw [Nat.mul_one] at hself
  rw [hzero, Nat.sub_zero, hself]
  exact binary64.one_pos

/-- A ratio entitles to a number of items, and to no more than there are. -/
theorem transferSize_of_inUnitInterval {τ : Type} (source : Source τ) {length : Nat} (start : τ)
    (hratio : Settings.InUnitInterval ratio) (hlength : length ≤ 2 ^ 51) :
    ∃ count s, transferSize source length ratio start = .ok (.ok count, s) ∧ count ≤ length := by
  obtain ⟨hfirst, hfirst_le⟩ := isMagnitude_of_inUnitInterval hratio
  obtain ⟨hsecond, hsecond_le, hpositive⟩ := complement_of_inUnitInterval hratio
  have hweights : ∀ w ∈ [ratio, (Binary.ofNat 1).sub ratio], w.IsMagnitude := by
    simp [hfirst, hsecond]
  have hone : ∀ w ∈ [ratio, (Binary.ofNat 1).sub ratio], w.units ≤ binary64.one := by
    simp [hfirst_le, hsecond_le]
  -- if the ratio is zero, the other weight is one
  have hsome : ∃ w ∈ [ratio, (Binary.ofNat 1).sub ratio], 0 < w.units := by
    rcases Nat.eq_zero_or_pos ratio.units with hzero | hpos
    · exact ⟨_, by simp, hpositive hzero⟩
    · exact ⟨_, by simp, hpos⟩
  obtain ⟨counts, s, hrun, hsum⟩ := Apportion.apportion_of_le_one source start hweights hsome hone
    (show (2 + 1) * (length + 1) < 2 ^ 53 by omega)
  refine ⟨counts.headD 0, s, ?_, ?_⟩
  · rw [transferSize, if_pos (Settings.isRatio_iff.mpr hratio), hrun]
    rfl
  · rw [← hsum]
    cases counts with
    | nil => exact Nat.zero_le _
    | cons count rest => exact Nat.le_add_right count rest.sum

theorem transferSize_of_not_inUnitInterval {τ : Type} (source : Source τ) (length : Nat) (start : τ)
    (hratio : ¬ Settings.InUnitInterval ratio) :
    transferSize source length ratio start = .ok (.error (.badRatio ratio), start) := by
  rw [transferSize, if_neg (mt Settings.isRatio_iff.mp hratio)]

/-! ## Which of them move -/

namespace Partition

variable {α : Type} {items : List α} {chosen : List Nat}

section

variable {σ : Type} {source : Source σ} {ratio : Binary64} {start s s' : σ} {tries count : Nat}
  (hcount : transferSize source items.length ratio start = .ok (.ok count, s))

include hcount

theorem partition_of_sample (hsample : source.sample tries count items.length s = some (chosen, s')) :
    partition source tries items ratio start = .ok (.ok (ofPositions items chosen), s') := by
  rw [partition, hcount]
  dsimp only
  rw [hsample]

theorem partition_of_no_sample (hsample : source.sample tries count items.length s = none) :
    partition source tries items ratio start = .error .noSample := by
  rw [partition, hcount]
  dsimp only
  rw [hsample]

end

/-- Both groups together are the items. -/
theorem perm_ofPositions (items : List α) (chosen : List Nat) :
    ((ofPositions items chosen).transfer ++ (ofPositions items chosen).retain).Perm items := by
  have hsplit := List.filter_append_perm (fun entry => chosen.contains entry.2) items.zipIdx
  have hmapped := hsplit.map Prod.fst
  rw [List.map_append, List.zipIdx_map_fst] at hmapped
  rw [ofPositions, List.partition_eq_filter_filter]
  exact hmapped

/-- Each position of a sample moves an item. -/
theorem length_ofPositions (h : IsSample items.length chosen) :
    (ofPositions items chosen).transfer.length = chosen.length := by
  have hpositions : (((List.range' 0 items.length).filter fun i => chosen.contains i)).Perm chosen := by
    refine (List.perm_ext_iff_of_nodup (List.Nodup.filter _ List.nodup_range') h.nodup).mpr ?_
    intro i
    rw [List.mem_filter, List.mem_range'_1, List.contains_iff_mem]
    constructor
    · exact fun hi => hi.2
    · exact fun hi => ⟨⟨Nat.zero_le i, by rw [Nat.zero_add]; exact h.below i hi⟩, hi⟩
  rw [ofPositions, List.partition_eq_filter_filter, List.length_map, ← hpositions.length_eq,
    ← List.zipIdx_map_snd, List.filter_map, List.length_map]
  rfl

end Partition

/-! ## Plans -/

/-- The groups of a plan have no host in common, and together they are the hosts. -/
structure Plan.Splits (plan : Plan) (hosts : HostSet) : Prop where
  disjoint : plan.transfer ∩ plan.retain = ∅
  covers : plan.transfer ∪ plan.retain = hosts

namespace Planner

theorem check_of_disjoint {plan : Plan} (h : plan.transfer ∩ plan.retain = ∅) :
    plan.check = .ok plan := by
  have hnone : plan.overlap? = none := first?_eq_none_iff.mpr h
  rw [Plan.check, hnone]

/-- The plan that moves the hosts at the chosen positions. -/
def chosenPlan (hosts : HostSet) (chosen : List Nat) : Plan :=
  let split := Partition.ofPositions hosts.toList chosen
  ⟨.ofList split.transfer, .ofList split.retain⟩

/-- The positions of a sample split the hosts, and each of them moves a host. -/
theorem splits_chosenPlan (hosts : HostSet) {chosen : List Nat} (h : IsSample hosts.size chosen) :
    (chosenPlan hosts chosen).Splits hosts ∧
      (chosenPlan hosts chosen).transfer.size = chosen.length := by
  have hlength : (Partition.ofPositions hosts.toList chosen).transfer.length = chosen.length :=
    Partition.length_ofPositions h
  have hperm := Partition.perm_ofPositions hosts.toList chosen
  unfold chosenPlan
  generalize Partition.ofPositions hosts.toList chosen = split at hlength hperm ⊢
  -- both groups together are the hosts, and no host is there twice
  have hnodup := hperm.nodup_iff.mpr hosts.nodup_toList
  refine ⟨⟨?_, ?_⟩, ?_⟩
  · refine HostSet.eq_empty_iff.mpr ?_
    intro host hh
    rw [HostSet.mem_inter, HostSet.mem_ofList, HostSet.mem_ofList] at hh
    exact List.disjoint_of_nodup_append hnodup hh.1 hh.2
  · ext host
    rw [HostSet.mem_union, HostSet.mem_ofList, HostSet.mem_ofList, ← List.mem_append,
      hperm.mem_iff, HostSet.mem_toList]
  · rw [HostSet.size_ofList (List.nodup_append'.mp hnodup).1, hlength]

variable {hosts : HostSet} {ratio : Binary64}

section

variable {τ : Type} {source : Source τ} {start s : τ} {tries count : Nat}

theorem drawnWithin_of_not_inUnitInterval (hratio : ¬ Settings.InUnitInterval ratio) :
    drawnWithin tries source start hosts ratio = .error (.rejected (.badRatio ratio)) := by
  rw [drawnWithin, partition, transferSize_of_not_inUnitInterval source _ start hratio]

/-- A plan is drawn as soon as a sample of the hosts is. -/
theorem drawnWithin_of_sample
    (hsize : transferSize source hosts.size ratio start = .ok (.ok count, s)) {chosen : List Nat}
    {s' : τ} (hsample : source.sample tries count hosts.size s = some (chosen, s'))
    (hdisjoint : (chosenPlan hosts chosen).transfer ∩ (chosenPlan hosts chosen).retain = ∅) :
    drawnWithin tries source start hosts ratio = .ok (chosenPlan hosts chosen) := by
  rw [HostSet.size] at hsize hsample
  rw [drawnWithin, Partition.partition_of_sample hsize hsample]
  show (chosenPlan hosts chosen).check.mapError _ = _
  rw [check_of_disjoint hdisjoint]
  rfl

/-- There is no plan where there is no sample. -/
theorem drawnWithin_of_no_sample
    (hsize : transferSize source hosts.size ratio start = .ok (.ok count, s))
    (hsample : source.sample tries count hosts.size s = none) :
    drawnWithin tries source start hosts ratio = .error (.halted .noSample) := by
  rw [HostSet.size] at hsize hsample
  rw [drawnWithin, Partition.partition_of_no_sample hsize hsample]

/-- A plan is drawn for a ratio from zero to one, unless the tries run out. -/
theorem drawnWithin_of_inUnitInterval (source : Source τ) (start : τ) (tries : Nat)
    (hratio : Settings.InUnitInterval ratio) (hsize : hosts.size ≤ 2 ^ 51) :
    drawnWithin tries source start hosts ratio = .error (.halted .noSample) ∨
      ∃ plan : Plan, drawnWithin tries source start hosts ratio = .ok plan ∧ plan.Splits hosts ∧
        (∃ s, transferSize source hosts.size ratio start = .ok (.ok plan.transfer.size, s)) ∧
        ∀ more ≥ tries, drawnWithin more source start hosts ratio = .ok plan := by
  obtain ⟨count, s, htransfer, hcount⟩ := transferSize_of_inUnitInterval source start hratio hsize
  cases hsample : source.sample tries count hosts.size s with
  | none => exact .inl (drawnWithin_of_no_sample htransfer hsample)
  | some x =>
      obtain ⟨chosen, s'⟩ := x
      obtain ⟨hchosen, hlength⟩ := Chance.Source.isSample_sampleBy hcount hsample
      obtain ⟨hsplits, hmoving⟩ := splits_chosenPlan hosts hchosen
      refine .inr ⟨chosenPlan hosts chosen, ?_, hsplits, ⟨s, ?_⟩, ?_⟩
      · exact drawnWithin_of_sample htransfer hsample hsplits.disjoint
      · rw [hmoving, hlength, htransfer]
      · intro more hmore
        have hagain : source.sample more count hosts.size s = some (chosen, s') :=
          Chance.Source.sampleBy_of_le hmore hsample
        exact drawnWithin_of_sample htransfer hagain hsplits.disjoint

end

theorem splits_of_restrict {ahead plan : Plan} (h : ahead.restrict hosts = .ok plan) :
    plan.Splits hosts := by
  obtain ⟨hoverlap, huncovered, rfl⟩ := restrict_eq_ok_iff.mp h
  rw [HostSet.eq_empty_iff] at hoverlap
  refine ⟨HostSet.eq_empty_iff.mpr ?_, ?_⟩
  · intro host hh
    obtain ⟨htransfer, hretain⟩ := HostSet.mem_inter.mp hh
    exact hoverlap host (HostSet.mem_inter.mpr
      ⟨(HostSet.mem_inter.mp htransfer).1, (HostSet.mem_inter.mp hretain).1⟩)
  · ext host
    simp only [HostSet.mem_union, HostSet.mem_inter]
    constructor
    · rintro (hh | hh)
      · exact hh.2
      · exact hh.2
    · -- each host has a group
      intro hhost
      rcases HostSet.mem_union.mp (HostSet.sdiff_eq_empty_iff.mp huncovered host hhost) with hh | hh
      · exact .inl ⟨hh, hhost⟩
      · exact .inr ⟨hh, hhost⟩

/-- Both kinds of planner split the hosts of a pass. By lot a plan comes of every ratio from zero to
    one, unless the tries run out, and of no other: as many hosts move as the ratio entitles to, and
    more tries change nothing. A plan decided ahead of time is good for the hosts that it has a group
    for each, whatever the ratio. -/
theorem splits_hosts (hosts : HostSet) (ratio : Binary64) :
    (∀ (τ : Type) (source : Source τ) (start : τ) (tries : Nat), hosts.size ≤ 2 ^ 51 →
      (drawnWithin tries source start hosts ratio = .error (.rejected (.badRatio ratio)) ↔
        ¬ Settings.InUnitInterval ratio) ∧
      (Settings.InUnitInterval ratio →
        drawnWithin tries source start hosts ratio ≠ .error (.halted .noSample) →
          ∃ plan : Plan, drawnWithin tries source start hosts ratio = .ok plan ∧
            plan.Splits hosts ∧
            (∃ s, transferSize source hosts.size ratio start = .ok (.ok plan.transfer.size, s)) ∧
            ∀ more ≥ tries, drawnWithin more source start hosts ratio = .ok plan)) ∧
    ∀ ahead : Plan,
      ((∃ plan, fixed ahead hosts ratio = .ok plan) ↔
        ahead.transfer ∩ ahead.retain = ∅ ∧ hosts ⊆ ahead.transfer ∪ ahead.retain) ∧
      ∀ plan, fixed ahead hosts ratio = .ok plan →
        plan.Splits hosts ∧ plan.transfer = ahead.transfer ∩ hosts := by
  refine ⟨?_, ?_⟩
  · intro τ source start tries hsize
    by_cases hratio : Settings.InUnitInterval ratio
    · rcases drawnWithin_of_inUnitInterval source start tries hratio hsize with hnone | hplan
      · rw [hnone]
        exact ⟨⟨fun h => (nomatch h), fun h => absurd hratio h⟩, fun _ h => absurd rfl h⟩
      · refine ⟨?_, fun _ _ => hplan⟩
        obtain ⟨plan, hok, -⟩ := hplan
        rw [hok]
        exact ⟨fun h => (nomatch h), fun h => absurd hratio h⟩
    · rw [drawnWithin_of_not_inUnitInterval hratio]
      exact ⟨⟨fun _ => hratio, fun _ => rfl⟩, fun h => absurd h hratio⟩
  · intro ahead
    refine ⟨?_, ?_⟩
    · rw [← HostSet.sdiff_eq_empty_iff]
      constructor
      · rintro ⟨plan, hplan⟩
        obtain ⟨hoverlap, huncovered, -⟩ := restrict_eq_ok_iff.mp (fixed_eq_ok_iff.mp hplan)
        exact ⟨hoverlap, huncovered⟩
      · rintro ⟨hoverlap, huncovered⟩
        exact ⟨_, fixed_eq_ok_iff.mpr (restrict_eq_ok_iff.mpr ⟨hoverlap, huncovered, rfl⟩)⟩
    · intro plan hplan
      have hrestrict := fixed_eq_ok_iff.mp hplan
      exact ⟨splits_of_restrict hrestrict, transfer_of_restrict hrestrict⟩

/-- Four hosts, in no order. -/
def fourHosts : HostSet := .ofList ["d", "b", "a", "c"]

/-- By the words of a seed one half of four hosts is drawn, and a plan for more hosts splits them. -/
theorem splits_four_hosts :
    fourHosts.size ≤ 2 ^ 51 ∧ Settings.InUnitInterval (Binary.ofQuotient 1 2) ∧
      fair 7 fourHosts (Binary.ofQuotient 1 2) ≠ .error (.halted .noSample) ∧
      (∃ plan : Plan, fair 7 fourHosts (Binary.ofQuotient 1 2) = .ok plan ∧ plan.Splits fourHosts ∧
        plan.transfer.size = 2) ∧
      ∃ plan : Plan, fixed ⟨.ofList ["a", "x"], .ofList ["b", "c", "d"]⟩ fourHosts
        (Binary.ofQuotient 1 2) = .ok plan ∧ plan.Splits fourHosts ∧ plan.transfer = .ofList ["a"] := by
  have hsize : fourHosts.size ≤ 2 ^ 51 := by decide +kernel
  have hratio : Settings.InUnitInterval (Binary.ofQuotient 1 2) :=
    Settings.isRatio_iff.mp (by decide +kernel)
  have hdrawn : fair 7 fourHosts (Binary.ofQuotient 1 2) ≠ .error (.halted .noSample) := by
    decide +kernel
  have hcount : (transferSize Generator.source fourHosts.size (Binary.ofQuotient 1 2)
      (.seeded 7)).map Prod.fst = .ok (.ok 2) := by
    decide +kernel
  obtain ⟨hlot, hahead⟩ := splits_hosts fourHosts (Binary.ofQuotient 1 2)
  obtain ⟨-, hplan⟩ := hlot Generator Generator.source (.seeded 7) sampleTries hsize
  obtain ⟨plan, hok, hsplits, ⟨s, htransfer⟩, -⟩ := hplan hratio hdrawn
  obtain ⟨hiff, hgroups⟩ := hahead ⟨.ofList ["a", "x"], .ofList ["b", "c", "d"]⟩
  obtain ⟨plan', hok'⟩ := hiff.mpr ⟨by decide +kernel, HostSet.sdiff_eq_empty_iff.mp (by decide +kernel)⟩
  refine ⟨hsize, hratio, hdrawn, ⟨plan, hok, hsplits, ?_⟩, plan', hok', (hgroups plan' hok').1, ?_⟩
  · rw [htransfer] at hcount
    exact Except.ok.inj (Except.ok.inj hcount)
  · rw [(hgroups plan' hok').2]
    decide +kernel

end Planner

end Rehome
