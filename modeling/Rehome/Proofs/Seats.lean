import Mathlib.Algebra.Ring.Nat
import Mathlib.Data.List.Nodup
import Rehome.Apportion

/-!
# Seats — how many of them are handed out

Every index gets its whole seats, and the first of the order one seat more for each seat that is left
over. An index stands in the order once, so no one gets two of those: as many are handed out as are
left over or as there are indices, whichever is less (`sum_counts`).
-/

namespace Rehome

open Numeric (Binary64)
open Chance (Source)

namespace Chance.Source

theorem length_draws {σ : Type} (source : Source σ) (n : Nat) (s : σ) :
    (source.draws n s).1.length = n := by
  induction n generalizing s with
  | zero => rfl
  | succ n ih =>
      show (source.draws n (source.draw s).2).1.length + 1 = n + 1
      rw [ih]

end Chance.Source

namespace Apportion

variable {seats : Nat} {shares draws : List Binary64} {es : List Entitlement}

/-! ## Entitlements -/

theorem map_index_entitlements (seats : Nat) (shares draws : List Binary64) :
    (entitlements seats shares draws).map (·.index) = List.range' 0 (shares.zip draws).length := by
  unfold entitlements
  rw [List.map_map, ← List.zipIdx_map_snd]
  rfl

theorem nodup_index_entitlements (seats : Nat) (shares draws : List Binary64) :
    ((entitlements seats shares draws).map (·.index)).Nodup := by
  rw [map_index_entitlements]
  exact List.nodup_range'

theorem map_full_entitlements (seats : Nat) (hlength : draws.length = shares.length) :
    (entitlements seats shares draws).map (·.full) =
      shares.map fun share => (share.mul (.ofNat seats)).floor.toNatClamped maxCount := by
  have hzip : (shares.zip draws).map Prod.fst = shares :=
    List.map_fst_zip (Nat.le_of_eq hlength.symm)
  conv_rhs => rw [← hzip, ← List.zipIdx_map_fst 0 (shares.zip draws)]
  unfold entitlements
  rw [List.map_map, List.map_map, List.map_map]
  rfl

theorem length_entitlements (seats : Nat) (hlength : draws.length = shares.length) :
    (entitlements seats shares draws).length = shares.length := by
  have h := congrArg List.length (map_full_entitlements seats hlength)
  rwa [List.length_map, List.length_map] at h

/-! ## Seats left over -/

/-- The whole seats of some indices, all together. -/
def fullSeats (es : List Entitlement) : Nat := (es.map (·.full)).sum

theorem foldl_full (es : List Entitlement) (n : Nat) :
    es.foldl (fun n e => n + e.full) n = n + fullSeats es := by
  induction es generalizing n with
  | nil => rfl
  | cons e es ih =>
      show es.foldl (fun n e => n + e.full) (n + e.full) = n + (e.full + fullSeats es)
      rw [ih, Nat.add_assoc]

/-- An index gets a seat more just when its entitlement is among the first of the order. -/
theorem countP_extraIndices (hnodup : (es.map (·.index)).Nodup) :
    es.countP (fun e => e.index ∈ extraIndices seats es) =
      min (seats - fullSeats es) es.length := by
  have hperm := List.mergeSort_perm es Entitlement.before
  have hleft : seats - es.foldl (fun n e => n + e.full) 0 = seats - fullSeats es := by
    rw [foldl_full, Nat.zero_add]
  rw [← hperm.countP_eq, ← @List.length_mergeSort _ Entitlement.before es]
  unfold extraIndices
  rw [hleft]
  generalize seats - fullSeats es = leftover
  have hsorted : ((es.mergeSort Entitlement.before).map (·.index)).Nodup :=
    (hperm.map _).nodup_iff.mpr hnodup
  generalize es.mergeSort Entitlement.before = order at hsorted
  -- no index of the first part comes again in the second
  have hdisjoint := hsorted
  rw [← List.take_append_drop leftover order, List.map_append] at hdisjoint
  have hfirst : (order.take leftover).countP
      (fun e => e.index ∈ (order.take leftover).map (·.index)) = (order.take leftover).length := by
    refine List.countP_eq_length.mpr ?_
    intro e he
    exact decide_eq_true (List.mem_map_of_mem he)
  have hsecond : (order.drop leftover).countP
      (fun e => e.index ∈ (order.take leftover).map (·.index)) = 0 := by
    refine List.countP_eq_zero.mpr ?_
    intro e he hmem
    exact List.disjoint_of_nodup_append hdisjoint (of_decide_eq_true hmem)
      (List.mem_map_of_mem he)
  conv_lhs => rw [← List.take_append_drop leftover order]
  rw [List.countP_append, List.take_append_drop, hfirst, hsecond, List.length_take, Nat.add_zero]

theorem sum_map_add_one_if (es : List Entitlement) (extra : List Nat) :
    (es.map fun e => if e.index ∈ extra then e.full + 1 else e.full).sum =
      fullSeats es + es.countP (fun e => e.index ∈ extra) := by
  induction es with
  | nil => rfl
  | cons e es ih =>
      have hfull : fullSeats (e :: es) = e.full + fullSeats es := rfl
      rw [List.map_cons, List.sum_cons, ih, List.countP_cons, hfull]
      by_cases he : e.index ∈ extra
      · rw [if_pos he, if_pos (decide_eq_true he)]
        omega
      · rw [if_neg he, if_neg (by simpa using he)]
        omega

/-- As many seats are handed out beside the whole ones as are left over, and one for each index at
    most. -/
theorem sum_counts (hnodup : (es.map (·.index)).Nodup) :
    (counts seats es).sum = fullSeats es + min (seats - fullSeats es) es.length := by
  unfold counts
  rw [sum_map_add_one_if, countP_extraIndices hnodup]

theorem length_counts (seats : Nat) (es : List Entitlement) :
    (counts seats es).length = es.length :=
  List.length_map _

end Apportion

end Rehome
