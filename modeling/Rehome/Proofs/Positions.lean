import Mathlib.Data.Finset.Sort
import Mathlib.Data.Fintype.Fin
import Rehome.Proofs.Splitting

/-!
# Positions — what goes into either group of a partition

A list is split at a set of its positions: the items there are one group and the items at all the
other positions are the other, each group in the order of the list (`Partition.SplitsAt`). Nothing
is said of the items themselves, so one that is there several times may go both ways.

A partition by ratio splits a list at as many positions as the ratio entitles to
(`Partition.partition_at_positions`), whatever the words that the sample is drawn with, even if they
are the same over and over, and whichever of the methods draws it.
-/

namespace Rehome

open Numeric (Binary64 Binary)
open Chance (Source Generator)
open Chance.Source (IsSample Method)

namespace Partition

variable {α : Type} {items : List α} {chosen : List Nat}

/-! ## Items at positions -/

/-- The items at some positions, in increasing order of position. -/
def itemsAt (items : List α) (positions : Finset (Fin items.length)) : List α :=
  positions.sort.map items.get

/-- A partition has the items at some positions in one group and all others in the other. -/
structure SplitsAt (split : Partition α) (items : List α) (positions : Finset (Fin items.length)) :
    Prop where
  transfer : split.transfer = itemsAt items positions
  retain : split.retain = itemsAt items positionsᶜ

/-- The positions of a list that pass a test, in increasing order. -/
theorem sort_filter_univ {n : Nat} (p : Fin n → Bool) :
    (Finset.univ.filter fun i => p i = true).sort = (List.finRange n).filter p := by
  have hfinset : (Finset.univ.filter fun i => p i = true) = ((List.finRange n).filter p).toFinset := by
    ext i
    simp
  have hnodup : ((List.finRange n).filter p).Nodup := (List.nodup_finRange n).filter p
  rw [hfinset, List.toFinset_sort _ hnodup]
  exact (List.pairwise_le_finRange n).filter p

theorem zipIdx_eq_map_finRange (items : List α) :
    items.zipIdx = (List.finRange items.length).map fun i => (items.get i, i.val) := by
  refine List.ext_getElem (by simp) ?_
  intro i hi hi'
  simp

/-- The items whose positions pass a test are those at the positions that do. -/
theorem map_fst_filter_zipIdx (items : List α) (p : Nat → Bool) :
    (items.zipIdx.filter fun entry => p entry.2).map Prod.fst =
      itemsAt items (Finset.univ.filter fun i => p i.val = true) := by
  rw [itemsAt, sort_filter_univ fun i : Fin items.length => p i.val, zipIdx_eq_map_finRange,
    List.filter_map, List.map_map]
  rfl

/-- The positions of a list that are among those chosen. -/
def positionsOf (items : List α) (chosen : List Nat) : Finset (Fin items.length) :=
  Finset.univ.filter fun i => chosen.contains i.val = true

theorem splitsAt_ofPositions (items : List α) (chosen : List Nat) :
    (ofPositions items chosen).SplitsAt items (positionsOf items chosen) := by
  have hothers : (positionsOf items chosen)ᶜ =
      Finset.univ.filter fun i : Fin items.length => (!chosen.contains i.val) = true := by
    ext i
    simp [positionsOf]
  constructor
  · rw [ofPositions, List.partition_eq_filter_filter]
    exact map_fst_filter_zipIdx items fun i => chosen.contains i
  · rw [ofPositions, List.partition_eq_filter_filter, hothers]
    exact map_fst_filter_zipIdx items fun i => !chosen.contains i

/-- The positions of a sample are as many as were drawn. -/
theorem card_positionsOf (h : IsSample items.length chosen) :
    (positionsOf items chosen).card = chosen.length := by
  have hlength := length_ofPositions h
  rw [(splitsAt_ofPositions items chosen).transfer, itemsAt, List.length_map,
    Finset.length_sort] at hlength
  exact hlength

/-- A sample splits the items at as many positions as were drawn. -/
theorem exists_positions {count : Nat} (h : IsSample items.length chosen)
    (hlength : chosen.length = count) :
    ∃ positions : Finset (Fin items.length), positions.card = count ∧
      (ofPositions items chosen).SplitsAt items positions :=
  ⟨positionsOf items chosen, (card_positionsOf h).trans hlength, splitsAt_ofPositions items chosen⟩

/-! ## Partitions by ratio -/

variable {σ : Type} {source : Source σ} {ratio : Binary64} {start s : σ} {count : Nat}

/-- A partition by ratio, if its tries do not run out, splits the items at some positions, and at just
    as many as the ratio entitles to. So it moves that many items, keeps all others, and loses none
    and repeats none. More tries change nothing. Each of the methods that could draw the sample gives
    such positions. -/
theorem partition_at_positions (hle : count ≤ items.length)
    (hcount : transferSize source items.length ratio start = .ok (.ok count, s)) :
    (∀ tries, source.sample tries count items.length s ≠ none →
      ∃ (positions : Finset (Fin items.length)) (split : Partition α) (s' : σ),
        positions.card = count ∧ split.SplitsAt items positions ∧
        (∀ more ≥ tries, partition source more items ratio start = .ok (.ok split, s')) ∧
        split.transfer.length = count ∧
        split.transfer.length + split.retain.length = items.length ∧
        (split.transfer ++ split.retain).Perm items) ∧
    ∀ (method : Method) (tries : Nat) (chosen : List Nat) (s' : σ),
      source.sampleBy method tries count items.length s = some (chosen, s') →
        ∃ positions : Finset (Fin items.length), positions.card = count ∧
          (ofPositions items chosen).SplitsAt items positions := by
  constructor
  · intro tries hends
    obtain ⟨⟨chosen, s'⟩, hsample⟩ := Option.ne_none_iff_exists'.mp hends
    obtain ⟨hchosen, hlength⟩ := Chance.Source.isSample_sampleBy hle hsample
    obtain ⟨positions, hcard, hsplits⟩ := exists_positions hchosen hlength
    have hperm := perm_ofPositions items chosen
    refine ⟨positions, ofPositions items chosen, s', hcard, hsplits, ?_, ?_, ?_, hperm⟩
    · intro more hmore
      exact partition_of_sample hcount (Chance.Source.sampleBy_of_le hmore hsample)
    · rw [length_ofPositions hchosen, hlength]
    · rw [← List.length_append, hperm.length_eq]
  · intro method tries chosen s' hsample
    obtain ⟨hchosen, hlength⟩ := Chance.Source.isSample_sampleBy hle hsample
    exact exists_positions hchosen hlength

/-- Six items, three of them the same and two others the same. -/
def sixItems : List String := ["a", "b", "a", "c", "a", "b"]

/-- Where all words are zero, the first position is drawn over and over. Still three positions are
    found for one half of six items: the first one and the last two. -/
theorem partition_at_repeated_draws :
    ∃ s : Generator, 3 ≤ sixItems.length ∧
      transferSize Generator.source sixItems.length (Binary.ofQuotient 1 2) (.cycle [0]) =
        .ok (.ok 3, s) ∧
      Generator.source.sample 1 3 sixItems.length s ≠ none ∧
      ∃ positions : Finset (Fin sixItems.length), positions.card = 3 ∧
        itemsAt sixItems positions = ["a", "a", "b"] ∧
        itemsAt sixItems positionsᶜ = ["b", "a", "c"] := by
  have hle : 3 ≤ sixItems.length := by decide
  have hcount : (transferSize Generator.source sixItems.length (Binary.ofQuotient 1 2)
      (.cycle [0])).map Prod.fst = .ok (.ok 3) := by
    decide +kernel
  have hends : (transferSize Generator.source sixItems.length (Binary.ofQuotient 1 2)
      (.cycle [0])).map (fun drawn =>
        (Generator.source.sample 1 3 sixItems.length drawn.2).isSome) = .ok true := by
    decide +kernel
  have hgroups : (partition Generator.source 1 sixItems (Binary.ofQuotient 1 2) (.cycle [0])).map
      Prod.fst = .ok (.ok ⟨["a", "a", "b"], ["b", "a", "c"]⟩) := by
    decide +kernel
  cases hsize : transferSize Generator.source sixItems.length (Binary.ofQuotient 1 2)
      (.cycle [0]) with
  | error halt =>
      rw [hsize] at hcount
      exact nomatch hcount
  | ok drawn =>
      obtain ⟨result, s⟩ := drawn
      rw [hsize] at hcount hends
      obtain rfl : result = .ok 3 := Except.ok.inj hcount
      have hsome : Generator.source.sample 1 3 sixItems.length s ≠ none :=
        Option.isSome_iff_ne_none.mp (Except.ok.inj hends)
      obtain ⟨positions, split, s', hcard, hsplits, hpartition, -⟩ :=
        (partition_at_positions hle hsize).1 1 hsome
      have hsplit := congrArg (Except.map Prod.fst) (hpartition 1 (Nat.le_refl 1))
      -- the groups are found by running the partition
      obtain rfl : split = ⟨["a", "a", "b"], ["b", "a", "c"]⟩ :=
        Except.ok.inj (Except.ok.inj (hsplit.symm.trans hgroups))
      exact ⟨s, hle, rfl, hsome, positions, hcard, hsplits.transfer.symm, hsplits.retain.symm⟩

end Partition

end Rehome
