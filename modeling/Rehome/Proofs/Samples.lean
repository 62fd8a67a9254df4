import Mathlib.Data.List.Nodup
import Mathlib.Data.List.Range
import Rehome.Chance.Sample

/-!
# Samples — that many positions, no one of them twice

Whichever of the methods takes a sample, and whatever the words are, its positions are below the
length, no one of them is there twice, and there are as many as were asked for
(`isSample_sampleBy`). Each method gets there differently. Picking falls back to a position above
all that it could have picked before; drawing waits for a new one; shuffling only ever swaps.

The tries only cut a run short: what is drawn with some of them is drawn with more
(`sampleBy_of_le`).
-/

namespace Rehome.Chance.Source

variable {σ : Type} {source : Source σ} {width : Width} {tries length n t : Nat}
variable {chosen chosen' : List Nat}
variable {positions positions' : Array Nat} {s s' : σ}

/-- Positions below a length, no one of them twice. -/
structure IsSample (length : Nat) (chosen : List Nat) : Prop where
  nodup : chosen.Nodup
  below : ∀ t ∈ chosen, t < length

theorem IsSample.nil (length : Nat) : IsSample length [] :=
  ⟨.nil, fun _ ht => nomatch ht⟩

theorem IsSample.cons (h : IsSample length chosen) (ht : t < length) (hnew : ¬ t ∈ chosen) :
    IsSample length (t :: chosen) :=
  ⟨List.nodup_cons.mpr ⟨hnew, h.nodup⟩, List.forall_mem_cons.mpr ⟨ht, h.below⟩⟩

theorem IsSample.mono {longer : Nat} (h : IsSample length chosen) (hle : length ≤ longer) :
    IsSample longer chosen :=
  ⟨h.nodup, fun t ht => Nat.lt_of_lt_of_le (h.below t ht) hle⟩

/-! ## One draw -/

/-- A word is one of all the words of its width. -/
theorem next_lt (source : Source σ) (width : Width) (s : σ) : (source.next width s).1 < width.words := by
  cases width with
  | short => exact (source.next32 s).1.toNat_lt
  | long => exact (source.next64 s).1.toNat_lt

/-- A draw from a range that is not empty falls into it. -/
theorem drawPart_lt {size limit : Nat} (hsize : 0 < size)
    (h : source.drawPart width size limit tries s = some (t, s')) : t < size := by
  induction tries generalizing s with
  | zero => exact nomatch h
  | succ tries ih =>
      unfold drawPart at h
      by_cases haccepted : (source.next width s).1 * size % width.words ≤ limit
      · -- a word is less than all words there are, so its part is less than all parts
        simp only [haccepted, if_true] at h
        cases h
        refine Nat.div_lt_of_lt_mul ?_
        exact Nat.mul_lt_mul_of_pos_right (source.next_lt width s) hsize
      · simp only [haccepted, if_false] at h
        exact ih h

theorem drawNew_spec {again : Nat} (hlength : 0 < length)
    (h : source.drawNew width tries length chosen again s = some (t, s')) :
    t < length ∧ ¬ t ∈ chosen := by
  induction again generalizing s with
  | zero => exact nomatch h
  | succ again ih =>
      unfold drawNew at h
      obtain ⟨⟨u, s₁⟩, hdraw, hrest⟩ := Option.bind_eq_some_iff.mp h
      by_cases htaken : u ∈ chosen
      · simp only [htaken, if_true] at hrest
        exact ih hrest
      · simp only [htaken, if_false] at hrest
        cases hrest
        exact ⟨drawPart_lt hlength hdraw, htaken⟩

/-! ## The methods -/

/-- Picking for each of the positions `first … first + n - 1` adds `n` positions to those below
    `first`. -/
theorem isSample_pickUpTo {first : Nat} (hchosen : IsSample first chosen)
    (h : source.pickUpTo tries (List.range' first n) chosen s = some (chosen', s')) :
    IsSample (first + n) chosen' ∧ chosen'.length = chosen.length + n := by
  induction n generalizing first chosen s with
  | zero =>
      cases h
      exact ⟨hchosen, rfl⟩
  | succ n ih =>
      rw [List.range'_succ, pickUpTo] at h
      obtain ⟨⟨t, s₁⟩, hdraw, hrest⟩ := Option.bind_eq_some_iff.mp h
      have ht : t < first + 1 := drawPart_lt (Nat.succ_pos first) hdraw
      have hlonger : IsSample (first + 1) chosen := hchosen.mono (Nat.le_succ first)
      have hpicked : IsSample (first + 1) ((if t ∈ chosen then first else t) :: chosen) := by
        by_cases htaken : t ∈ chosen
        · -- the position itself is above all that are taken
          rw [if_pos htaken]
          refine hlonger.cons (Nat.lt_succ_self first) ?_
          intro hfirst
          exact Nat.lt_irrefl first (hchosen.below first hfirst)
        · rw [if_neg htaken]
          exact hlonger.cons ht htaken
      obtain ⟨hsample, hlength⟩ := ih hpicked hrest
      rw [Nat.add_assoc, Nat.add_comm 1 n] at hsample
      refine ⟨hsample, ?_⟩
      rw [hlength, List.length_cons]
      omega

theorem isSample_drawDistinct (hchosen : IsSample length chosen) (hroom : n ≤ length)
    (h : source.drawDistinct width tries length n chosen s = some (chosen', s')) :
    IsSample length chosen' ∧ chosen'.length = chosen.length + n := by
  induction n generalizing chosen s with
  | zero =>
      cases h
      exact ⟨hchosen, rfl⟩
  | succ n ih =>
      obtain ⟨⟨t, s₁⟩, hdraw, hrest⟩ := Option.bind_eq_some_iff.mp h
      obtain ⟨ht, hnew⟩ := drawNew_spec (Nat.lt_of_lt_of_le (Nat.succ_pos n) hroom) hdraw
      obtain ⟨hsample, hlength⟩ := ih (hchosen.cons ht hnew) (Nat.le_of_succ_le hroom) hrest
      refine ⟨hsample, ?_⟩
      rw [hlength, List.length_cons]
      omega

theorem perm_swapIfInBounds (positions : Array Nat) (i j : Nat) :
    (positions.swapIfInBounds i j).toList.Perm positions.toList := by
  rw [Array.swapIfInBounds_def]
  split
  · split
    · exact (Array.swap_perm _ _).toList
    · exact List.Perm.refl _
  · exact List.Perm.refl _

theorem perm_shuffleFront {places : List Nat}
    (h : source.shuffleFront tries places positions s = some (positions', s')) :
    positions'.toList.Perm positions.toList := by
  induction places generalizing positions s with
  | nil =>
      cases h
      exact List.Perm.refl _
  | cons i places ih =>
      obtain ⟨⟨t, s₁⟩, -, hrest⟩ := Option.bind_eq_some_iff.mp h
      exact (ih hrest).trans (perm_swapIfInBounds positions i (i + t))

/-- The front of an order of all positions is a sample. -/
theorem isSample_take (hperm : positions.toList.Perm (List.range length)) (amount : Nat) :
    IsSample length (positions.toList.take amount) := by
  have hfront := List.take_sublist amount positions.toList
  refine ⟨hfront.nodup (hperm.nodup_iff.mpr List.nodup_range), ?_⟩
  intro t ht
  exact List.mem_range.mp (hperm.mem_iff.mp (hfront.subset ht))

/-- No method takes too many positions, too few, or one of them twice. -/
theorem isSample_sampleBy {method : Method} {amount : Nat} (hamount : amount ≤ length)
    (h : source.sampleBy method tries amount length s = some (chosen, s')) :
    IsSample length chosen ∧ chosen.length = amount := by
  cases method with
  | pick =>
      obtain ⟨⟨picked, s₁⟩, hpick, hrest⟩ := Option.bind_eq_some_iff.mp h
      rw [← List.range'_eq_map_range] at hpick
      obtain ⟨hsample, hlength⟩ := isSample_pickUpTo (.nil (length - amount)) hpick
      rw [Nat.sub_add_cancel hamount] at hsample
      rw [List.length_nil, Nat.zero_add] at hlength
      -- what a shuffle would draw is drawn, and changes nothing
      have hchosen : picked = chosen := by
        by_cases hfew : amount < 50
        · simp only [hfew, if_true] at hrest
          cases hrest
          rfl
        · simp only [hfew, if_false] at hrest
          obtain ⟨s₂, -, heq⟩ := Option.map_eq_some_iff.mp hrest
          cases heq
          rfl
      rw [← hchosen]
      exact ⟨hsample, hlength⟩
  | reject width =>
      obtain ⟨hsample, hlength⟩ := isSample_drawDistinct (.nil length) hamount h
      rw [List.length_nil, Nat.zero_add] at hlength
      exact ⟨hsample, hlength⟩
  | shuffle =>
      obtain ⟨⟨positions, s₁⟩, hshuffle, hrest⟩ := Option.bind_eq_some_iff.mp h
      cases hrest
      have hperm := perm_shuffleFront hshuffle
      rw [Array.toList_range] at hperm
      refine ⟨isSample_take hperm amount, ?_⟩
      rw [List.length_take, hperm.length_eq, List.length_range, Nat.min_eq_left hamount]

/-! ## More tries -/

section

variable {more : Nat} (hmore : tries ≤ more)

include hmore

theorem drawPart_of_le {size limit : Nat} {r : Nat × σ}
    (h : source.drawPart width size limit tries s = some r) :
    source.drawPart width size limit more s = some r := by
  induction tries generalizing more s with
  | zero => exact nomatch h
  | succ tries ih =>
      obtain ⟨more, rfl⟩ := Nat.exists_eq_add_of_le' hmore
      unfold drawPart at h ⊢
      by_cases haccepted : (source.next width s).1 * size % width.words ≤ limit
      · simp only [haccepted, if_true] at h ⊢
        exact h
      · simp only [haccepted, if_false] at h ⊢
        exact ih (Nat.le_add_left tries more) h

theorem below_of_le {size : Nat} {r : Nat × σ} (h : source.below tries size s = some r) :
    source.below more size s = some r :=
  drawPart_of_le hmore h

theorem pickUpTo_of_le {upTo : List Nat} {r : List Nat × σ}
    (h : source.pickUpTo tries upTo chosen s = some r) :
    source.pickUpTo more upTo chosen s = some r := by
  induction upTo generalizing chosen s with
  | nil => exact h
  | cons j upTo ih =>
      obtain ⟨x, hdraw, hrest⟩ := Option.bind_eq_some_iff.mp h
      exact Option.bind_eq_some_iff.mpr ⟨x, below_of_le hmore hdraw, ih hrest⟩

theorem shuffleDraws_of_le (h : source.shuffleDraws tries n s = some s') :
    source.shuffleDraws more n s = some s' := by
  induction n generalizing s with
  | zero => exact h
  | succ n ih =>
      cases n with
      | zero => exact h
      | succ n =>
          obtain ⟨x, hdraw, hrest⟩ := Option.bind_eq_some_iff.mp h
          exact Option.bind_eq_some_iff.mpr ⟨x, below_of_le hmore hdraw, ih hrest⟩

theorem drawNew_of_le {again again' : Nat} (hagain : again ≤ again') {r : Nat × σ}
    (h : source.drawNew width tries length chosen again s = some r) :
    source.drawNew width more length chosen again' s = some r := by
  -- both the draws for a new position and the words for each draw are counted down
  induction again generalizing again' s with
  | zero => exact nomatch h
  | succ again ih =>
      obtain ⟨again', rfl⟩ := Nat.exists_eq_add_of_le' hagain
      obtain ⟨x, hdraw, hrest⟩ := Option.bind_eq_some_iff.mp h
      refine Option.bind_eq_some_iff.mpr ⟨x, drawPart_of_le hmore hdraw, ?_⟩
      by_cases htaken : x.1 ∈ chosen
      · simp only [htaken, if_true] at hrest ⊢
        exact ih (Nat.le_add_left again again') hrest
      · simp only [htaken, if_false] at hrest ⊢
        exact hrest

theorem drawDistinct_of_le {r : List Nat × σ}
    (h : source.drawDistinct width tries length n chosen s = some r) :
    source.drawDistinct width more length n chosen s = some r := by
  induction n generalizing chosen s with
  | zero => exact h
  | succ n ih =>
      obtain ⟨x, hdraw, hrest⟩ := Option.bind_eq_some_iff.mp h
      exact Option.bind_eq_some_iff.mpr ⟨x, drawNew_of_le hmore hmore hdraw, ih hrest⟩

theorem shuffleFront_of_le {places : List Nat} {r : Array Nat × σ}
    (h : source.shuffleFront tries places positions s = some r) :
    source.shuffleFront more places positions s = some r := by
  induction places generalizing positions s with
  | nil => exact h
  | cons i places ih =>
      obtain ⟨x, hdraw, hrest⟩ := Option.bind_eq_some_iff.mp h
      exact Option.bind_eq_some_iff.mpr ⟨x, below_of_le hmore hdraw, ih hrest⟩

theorem sampleBy_of_le {method : Method} {amount : Nat} {r : List Nat × σ}
    (h : source.sampleBy method tries amount length s = some r) :
    source.sampleBy method more amount length s = some r := by
  cases method with
  | pick =>
      obtain ⟨x, hpick, hrest⟩ := Option.bind_eq_some_iff.mp h
      refine Option.bind_eq_some_iff.mpr ⟨x, pickUpTo_of_le hmore hpick, ?_⟩
      by_cases hfew : amount < 50
      · simp only [hfew, if_true] at hrest ⊢
        exact hrest
      · simp only [hfew, if_false] at hrest ⊢
        obtain ⟨s₁, hdraws, heq⟩ := Option.map_eq_some_iff.mp hrest
        exact Option.map_eq_some_iff.mpr ⟨s₁, shuffleDraws_of_le hmore hdraws, heq⟩
  | reject width => exact drawDistinct_of_le hmore h
  | shuffle =>
      obtain ⟨x, hshuffle, hrest⟩ := Option.bind_eq_some_iff.mp h
      exact Option.bind_eq_some_iff.mpr ⟨x, shuffleFront_of_le hmore hshuffle, hrest⟩

end

end Rehome.Chance.Source
