import Rehome.Text.Blank
import Rehome.Text.Lowercase

/-!
# Lower case — what a text becomes between two others

Lower case is taken of a text as a whole. Of a part of it the capital sigmas alone need to know what
stands around the part (`lowerBetween`), so a part without any is put into lower case on its own
(`lowerBetween_eq_flatMap`). Blanks are neither changed nor made.
-/

namespace Rehome.Text

/-! ## The two forms of a sigma -/

/-- Whether a capital sigma takes its final form between two texts, the first one in reverse. -/
def isFinal (before after : List Char) : Bool := startsCased before && !startsCased after

/-- The small letters of a character between two texts. -/
def lowerAt (before : List Char) (c : Char) (after : List Char) : List Char :=
  if c = 'Σ' then [if isFinal before after then 'ς' else 'σ'] else lowerChar c

/-- The small letters of a text between two others, the first one in reverse. -/
def lowerBetween (before : List Char) (cs after : List Char) : List Char :=
  match cs with
  | [] => []
  | c :: cs => lowerAt before c (cs ++ after) ++ lowerBetween (c :: before) cs after

variable {before before' after after' cs : List Char}

theorem lowerAfter_append (before cs after : List Char) :
    lowerAfter before (cs ++ after) =
      lowerBetween before cs after ++ lowerAfter (cs.reverse ++ before) after := by
  induction cs generalizing before with
  | nil => rfl
  | cons c cs ih =>
      have hstep : lowerAfter before (c :: (cs ++ after)) =
          lowerAt before c (cs ++ after) ++ lowerAfter (c :: before) (cs ++ after) := rfl
      rw [List.cons_append, hstep, ih, lowerBetween, List.append_assoc, List.reverse_cons,
        List.append_assoc]
      rfl

theorem lowercase_eq (cs : List Char) : lowercase cs = lowerBetween [] cs [] := by
  have h := lowerAfter_append [] cs []
  rwa [List.append_nil, lowerAfter, List.append_nil] at h

theorem lowerBetween_append (before xs ys after : List Char) :
    lowerBetween before (xs ++ ys) after =
      lowerBetween before xs (ys ++ after) ++ lowerBetween (xs.reverse ++ before) ys after := by
  induction xs generalizing before with
  | nil => rfl
  | cons x xs ih =>
      rw [List.cons_append, lowerBetween, lowerBetween, ih, List.append_assoc, List.append_assoc,
        List.reverse_cons, List.append_assoc]
      rfl

/-- A text without capital sigmas is put into lower case one character after the other. -/
theorem lowerBetween_eq_flatMap (h : 'Σ' ∉ cs) (before after : List Char) :
    lowerBetween before cs after = cs.flatMap lowerChar := by
  induction cs generalizing before with
  | nil => rfl
  | cons c cs ih =>
      have hchar : lowerAt before c (cs ++ after) = lowerChar c := by
        rw [lowerAt, if_neg]
        rintro rfl
        exact h (.head _)
      rw [lowerBetween, hchar, ih fun hlater => h (.tail _ hlater), List.flatMap_cons]

/-! ## Blanks -/

/-- The code points of the blanks. -/
def blankPoints : List Nat :=
  [9, 10, 11, 12, 13, 0x20, 0x85, 0xa0, 0x1680, 0x2000, 0x2001, 0x2002, 0x2003, 0x2004, 0x2005, 0x2006,
    0x2007, 0x2008, 0x2009, 0x200a, 0x2028, 0x2029, 0x202f, 0x205f, 0x3000]

theorem mem_blankPoints {c : Char} (h : isBlank c = true) : c.toNat ∈ blankPoints := by
  simp only [isBlank, Bool.or_eq_true, Bool.and_eq_true, decide_eq_true_eq, beq_iff_eq] at h
  simp only [blankPoints, List.mem_cons, List.not_mem_nil, or_false]
  omega

theorem lowerChar_of_isBlank {c : Char} (h : isBlank c = true) : lowerChar c = [c] := by
  have hpoint := mem_blankPoints h
  have hascii : ∀ n ∈ blankPoints, n < 128 → (Char.ofNat n).toLower = Char.ofNat n := by decide
  have hnoRun : ∀ n ∈ blankPoints, caseRuns.toList.find? (·.has n) = none := by decide +kernel
  rw [lowerChar, if_neg (by rintro rfl; exact absurd h (by decide))]
  split
  · rename_i hsmall
    have hlower := hascii c.toNat hpoint hsmall
    rw [Char.ofNat_toNat] at hlower
    rw [hlower]
  · rw [← Array.find?_toList, hnoRun c.toNat hpoint]

theorem head?_flatMap_lowerChar {c : Char} (h : isBlank c = true) (hc : cs.head? = some c) :
    (cs.flatMap lowerChar).head? = some c := by
  obtain ⟨rest, rfl⟩ := List.head?_eq_some_iff.mp hc
  rw [List.flatMap_cons, lowerChar_of_isBlank h]
  rfl

theorem getLast?_flatMap_lowerChar {c : Char} (h : isBlank c = true) (hc : cs.getLast? = some c) :
    (cs.flatMap lowerChar).getLast? = some c := by
  obtain ⟨init, rfl⟩ := List.getLast?_eq_some_iff.mp hc
  rw [List.flatMap_append, List.flatMap_singleton, lowerChar_of_isBlank h]
  exact List.getLast?_concat

theorem caseRuns_above : ∀ run ∈ caseRuns, 32 < (run.low : Int) + run.distance := by
  have hall : (caseRuns.toList.all fun run => decide (32 < (run.low : Int) + run.distance)) = true := by
    decide +kernel
  intro run hrun
  exact of_decide_eq_true (List.all_eq_true.mp hall run (Array.mem_toList_iff.mpr hrun))

theorem ofNat_ne_space {n : Nat} (hn : 32 < n) : Char.ofNat n ≠ ' ' := by
  intro hspace
  by_cases hvalid : n.isValidChar
  · rw [Char.ofNat, dif_pos hvalid] at hspace
    have hpoint : n = 32 := congrArg Char.toNat hspace
    omega
  · rw [Char.ofNat, dif_neg hvalid] at hspace
    exact absurd hspace (by decide)

/-- No other character has a space among its small letters. -/
theorem eq_space_of_mem_lowerChar {c : Char} (h : ' ' ∈ lowerChar c) : c = ' ' := by
  rw [lowerChar] at h
  split at h
  · exact absurd h (by decide)
  split at h
  · rename_i hascii
    have hall : ∀ n < 128, ' ' = (Char.ofNat n).toLower → n = 32 := by decide
    have hpoint := hall c.toNat hascii
    rw [Char.ofNat_toNat] at hpoint
    rw [← Char.ofNat_toNat c, hpoint (List.mem_singleton.mp h)]
  split at h
  · rename_i run hrun
    have hhas := Array.find?_some hrun
    have habove := caseRuns_above run (Array.mem_of_find?_eq_some hrun)
    simp only [CaseRun.has, Bool.and_eq_true, decide_eq_true_eq] at hhas
    exact absurd (List.mem_singleton.mp h).symm (ofNat_ne_space (by omega))
  · exact (List.mem_singleton.mp h).symm

theorem eq_space_of_mem_lowerAt {c : Char} (h : ' ' ∈ lowerAt before c after) : c = ' ' := by
  rw [lowerAt] at h
  split at h
  · split at h <;> exact absurd h (by decide)
  · exact eq_space_of_mem_lowerChar h

theorem mem_of_space_mem_lowerBetween (h : ' ' ∈ lowerBetween before cs after) : ' ' ∈ cs := by
  induction cs generalizing before with
  | nil => exact h
  | cons c cs ih =>
      rw [lowerBetween, List.mem_append] at h
      rcases h with hchar | hlater
      · rw [eq_space_of_mem_lowerAt hchar]
        exact .head _
      · exact .tail _ (ih hlater)

end Rehome.Text
