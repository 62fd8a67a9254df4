import Rehome.Proofs.LowerCase
import Rehome.Tool.Systems
import Mathlib.Data.List.Infix

/-!
# Messages — what is said in so many words may be missed

A message is looked for in an output by putting both into lower case. Lower case goes character by
character but for the capital sigma, whose small form hangs on what stands around it, and so can be
another in the message alone than where the message occurs. A sigma is settled (`SettledBetween`) if
the message itself fixes its form. The main result, `mentions_iff_settled`, says that those messages
whose sigmas are all settled are found wherever they occur, and that every other one is missed in some
output that has it.
-/

namespace Rehome

namespace Text

variable {before before' after after' cs : List Char}

/-! ## What is around a text -/

/-- Whether something in a text is not passed over when letters are looked for. -/
def tells (cs : List Char) : Bool := cs.any fun c => !isCaseIgnorable c

theorem startsCased_cons (c : Char) (cs : List Char) :
    startsCased (c :: cs) = if isCaseIgnorable c then startsCased cs else isCased c := by
  rw [startsCased, List.dropWhile_cons]
  cases isCaseIgnorable c with
  | true => rfl
  | false => simp only [Bool.false_eq_true, if_false]

theorem startsCased_append (cs more : List Char) :
    startsCased (cs ++ more) = if tells cs then startsCased cs else startsCased more := by
  induction cs with
  | nil => rfl
  | cons c cs ih =>
      have htells : tells (c :: cs) = (!isCaseIgnorable c || tells cs) := rfl
      rw [List.cons_append, startsCased_cons, startsCased_cons, ih, htells]
      cases isCaseIgnorable c with
      | true => simp only [Bool.not_true, Bool.false_or, if_true]
      | false => simp only [Bool.not_false, Bool.true_or, Bool.false_eq_true, if_false, if_true]

theorem startsCased_of_not_tells (h : tells cs = false) : startsCased cs = false := by
  have happend := startsCased_append cs []
  rw [h, List.append_nil] at happend
  exact happend

/-- A sigma between two parts of a text, the first one in reverse, has its form from the text: a
    letter comes next, or what comes before is no letter, or it is one and none comes next. -/
def SettledBetween (before after : List Char) : Prop :=
  startsCased after = true ∨ tells before = true ∧ (startsCased before = false ∨ tells after = true)

instance (before after : List Char) : Decidable (SettledBetween before after) :=
  inferInstanceAs (Decidable (_ ∨ _ ∧ (_ ∨ _)))

/-- The form of a settled sigma is the same whatever the text is put between. -/
theorem SettledBetween.isFinal_append (h : SettledBetween before after) (more more' : List Char) :
    isFinal (before ++ more) (after ++ more') = isFinal before after := by
  rw [isFinal, isFinal, startsCased_append, startsCased_append]
  rcases h with hafter | ⟨hbefore, hno | hafter⟩
  · have htells : tells after = true := by
      by_contra hnot
      rw [startsCased_of_not_tells (Bool.eq_false_iff.mpr hnot)] at hafter
      exact Bool.false_ne_true hafter
    rw [if_pos htells, hafter, Bool.not_true, Bool.and_false, Bool.and_false]
  · rw [if_pos hbefore, hno, Bool.false_and, Bool.false_and]
  · rw [if_pos hbefore, if_pos hafter]

/-- What holds at each capital sigma of a text, of what the text has before it, in reverse, and
    after it. -/
def AtSigmas (p : List Char → List Char → Prop) (cs : List Char) : Prop :=
  ∀ xs ys, cs = xs ++ 'Σ' :: ys → p xs.reverse ys

/-- A text that settles its sigmas has the same small letters wherever it stands. -/
theorem lowerBetween_settled
    (h : ∀ xs ys, cs = xs ++ 'Σ' :: ys → SettledBetween (xs.reverse ++ before) ys)
    (more more' : List Char) :
    lowerBetween (before ++ more) cs more' = lowerBetween before cs [] := by
  induction cs generalizing before with
  | nil => rfl
  | cons c cs ih =>
      have hchar : lowerAt (before ++ more) c (cs ++ more') = lowerAt before c (cs ++ []) := by
        rw [lowerAt, lowerAt, List.append_nil]
        split
        · rename_i hsigma
          have hplace : SettledBetween before cs := h [] cs (by rw [hsigma]; rfl)
          rw [hplace.isFinal_append more more']
        · rfl
      have hlater : ∀ xs ys, cs = xs ++ 'Σ' :: ys → SettledBetween (xs.reverse ++ c :: before) ys := by
        intro xs ys hcs
        have hplace := h (c :: xs) ys (by rw [hcs]; rfl)
        rwa [List.reverse_cons, List.append_assoc] at hplace
      rw [lowerBetween, lowerBetween, hchar]
      exact congrArg _ (ih hlater)

/-! ## Counting the forms -/

/-- A sigma that is final between two texts is so between two others, whatever stands between it and
    either. -/
def MoreFinal (before after before' after' : List Char) : Prop :=
  ∀ xs ys, isFinal (xs ++ before) (ys ++ after) = true → isFinal (xs ++ before') (ys ++ after') = true

theorem MoreFinal.extend (h : MoreFinal before after before' after') (xs ys : List Char) :
    MoreFinal (xs ++ before) (ys ++ after) (xs ++ before') (ys ++ after') := by
  intro us vs
  rw [← List.append_assoc, ← List.append_assoc, ← List.append_assoc, ← List.append_assoc]
  exact h (us ++ xs) (vs ++ ys)

theorem count_lowerAt_le (c : Char)
    (h : isFinal before after = true → isFinal before' after' = true) :
    (lowerAt before c after).count 'ς' ≤ (lowerAt before' c after').count 'ς' ∧
      (lowerAt before' c after').count 'σ' ≤ (lowerAt before c after).count 'σ' := by
  rw [lowerAt, lowerAt]
  split
  · cases hfinal : isFinal before after with
    | true => rw [h hfinal]; decide
    | false => cases isFinal before' after' <;> decide
  · exact ⟨Nat.le_refl _, Nat.le_refl _⟩

theorem count_lowerBetween_le (h : MoreFinal before after before' after') (cs : List Char) :
    (lowerBetween before cs after).count 'ς' ≤ (lowerBetween before' cs after').count 'ς' ∧
      (lowerBetween before' cs after').count 'σ' ≤ (lowerBetween before cs after).count 'σ' := by
  induction cs generalizing before before' with
  | nil => exact ⟨Nat.le_refl _, Nat.le_refl _⟩
  | cons c cs ih =>
      have hchar := count_lowerAt_le c (h [] cs)
      have hlater := ih (h.extend [c] [])
      simp only [lowerBetween, List.count_append, List.nil_append, List.singleton_append] at *
      omega

/-- One sigma that is final in the second place only makes the counts differ. -/
theorem count_lowerBetween_lt (h : MoreFinal before after before' after') {xs ys : List Char}
    (hno : isFinal (xs.reverse ++ before) (ys ++ after) = false)
    (hyes : isFinal (xs.reverse ++ before') (ys ++ after') = true) :
    (lowerBetween before (xs ++ 'Σ' :: ys) after).count 'ς' <
        (lowerBetween before' (xs ++ 'Σ' :: ys) after').count 'ς' ∧
      (lowerBetween before' (xs ++ 'Σ' :: ys) after').count 'σ' <
        (lowerBetween before (xs ++ 'Σ' :: ys) after).count 'σ' := by
  have hfirst := count_lowerBetween_le (h.extend [] ('Σ' :: ys)) xs
  have hlast := count_lowerBetween_le (h.extend ('Σ' :: xs.reverse) []) ys
  have hplace : lowerAt (xs.reverse ++ before) 'Σ' (ys ++ after) = ['σ'] := by
    rw [lowerAt, hno]; rfl
  have hplace' : lowerAt (xs.reverse ++ before') 'Σ' (ys ++ after') = ['ς'] := by
    rw [lowerAt, hyes]; rfl
  rw [lowerBetween_append, lowerBetween_append, lowerBetween, lowerBetween, hplace, hplace']
  simp only [List.count_append]
  simp only [List.nil_append, List.cons_append] at *
  have hcounts : List.count 'ς' ['σ'] = 0 ∧ List.count 'ς' ['ς'] = 1 ∧ List.count 'σ' ['σ'] = 1 ∧
      List.count 'σ' ['ς'] = 0 := by decide
  omega

/-! ## Occurrences -/

theorem inRanges_eq (ranges : Array (Nat × Nat)) (c : Char) :
    inRanges ranges c =
      ranges.toList.any fun range => decide (range.1 ≤ c.toNat) && decide (c.toNat ≤ range.2) :=
  Array.any_toList.symm

theorem startsCased_alpha : startsCased ['Α'] = true := by
  have hno : isCaseIgnorable 'Α' = false := by
    rw [isCaseIgnorable, inRanges_eq]
    decide +kernel
  have hcased : isCased 'Α' = true := by
    rw [isCased, inRanges_eq]
    decide +kernel
  rw [startsCased_cons, hno, hcased]
  rfl

theorem startsCased_append_alpha (cs : List Char) :
    startsCased (cs ++ ['Α']) = (!tells cs || startsCased cs) := by
  rw [startsCased_append, startsCased_alpha]
  cases tells cs <;> rfl

/-- A text that settles its sigmas is found in lower case wherever it occurs. -/
theorem lowercase_infix (h : AtSigmas SettledBetween cs) {line : List Char} (hline : cs <:+: line) :
    lowercase cs <:+: lowercase line := by
  obtain ⟨start, rest, rfl⟩ := hline
  have hsettled : ∀ xs ys, cs = xs ++ 'Σ' :: ys → SettledBetween (xs.reverse ++ []) ys := by
    intro xs ys hcs
    rw [List.append_nil]
    exact h xs ys hcs
  have hplace : lowerBetween start.reverse cs rest = lowercase cs := by
    rw [lowercase_eq]
    exact lowerBetween_settled hsettled start.reverse rest
  rw [lowercase.eq_def (start ++ cs ++ rest), List.append_assoc, lowerAfter_append, List.append_nil,
    lowerAfter_append, hplace]
  exact ⟨_, _, List.append_assoc _ _ _⟩

theorem lowerAt_alpha (before after : List Char) : lowerAt before 'Α' after = ['α'] := by
  rw [lowerAt, if_neg (by decide)]
  decide +kernel

theorem lowerAfter_alpha (before : List Char) : lowerAfter before ['Α'] = ['α'] := by
  have hstep : lowerAfter before ['Α'] = lowerAt before 'Α' [] ++ [] := rfl
  rw [hstep, lowerAt_alpha, List.append_nil]

/-- Behind a letter a text is missed if it has a sigma, not before a letter, that does not know of one
    before it. -/
theorem missed_behind_letter {xs ys : List Char} (hquiet : tells xs.reverse = false)
    (hafter : startsCased ys = false) :
    ¬ lowercase (xs ++ 'Σ' :: ys) <:+: lowercase ('Α' :: (xs ++ 'Σ' :: ys)) := by
  intro hfound
  have hmore : MoreFinal [] [] ['Α'] [] := by
    intro us vs hfinal
    rw [isFinal, List.append_nil, Bool.and_eq_true] at hfinal
    rw [isFinal, startsCased_append_alpha, hfinal.1, hfinal.2, Bool.or_true, Bool.true_and]
  have hno : isFinal (xs.reverse ++ []) (ys ++ []) = false := by
    rw [isFinal, List.append_nil, startsCased_of_not_tells hquiet, Bool.false_and]
  have hyes : isFinal (xs.reverse ++ ['Α']) (ys ++ []) = true := by
    rw [isFinal, List.append_nil, startsCased_append_alpha, hquiet, hafter]
    rfl
  have hlt := (count_lowerBetween_lt hmore hno hyes).2
  have hle := hfound.sublist.count_le 'σ'
  rw [lowercase_eq, lowercase_eq, lowerBetween, lowerAt_alpha, List.count_append] at hle
  have hletter : List.count 'σ' ['α'] = 0 := by decide
  omega

/-- Before a letter a text is missed if it has a sigma, behind a letter, that does not know of one
    after it. -/
theorem missed_before_letter {xs ys : List Char} (hcased : startsCased xs.reverse = true)
    (hquiet : tells ys = false) :
    ¬ lowercase (xs ++ 'Σ' :: ys) <:+: lowercase (xs ++ 'Σ' :: ys ++ ['Α']) := by
  intro hfound
  have hmore : MoreFinal [] ['Α'] [] [] := by
    intro us vs hfinal
    rw [isFinal, startsCased_append_alpha, Bool.and_eq_true, Bool.not_eq_true', Bool.or_eq_false_iff]
      at hfinal
    rw [isFinal, hfinal.1, List.append_nil, hfinal.2.2]
    rfl
  have hno : isFinal (xs.reverse ++ []) (ys ++ ['Α']) = false := by
    rw [isFinal, startsCased_append_alpha, hquiet, Bool.not_false, Bool.true_or, Bool.not_true,
      Bool.and_false]
  have hyes : isFinal (xs.reverse ++ []) (ys ++ []) = true := by
    rw [isFinal, List.append_nil, List.append_nil, hcased, startsCased_of_not_tells hquiet]
    rfl
  have hlt := (count_lowerBetween_lt hmore hno hyes).1
  have hle := hfound.sublist.count_le 'ς'
  rw [lowercase_eq (xs ++ 'Σ' :: ys), lowercase, lowerAfter_append, List.count_append] at hle
  have hletter : List.count 'ς' (lowerAfter ((xs ++ 'Σ' :: ys).reverse ++ []) ['Α']) = 0 := by
    rw [lowerAfter_alpha]
    decide
  omega

/-- A text with a sigma that it does not settle is missed behind a letter or before one. -/
theorem exists_missed (h : ¬ AtSigmas SettledBetween cs) :
    ∃ line, cs <:+: line ∧ ¬ lowercase cs <:+: lowercase line := by
  simp only [AtSigmas, not_forall] at h
  obtain ⟨xs, ys, rfl, hopen⟩ := h
  simp only [SettledBetween, not_or, not_and_or, Bool.not_eq_true, Bool.not_eq_false] at hopen
  obtain ⟨hafter, hquiet | ⟨hcased, hquiet⟩⟩ := hopen
  · exact ⟨_, List.infix_cons List.infix_rfl, missed_behind_letter hquiet hafter⟩
  · exact ⟨_, (List.prefix_append _ _).isInfix, missed_before_letter hcased hquiet⟩

end Text

namespace Tool

/-! ## Messages in outputs -/

theorem occursIn_iff {needle cs : List Char} : occursIn needle cs = true ↔ needle <:+: cs := by
  induction cs with
  | nil => rw [occursIn, List.isEmpty_iff, List.infix_nil]
  | cons c cs ih => rw [occursIn, Bool.or_eq_true, List.isPrefixOf_iff_prefix, ih, List.infix_cons_iff]

namespace Output

theorem mentions_iff {o : Output} {needle : String} :
    o.mentions needle = true ↔
      ∃ line ∈ o.lines, Text.lowercase needle.toList <:+: Text.lowercase line.toList := by
  rw [mentions, List.any_eq_true]
  exact exists_congr fun line => and_congr_right fun _ => occursIn_iff

/-- A message is found in every output that has it in some line, character by character, exactly if it
    settles the form of each of its capital sigmas. -/
theorem mentions_iff_settled (needle : String) :
    (∀ o : Output, (∃ line ∈ o.lines, needle.toList <:+: line.toList) → o.mentions needle = true) ↔
      Text.AtSigmas Text.SettledBetween needle.toList := by
  constructor
  · intro hfound
    by_contra hopen
    obtain ⟨line, hoccurs, hmissed⟩ := Text.exists_missed hopen
    have hmentions := hfound ⟨0, [String.ofList line], []⟩
      ⟨_, .head _, by rwa [String.toList_ofList]⟩
    obtain ⟨line', hline, hinfix⟩ := mentions_iff.mp hmentions
    rw [List.mem_singleton.mp hline, String.toList_ofList] at hinfix
    exact hmissed hinfix
  · rintro hsettled o ⟨line, hline, hoccurs⟩
    exact mentions_iff.mpr ⟨line, hline, Text.lowercase_infix hsettled hoccurs⟩

/-- The capital sigma ends the word that is looked for, and not the one it is looked for in. -/
theorem sigma_missed :
    (∃ line ∈ (⟨0, ["ΑΣΑ"], []⟩ : Output).lines, "ΑΣ".toList <:+: line.toList) ∧
    (⟨0, ["ΑΣΑ"], []⟩ : Output).mentions "ΑΣ" = false := by
  refine ⟨⟨_, .head _, by decide⟩, ?_⟩
  have hneedle : Text.lowercase ['Α', 'Σ'] = ['α', 'ς'] := by
    rw [Text.lowercase_eq, Text.lowerBetween, Text.lowerAt_alpha, Text.lowerBetween, Text.lowerAt,
      Text.isFinal, Text.startsCased_alpha]
    rfl
  have hline : Text.lowercase ['Α', 'Σ', 'Α'] = ['α', 'σ', 'α'] := by
    rw [Text.lowercase_eq, Text.lowerBetween, Text.lowerAt_alpha, Text.lowerBetween, Text.lowerAt,
      Text.isFinal, List.append_nil, Text.startsCased_alpha, Text.lowerBetween, Text.lowerAt_alpha]
    rfl
  have hmissed : occursIn (Text.lowercase ['Α', 'Σ']) (Text.lowercase ['Α', 'Σ', 'Α']) = false := by
    rw [hneedle, hline]
    decide
  have hmentions : (⟨0, ["ΑΣΑ"], []⟩ : Output).mentions "ΑΣ" =
      (occursIn (Text.lowercase ['Α', 'Σ']) (Text.lowercase ['Α', 'Σ', 'Α']) || false) := rfl
  rw [hmentions, hmissed]
  rfl

end Output

/-- What a tool prints when there is nothing to do tells so wherever it is printed, unless it has a
    capital sigma. -/
theorem Systems.effectOf_of_infix {o : Output} {message : String} (hmessage : 'Σ' ∉ message.toList)
    {line : String} (hline : line ∈ o.lines) (hoccurs : message.toList <:+: line.toList) :
    effectOf o (some message) = .already := by
  have hsettled : Text.AtSigmas Text.SettledBetween message.toList := by
    intro xs ys hplace
    rw [hplace] at hmessage
    exact absurd (List.mem_append_right _ (.head _)) hmessage
  have hmentions : o.mentions message = true :=
    Output.mentions_iff.mpr ⟨line, hline, Text.lowercase_infix hsettled hoccurs⟩
  rw [effectOf, Option.any_some, if_pos hmentions]

end Tool

end Rehome
