import Rehome.Proofs.LowerCase
import Rehome.Proofs.Printouts
import Mathlib.Data.List.Perm.Basic

/-!
# Name listings — renamed and unlocked hosts are told by their own names

A host that is renamed is sent to the tool by the name that it has (`Systems.nameNow`), and listed by that
name and the one that it gets (`Systems.nameThen`). Which of the two is its own hangs on the direction, and
the right one is read off the line (`RenamingLine.renamedOf?_text`). Unlocked hosts are listed under a
heading, which no name is taken for, as a name has no blank (`UnlockingLine.unlockedOf?_text`). The main
result, `reads_names_back`, says of both kinds of listings, with all that may stand in them besides, that
the hosts are told in order.
-/

namespace Rehome

namespace Text

variable {cs xs ys rest : List Char}

/-- A row of characters that is one word. -/
structure IsWord (cs : List Char) : Prop where
  ne_nil : cs ≠ []
  noBlank : ∀ c ∈ cs, isBlank c = false

theorem isWord_iff : IsWord cs ↔ cs ≠ [] ∧ (cs.all fun c => !isBlank c) = true := by
  simp only [List.all_eq_true, Bool.not_eq_true']
  exact ⟨fun h => ⟨h.ne_nil, h.noBlank⟩, fun h => ⟨h.1, h.2⟩⟩

instance (cs : List Char) : Decidable (IsWord cs) := decidable_of_iff' _ isWord_iff

theorem IsWord.append (hx : IsWord xs) (hy : ∀ c ∈ ys, isBlank c = false) : IsWord (xs ++ ys) where
  ne_nil := fun hnil => hx.ne_nil (List.append_eq_nil_iff.mp hnil).1
  noBlank := by
    intro c hc
    rcases List.mem_append.mp hc with hc | hc
    · exact hx.noBlank c hc
    · exact hy c hc

theorem wordsOf_blanks_append (hblank : ∀ c ∈ xs, isBlank c = true) (ys : List Char) :
    wordsOf (xs ++ ys) = wordsOf ys := by
  induction xs with
  | nil => rfl
  | cons x xs ih =>
      have hfirst := wordsOf_append (hblank x (.head _)) [] (xs ++ ys)
      rw [List.nil_append] at hfirst
      rw [List.cons_append, hfirst, ih fun c hc => hblank c (.tail _ hc)]
      rfl

/-- A word ends where a blank follows, or the text. -/
theorem wordsOf_word_append (hword : IsWord xs) (hrest : ∀ c ∈ rest.head?, isBlank c = true) :
    wordsOf (xs ++ rest) = xs :: wordsOf rest := by
  have hfirst : wordsOf xs = [xs] := wordsOf_word hword.ne_nil hword.noBlank
  cases rest with
  | nil =>
      rw [List.append_nil, hfirst]
      rfl
  | cons c cs =>
      have hblank : isBlank c = true := hrest c rfl
      have hlater := wordsOf_append hblank [] cs
      rw [List.nil_append] at hlater
      rw [wordsOf_append hblank, hlater, hfirst]
      rfl

end Text

namespace Tool

/-! ## Lines about renamings -/

namespace Systems

/-- The name by which a host is sent to be renamed. -/
def nameNow (direction : Marking) (host : Host) : String :=
  match direction with
  | .moved => host
  | .restored => host ++ movedSuffix

/-- The name that a host gets. -/
def nameThen (direction : Marking) (host : Host) : String :=
  match direction with
  | .moved => host ++ movedSuffix
  | .restored => host

theorem namesFor_eq (direction : Marking) (hosts : HostSet) :
    namesFor direction hosts = hosts.toList.map (nameNow direction) := by
  cases direction with
  | moved => exact (List.map_id _).symm
  | restored => rfl

theorem nameNow_injective (direction : Marking) : Function.Injective (nameNow direction) := by
  intro a b hab
  cases direction with
  | moved => exact hab
  | restored =>
      have hlist := congrArg String.toList hab
      rw [nameNow, nameNow, String.toList_append, String.toList_append] at hlist
      exact String.toList_injective (List.append_cancel_right hlist)

theorem isWord_movedSuffix : Text.IsWord movedSuffix.toList := by decide

theorem isWord_names {host : Host} (h : Text.IsWord host.toList) (direction : Marking) :
    Text.IsWord (nameNow direction host).toList ∧ Text.IsWord (nameThen direction host).toList := by
  have hmoved : Text.IsWord (host ++ movedSuffix).toList := by
    rw [String.toList_append]
    exact h.append isWord_movedSuffix.noBlank
  cases direction with
  | moved => exact ⟨h, hmoved⟩
  | restored => exact ⟨hmoved, h⟩

end Systems

/-- Blanks within a line. -/
def Blanks (text : String) : Prop := Text.isBlankText text = true ∧ '\n' ∉ text.toList

instance (text : String) : Decidable (Blanks text) := inferInstanceAs (Decidable (_ ∧ _))

theorem Blanks.isBlank {text : String} (h : Blanks text) : ∀ c ∈ text.toList, Text.isBlank c = true :=
  List.all_eq_true.mp h.1

theorem Blanks.head?_append {gap : String} (h : Blanks gap) (hne : gap ≠ "") (rest : List Char) :
    ∀ c ∈ (gap.toList ++ rest).head?, Text.isBlank c = true := by
  intro c hc
  have hnil : gap.toList ≠ [] := fun hnil => hne (String.toList_eq_nil_iff.mp hnil)
  rw [List.head?_append_of_ne_nil _ hnil] at hc
  exact h.isBlank c (List.mem_of_mem_head? hc)

theorem oneLine_of_noBlank {cs : List Char} (h : ∀ c ∈ cs, Text.isBlank c = false) : '\n' ∉ cs :=
  fun hfeed => absurd (h _ hfeed) (by decide)

/-- A line of a listing of renamings: of a host, or one that cannot be taken for such. -/
inductive RenamingLine where
  | renamed (host : Host) (indent gap gap' rest : String)
      (blanks : Blanks indent ∧ Blanks gap ∧ Blanks gap' ∧ Blanks rest)
      (gaps : gap ≠ "" ∧ gap' ≠ "")
  | other (text : String) (oneLine : '\n' ∉ text.toList)
      (noRenaming : ∀ old new, Text.words text ≠ [old, "to", new])

namespace RenamingLine

/-- The line itself. -/
def text (direction : Marking) : RenamingLine → String
  | renamed host indent gap gap' rest _ _ =>
    indent ++ Systems.nameNow direction host ++ gap ++ "to" ++ gap' ++
      Systems.nameThen direction host ++ rest
  | other text _ _ => text

/-- The host that the line is about. -/
def host? : RenamingLine → Option Host
  | renamed host _ _ _ _ _ _ => some host
  | other _ _ _ => none

variable {direction : Marking} {line : RenamingLine}

theorem oneLine (hword : ∀ host ∈ line.host?, Text.IsWord host.toList) :
    '\n' ∉ (line.text direction).toList := by
  cases line with
  | other text honeLine hno => exact honeLine
  | renamed host indent gap gap' rest hblanks hgaps =>
      obtain ⟨hnow, hthen⟩ := Systems.isWord_names (hword host rfl) direction
      obtain ⟨hindent, hgap, hgap', hrest⟩ := hblanks
      simp only [text, String.toList_append, List.mem_append, not_or]
      exact ⟨⟨⟨⟨⟨⟨hindent.2, oneLine_of_noBlank hnow.noBlank⟩, hgap.2⟩, by decide⟩, hgap'.2⟩,
        oneLine_of_noBlank hthen.noBlank⟩, hrest.2⟩

/-- The words of a line about a host are its two names, and the one between them. -/
theorem words_renamed {host : Host} (hword : Text.IsWord host.toList) {indent gap gap' rest : String}
    (hblanks : Blanks indent ∧ Blanks gap ∧ Blanks gap' ∧ Blanks rest)
    (hgaps : gap ≠ "" ∧ gap' ≠ "") :
    Text.words (text direction (.renamed host indent gap gap' rest hblanks hgaps)) =
      [Systems.nameNow direction host, "to", Systems.nameThen direction host] := by
  obtain ⟨hnow, hthen⟩ := Systems.isWord_names hword direction
  obtain ⟨hindent, hgap, hgap', hrest⟩ := hblanks
  have hto : Text.IsWord "to".toList := by decide
  have hends : Text.wordsOf rest.toList = [] := by
    have hrow := Text.wordsOf_blanks_append hrest.isBlank []
    rwa [List.append_nil] at hrow
  rw [Text.words_eq]
  simp only [text, String.toList_append, List.append_assoc]
  -- blanks and words come off in turn, and a word ends where the next gap begins
  rw [Text.wordsOf_blanks_append hindent.isBlank,
    Text.wordsOf_word_append hnow (hgap.head?_append hgaps.1 _),
    Text.wordsOf_blanks_append hgap.isBlank,
    Text.wordsOf_word_append hto (hgap'.head?_append hgaps.2 _),
    Text.wordsOf_blanks_append hgap'.isBlank,
    Text.wordsOf_word_append hthen (fun c hc => hrest.isBlank c (List.mem_of_mem_head? hc)), hends]
  simp only [List.map_cons, List.map_nil, String.ofList_toList]

theorem renamedOf?_text (hword : ∀ host ∈ line.host?, Text.IsWord host.toList) :
    renamedOf? direction (line.text direction) = line.host? := by
  cases line with
  | renamed host indent gap gap' rest hblanks hgaps =>
      rw [renamedOf?, words_renamed (hword host rfl)]
      cases direction <;> rfl
  | other text honeLine hno =>
      rw [RenamingLine.text, renamedOf?]
      split
      · rename_i old new hwords
        exact absurd hwords (hno old new)
      · rfl

end RenamingLine

theorem linewise_renamedOf? (direction : Marking) : Text.Linewise (renamedOf? direction) where
  read_empty := by
    have hwords : Text.words "" = [] := by decide
    rw [renamedOf?, hwords]
  read_return line := by rw [renamedOf?, Text.words_return, renamedOf?]

/-! ## Lines about unlocking -/

/-- A line of a listing of unlocked hosts: a heading in capital or small letters, a name or a blank
    line. -/
inductive UnlockingLine where
  | heading (indent head rest : String) (blanks : Blanks indent) (oneLine : '\n' ∉ (head ++ rest).toList)
      (anyCase : head.toList.flatMap Text.lowerChar = unlockedHeading)
  | name (host : Host) (indent rest : String) (blanks : Blanks indent ∧ Blanks rest)
      (word : Text.IsWord host.toList)
  | blank (text : String) (blanks : Blanks text)

namespace UnlockingLine

/-- The line itself. -/
def text : UnlockingLine → String
  | heading indent head rest _ _ _ => indent ++ (head ++ rest)
  | name host indent rest _ _ => indent ++ (host ++ rest)
  | blank text _ => text

/-- The host that the line names. -/
def host? : UnlockingLine → Option Host
  | name host _ _ _ _ => some host
  | _ => none

theorem oneLine (line : UnlockingLine) : '\n' ∉ line.text.toList := by
  cases line with
  | heading indent head rest hblanks honeLine hcase =>
      rw [text, String.toList_append, List.mem_append, not_or]
      exact ⟨hblanks.2, honeLine⟩
  | name host indent rest hblanks hword =>
      rw [text, String.toList_append, String.toList_append, List.mem_append, List.mem_append, not_or,
        not_or]
      exact ⟨hblanks.1.2, oneLine_of_noBlank hword.noBlank, hblanks.2.2⟩
  | blank text hblanks => exact hblanks.2

variable {cs : List Char}

theorem heading_ne_nil (hcase : cs.flatMap Text.lowerChar = unlockedHeading) : cs ≠ [] := by
  rintro rfl
  exact absurd hcase (by decide)

theorem heading_first (hcase : cs.flatMap Text.lowerChar = unlockedHeading) :
    ∀ c, cs.head? = some c → Text.isBlank c = false := by
  intro c hc
  by_contra hblank
  have hletter := Text.head?_flatMap_lowerChar (eq_true_of_ne_false hblank) hc
  rw [hcase] at hletter
  exact hblank (Option.some.inj hletter ▸ by decide)

theorem heading_last (hcase : cs.flatMap Text.lowerChar = unlockedHeading) :
    ∀ c, cs.getLast? = some c → Text.isBlank c = false := by
  intro c hc
  by_contra hblank
  have hletter := Text.getLast?_flatMap_lowerChar (eq_true_of_ne_false hblank) hc
  rw [hcase] at hletter
  exact hblank (Option.some.inj hletter ▸ by decide)

theorem heading_noSigma (hcase : cs.flatMap Text.lowerChar = unlockedHeading) :
    'Σ' ∉ cs := by
  intro hmem
  have hsmall : 'σ' ∈ cs.flatMap Text.lowerChar := List.mem_flatMap.mpr ⟨'Σ', hmem, by decide +kernel⟩
  rw [hcase] at hsmall
  exact absurd hsmall (by decide)

/-- What becomes the heading in lower case is a heading, whatever comes after it and before, if that is
    blank. -/
theorem unlockedOf?_heading {indent head rest : String} (hindent : Blanks indent)
    (hcase : head.toList.flatMap Text.lowerChar = unlockedHeading) :
    unlockedOf? (indent ++ (head ++ rest)) = none := by
  have htrim : Text.trim (indent ++ (head ++ rest)) =
      String.ofList (head.toList ++ Text.dropFinalBlanks rest.toList) := by
    rw [Text.trim, String.toList_append, String.toList_append,
      Text.trimmed_append hindent.isBlank (heading_ne_nil hcase) (heading_first hcase)
        (heading_last hcase)]
  have hprefix : unlockedHeading.isPrefixOf
      (Text.lowercase (head.toList ++ Text.dropFinalBlanks rest.toList)) = true := by
    -- what follows has no say in the heading, which has no sigma
    rw [Text.lowercase, Text.lowerAfter_append, Text.lowerBetween_eq_flatMap (heading_noSigma hcase),
      hcase]
    exact List.isPrefixOf_iff_prefix.mpr (List.prefix_append _ _)
  rw [unlockedOf?, htrim, String.toList_ofList]
  exact if_pos (.inr hprefix)

/-- A name stands for itself among blanks, as the heading has a blank inside. -/
theorem unlockedOf?_name {host : Host} (hword : Text.IsWord host.toList) {indent rest : String}
    (hblanks : Blanks indent ∧ Blanks rest) :
    unlockedOf? (indent ++ (host ++ rest)) = some host := by
  have htrim : Text.trim (indent ++ (host ++ rest)) = host := by
    rw [Text.trim, String.toList_append, String.toList_append,
      Text.trimmed_append hblanks.1.isBlank hword.ne_nil
        (fun c hc => hword.noBlank c (List.mem_of_mem_head? hc))
        (fun c hc => hword.noBlank c (List.mem_of_mem_getLast? hc)),
      Text.dropFinalBlanks_of_blanks hblanks.2.isBlank, List.append_nil, String.ofList_toList]
  have hnonempty : host ≠ "" := fun hempty => hword.ne_nil (String.toList_eq_nil_iff.mpr hempty)
  have hname : ¬ unlockedHeading.isPrefixOf (Text.lowercase host.toList) = true := by
    intro hprefix
    have hspace : ' ' ∈ Text.lowercase host.toList :=
      (List.isPrefixOf_iff_prefix.mp hprefix).subset (by decide)
    rw [Text.lowercase_eq] at hspace
    exact absurd (hword.noBlank _ (Text.mem_of_space_mem_lowerBetween hspace)) (by decide)
  rw [unlockedOf?, htrim]
  exact if_neg (not_or.mpr ⟨hnonempty, hname⟩)

theorem unlockedOf?_text (line : UnlockingLine) : unlockedOf? line.text = line.host? := by
  cases line with
  | heading indent head rest hblanks honeLine hcase => exact unlockedOf?_heading hblanks hcase
  | name host indent rest hblanks hword => exact unlockedOf?_name hword hblanks
  | blank text hblanks =>
      have htrim : Text.trim text = "" := by
        rw [Text.trim, Text.trimmed, Text.dropBlanks_of_blanks hblanks.isBlank]
        rfl
      rw [UnlockingLine.text, unlockedOf?, htrim]
      exact if_pos (.inl rfl)

end UnlockingLine

theorem linewise_unlockedOf? : Text.Linewise unlockedOf? where
  read_empty := by decide
  read_return line := by rw [unlockedOf?, Text.trim_return, unlockedOf?]

/-! ## Listings -/

/-- The answer to a renaming is the hosts that are listed, if their names are words. -/
theorem reply_rename {σ : Type} {t : Systems} {runner : Runner σ} {hosts : HostSet} {s : σ}
    {direction : Marking} {listing : List RenamingLine}
    (hwords : ∀ host ∈ listing.filterMap RenamingLine.host?, Text.IsWord host.toList)
    (hprints : t.Prints runner (.rename hosts direction) s
      (listing.map (RenamingLine.text direction))) :
    (t.reply runner (.rename hosts direction) s).1 = .ok (listing.filterMap RenamingLine.host?) := by
  have hlines : ∀ line ∈ listing, ∀ host ∈ line.host?, Text.IsWord host.toList :=
    fun line hline host hhost => hwords host (List.mem_filterMap.mpr ⟨line, hline, hhost⟩)
  obtain ⟨o, hanswer, hread⟩ := hprints.read fun line hline => RenamingLine.oneLine (hlines line hline)
  have hhosts : renamed direction o.stdout = listing.filterMap RenamingLine.host? :=
    hread (linewise_renamedOf? direction) fun line hline => RenamingLine.renamedOf?_text (hlines line hline)
  rw [hanswer, Systems.answer, hhosts]

/-- The answer to an unlocking is the names that are listed. -/
theorem reply_unlock {σ : Type} {t : Systems} {runner : Runner σ} {hosts : HostSet} {s : σ}
    {listing : List UnlockingLine}
    (hprints : t.Prints runner (.unlock hosts) s (listing.map UnlockingLine.text)) :
    (t.reply runner (.unlock hosts) s).1 = .ok (listing.filterMap UnlockingLine.host?) := by
  obtain ⟨o, hanswer, hread⟩ := hprints.read fun line _ => line.oneLine
  have hhosts : unlocked o.stdout = listing.filterMap UnlockingLine.host? :=
    hread linewise_unlockedOf? fun line _ => line.unlockedOf?_text
  rw [hanswer, Systems.answer, hhosts]

/-- Names are read back to the hosts they belong to. When the tool lists each of the names that it was
    sent to be renamed, in any order and with whatever else between them cannot be taken for such, the
    answer is the hosts in that order, whichever name is their own. And when it lists unlocked hosts, the
    answer is the names below the heading, in order. -/
theorem reads_names_back {σ : Type} (t : Systems) (runner : Runner σ) (hosts : HostSet)
    (hwords : ∀ host ∈ hosts, Text.IsWord host.toList) (s : σ) :
    (∀ (direction : Marking) (listing : List RenamingLine),
      ((listing.filterMap RenamingLine.host?).map (Systems.nameNow direction)).Perm
        (Systems.namesFor direction hosts) →
      t.Prints runner (.rename hosts direction) s (listing.map (RenamingLine.text direction)) →
      (t.reply runner (.rename hosts direction) s).1 = .ok (listing.filterMap RenamingLine.host?) ∧
        (listing.filterMap RenamingLine.host?).Perm hosts.toList) ∧
    ∀ listing : List UnlockingLine,
      t.Prints runner (.unlock hosts) s (listing.map UnlockingLine.text) →
      (t.reply runner (.unlock hosts) s).1 = .ok (listing.filterMap UnlockingLine.host?) := by
  refine ⟨?_, fun listing => reply_unlock⟩
  intro direction listing hsent hprints
  rw [Systems.namesFor_eq] at hsent
  -- no two hosts are sent by one name, so the names in another order are the hosts in that order
  have hall : (listing.filterMap RenamingLine.host?).Perm hosts.toList :=
    (List.map_perm_map_iff (Systems.nameNow_injective direction)).mp hsent
  have hlisted : ∀ host ∈ listing.filterMap RenamingLine.host?, Text.IsWord host.toList :=
    fun host hhost => hwords host (HostSet.mem_toList.mp (hall.mem_iff.mp hhost))
  exact ⟨reply_rename hlisted hprints, hall⟩

/-- Two names that are awkward in a listing of renamings. -/
def awkwardHosts : HostSet := .ofList ["to", "to-migrated-do-not-use"]

/-- Both of them are listed, in another order than they were sent, behind a line about something else. -/
def awkwardRenamings : List RenamingLine :=
  [.other "renamed 2 to undo" (by decide) (by
      have hlist : Text.words "renamed 2 to undo" = ["renamed", "2", "to", "undo"] := by decide
      simp [hlist]),
    .renamed "to-migrated-do-not-use" " \t" "\u2003" "  " "" (by decide) (by decide),
    .renamed "to" "" " " "\u00a0" " \r" (by decide) (by decide)]

/-- The heading of this listing has a Kelvin sign. -/
def awkwardUnlockings : List UnlockingLine :=
  [.blank " " (by decide),
    .heading "" "UNLOC\u212aED Host" "s: " (by decide) (by decide) (by decide +kernel),
    .name "to" "\t" "" (by decide) (by decide),
    .blank "" (by decide)]

/-- The awkward listings are read back. -/
theorem reads_names_back_awkward :
    (∀ host ∈ awkwardHosts, Text.IsWord host.toList) ∧
    ((awkwardRenamings.filterMap RenamingLine.host?).map (Systems.nameNow .restored)).Perm
      (Systems.namesFor .restored awkwardHosts) ∧
    (Systems.reply ⟨"atest", "skylab"⟩ (Rehearsal.runner ["atest"]) (.rename awkwardHosts .restored)
      (.printing (awkwardRenamings.map (RenamingLine.text .restored)))).1 =
        .ok ["to-migrated-do-not-use", "to"] ∧
    (Systems.reply ⟨"atest", "skylab"⟩ (Rehearsal.runner ["atest"]) (.unlock awkwardHosts)
      (.printing (awkwardUnlockings.map UnlockingLine.text))).1 = .ok ["to"] := by
  have hwords : ∀ host ∈ awkwardHosts, Text.IsWord host.toList := by
    intro host hhost
    rw [awkwardHosts, HostSet.mem_ofList, List.mem_pair] at hhost
    rcases hhost with rfl | rfl
    · decide
    · decide
  have hsent : ((awkwardRenamings.filterMap RenamingLine.host?).map (Systems.nameNow .restored)).Perm
      (Systems.namesFor .restored awkwardHosts) := by
    decide
  have hrenaming := (reads_names_back ⟨"atest", "skylab"⟩ (Rehearsal.runner ["atest"]) awkwardHosts hwords
    (.printing (awkwardRenamings.map (RenamingLine.text .restored)))).1 .restored awkwardRenamings hsent
    (Rehearsal.prints_printing (by decide) (by decide +kernel) _)
  have hunlocking := (reads_names_back ⟨"atest", "skylab"⟩ (Rehearsal.runner ["atest"]) awkwardHosts hwords
    (.printing (awkwardUnlockings.map UnlockingLine.text))).2 awkwardUnlockings
    (Rehearsal.prints_printing (by decide) (by decide +kernel) _)
  exact ⟨hwords, hsent, hrenaming.1, hunlocking⟩

end Tool

end Rehome
