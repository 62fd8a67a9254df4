import Rehome.Text.Split

/-!
# Linewise — texts that are read line by line

Host names, statuses, renamed and unlocked hosts are all read in one way: a text is cut into lines,
and each line gives something or nothing. What a line gives does not hang on how it ends: a carriage
return before its line feed is a blank like others, and an empty line gives nothing (`Linewise`). So
texts can be put together, and lines be joined, without regard to how the lines of either end.
-/

namespace Rehome.Text

/-! ## Splitting -/

theorem splitWhere_eq_splitOnP (p : Char → Bool) (cs : List Char) :
    splitWhere p cs = cs.splitOnP p := by
  induction cs with
  | nil => rfl
  | cons c cs ih =>
      rw [splitWhere] at ih
      rw [splitWhere, List.foldr_cons, ih, List.splitOnP_cons_eq_if_modifyHead]
      cases hparts : cs.splitOnP p with
      | nil => exact absurd hparts (List.splitOnP_ne_nil p cs)
      | cons part parts => rfl

theorem splitWhere_char (c : Char) (cs : List Char) : splitWhere (· == c) cs = cs.splitOn c := by
  rw [splitWhere_eq_splitOnP, List.splitOn_eq_splitOnP]

/-! ## Blanks around a text -/

variable {c : Char} {cs xs : List Char}

theorem dropBlanks_eq_self (h : ∀ c, cs.head? = some c → isBlank c = false) :
    dropBlanks cs = cs := by
  cases cs with
  | nil => rfl
  | cons c cs => exact List.dropWhile_cons_of_neg (by simp [h c rfl])

theorem dropFinalBlanks_eq_self (h : ∀ c, cs.getLast? = some c → isBlank c = false) :
    dropFinalBlanks cs = cs := by
  have hreverse : dropBlanks cs.reverse = cs.reverse :=
    dropBlanks_eq_self fun c hc => h c (by rwa [List.head?_reverse] at hc)
  rw [dropFinalBlanks]
  exact (congrArg List.reverse hreverse).trans (List.reverse_reverse cs)

theorem dropFinalBlanks_concat (h : isBlank c = true) (cs : List Char) :
    dropFinalBlanks (cs ++ [c]) = dropFinalBlanks cs := by
  rw [dropFinalBlanks, List.reverse_concat, List.dropWhile_cons_of_pos h, dropFinalBlanks]

/-- Blanks at the end of a text are found behind its last other character. -/
theorem dropFinalBlanks_append (h : isBlank c = false) (xs ys : List Char) :
    dropFinalBlanks (xs ++ c :: ys) = xs ++ c :: dropFinalBlanks ys := by
  have hneg : ¬ isBlank c = true := by rw [h]; exact Bool.false_ne_true
  rw [dropFinalBlanks, dropFinalBlanks, List.reverse_append, List.reverse_cons, List.append_assoc,
    List.dropWhile_append]
  split
  · rename_i hempty
    rw [List.isEmpty_iff.mp hempty, List.singleton_append, List.dropWhile_cons_of_neg hneg,
      List.reverse_cons, List.reverse_reverse]
    rfl
  · rw [List.reverse_append, List.reverse_append, List.reverse_reverse, List.append_assoc]
    rfl

theorem mem_of_mem_dropFinalBlanks (h : c ∈ dropFinalBlanks cs) : c ∈ cs :=
  List.mem_reverse.mp ((List.dropWhile_sublist _).mem (List.mem_reverse.mp h))

theorem dropBlanks_of_blanks (h : ∀ c ∈ cs, isBlank c = true) : dropBlanks cs = [] := by
  have hall : dropBlanks (cs ++ []) = [] := List.dropWhile_append_of_pos h
  rwa [List.append_nil] at hall

theorem dropFinalBlanks_of_blanks (h : ∀ c ∈ cs, isBlank c = true) : dropFinalBlanks cs = [] :=
  congrArg List.reverse (dropBlanks_of_blanks fun c hc => h c (List.mem_reverse.mp hc))

/-- Blanks before a text without any at its ends are taken off, and of what follows it the final ones. -/
theorem trimmed_append (hxs : ∀ c ∈ xs, isBlank c = true) (hne : cs ≠ [])
    (hfirst : ∀ c, cs.head? = some c → isBlank c = false)
    (hlast : ∀ c, cs.getLast? = some c → isBlank c = false) (ys : List Char) :
    trimmed (xs ++ (cs ++ ys)) = cs ++ dropFinalBlanks ys := by
  have hstart : dropBlanks (xs ++ (cs ++ ys)) = cs ++ ys := by
    rw [dropBlanks, List.dropWhile_append_of_pos hxs]
    refine dropBlanks_eq_self fun c hc => hfirst c ?_
    rw [List.head?_append, List.head?_eq_some_head hne] at hc
    rwa [List.head?_eq_some_head hne]
  obtain ⟨init, c, rfl⟩ : ∃ init c, cs = init ++ [c] :=
    ⟨_, _, (List.dropLast_concat_getLast hne).symm⟩
  rw [trimmed, hstart, List.append_assoc, List.append_assoc]
  exact dropFinalBlanks_append (hlast c List.getLast?_concat) init ys

theorem trimmed_concat (h : isBlank c = true) (cs : List Char) :
    trimmed (cs ++ [c]) = trimmed cs := by
  rw [trimmed, trimmed, dropBlanks, List.dropWhile_append]
  split
  · rename_i hempty
    rw [dropBlanks, List.isEmpty_iff.mp hempty, List.dropWhile_cons_of_pos h, List.dropWhile_nil]
  · exact dropFinalBlanks_concat h _

theorem isBlank_return : isBlank '\r' = true := by decide

theorem trim_return (line : String) : trim (line ++ "\r") = trim line := by
  rw [trim, String.toList_append]
  exact congrArg String.ofList (trimmed_concat isBlank_return _)

/-! ## Words -/

/-- The words of a row of characters. -/
def wordsOf (cs : List Char) : List (List Char) := (cs.splitOnP isBlank).filter (· ≠ [])

theorem words_eq (text : String) : words text = (wordsOf text.toList).map String.ofList := by
  rw [words, splitWhere_eq_splitOnP, wordsOf]

theorem wordsOf_append (h : isBlank c = true) (before after : List Char) :
    wordsOf (before ++ c :: after) = wordsOf before ++ wordsOf after := by
  rw [wordsOf, List.splitOnP_append_cons before after h, List.filter_append, wordsOf, wordsOf]

theorem wordsOf_word (hne : cs ≠ []) (h : ∀ c ∈ cs, isBlank c = false) : wordsOf cs = [cs] := by
  rw [wordsOf, List.splitOnP_eq_singleton h]
  simp [hne]

theorem words_return (line : String) : words (line ++ "\r") = words line := by
  rw [words_eq, words_eq, String.toList_append]
  exact congrArg _ ((wordsOf_append isBlank_return _ []).trans (List.append_nil _))

/-! ## Reading line by line -/

variable {α : Type} {read : String → Option α}

/-- A reader of lines to whom the ends of lines mean nothing. -/
structure Linewise (read : String → Option α) : Prop where
  read_empty : read "" = none
  read_return : ∀ line, read (line ++ "\r") = read line

namespace Linewise

/-- More may be made of what a line gives. -/
theorem bind (h : Linewise read) {β : Type} (f : α → Option β) :
    Linewise fun line => (read line).bind f where
  read_empty := by rw [h.read_empty, Option.bind_none]
  read_return line := by rw [h.read_return]

theorem read_dropReturn (h : Linewise read) (cs : List Char) :
    read (String.ofList (dropReturn cs)) = read (String.ofList cs) := by
  rw [dropReturn]
  split
  · rename_i hlast
    obtain ⟨init, rfl⟩ := List.getLast?_eq_some_iff.mp hlast
    rw [List.dropLast_concat, String.ofList_append]
    exact (h.read_return _).symm
  · rfl

/-- It makes no difference to read the parts between the line feeds as they are. -/
theorem filterMap_lines (h : Linewise read) (text : String) :
    (lines text).filterMap read =
      (text.toList.splitOn '\n').filterMap fun part => read (String.ofList part) := by
  rw [lines, splitWhere_char, List.filterMap_map]
  obtain ⟨init, last, hparts⟩ : ∃ init last, text.toList.splitOn '\n' = init ++ [last] :=
    ⟨_, _, (List.dropLast_concat_getLast (List.splitOn_ne_nil _ _)).symm⟩
  rw [hparts, linesOfParts, List.dropLast_concat, List.getLast?_concat, List.filterMap_append,
    List.filterMap_append, List.filterMap_map]
  have hreturns : (read ∘ String.ofList) ∘ dropReturn = fun part => read (String.ofList part) :=
    funext h.read_dropReturn
  rw [hreturns]
  congr 1
  -- what follows the last line feed is read as it is, or is empty and gives nothing
  cases last with
  | nil => simp [h.read_empty]
  | cons c cs => rfl

/-- A text that is put to another behind a line feed is read after it. -/
theorem filterMap_lines_append (h : Linewise read) (before after : String) :
    (lines (before ++ "\n" ++ after)).filterMap read =
      (lines before).filterMap read ++ (lines after).filterMap read := by
  rw [h.filterMap_lines, h.filterMap_lines, h.filterMap_lines, String.toList_append,
    String.toList_append, List.append_assoc]
  exact (congrArg _ (List.splitOn_append_cons_self _ _)).trans List.filterMap_append

theorem filterMap_lines_single (h : Linewise read) {line : String} (hline : '\n' ∉ line.toList) :
    (lines line).filterMap read = [line].filterMap read := by
  rw [h.filterMap_lines, List.splitOn_eq_singleton hline]
  simp only [List.filterMap_cons, List.filterMap_nil, String.ofList_toList]

/-- Lines that are joined by their ends, of either kind, are read one after the other. -/
theorem filterMap_lines_intercalate (h : Linewise read) {sep : String}
    (hsep : sep = "\n" ∨ sep = "\r\n") {parts : List String}
    (hparts : ∀ part ∈ parts, '\n' ∉ part.toList) :
    (lines (String.intercalate sep parts)).filterMap read = parts.filterMap read := by
  induction parts with
  | nil => rw [String.intercalate_nil]; rfl
  | cons part parts ih =>
      have hpart : '\n' ∉ part.toList := hparts part (.head _)
      cases parts with
      | nil => rw [String.intercalate_singleton, h.filterMap_lines_single hpart]
      | cons next parts =>
          have hnext := ih fun part hpart => hparts part (.tail _ hpart)
          have hsplit : ∀ rest, (lines (part ++ sep ++ rest)).filterMap read =
              [part].filterMap read ++ (lines rest).filterMap read := by
            intro rest
            rcases hsep with rfl | rfl
            · rw [h.filterMap_lines_append, h.filterMap_lines_single hpart]
            · have hreturn : '\n' ∉ (part ++ "\r").toList := by
                rw [String.toList_append, List.mem_append]
                exact not_or.mpr ⟨hpart, by decide⟩
              have hends : "\r\n" = "\r" ++ "\n" := by decide
              rw [hends, ← String.append_assoc, h.filterMap_lines_append, h.filterMap_lines_single hreturn]
              simp only [List.filterMap_cons, List.filterMap_nil, h.read_return]
          rw [String.intercalate_cons_cons, hsplit, hnext]
          exact List.filterMap_append.symm

end Linewise

end Rehome.Text
