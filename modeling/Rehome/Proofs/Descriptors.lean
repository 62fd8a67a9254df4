import Rehome.Proofs.InputFiles
import Rehome.Proofs.Printouts

/-!
# Descriptors — texts that are handed from one tool to the other

What the legacy tool prints about a host is cut into lines, the lines are joined by line feeds, and
the result is the one item of the input file of the target tool. On the way a carriage return at the
end of a line gets lost (`lines_terminated`), and so does an empty line at the end, since the line
feed before it is taken for the one behind it (`inputText_intercalate`). Nothing else does: a text of
lines that all have an end comes through unchanged just when it has neither
(`descriptor_unchanged_iff`).
-/

namespace Rehome

/-! ## Lines with ends, read -/

namespace Text

variable {line : String} {lines : List String}

/-- A line without a carriage return at its end. -/
def withoutReturn (line : String) : String := String.ofList (dropReturn line.toList)

theorem withoutReturn_eq_self_iff : withoutReturn line = line ↔ line.toList.getLast? ≠ some '\r' := by
  rw [withoutReturn, dropReturn]
  split
  · rename_i hreturn
    refine ⟨fun hsame => ?_, fun hno => absurd hreturn hno⟩
    obtain ⟨init, hinit⟩ := List.getLast?_eq_some_iff.mp hreturn
    have hchars : line.toList.dropLast = line.toList := by
      rw [← String.toList_ofList (l := line.toList.dropLast), hsame]
    rw [hinit, List.dropLast_concat] at hchars
    exact absurd (congrArg List.length hchars) (by simp)
  · rename_i hno
    exact ⟨fun _ => hno, fun _ => String.ofList_toList⟩

theorem mem_of_mem_withoutReturn {c : Char} (h : c ∈ (withoutReturn line).toList) :
    c ∈ line.toList := by
  rw [withoutReturn, String.toList_ofList, dropReturn] at h
  split at h
  · exact (List.dropLast_sublist _).mem h
  · exact h

/-- The carriage return is a blank. -/
theorem isBlankText_withoutReturn (line : String) :
    isBlankText (withoutReturn line) = isBlankText line := by
  rw [isBlankText, isBlankText, withoutReturn, String.toList_ofList, dropReturn]
  split
  · rename_i hreturn
    obtain ⟨init, hinit⟩ := List.getLast?_eq_some_iff.mp hreturn
    rw [hinit, List.dropLast_concat, List.all_append]
    simp [isBlank_return]
  · rfl

/-- A text of lines with ends is read by these lines. -/
theorem lines_terminated (honeLine : ∀ line ∈ lines, '\n' ∉ line.toList) :
    Text.lines (terminated lines) = lines.map withoutReturn := by
  rw [Text.lines, splitWhere_char, splitOn_terminated honeLine, linesOfParts, List.dropLast_concat,
    List.getLast?_concat, List.map_append, List.map_map, List.map_map]
  exact List.append_nil _

/-- Lines without the last one, if that is empty. -/
def dropFinalEmpty (lines : List String) : List String :=
  if lines.getLast? = some "" then lines.dropLast else lines

theorem dropFinalEmpty_concat (lines : List String) (last : String) :
    dropFinalEmpty (lines ++ [last]) = if last = "" then lines else lines ++ [last] := by
  simp [dropFinalEmpty]

theorem mem_of_mem_dropFinalEmpty (h : line ∈ dropFinalEmpty lines) : line ∈ lines := by
  rw [dropFinalEmpty] at h
  split at h
  · exact (List.dropLast_sublist _).mem h
  · exact h

theorem map_withoutReturn_eq_self_iff :
    lines.map withoutReturn = lines ↔ ∀ line ∈ lines, line.toList.getLast? ≠ some '\r' := by
  have hid : lines.map withoutReturn = lines ↔ lines.map withoutReturn = lines.map id := by
    rw [List.map_id]
  rw [hid, List.map_inj_left]
  exact forall₂_congr fun _ _ => withoutReturn_eq_self_iff

/-- Nothing of some lines gets lost exactly when no carriage return does and no empty line at the end. -/
theorem dropFinalEmpty_withoutReturn_eq_iff (hne : lines ≠ []) :
    dropFinalEmpty (lines.map withoutReturn) = lines ↔
      lines.getLast? ≠ some "" ∧ ∀ line ∈ lines, line.toList.getLast? ≠ some '\r' := by
  rw [dropFinalEmpty, ← map_withoutReturn_eq_self_iff]
  split
  · rename_i hempty
    constructor
    · intro hsame
      have hlength := congrArg List.length hsame
      rw [List.length_dropLast, List.length_map] at hlength
      have hpos := List.length_pos_iff.mpr hne
      omega
    · rintro ⟨hlast, hsame⟩
      rw [hsame] at hempty
      exact absurd hempty hlast
  · rename_i hlast
    refine ⟨fun hsame => ⟨?_, hsame⟩, And.right⟩
    rwa [hsame] at hlast

end Text

namespace Tool

/-! ## Lines joined, and written -/

theorem Invocation.inputText_singleton (text : String) :
    inputText [text] = if text.toList.getLast? = some '\n' then text else text ++ "\n" := by
  rw [inputText, List.foldl_cons, List.foldl_nil, appendItem, List.nil_append]
  split
  · exact String.ofList_toList
  · rw [String.ofList_append, String.ofList_toList]

/-- Lines that are joined by line feeds are written with ends, but for an empty line at the end, before
    which a line feed stands already. -/
theorem Invocation.inputText_intercalate {lines : List String}
    (honeLine : ∀ line ∈ lines, '\n' ∉ line.toList) (hsome : ∃ line ∈ lines, line ≠ "") :
    inputText [String.intercalate "\n" lines] = Text.terminated (Text.dropFinalEmpty lines) := by
  obtain ⟨init, last, rfl⟩ : ∃ init last, lines = init ++ [last] := by
    obtain ⟨line, hline, -⟩ := hsome
    exact ⟨_, _, (List.dropLast_concat_getLast (List.ne_nil_of_mem hline)).symm⟩
  rw [Text.intercalate_concat, inputText_singleton, Text.dropFinalEmpty_concat, String.toList_append]
  by_cases hempty : last = ""
  · -- then there are other lines, and the text ends with the line feed of the last of them
    subst hempty
    obtain ⟨before, line, rfl⟩ : ∃ before line, init = before ++ [line] := by
      obtain ⟨line, hline, hnonempty⟩ := hsome
      have hinit : line ∈ init := by simpa [hnonempty] using hline
      exact ⟨_, _, (List.dropLast_concat_getLast (List.ne_nil_of_mem hinit)).symm⟩
    rw [if_pos rfl, String.append_empty, String.toList_empty, List.append_nil,
      Text.terminated_concat, String.toList_append]
    exact if_pos List.getLast?_concat
  · have hlast : last.toList.getLast? ≠ some '\n' :=
      getLast?_ne_of_oneLine (honeLine last (List.mem_append_right _ List.mem_cons_self))
    rw [if_neg hempty, Text.terminated_concat,
      List.getLast?_append_of_ne_nil _ (mt String.toList_eq_nil_iff.mp hempty), if_neg hlast]

/-! ## From one tool to the other -/

namespace Systems

variable {σ : Type} {t : Systems} {runner : Runner σ} {s : σ} {host : Host} {lines : List String}

/-- The tool that is run for a call succeeds and prints a text. -/
structure Delivers (t : Systems) (runner : Runner σ) (call : Call) (s : σ) (text : String) : Prop where
  noNul : (t.invocation call).hasNul = false
  stdout : ∃ c, (runner.launch (t.invocation call) s).1 = .ok c ∧ c.exitCode = some 0 ∧
    c.stdout = text.toUTF8

/-- The descriptor is made of the lines, without carriage returns at their ends. -/
theorem Delivers.reply_fetchDescriptor
    (h : t.Delivers runner (.fetchDescriptor host) s (Text.terminated lines))
    (honeLine : ∀ line ∈ lines, '\n' ∉ line.toList)
    (hsome : ∃ line ∈ lines, Text.isBlankText line = false) :
    (t.reply runner (.fetchDescriptor host) s).1 =
      .ok ⟨host, String.intercalate "\n" (lines.map Text.withoutReturn)⟩ := by
  obtain ⟨c, hlaunch, hexit, hbytes⟩ := h.stdout
  have hsuccess : (Output.ofCompletion c).success = true := by
    rw [Output.success, Output.ofCompletion, hexit]
    rfl
  have hstdout : (Output.ofCompletion c).stdout = lines.map Text.withoutReturn := by
    rw [Output.stdout_ofCompletion hbytes, Text.lines_terminated honeLine]
  have hnotBlank : ¬ (lines.map Text.withoutReturn).all Text.isBlankText = true := by
    obtain ⟨line, hline, hblank⟩ := hsome
    rw [List.all_eq_true]
    intro hall
    have hline' := hall _ (List.mem_map_of_mem hline)
    rw [Text.isBlankText_withoutReturn, hblank] at hline'
    exact Bool.false_ne_true hline'
  rw [reply_of_launch h.noNul hlaunch]
  show t.descriptorOf host (.ofCompletion c) = _
  rw [descriptorOf, hsuccess, hstdout, if_neg hnotBlank]
  rfl

/-- To add a descriptor the target tool is launched, unless there is a NUL in its name. -/
theorem launches_add (t : Systems) (runner : Runner σ) (d : Descriptor) (s : σ) :
    t.launches runner (.add d) s =
      if t.target.toList.contains '\x00' then [] else [t.invocation (.add d)] := by
  have hnul : (t.invocation (.add d)).hasNul = t.target.toList.contains '\x00' := Bool.or_false _
  rw [launches_eq, hnul]

/-- A descriptor that the legacy tool prints as lines with ends, not all of them blank, is fetched for
    its host. To add it one run of the target tool is launched, whenever that is and unless there is a
    NUL in the name of the tool, and the specs file that this run is given holds the same bytes as were
    printed exactly when the last line is not empty and no line ends with a carriage return. -/
theorem descriptor_unchanged_iff
    (h : t.Delivers runner (.fetchDescriptor host) s (Text.terminated lines))
    (honeLine : ∀ line ∈ lines, '\n' ∉ line.toList)
    (hsome : ∃ line ∈ lines, Text.isBlankText line = false) :
    ∃ d : Descriptor, (t.reply runner (.fetchDescriptor host) s).1 = .ok d ∧ d.host = host ∧
      ∃ run : Invocation,
        (∀ later, t.launches runner (.add d) later =
          if t.target.toList.contains '\x00' then [] else [run]) ∧
        run.program = t.target ∧ [.text "-specs-file", .inputFile] <:+ run.arguments ∧
        (run.input.map String.toUTF8 = some (Text.terminated lines).toUTF8 ↔
          lines.getLast? ≠ some "" ∧ ∀ line ∈ lines, line.toList.getLast? ≠ some '\r') := by
  obtain ⟨line, hline, hblank⟩ := hsome
  have honeLine' : ∀ line ∈ lines.map Text.withoutReturn, '\n' ∉ line.toList := by
    intro line' hline'
    obtain ⟨line, hline, rfl⟩ := List.mem_map.mp hline'
    exact fun hin => honeLine line hline (Text.mem_of_mem_withoutReturn hin)
  have hnonempty : Text.withoutReturn line ≠ "" := by
    intro hempty
    rw [← Text.isBlankText_withoutReturn, hempty] at hblank
    exact Bool.noConfusion hblank
  have hinput : Invocation.inputText [String.intercalate "\n" (lines.map Text.withoutReturn)] =
      Text.terminated (Text.dropFinalEmpty (lines.map Text.withoutReturn)) :=
    Invocation.inputText_intercalate honeLine' ⟨_, List.mem_map_of_mem hline, hnonempty⟩
  refine ⟨_, h.reply_fetchDescriptor honeLine ⟨line, hline, hblank⟩, rfl, t.invocation (.add _),
    t.launches_add runner _, rfl, ?_, ?_⟩
  · exact ⟨["add-dut", "-skip-image-download", "-skip-install-firmware", "-skip-install-os"].map .text,
      rfl⟩
  · show some (Invocation.inputText [String.intercalate "\n" (lines.map Text.withoutReturn)]).toUTF8 =
      some (Text.terminated lines).toUTF8 ↔ _
    rw [hinput, Option.some.injEq, String.toUTF8_eq_toByteArray, String.toUTF8_eq_toByteArray,
      String.toByteArray_inj, Text.terminated_inj
        (fun line hline => honeLine' line (Text.mem_of_mem_dropFinalEmpty hline)) honeLine]
    exact Text.dropFinalEmpty_withoutReturn_eq_iff (List.ne_nil_of_mem hline)

theorem delivers_of_rehearsal {call : Call} {installed : List String}
    (hinstalled : (t.invocation call).program ∈ installed)
    (hnoNul : (t.invocation call).hasNul = false) (text : String) :
    t.Delivers (Rehearsal.runner installed) call ⟨[{ stdout := text.toUTF8 }], [], 0⟩ text where
  noNul := hnoNul
  stdout := ⟨_, congrArg Prod.fst (if_pos hinstalled), rfl, rfl⟩

/-- Lines with an empty one and a blank one among them. -/
def gappedLines : List String := ["[", "", "  größe 1", " ", "]"]

/-- A rehearsal whose first run prints these lines. -/
def gappedRun : Rehearsal := ⟨[{ stdout := (Text.terminated gappedLines).toUTF8 }], [], 0⟩

/-- Neither the gaps nor the letters outside of ASCII are lost. -/
theorem descriptor_unchanged_with_gaps :
    (Systems.mk "legacy" "target").Delivers (Rehearsal.runner ["legacy", "target"])
      (.fetchDescriptor "a") gappedRun (Text.terminated gappedLines) ∧
    (∀ line ∈ gappedLines, '\n' ∉ line.toList) ∧
    (∃ line ∈ gappedLines, Text.isBlankText line = false) ∧
    ∃ d : Descriptor, d.host = "a" ∧
      ((Systems.mk "legacy" "target").reply (Rehearsal.runner ["legacy", "target"])
        (.fetchDescriptor "a") gappedRun).1 = .ok d ∧
      ∃ run : Invocation, (∀ later, (Systems.mk "legacy" "target").launches
          (Rehearsal.runner ["legacy", "target"]) (.add d) later = [run]) ∧
        run.input.map String.toUTF8 = some (Text.terminated gappedLines).toUTF8 := by
  have hdelivers : (Systems.mk "legacy" "target").Delivers (Rehearsal.runner ["legacy", "target"])
      (.fetchDescriptor "a") gappedRun (Text.terminated gappedLines) :=
    delivers_of_rehearsal (by decide) (by decide) _
  have honeLine : ∀ line ∈ gappedLines, '\n' ∉ line.toList := by decide
  have hsome : ∃ line ∈ gappedLines, Text.isBlankText line = false := by decide
  obtain ⟨d, hreply, hhost, run, hlaunches, -, -, hinput⟩ :=
    descriptor_unchanged_iff hdelivers honeLine hsome
  exact ⟨hdelivers, honeLine, hsome, d, hhost, hreply, run, hlaunches, hinput.mpr (by decide)⟩

end Systems

end Tool

end Rehome
