import Rehome.Proofs.Launches
import Rehome.Proofs.Linewise
import Mathlib.Data.List.Basic

/-!
# Input files — what a tool is given to read

The text of an input file is put together item by item, and whether a line feed follows an item is
decided by the end of the whole text so far. Once that text has a line feed at its end, an empty item
leaves it as it is (`foldl_appendItem`), so the text lists the first item and of the others those that
are not empty. It lists all of them just when no other than the first is empty
(`inputText_eq_terminated_iff`).

The names of a set of hosts ascend, and the empty name is smaller than all others. So a set of hosts
is listed in full (`lists_hosts`), whether the empty name is among them or not.
-/

namespace Rehome

/-! ## Lines with ends -/

namespace Text

variable {lines lines' : List String}

/-- Lines, each with a line feed at its end. -/
def terminated (lines : List String) : String := String.join (lines.map (· ++ "\n"))

theorem terminated_nil : terminated [] = "" := rfl

theorem terminated_cons (line : String) (lines : List String) :
    terminated (line :: lines) = line ++ "\n" ++ terminated lines :=
  String.join_cons

theorem terminated_concat (lines : List String) (line : String) :
    terminated (lines ++ [line]) = terminated lines ++ line ++ "\n" := by
  rw [terminated, List.map_append, String.join_append, List.map_singleton, String.join_cons,
    String.join_nil, String.append_empty, ← String.append_assoc]
  rfl

/-- Lines are joined with line feeds by ending each of them but the last. -/
theorem intercalate_concat (lines : List String) (last : String) :
    String.intercalate "\n" (lines ++ [last]) = terminated lines ++ last := by
  induction lines with
  | nil => rw [List.nil_append, String.intercalate_singleton, terminated_nil, String.empty_append]
  | cons line lines ih =>
      rw [List.cons_append, String.intercalate_cons_of_ne_nil (List.concat_ne_nil _ _), ih,
        terminated_cons, ← String.append_assoc]

/-- Cut at its line feeds, the text gives the lines back, and nothing is left behind the last one. -/
theorem splitOn_terminated (honeLine : ∀ line ∈ lines, '\n' ∉ line.toList) :
    (terminated lines).toList.splitOn '\n' = lines.map String.toList ++ [[]] := by
  rw [← String.append_empty (s := terminated lines), ← intercalate_concat,
    String.toList_intercalate, List.map_append]
  refine List.splitOn_intercalate '\n' ?_ (List.concat_ne_nil _ _)
  intro part hpart
  rcases List.mem_append.mp hpart with hline | hlast
  · obtain ⟨line, hin, rfl⟩ := List.mem_map.mp hline
    exact honeLine line hin
  · rw [List.mem_singleton.mp hlast]
    exact List.not_mem_nil

theorem terminated_inj (honeLine : ∀ line ∈ lines, '\n' ∉ line.toList)
    (honeLine' : ∀ line ∈ lines', '\n' ∉ line.toList) :
    terminated lines = terminated lines' ↔ lines = lines' := by
  refine ⟨fun hsame => ?_, congrArg terminated⟩
  have hparts : lines.map String.toList ++ [[]] = lines'.map String.toList ++ [[]] := by
    rw [← splitOn_terminated honeLine, hsame, splitOn_terminated honeLine']
  exact List.map_injective_iff.mpr (fun _ _ => String.toList_injective)
    (List.append_cancel_right hparts)

end Text

/-- Only the first name of a set can be the empty one, for no name is smaller. -/
theorem HostSet.ne_empty_of_mem_tail {hosts : HostSet} {h : Host} (hh : h ∈ hosts.toList.tail) :
    h ≠ "" := by
  rintro rfl
  have hascending := hosts.ascending
  cases hhosts : hosts.toList with
  | nil =>
      rw [hhosts] at hh
      exact List.not_mem_nil hh
  | cons first others =>
      rw [hhosts] at hh hascending
      have hlt : first < "" := (List.pairwise_cons.mp hascending).1 "" hh
      exact List.not_lt_nil _ (String.lt_iff.mp hlt)

namespace Tool

/-! ## Item by item -/

namespace Invocation

variable {body item : List Char} {first : String} {items : List String}

theorem appendItem_of_getLast?_eq (h : (body ++ item).getLast? = some '\n') :
    appendItem body item = body ++ item :=
  if_pos h

theorem appendItem_of_getLast?_ne (h : (body ++ item).getLast? ≠ some '\n') :
    appendItem body item = body ++ item ++ ['\n'] :=
  if_neg h

theorem getLast?_ne_of_oneLine (h : '\n' ∉ item) : item.getLast? ≠ some '\n' :=
  fun hlast => h (List.mem_of_getLast? hlast)

/-- A text that ends with a line feed takes in an item with a line feed behind it, unless the item is
    empty. -/
theorem foldl_appendItem (hbody : body.getLast? = some '\n')
    (honeLine : ∀ item ∈ items, '\n' ∉ item.toList) :
    items.foldl (fun body item => appendItem body item.toList) body =
      body ++ (Text.terminated (items.filter (· ≠ ""))).toList := by
  induction items generalizing body with
  | nil => exact (List.append_nil body).symm
  | cons item items ih =>
      obtain ⟨hitem, hitems⟩ := List.forall_mem_cons.mp honeLine
      rw [List.foldl_cons]
      by_cases hempty : item = ""
      · subst hempty
        rw [String.toList_empty, appendItem_of_getLast?_eq (by rwa [List.append_nil]),
          List.append_nil, ih hbody hitems, List.filter_cons_of_neg (by simp)]
      · have hlast : (body ++ item.toList).getLast? ≠ some '\n' := by
          rw [List.getLast?_append_of_ne_nil body (mt String.toList_eq_nil_iff.mp hempty)]
          exact getLast?_ne_of_oneLine hitem
        rw [appendItem_of_getLast?_ne hlast, ih List.getLast?_concat hitems,
          List.filter_cons_of_pos (by simpa using hempty), Text.terminated_cons]
        simp only [String.toList_append, List.append_assoc]
        rfl

/-- The first item is listed even if it is empty, for there is no line feed before it. -/
theorem inputText_cons (hfirst : '\n' ∉ first.toList)
    (honeLine : ∀ item ∈ items, '\n' ∉ item.toList) :
    inputText (first :: items) = Text.terminated (first :: items.filter (· ≠ "")) := by
  have hstart : appendItem [] first.toList = first.toList ++ ['\n'] :=
    appendItem_of_getLast?_ne (getLast?_ne_of_oneLine hfirst)
  rw [inputText, List.foldl_cons, hstart, foldl_appendItem List.getLast?_concat honeLine,
    String.ofList_append, String.ofList_toList, String.ofList_append, String.ofList_toList,
    Text.terminated_cons]

/-- Items of one line are listed in full just when none is empty but the first, perhaps. -/
theorem inputText_eq_terminated_iff (honeLine : ∀ item ∈ items, '\n' ∉ item.toList) :
    inputText items = Text.terminated items ↔ ∀ item ∈ items.tail, item ≠ "" := by
  cases items with
  | nil => simp [inputText, Text.terminated_nil]
  | cons first items =>
      obtain ⟨hfirst, hitems⟩ := List.forall_mem_cons.mp honeLine
      have hfiltered : ∀ item ∈ first :: items.filter (· ≠ ""), '\n' ∉ item.toList :=
        List.forall_mem_cons.mpr ⟨hfirst, fun item hitem => hitems item (List.mem_filter.mp hitem).1⟩
      rw [inputText_cons hfirst hitems, Text.terminated_inj hfiltered honeLine, List.cons_inj_right,
        List.filter_eq_self]
      simp only [decide_eq_true_eq, List.tail_cons]

/-- An empty item is listed at the start and nowhere else. -/
example : inputText ["", "a", "", "b"] = "\na\nb\n" := by decide

end Invocation

/-! ## Hosts -/

namespace Systems

variable {t : Systems} {call : Call} {names : List String}

/-- The run of a tool that makes a call is given a file that lists names: each is there in its turn
    with a line feed behind it, and cut at the line feeds the file gives the names back. It is this run
    that is launched to reply to the call, whatever launches it. -/
structure Lists (t : Systems) (call : Call) (names : List String) : Prop where
  launches : ∀ {σ : Type} (runner : Runner σ) (s : σ), t.launches runner call s =
    if (t.invocation call).hasNul then [] else [t.invocation call]
  given : .inputFile ∈ (t.invocation call).arguments
  input : (t.invocation call).input = some (Text.terminated names)
  splitOn : ∀ text ∈ (t.invocation call).input,
    text.toList.splitOn '\n' = names.map String.toList ++ [[]]

theorem Lists.of_withInput {program : String} {arguments : List String}
    (hcall : t.invocation call = .withInput program arguments names)
    (hgiven : Invocation.placeholder ∈ arguments) (honeLine : ∀ name ∈ names, '\n' ∉ name.toList)
    (hnames : ∀ name ∈ names.tail, name ≠ "") : t.Lists call names := by
  have hinput : (t.invocation call).input = some (Text.terminated names) := by
    rw [hcall, ← (Invocation.inputText_eq_terminated_iff honeLine).mpr hnames]
    rfl
  refine ⟨fun runner s => t.launches_eq runner call s, ?_, hinput, ?_⟩
  · rw [hcall]
    exact List.mem_map.mpr ⟨_, hgiven, if_pos rfl⟩
  · rw [hinput]
    rintro text ⟨⟩
    exact Text.splitOn_terminated honeLine

/-- A call about hosts lists their names, in the order of the set and each on a line of its own, and
    one that renames them for a rollback lists the names that they have since migration. -/
theorem lists_hosts (t : Systems) {hosts : HostSet} (honeLine : ∀ h ∈ hosts, '\n' ∉ h.toList)
    (reason : String) :
    (∀ call ∈ [Call.queryStatus hosts, .lock hosts reason, .unlock hosts, .rename hosts .moved],
      t.Lists call hosts.toList) ∧
    t.Lists (.rename hosts .restored) (hosts.toList.map (· ++ movedSuffix)) := by
  constructor
  · have hlists : ∀ {call : Call} {program : String} {arguments : List String},
        t.invocation call = .withInput program arguments hosts.toList →
        Invocation.placeholder ∈ arguments → t.Lists call hosts.toList :=
      fun hcall hgiven => .of_withInput hcall hgiven honeLine fun h => HostSet.ne_empty_of_mem_tail
    simp only [List.forall_mem_cons]
    exact ⟨hlists rfl (by simp), hlists rfl (by simp), hlists rfl (by simp), hlists rfl (by simp),
      List.forall_mem_nil _⟩
  · -- no name with the suffix is empty, wherever it stands
    refine .of_withInput rfl (by simp) ?_ ?_
    · intro name hname
      obtain ⟨h, hh, rfl⟩ := List.mem_map.mp hname
      rw [String.toList_append, List.mem_append]
      exact not_or.mpr ⟨honeLine h hh, by decide⟩
    · intro name hname
      obtain ⟨h, -, rfl⟩ := List.mem_map.mp (List.mem_of_mem_tail hname)
      intro hempty
      exact absurd (String.append_eq_empty_iff.mp hempty).2 (by decide)

/-- The host without a name comes first and has an empty line. -/
theorem lists_hosts_nameless :
    (∀ h ∈ HostSet.ofList ["ü", "", "b"], '\n' ∉ h.toList) ∧
    (Systems.mk "legacy" "target").Lists (.unlock (.ofList ["ü", "", "b"])) ["", "b", "ü"] ∧
    (Systems.mk "legacy" "target").Lists (.rename (.ofList ["ü", "", "b"]) .restored)
      ["-migrated-do-not-use", "b-migrated-do-not-use", "ü-migrated-do-not-use"] := by
  have honeLine : ∀ h ∈ HostSet.ofList ["ü", "", "b"], '\n' ∉ h.toList := by decide
  have hlists := lists_hosts ⟨"legacy", "target"⟩ honeLine ""
  exact ⟨honeLine, hlists.1 (.unlock _) (by simp), hlists.2⟩

end Systems

end Tool

end Rehome
