import Mathlib.Data.List.Nodup
import Rehome.Cli.Program
import Rehome.Proofs.Planning
import Rehome.Proofs.Printed

/-!
# Records — documents that survive the disk

A record is printed as an object of its fields, each of them once, and so all of them are found
again (`record?_ofFields`). From there on each document is read field by field: sets of hosts are
listed in order, a stage is its name, and a step that is missing is null. So the text of a plan or a
summary is read as the same plan or summary, on one line or on many.

A pass that is given the summary that an earlier one wrote is therefore given just that summary, and
a plan file gives the plan it was made of (`documents_survive`).
-/

namespace Rehome

namespace Json

/-! ## Fields -/

variable {fields : List (String × Json)}

/-- The members of an object of fields. -/
theorem ofFields_eq (fields : List (String × Json)) :
    ofFields fields = .object (fields.map fun field => (some field.1, field.2)) := rfl

/-- A field is given as often as its name is among the names. -/
theorem count_ofFields (fields : List (String × Json)) (name : String) :
    count (fields.map fun field => (some field.1, field.2)) name =
      (fields.map Prod.fst).count name := by
  rw [count, List.count, List.countP_map, List.countP_map]
  refine List.countP_congr ?_
  intro field _
  simp

theorem lookup?_ofFields (hnodup : (fields.map Prod.fst).Nodup) {field : String × Json}
    (hfield : field ∈ fields) :
    lookup? (fields.map fun field => (some field.1, field.2)) field.1 = some field.2 := by
  induction fields with
  | nil => exact nomatch hfield
  | cons first fields ih =>
      obtain ⟨hfirst, hrest⟩ := List.nodup_cons.mp hnodup
      rcases List.mem_cons.mp hfield with rfl | hlater
      · simp [lookup?]
      · have hne : first.1 ≠ field.1 := by
          intro heq
          exact hfirst (heq ▸ List.mem_map_of_mem hlater)
        have hlookup := ih hrest hlater
        simpa [lookup?, hne] using hlookup

/-- Each field of a record is found again. -/
theorem record?_ofFields (hnodup : (fields.map Prod.fst).Nodup) :
    record? (fields.map Prod.fst) (ofFields fields) =
      some (fields.map fun field => some field.2) := by
  have hnames : (fields.map fun field => (some field.1, field.2)).all (·.1.isSome) = true := by
    simp
  have honce : (fields.map Prod.fst).all (fun name =>
      decide (count (fields.map fun field => (some field.1, field.2)) name ≤ 1)) = true := by
    refine List.all_eq_true.mpr ?_
    intro name _
    rw [count_ofFields]
    exact decide_eq_true (List.nodup_iff_count_le_one.mp hnodup name)
  rw [ofFields_eq, record?, hnames, honce, Bool.and_self, if_pos rfl, List.map_map]
  refine congrArg some (List.map_congr_left ?_)
  intro field hfield
  exact lookup?_ofFields hnodup hfield

/-- A set of hosts is listed in order, and read as the same set. -/
theorem hosts?_ofHosts (hosts : HostSet) : (ofHosts hosts.toList).hosts? = some hosts := by
  have hmap : ∀ names : List Host, (names.map ofString).mapM host? = some names := by
    intro names
    induction names with
    | nil => rfl
    | cons name names ih =>
        rw [List.map_cons, List.mapM_cons, ih]
        rfl
  rw [ofHosts, hosts?, hmap, Option.map_some, HostSet.ofList_toList]

/-! ## No numbers -/

theorem numberless_ofHosts (hosts : List Host) : (ofHosts hosts).Numberless := by
  show NumberlessItems (hosts.map ofString)
  induction hosts with
  | nil => exact trivial
  | cons host hosts ih => exact ⟨trivial, ih⟩

theorem numberless_ofFields (h : ∀ field ∈ fields, field.2.Numberless) :
    (ofFields fields).Numberless := by
  show NumberlessMembers (fields.map fun field => (some field.1, field.2))
  induction fields with
  | nil => exact trivial
  | cons field fields ih =>
      refine ⟨h field List.mem_cons_self, ih ?_⟩
      intro later hlater
      exact h later (List.mem_cons_of_mem field hlater)

end Json

/-! ## Documents -/

namespace Plan

theorem ofJson?_toJson (plan : Plan) : ofJson? plan.toJson = some plan := by
  have hrecord : plan.toJson.record? fieldNames = some
      [some (.ofHosts plan.transfer.toList), some (.ofHosts plan.retain.toList)] :=
    Json.record?_ofFields (show fieldNames.Nodup by decide)
  rw [ofJson?, hrecord]
  show (do return ⟨← (Json.ofHosts plan.transfer.toList).hosts?,
    ← (Json.ofHosts plan.retain.toList).hosts?⟩ : Option Plan) = some plan
  rw [Json.hosts?_ofHosts, Json.hosts?_ofHosts]
  rfl

theorem numberless_toJson (plan : Plan) : plan.toJson.Numberless := by
  refine Json.numberless_ofFields ?_
  intro field hfield
  rcases List.mem_cons.mp hfield with rfl | hfield
  · exact Json.numberless_ofHosts _
  · rw [List.mem_singleton.mp hfield]
    exact Json.numberless_ofHosts _

end Plan

namespace Stage

theorem ofJson?_toJson (stage : Stage) : ofJson? stage.toJson = some stage := ofName?_name stage

theorem ofOptional?_toJson (stage : Option Stage) :
    ofOptional? (some ((stage.map toJson).getD .null)) = some stage := by
  cases stage with
  | none => rfl
  | some stage =>
      show (ofJson? stage.toJson).map some = _
      rw [ofJson?_toJson]
      rfl

end Stage

namespace Duts

theorem ofJson?_toJson (duts : Duts) : ofJson? duts.toJson = some duts := by
  have hrecord : duts.toJson.record? fieldNames = some
      [some (.ofHosts duts.migrated.toList), some (.ofHosts duts.notLocked.toList),
        some (.ofHosts duts.needsAddToTarget.toList),
        some (.ofHosts duts.needsDroneAssignment.toList),
        some (.ofHosts duts.needsRename.toList)] :=
    Json.record?_ofFields (show fieldNames.Nodup by decide)
  rw [ofJson?, hrecord]
  simp [Json.hosts?_ofHosts]

theorem numberless_toJson (duts : Duts) : duts.toJson.Numberless := by
  refine Json.numberless_ofFields ?_
  intro field hfield
  have hvalue := List.of_mem_zip hfield
  obtain ⟨hosts, -, heq⟩ := List.mem_map.mp hvalue.2
  rw [← heq]
  exact Json.numberless_ofHosts _

end Duts

namespace Summary

theorem ofJson?_toJson (summary : Summary) : ofJson? summary.toJson = some summary := by
  have hrecord : summary.toJson.record? fieldNames = some
      [some (.bool summary.lockedSuccess),
        some ((summary.failedStep.map Stage.toJson).getD .null),
        some summary.plan.toJson, some summary.duts.toJson] :=
    Json.record?_ofFields (show fieldNames.Nodup by decide)
  rw [ofJson?, hrecord]
  simp [Json.bool?, Stage.ofOptional?_toJson, Plan.ofJson?_toJson, Duts.ofJson?_toJson]

theorem numberless_toJson (summary : Summary) : summary.toJson.Numberless := by
  refine Json.numberless_ofFields ?_
  simp only [List.forall_mem_cons, List.not_mem_nil, false_implies, implies_true, and_true]
  refine ⟨trivial, ?_, summary.plan.numberless_toJson, summary.duts.numberless_toJson⟩
  cases summary.failedStep <;> exact trivial

end Summary

/-! ## On the disk -/

namespace Json

variable {j : Json} {text : String}

/-- The texts that a document may be kept as: on one line or on many, and then with a line feed at
    the end or without. -/
def texts (j : Json) : List String := [j.compact, j.pretty, j.pretty ++ "\n"]

theorem read?_of_mem_texts (hj : j.Numberless) (htext : text ∈ j.texts) : read? text = some j := by
  have hnone : ∀ c ∈ ([] : List Char), Token.isBlank c = true := by
    intro c hc
    exact nomatch hc
  have hfeed : ∀ c ∈ ['\n'], Token.isBlank c = true := by
    intro c hc
    rw [List.mem_singleton.mp hc]
    rfl
  simp only [texts, List.mem_cons, List.not_mem_nil, or_false] at htext
  rcases htext with rfl | rfl | rfl
  · have h := read?_write Layout.isBlank_compact hj hnone
    rwa [List.append_nil] at h
  · have h := read?_write Layout.isBlank_pretty hj hnone
    rwa [List.append_nil] at h
  · have h := read?_write Layout.isBlank_pretty hj hfeed
    rwa [String.ofList_append] at h

end Json

theorem Summary.parse?_of_mem_texts {summary : Summary} {text : String}
    (htext : text ∈ summary.toJson.texts) : parse? text = some summary := by
  rw [parse?, Json.read?_of_mem_texts summary.numberless_toJson htext]
  exact summary.ofJson?_toJson

theorem Plan.parse?_of_mem_texts {plan : Plan} {text : String}
    (htext : text ∈ plan.toJson.texts) : parse? text = some plan := by
  rw [parse?, Json.read?_of_mem_texts plan.numberless_toJson htext]
  exact plan.ofJson?_toJson

namespace Cli

/-- In a directory, what was kept as bytes is read as the text again. -/
theorem Disk.read_ofFiles {path : String} (hlocal : isLocal path = true) (text : String)
    (files : List (String × ByteArray)) :
    (ofFiles ((path, text.toUTF8) :: files)).read path = .ok text := by
  have hutf8 : String.fromUTF8? text.toByteArray = some text := by
    rw [String.fromUTF8?, dif_pos text.isValidUTF8]
    rfl
  simp [ofFiles, List.find?_cons, hlocal, textOf, hutf8]

/-- A summary is read from any of its texts. What is written of it to the configured file is one of
    them, and wherever this is kept and given to a pass as the previous summary, the pass is given
    the same summary. Any text of a plan without overlaps makes a planner that gives this plan for
    its hosts. -/
theorem documents_survive :
    (∀ summary : Summary, (∀ text ∈ summary.toJson.texts, Summary.parse? text = some summary) ∧
      ∀ (config : Config) (disk : Disk) (path : String), config.summaryFile = some path →
        disk.canWrite path = true →
          ∃ text, (publish config disk summary.toJson).written = some (path, text) ∧
            ∀ (later : Disk) (kept : String), later.read kept = .ok text →
              loadPrevious later (some kept) = .ok (some summary)) ∧
    ∀ plan : Plan, plan.transfer ∩ plan.retain = ∅ → ∀ text ∈ plan.toJson.texts, ∀ path,
      ∃ planner, Planner.ofFile path (.ok text) = .ok planner ∧
        ∀ ratio, planner (plan.transfer ∪ plan.retain) ratio = .ok plan := by
  constructor
  · intro summary
    have hparse : ∀ text ∈ summary.toJson.texts, Summary.parse? text = some summary := by
      intro text htext
      exact Summary.parse?_of_mem_texts htext
    refine ⟨hparse, ?_⟩
    intro config disk path hpath hwrite
    refine ⟨summary.toJson.pretty ++ "\n", ?_, ?_⟩
    · simp only [publish, hpath, hwrite, if_true]
    · intro later kept hkept
      have hmem : summary.toJson.pretty ++ "\n" ∈ summary.toJson.texts := by
        simp [Json.texts]
      simp only [loadPrevious, hkept, hparse _ hmem]
  · intro plan hdisjoint text htext path
    refine ⟨Planner.fixed plan, ?_, ?_⟩
    · have hcheck : plan.check = .ok plan := by
        rw [Plan.check, Plan.overlap?, Planner.first?_eq_none_iff.mpr hdisjoint]
      simp only [Planner.ofFile, Plan.parse?_of_mem_texts htext, hcheck]
    · intro ratio
      exact Planner.fixed_eq_ok_iff.mpr (Plan.restrict_self hdisjoint)

/-- The summary of a pass that got stuck, of hosts whose names need care in a text. -/
def oddSummary : Summary where
  lockedSuccess := true
  failedStep := some .rename
  plan := ⟨.ofList ["", "a\"b", "c\\d"], .ofList ["\x00\x1f", "😀"]⟩
  duts := { migrated := .ofList ["", "c\\d"], needsRename := .ofList ["a\"b"] }

/-- A configuration that keeps the summary in a file. -/
def keeping : Config where
  legacyToolPath := "atest"
  targetToolPath := "skylab"
  hostnamesFile := "hosts"
  planFile := none
  previousSummaryFile := none
  summaryFile := some "summary.json"
  mode := "migrate"
  migrationRatio := .ofNat 1
  migrationReason := some "move"
  migrateImmediately := true
  maxDuration := .ofMillis 1000
  pollInterval := .ofMillis 10
  minReadyIntervals := 1
  planSeed := some 7
  rollbackBug := none
  dryRun := false
  retryMaxAttempts := 1
  retryBackoffCoefficient := 2
  retryInitialInterval := .ofMillis 10
  retryMaximumInterval := .ofMillis 100

/-- What a pass with odd names writes to an empty directory, the next one is given. -/
theorem documents_survive_odd_names :
    keeping.summaryFile = some "summary.json" ∧ (Disk.ofFiles []).canWrite "summary.json" = true ∧
      (∃ text,
        (publish keeping (.ofFiles []) oddSummary.toJson).written = some ("summary.json", text) ∧
          loadPrevious (.ofFiles [("summary.json", text.toUTF8)]) (some "summary.json") =
            .ok (some oddSummary)) ∧
      oddSummary.plan.transfer ∩ oddSummary.plan.retain = ∅ ∧
      ∃ planner, Planner.ofFile "plan.json" (.ok oddSummary.plan.toJson.compact) = .ok planner ∧
        planner (oddSummary.plan.transfer ∪ oddSummary.plan.retain) (.ofNat 1) =
          .ok oddSummary.plan := by
  have hwrite : (Disk.ofFiles []).canWrite "summary.json" = true := by decide +kernel
  have hdisjoint : oddSummary.plan.transfer ∩ oddSummary.plan.retain = ∅ := by decide +kernel
  obtain ⟨hsummary, hplan⟩ := documents_survive
  obtain ⟨-, hkept⟩ := hsummary oddSummary
  obtain ⟨text, hwritten, hgiven⟩ := hkept keeping (.ofFiles []) "summary.json" rfl hwrite
  have hcompact : oddSummary.plan.toJson.compact ∈ oddSummary.plan.toJson.texts := by
    simp [Json.texts]
  obtain ⟨planner, hplanner, hgives⟩ := hplan oddSummary.plan hdisjoint _ hcompact "plan.json"
  refine ⟨rfl, hwrite, ⟨text, hwritten, ?_⟩, hdisjoint, planner, hplanner, hgives _⟩
  exact hgiven _ _ (Disk.read_ofFiles (by decide +kernel) text [])

end Cli

end Rehome
