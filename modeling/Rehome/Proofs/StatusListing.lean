import Rehome.Proofs.Printouts
import Mathlib.Data.List.Basic

/-!
# Status listings — hosts are read as they are shown

A host is shown on one line, by its name, its status and its lock, by any further fields, and by its
labels, which come last (`ShownHost`). The line is read to the record of its fields but the labels
(`recordOf?_line`), and that to the status of the host (`statusOf?_record`), whatever equals signs,
blanks or words of the format its texts hold: only bars and line feeds would tear a text apart, and only a
name that stands for something else would not be taken for one. The main result, `reads_statuses`, says
that a listing, whatever else it has between its hosts, gives the statuses of all of them in order, and a
query those that were asked for.
-/

namespace Rehome

namespace Tool

/-! ## How hosts are shown -/

/-- A text in which no field and no line ends. -/
def Plain (text : String) : Prop := '|' ∉ text.toList ∧ '\n' ∉ text.toList

instance (text : String) : Decidable (Plain text) := inferInstanceAs (Decidable (_ ∧ _))

/-- A field as it is shown. -/
def shownField (key value : String) : String := key ++ "=" ++ value

/-- A host as a listing shows it. -/
structure ShownHost where
  name : Host
  status : String
  locked : Bool
  /-- The keys and values of further fields. -/
  others : List (String × String)
  labels : String
  /-- Such a value would stand for something else. -/
  notReserved : name ∉ ["True", "False", "None"]
  ownKeys : ∀ field ∈ others, '=' ∉ field.1.toList ∧ field.1 ∉ ["Host", "Status", "Locked"]
  plain : Plain name ∧ Plain status ∧ Plain labels
  plainOthers : ∀ field ∈ others, Plain field.1 ∧ Plain field.2

namespace ShownHost

/-- The fields before the labels, by key and value. -/
def fields (h : ShownHost) : List (String × String) :=
  ("Host", h.name) :: ("Status", h.status) :: ("Locked", if h.locked then "True" else "False") ::
    h.others

/-- The line that shows a host. -/
def line (h : ShownHost) : String :=
  String.intercalate "|"
    ((h.fields ++ [("Labels", h.labels)]).map fun field => shownField field.1 field.2)

/-- What is read off the line. -/
def record (h : ShownHost) : Record := h.fields.map fun field => (field.1, .ofText field.2)

/-- The status of the host. -/
def row (h : ShownHost) : StatusRow where
  host := h.name
  locked := h.locked
  busy := decide (h.status = "Running" ∨ h.status = "Provisioning")

variable {h : ShownHost}

/-- What holds of the three fields that every host has and of all further ones holds of the fields before
    the labels. -/
theorem forall_fields {p : String → String → Prop} (hname : p "Host" h.name)
    (hstatus : p "Status" h.status)
    (hlocked : ∀ locked : Bool, p "Locked" (if locked then "True" else "False"))
    (hothers : ∀ field ∈ h.others, p field.1 field.2) : ∀ field ∈ h.fields, p field.1 field.2 := by
  intro field hfield
  rcases List.mem_cons.mp hfield with rfl | hfield
  · exact hname
  rcases List.mem_cons.mp hfield with rfl | hfield
  · exact hstatus
  rcases List.mem_cons.mp hfield with rfl | hfield
  · exact hlocked h.locked
  · exact hothers field hfield

theorem noEquals_key : ∀ field ∈ h.fields, '=' ∉ field.1.toList :=
  forall_fields (p := fun key _ => '=' ∉ key.toList) (by decide) (by decide) (fun _ => by decide)
    fun field hfield => (h.ownKeys field hfield).1

end ShownHost

theorem toList_shownField (key value : String) :
    (shownField key value).toList = key.toList ++ '=' :: value.toList := by
  rw [shownField, String.toList_append, String.toList_append, List.append_assoc]
  rfl

theorem Plain.shownField {key value : String} (hkey : Plain key) (hvalue : Plain value) :
    Plain (shownField key value) := by
  simp only [Plain, toList_shownField, List.mem_append, List.mem_cons, not_or]
  exact ⟨⟨hkey.1, by decide, hvalue.1⟩, hkey.2, by decide, hvalue.2⟩

theorem ShownHost.plain_fields {h : ShownHost} :
    ∀ field ∈ h.fields, Plain (shownField field.1 field.2) := by
  refine forall_fields (p := fun key value => Plain (Tool.shownField key value)) ?_ ?_ ?_ ?_
  · exact .shownField (by decide) h.plain.1
  · exact .shownField (by decide) h.plain.2.1
  · intro locked
    exact .shownField (by decide) (by cases locked <;> decide)
  · intro field hother
    exact .shownField (h.plainOthers field hother).1 (h.plainOthers field hother).2

/-! ## Reading a line -/

/-- A field is read as it is shown, if its key does not end before. -/
theorem fieldOf_shownField {key : String} (hkey : '=' ∉ key.toList) (value : String) :
    fieldOf (shownField key value).toList = (key, .ofText value) := by
  have hall : ∀ c ∈ key.toList, decide (c ≠ '=') = true := by
    intro c hc
    exact decide_eq_true fun heq => hkey (heq ▸ hc)
  rw [fieldOf, toList_shownField, List.takeWhile_append_of_pos hall, List.dropWhile_append_of_pos hall,
    List.takeWhile_cons_of_neg (by decide), List.dropWhile_cons_of_neg (by decide), List.append_nil,
    String.ofList_toList, String.ofList_toList]

/-- The labels are left out, whatever they are. -/
theorem dropLabels_concat (fields : List (List Char)) (labels : List Char) :
    dropLabels (fields ++ ["Labels".toList ++ '=' :: labels]) = fields := by
  have hprefix : labelsStart.isPrefixOf ("Labels".toList ++ '=' :: labels) = true :=
    List.isPrefixOf_iff_prefix.mpr ⟨labels, rfl⟩
  rw [dropLabels, List.getLast?_concat, List.dropLast_concat]
  exact if_pos hprefix

/-- Blanks at the end of a line are found in its last field, if that is not all blank. -/
theorem dropFinalBlanks_intercalate {c : Char} (h : Text.isBlank c = false)
    (fields : List (List Char)) (xs ys : List Char) :
    Text.dropFinalBlanks (['|'].intercalate (fields ++ [xs ++ c :: ys])) =
      ['|'].intercalate (fields ++ [xs ++ c :: Text.dropFinalBlanks ys]) := by
  induction fields with
  | nil =>
      rw [List.nil_append, List.nil_append, List.intercalate_singleton, List.intercalate_singleton,
        Text.dropFinalBlanks_append h]
  | cons field fields ih =>
      have hne : ∀ last, fields ++ [last] ≠ [] := fun last => List.concat_ne_nil last fields
      rw [List.cons_append, List.cons_append, List.intercalate_cons_of_ne_nil (hne _),
        List.intercalate_cons_of_ne_nil (hne _), List.append_assoc, List.append_assoc,
        List.singleton_append, Text.dropFinalBlanks_append (by decide), ih]
      rfl

/-- The fields before the labels, each as it is shown. -/
def ShownHost.shown (h : ShownHost) : List (List Char) :=
  h.fields.map fun field => (shownField field.1 field.2).toList

/-- A line that shows a host is cut into its fields again, but for blanks after the labels. -/
theorem split_line (h : ShownHost) :
    Text.splitWhere (· == '|') (Text.dropFinalBlanks h.line.toList) =
      h.shown ++ ["Labels".toList ++ '=' :: Text.dropFinalBlanks h.labels.toList] := by
  have hline : h.line.toList =
      ['|'].intercalate (h.shown ++ ["Labels".toList ++ '=' :: h.labels.toList]) := by
    rw [ShownHost.line, String.toList_intercalate, List.map_map, List.map_append, ← toList_shownField]
    rfl
  have hplain : ∀ field ∈ h.shown ++ ["Labels".toList ++ '=' :: Text.dropFinalBlanks h.labels.toList],
      '|' ∉ field := by
    intro field hfield
    rcases List.mem_append.mp hfield with hbefore | hlabels
    · obtain ⟨parts, hparts, rfl⟩ := List.mem_map.mp hbefore
      exact (h.plain_fields parts hparts).1
    · rw [List.mem_singleton.mp hlabels, List.mem_append, List.mem_cons, not_or, not_or]
      exact ⟨by decide, by decide, fun hbar => h.plain.2.2.1 (Text.mem_of_mem_dropFinalBlanks hbar)⟩
  -- the equals sign of the labels keeps the blanks that are dropped from reaching other fields
  rw [hline, dropFinalBlanks_intercalate (by decide), Text.splitWhere_char,
    List.splitOn_intercalate _ hplain (List.concat_ne_nil _ _)]

theorem recordOf?_line (h : ShownHost) : recordOf? h.line = some h.record := by
  have hlength : ¬ (h.shown ++
      ["Labels".toList ++ '=' :: Text.dropFinalBlanks h.labels.toList]).length < 2 := by
    simp [ShownHost.shown, ShownHost.fields]
  rw [recordOf?, split_line, if_neg hlength, dropLabels_concat, ShownHost.shown, List.map_map,
    ShownHost.record]
  refine congrArg some (List.map_congr_left ?_)
  intro field hfield
  exact fieldOf_shownField (h.noEquals_key field hfield) field.2

/-! ## The status on a record -/

theorem Field.ofText_of_notReserved {value : String} (h : value ∉ ["True", "False", "None"]) :
    ofText value = .text value := by
  simp only [List.mem_cons, List.not_mem_nil, or_false, not_or] at h
  rw [ofText, if_neg h.1, if_neg h.2.1, if_neg h.2.2]

/-- Further fields do not hide the three that every host has. -/
theorem ShownHost.get?_record {h : ShownHost} {key : String} (hkey : key ∈ ["Host", "Status", "Locked"]) :
    h.record.get? key = List.lookup key [("Locked", .ofText (if h.locked then "True" else "False")),
      ("Status", .ofText h.status), ("Host", .ofText h.name)] := by
  have hothers : (h.others.map fun field => (field.1, Field.ofText field.2)).reverse.lookup key = none := by
    rw [List.lookup_eq_none_iff]
    intro shown hshown
    obtain ⟨field, hfield, rfl⟩ := List.mem_map.mp (List.mem_reverse.mp hshown)
    exact bne_iff_ne.mpr fun heq => (h.ownKeys field hfield).2 (heq ▸ hkey)
  have hreverse : h.record.reverse = (h.others.map fun field => (field.1, Field.ofText field.2)).reverse ++
      [("Locked", .ofText (if h.locked then "True" else "False")), ("Status", .ofText h.status),
        ("Host", .ofText h.name)] := by
    simp [record, fields]
  rw [Record.get?, hreverse, List.lookup_append, hothers, Option.none_or]

theorem busy_of_status (status : String) :
    (match some (Field.ofText status) with
      | some (.text status) => isBusyStatus status
      | _ => false) = decide (status = "Running" ∨ status = "Provisioning") := by
  -- a status that is read as something else is none of the two
  by_cases hreserved : status ∈ ["True", "False", "None"]
  · simp only [List.mem_cons, List.not_mem_nil, or_false] at hreserved
    rcases hreserved with rfl | rfl | rfl <;> decide
  · rw [Field.ofText_of_notReserved hreserved, Bool.decide_or]
    rfl

theorem statusOf?_record (h : ShownHost) : statusOf? h.record = some h.row := by
  have hname : h.record.get? "Host" = some (.text h.name) := by
    rw [ShownHost.get?_record (by decide), Field.ofText_of_notReserved h.notReserved]
    rfl
  have hstatus : h.record.get? "Status" = some (.ofText h.status) := by
    rw [ShownHost.get?_record (by decide)]
    rfl
  have hlocked : h.record.get? "Locked" = some (.bool h.locked) := by
    have hvalue : Field.ofText (if h.locked then "True" else "False") = .bool h.locked := by
      cases h.locked <;> decide
    rw [ShownHost.get?_record (by decide), hvalue]
    rfl
  have htrue : (some (Field.bool h.locked) == some (.bool true)) = h.locked := by
    cases h.locked <;> decide
  rw [statusOf?, hname, hstatus, hlocked, htrue]
  exact congrArg (fun busy => some (StatusRow.mk h.name h.locked busy)) (busy_of_status h.status)

/-! ## Listings -/

theorem notMem_intercalate {c : Char} {sep : List Char} (hsep : c ∉ sep) {parts : List (List Char)}
    (hparts : ∀ part ∈ parts, c ∉ part) : c ∉ sep.intercalate parts := by
  induction parts with
  | nil => exact List.not_mem_nil
  | cons part parts ih =>
      cases parts with
      | nil =>
          rw [List.intercalate_singleton]
          exact hparts part (.head _)
      | cons next parts =>
          rw [List.intercalate_cons_cons, List.mem_append, List.mem_append, not_or, not_or]
          exact ⟨⟨hparts part (.head _), hsep⟩, ih fun part hpart => hparts part (.tail _ hpart)⟩

theorem linewise_recordOf? : Text.Linewise recordOf? where
  read_empty := by decide
  read_return line := by
    have htrim : Text.dropFinalBlanks (line ++ "\r").toList = Text.dropFinalBlanks line.toList := by
      rw [String.toList_append]
      exact Text.dropFinalBlanks_concat Text.isBlank_return line.toList
    rw [recordOf?, htrim, recordOf?]

/-- A line of a listing: of a host, or one that is blank or has no bar. -/
inductive ListingLine where
  | host (shown : ShownHost)
  | other (text : String) (oneLine : '\n' ∉ text.toList)
      (noHost : Text.isBlankText text = true ∨ '|' ∉ text.toList)

namespace ListingLine

/-- The line itself. -/
def text : ListingLine → String
  | host shown => shown.line
  | other text _ _ => text

/-- The status of the host that is shown. -/
def row? : ListingLine → Option StatusRow
  | host shown => some shown.row
  | other _ _ _ => none

theorem oneLine (line : ListingLine) : '\n' ∉ line.text.toList := by
  cases line with
  | other text honeLine hnoHost => exact honeLine
  | host shown =>
      rw [ListingLine.text, ShownHost.line, String.toList_intercalate, List.map_map]
      refine notMem_intercalate (by decide) ?_
      intro part hpart
      obtain ⟨field, hfield, rfl⟩ := List.mem_map.mp hpart
      rcases List.mem_append.mp hfield with hbefore | hlabels
      · exact (shown.plain_fields field hbefore).2
      · have hshown : Plain (shownField "Labels" shown.labels) :=
          .shownField (by decide) shown.plain.2.2
        rw [List.mem_singleton.mp hlabels]
        exact hshown.2

theorem recordOf?_text (line : ListingLine) : (recordOf? line.text).bind statusOf? = line.row? := by
  cases line with
  | host shown =>
      rw [text, recordOf?_line, Option.bind_some, statusOf?_record, row?]
  | other text honeLine hnoHost =>
      have hbar : '|' ∉ text.toList := by
        rcases hnoHost with hblank | hbar
        · intro hbar
          exact absurd (List.all_eq_true.mp hblank '|' hbar) (by decide)
        · exact hbar
      have hpart : Text.splitWhere (· == '|') (Text.dropFinalBlanks text.toList) =
          [Text.dropFinalBlanks text.toList] := by
        rw [Text.splitWhere_char, List.splitOn_eq_singleton fun h => hbar (Text.mem_of_mem_dropFinalBlanks h)]
      rw [ListingLine.text, recordOf?, hpart]
      rfl

end ListingLine

/-- The statuses of the hosts that a listing shows. -/
def shownRows (listing : List ListingLine) : List StatusRow := listing.filterMap ListingLine.row?

theorem statuses_text (listing : List ListingLine) :
    statuses (listing.map ListingLine.text) = shownRows listing := by
  rw [statuses, records, List.filterMap_filterMap, List.filterMap_map]
  exact List.filterMap_congr fun line _ => line.recordOf?_text

/-- The hosts of a listing are read faithfully: its lines give the status of each host that they show, in
    order, with the name and the lock that are shown, and busy if the status is one of the two that say
    so. A query gives those of them that it asked for. -/
theorem reads_statuses (listing : List ListingLine) :
    statuses (listing.map ListingLine.text) = shownRows listing ∧
    ∀ {σ : Type} (t : Systems) (runner : Runner σ) (hosts : HostSet) (s : σ),
      t.Prints runner (.queryStatus hosts) s (listing.map ListingLine.text) →
      (t.reply runner (.queryStatus hosts) s).1 =
        .ok ((shownRows listing).filter fun row => decide (row.host ∈ hosts)) := by
  refine ⟨statuses_text listing, ?_⟩
  intro σ t runner hosts s hprints
  obtain ⟨o, hanswer, hread⟩ := hprints.read fun line _ => line.oneLine
  have hstatuses : statuses o.stdout = shownRows listing := by
    rw [statuses, records, List.filterMap_filterMap]
    exact hread (linewise_recordOf?.bind statusOf?) fun line _ => line.recordOf?_text
  rw [hanswer, Systems.answer, hstatuses]

/-- A host with an equals sign in its name, one with a blank behind a reserved word, and between them
    lines that show none. -/
def oddListing : List ListingLine :=
  [.other "" (by decide) (by decide),
    .host {
      name := "a=b", status := "Running", locked := true,
      others := [("Locked by", "None"), ("", "x=y ")], labels := "board:x \t"
      notReserved := by decide, ownKeys := by decide, plain := by decide, plainOthers := by decide },
    .other "2 hosts, 1 busy\r" (by decide) (by decide),
    .host {
      name := "None ", status := "True", locked := false, others := [], labels := " "
      notReserved := by decide, ownKeys := by decide, plain := by decide, plainOthers := by decide },
    .other " \t" (by decide) (by decide)]

/-- Of the two hosts of the odd listing the one that was asked for is in the answer. -/
theorem reads_statuses_odd :
    Systems.Prints ⟨"atest", "skylab"⟩ (Rehearsal.runner ["atest"])
      (.queryStatus (.ofList ["a=b", "c"])) (.printing (oddListing.map ListingLine.text))
      (oddListing.map ListingLine.text) ∧
    (Systems.reply ⟨"atest", "skylab"⟩ (Rehearsal.runner ["atest"])
      (.queryStatus (.ofList ["a=b", "c"])) (.printing (oddListing.map ListingLine.text))).1 =
        .ok [⟨"a=b", true, true⟩] := by
  have hprints : Systems.Prints ⟨"atest", "skylab"⟩ (Rehearsal.runner ["atest"])
      (.queryStatus (.ofList ["a=b", "c"])) (.printing (oddListing.map ListingLine.text))
      (oddListing.map ListingLine.text) :=
    Rehearsal.prints_printing (by decide) (by decide +kernel) _
  have hasked : (shownRows oddListing).filter (fun row => decide (row.host ∈ HostSet.ofList ["a=b", "c"])) =
      [⟨"a=b", true, true⟩] := by
    decide +kernel
  refine ⟨hprints, ?_⟩
  rw [← hasked]
  exact (reads_statuses oddListing).2 _ _ _ _ hprints

end Tool

end Rehome
