import Rehome.Json.Reader
import Rehome.Summary

/-!
# Documents — plans and summaries on disk

Plans, summaries and rollback reports are kept as JSON. A record is an object with its fields in
any order, or an array of all its fields in order. In an object, names that are no field are
passed over with their values; every name has to be a text, and no field may be given twice.
-/

namespace Rehome

namespace Json

/-- How often a name is given in an object. -/
def count (members : List (Option String × Json)) (name : String) : Nat :=
  members.countP fun (n, _) => decide (n = some name)

/-- The value given for a name. -/
def lookup? (members : List (Option String × Json)) (name : String) : Option Json :=
  (members.find? fun (n, _) => decide (n = some name)).map (·.2)

/-- The fields of a record, missing ones as none. -/
def record? (names : List String) : Json → Option (List (Option Json))
  | .array items => if items.length = names.length then some (items.map some) else none
  | .object members =>
    if members.all (·.1.isSome) && names.all (fun name => decide (count members name ≤ 1)) then
      some (names.map (lookup? members))
    else none
  | _ => none

/-- A list of hosts. -/
def ofHosts (hosts : List Host) : Json := .array (hosts.map ofString)

/-- A host. -/
def host? : Json → Option Host
  | .string text => text
  | _ => none

/-- A set of hosts, which may be listed in any order and repeated. -/
def hosts? : Json → Option HostSet
  | .array items => (items.mapM host?).map HostSet.ofList
  | _ => none

/-- A truth value. -/
def bool? : Json → Option Bool
  | .bool b => some b
  | _ => none

end Json

namespace Plan

/-- The names of the fields. -/
def fieldNames : List String := ["transfer", "retain"]

/-- A plan as JSON. -/
def toJson (plan : Plan) : Json :=
  .ofFields [("transfer", .ofHosts plan.transfer.toList), ("retain", .ofHosts plan.retain.toList)]

/-- Read a plan, whose groups may overlap. -/
def ofJson? (j : Json) : Option Plan := do
  match ← j.record? fieldNames with
  | [some transfer, some retain] => return ⟨← transfer.hosts?, ← retain.hosts?⟩
  | _ => none

/-- Read the text of a plan. -/
def parse? (text : String) : Option Plan := (Json.read? text).bind ofJson?

end Plan

namespace Stage

/-- A stage as JSON: its name. -/
def toJson (stage : Stage) : Json := .ofString stage.name

/-- Read a stage: its name, or an object with its name and null. -/
def ofJson? : Json → Option Stage
  | .string (some name) => ofName? name
  | .object [(some name, .null)] => ofName? name
  | _ => none

/-- Read a stage that may be missing or null. -/
def ofOptional? : Option Json → Option (Option Stage)
  | none => some none
  | some .null => some none
  | some j => (ofJson? j).map some

end Stage

namespace Duts

/-- The names of the fields. -/
def fieldNames : List String :=
  ["migrated", "not_locked", "needs_add_to_target", "needs_drone_assignment", "needs_rename"]

/-- The categories as JSON. -/
def toJson (duts : Duts) : Json :=
  .ofFields (fieldNames.zip (duts.categories.map fun hosts => .ofHosts hosts.toList))

/-- Read the categories. -/
def ofJson? (j : Json) : Option Duts := do
  match ← j.record? fieldNames with
  | [some migrated, some notLocked, some needsAdd, some needsDrone, some needsRename] =>
    return {
      migrated := ← migrated.hosts?
      notLocked := ← notLocked.hosts?
      needsAddToTarget := ← needsAdd.hosts?
      needsDroneAssignment := ← needsDrone.hosts?
      needsRename := ← needsRename.hosts? }
  | _ => none

end Duts

namespace Summary

/-- The names of the fields. -/
def fieldNames : List String := ["locked_success", "failed_step", "plan", "duts"]

/-- A summary as JSON. -/
def toJson (s : Summary) : Json :=
  .ofFields [
    ("locked_success", .bool s.lockedSuccess),
    ("failed_step", (s.failedStep.map Stage.toJson).getD .null),
    ("plan", s.plan.toJson),
    ("duts", s.duts.toJson)]

/-- Read a summary. The failed step may be missing. -/
def ofJson? (j : Json) : Option Summary := do
  match ← j.record? fieldNames with
  | [some locked, failedStep, some plan, some duts] =>
    return {
      lockedSuccess := ← locked.bool?
      failedStep := ← Stage.ofOptional? failedStep
      plan := ← Plan.ofJson? plan
      duts := ← Duts.ofJson? duts }
  | _ => none

/-- Read the text of a summary. -/
def parse? (text : String) : Option Summary := (Json.read? text).bind ofJson?

end Summary

end Rehome
