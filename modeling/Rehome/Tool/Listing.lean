import Rehome.Fleet.Call
import Rehome.Text.Lowercase
import Rehome.Text.Split

/-!
# Listings — what the legacy tool prints about hosts

A host is described on one line, by fields `key=value` with bars between them. The labels, which
may be anything, come last and are left out. Three values stand for a truth value or nothing, all
others for themselves. Lines without a bar describe no host.

Renamed hosts are listed as `name to name`, one a line, and unlocked hosts one a line under a
heading.
-/

namespace Rehome.Tool

/-- The value of a field. -/
inductive Field where
  | bool (value : Bool)
  | null
  | text (value : String)
  deriving DecidableEq

/-- The fields that describe a host, in the order they are printed. -/
abbrev Record := List (String × Field)

/-- The value that a field's text stands for. -/
def Field.ofText (value : String) : Field :=
  if value = "True" then .bool true
  else if value = "False" then .bool false
  else if value = "None" then .null
  else .text value

/-- The value of a key. Of several fields with one key the last counts. -/
def Record.get? (record : Record) (key : String) : Option Field := record.reverse.lookup key

/-! ## Status rows -/

/-- A field: the key before the first equals sign and the value after it. -/
def fieldOf (cs : List Char) : String × Field :=
  let value :=
    match cs.dropWhile (· ≠ '=') with
    | _ :: value => value
    | [] => []
  (String.ofList (cs.takeWhile (· ≠ '=')), .ofText (String.ofList value))

/-- The start of the field that is left out at the end of a line. -/
def labelsStart : List Char := "Labels=".toList

/-- Without the last field, if that is the labels. -/
def dropLabels (fields : List (List Char)) : List (List Char) :=
  match fields.getLast? with
  | some last => if labelsStart.isPrefixOf last then fields.dropLast else fields
  | none => fields

/-- The record on a line, if it describes a host. -/
def recordOf? (line : String) : Option Record :=
  let fields := Text.splitWhere (· == '|') (Text.dropFinalBlanks line.toList)
  if fields.length < 2 then none else some ((dropLabels fields).map fieldOf)

/-- The records in a listing. -/
def records (lines : List String) : List Record := lines.filterMap recordOf?

/-- Whether a host of this status is in the middle of a task. -/
def isBusyStatus (status : String) : Bool := status == "Running" || status == "Provisioning"

/-- The status of the host that a record describes, if it names one. -/
def statusOf? (record : Record) : Option StatusRow :=
  match record.get? "Host" with
  | some (.text host) =>
    some {
      host
      locked := record.get? "Locked" == some (.bool true)
      busy :=
        match record.get? "Status" with
        | some (.text status) => isBusyStatus status
        | _ => false }
  | _ => none

/-- The statuses in a listing. -/
def statuses (lines : List String) : List StatusRow := (records lines).filterMap statusOf?

/-! ## Renamed and unlocked hosts -/

/-- The host on a line about a renaming: for migration the old name, for rollback the new one. -/
def renamedOf? (direction : Marking) (line : String) : Option Host :=
  match Text.words line with
  | [old, "to", new] =>
    match direction with
    | .moved => some old
    | .restored => some new
  | _ => none

/-- The hosts in a listing of renamings. -/
def renamed (direction : Marking) (lines : List String) : List Host :=
  lines.filterMap (renamedOf? direction)

/-- The start of the heading over unlocked hosts. -/
def unlockedHeading : List Char := "unlocked host".toList

/-- The host on a line about unlocking, unless that is blank or a heading. -/
def unlockedOf? (line : String) : Option Host :=
  let name := Text.trim line
  if name = "" ∨ unlockedHeading.isPrefixOf (Text.lowercase name.toList) then none else some name

/-- The hosts in a listing of unlocked hosts. -/
def unlocked (lines : List String) : List Host := lines.filterMap unlockedOf?

end Rehome.Tool
