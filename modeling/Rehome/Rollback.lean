import Rehome.Documents
import Rehome.Fleet.Run

/-!
# Rollback — hosts back where they were

Hosts are taken back in batches of consecutive ones: out of the target system, then under their
old names, then unlocked. The report lists the batches, the hosts that got their names back and
those that were not unlocked. A dry run only lists the batches.
-/

namespace Rehome

/-- What a rollback did. -/
structure Rollback.Report where
  batches : List (List Host)
  /-- The hosts that were renamed. -/
  restored : HostSet := ∅
  /-- The hosts that were not unlocked. -/
  stillLocked : HostSet := ∅
  deriving DecidableEq

namespace Rollback.Report

/-- A report as JSON. -/
def toJson (report : Rollback.Report) : Json :=
  .ofFields [
    ("batches", .array (report.batches.map .ofHosts)),
    ("restored", .ofHosts report.restored.toList),
    ("still_locked", .ofHosts report.stillLocked.toList)]

end Rollback.Report

namespace Rollback

variable {σ : Type} {fleet : Fleet σ}

/-- The size of a batch if none is asked for. -/
def defaultBatchSize : Nat := 200

/-- The bug that removals are for if none is given. -/
def defaultBug : String := "b/7"

/-- Cut a list into parts of `size + 1` items, the last one shorter if need be. -/
def chunks {α : Type} (size : Nat) (items : List α) : List (List α) :=
  match items with
  | [] => []
  | item :: items => (item :: items.take size) :: chunks size (items.drop size)
termination_by items.length
decreasing_by
  simp only [List.length_drop, List.length_cons]
  omega

/-- The batches of hosts. A size of zero counts as one. -/
def batches (size : Nat) (hosts : HostSet) : List (List Host) := chunks (size - 1) hosts.toList

/-- Take the batches back one by one. -/
def eachBatch (bug : String) : List (List Host) → Run fleet (HostSet × HostSet)
  | [] => return (∅, ∅)
  | batch :: batches => do
    let hosts := HostSet.ofList batch
    let _ ← Run.call (.remove hosts bug)
    let renamed ← Run.call (.rename hosts .restored)
    let unlocked ← Run.call (.unlock hosts)
    let (restored, stillLocked) ← eachBatch bug batches
    return (.ofList renamed ∪ restored, (hosts \ .ofList unlocked) ∪ stillLocked)

/-- Take hosts back. -/
def run (bug : String) (batchSize : Nat) (hosts : HostSet) (dryRun : Bool) :
    Run fleet Rollback.Report :=
  let parts := batches batchSize hosts
  if dryRun then return { batches := parts }
  else do
    let (restored, stillLocked) ← eachBatch bug parts
    return { batches := parts, restored, stillLocked }

end Rollback

end Rehome
