import Rehome.Plan

/-!
# Summaries — where every host of a pass ended up

A host of the transfer group has been moved, or it is stuck at one of four stages. A summary holds
the plan of a pass and those five categories. It is consistent when each host of the transfer
group is in just one category and no other host is in any; `Summary.violations` lists what is
wrong with one that is not.
-/

namespace Rehome

/-- The stages a host goes through, in order. -/
inductive Stage where
  | lock
  | addToTarget
  | droneAssignment
  | rename
  deriving DecidableEq

namespace Stage

/-- The name of a stage. -/
def name : Stage → String
  | .lock => "lock"
  | .addToTarget => "add_to_target"
  | .droneAssignment => "drone_assignment"
  | .rename => "rename"

/-- The stages, the earliest first. -/
def all : List Stage := [.lock, .addToTarget, .droneAssignment, .rename]

/-- The stage of a name. -/
def ofName? (name : String) : Option Stage := all.find? (·.name = name)

theorem ofName?_name (s : Stage) : ofName? s.name = some s := by
  cases s <;> decide

end Stage

/-- The hosts of a transfer group by where they ended up. -/
structure Duts where
  migrated : HostSet := ∅
  notLocked : HostSet := ∅
  needsAddToTarget : HostSet := ∅
  needsDroneAssignment : HostSet := ∅
  needsRename : HostSet := ∅
  deriving DecidableEq

namespace Duts

instance : Inhabited Duts := ⟨{}⟩

/-- The hosts stuck at a stage. -/
def stuckAt (duts : Duts) : Stage → HostSet
  | .lock => duts.notLocked
  | .addToTarget => duts.needsAddToTarget
  | .droneAssignment => duts.needsDroneAssignment
  | .rename => duts.needsRename

/-- The five categories. -/
def categories (duts : Duts) : List HostSet := duts.migrated :: Stage.all.map duts.stuckAt

/-- The earliest stage with hosts stuck at it. -/
def failedStep (duts : Duts) : Option Stage := Stage.all.find? fun s => !(duts.stuckAt s).isEmpty

/-- The hosts of all categories. -/
def allHosts (duts : Duts) : HostSet := .unions duts.categories

/-- Whether no host is in two categories. -/
def disjoint (duts : Duts) : Bool := HostSet.pairwiseDisjoint duts.categories

/-- The hosts stuck after locking: those that another relocation may help. -/
def stuckAfterLock (duts : Duts) : HostSet :=
  duts.needsAddToTarget ∪ duts.needsDroneAssignment ∪ duts.needsRename

/-- Both, category by category. -/
def merge (a b : Duts) : Duts where
  migrated := a.migrated ∪ b.migrated
  notLocked := a.notLocked ∪ b.notLocked
  needsAddToTarget := a.needsAddToTarget ∪ b.needsAddToTarget
  needsDroneAssignment := a.needsDroneAssignment ∪ b.needsDroneAssignment
  needsRename := a.needsRename ∪ b.needsRename

/-- Without the given hosts among those stuck after locking. -/
def withoutStuck (duts : Duts) (hosts : HostSet) : Duts :=
  { duts with
    needsAddToTarget := duts.needsAddToTarget \ hosts
    needsDroneAssignment := duts.needsDroneAssignment \ hosts
    needsRename := duts.needsRename \ hosts }

end Duts

/-- What is wrong with a summary. -/
inductive Violation where
  | overlap
  | unaccounted (host : Host)
  | stranger (host : Host)
  deriving DecidableEq

/-- The wording of a violation. -/
def Violation.message : Violation → String
  | .overlap => "dut categories overlap"
  | .unaccounted host => host ++ " is in the transfer group but unaccounted for"
  | .stranger host => host ++ " is accounted for but not in the transfer group"

/-- The result of a pass. -/
structure Summary where
  lockedSuccess : Bool
  failedStep : Option Stage
  plan : Plan
  duts : Duts
  deriving DecidableEq

namespace Summary

/-- The summary of a plan and where its hosts ended up. -/
def ofDuts (plan : Plan) (duts : Duts) : Summary where
  lockedSuccess := duts.notLocked.isEmpty
  failedStep := duts.failedStep
  plan
  duts

/-- What is wrong with a summary: an overlap, hosts missing from the categories, and hosts that do
    not belong there, each in order. -/
def violations (s : Summary) : List Violation :=
  (if s.duts.disjoint then [] else [.overlap])
    ++ (s.plan.transfer \ s.duts.allHosts).toList.map .unaccounted
    ++ (s.duts.allHosts \ s.plan.transfer).toList.map .stranger

/-- The hosts that are accounted for and not moved. -/
def needsAttention (s : Summary) : HostSet := s.duts.allHosts \ s.duts.migrated

end Summary

/-- What became of the hosts of one step. -/
structure StepResult where
  succeeded : HostSet := ∅
  failed : HostSet := ∅
  deriving DecidableEq

/-- Split the hosts into those that succeeded and the others. -/
def StepResult.split (hosts succeeded : HostSet) : StepResult :=
  ⟨hosts ∩ succeeded, hosts \ succeeded⟩

end Rehome
