import Rehome.Readiness
import Rehome.Settings
import Rehome.Stage.Locking
import Rehome.Stage.Relocation
import Rehome.Stage.Renaming

/-!
# Passes — from a set of hosts to a summary

A pass plans which hosts move, locks those, moves them as they become idle, and at the end moves
whatever is left once more without waiting: hosts that were never idle and hosts that got stuck on
the way. It ends with a summary, which the next pass may be given so that hosts that have moved
are left alone.
-/

namespace Rehome

namespace Pass

variable {σ : Type} {fleet : Fleet σ}

/-- The hosts that a pass is about: those that the summary of the previous one does not report as
    moved. -/
def candidates (hosts : HostSet) (previous : Option Summary) : HostSet :=
  match previous with
  | some summary => hosts \ summary.duts.migrated
  | none => hosts

/-- Lock the hosts of a plan. Whatever the attempts reported, only a last look at the statuses
    counts. -/
def secure (settings : CheckedSettings) (hosts : HostSet) : Run fleet StepResult :=
  if hosts.isEmpty then return {}
  else do
    let _ ← Locking.run settings.lockRetry hosts settings.reason
    Locking.verify hosts

/-- Relocate hosts and rename those that made it. -/
def move (settings : CheckedSettings) (hosts : HostSet) : Run fleet Duts :=
  if hosts.isEmpty then return {}
  else do
    let relocated ← Relocation.run settings.assignRetry hosts
    let renamed ← Renaming.run settings.renameRetry relocated.succeeded
    return {
      migrated := renamed.succeeded
      needsAddToTarget := relocated.needsAddToTarget
      needsDroneAssignment := relocated.needsDroneAssignment
      needsRename := renamed.failed }

/-- The hosts that are waited for, and where the others ended up. -/
structure Waiting where
  monitor : Readiness
  duts : Duts

/-- Poll the hosts that are waited for, and move those that became ready. -/
def poll (settings : CheckedSettings) (w : Waiting) : Run fleet Waiting := do
  let rows ← Run.call (.queryStatus w.monitor.watched)
  let (progress, monitor) := w.monitor.poll rows
  let moved ← move settings progress.ready
  return ⟨monitor, w.duts.merge moved⟩

/-- Move hosts as they become idle, until all have or time is up. -/
def moveWhenIdle (settings : CheckedSettings) (h : settings.migrateImmediately = false)
    (hosts : HostSet) (duts : Duts) : Run fleet Waiting := do
  let start ← Run.now
  Run.repeatUntil (start + settings.maxDuration.nanos) settings.pollInterval
    (settings.pollInterval_pos h) (·.monitor.isOver) (poll settings)
    ⟨.watch hosts settings.minReadyIntervals, duts⟩

/-- The first round over the locked hosts: the hosts that are still waited for at its end, and
    where the others ended up. -/
def firstRound (settings : CheckedSettings) (locked : HostSet) (duts : Duts) :
    Run fleet (HostSet × Duts) :=
  if h : settings.migrateImmediately = true then do
    let moved ← move settings locked
    return (∅, duts.merge moved)
  else do
    let w ← moveWhenIdle settings (Bool.eq_false_iff.mpr h) locked duts
    return (w.monitor.watched, w.duts)

/-- The last round over the hosts that are still waited for or got stuck on the way. -/
def sweep (settings : CheckedSettings) (waiting : HostSet) (duts : Duts) : Run fleet Duts := do
  let leftovers := waiting ∪ duts.stuckAfterLock
  let moved ← move settings leftovers
  return (duts.withoutStuck leftovers).merge moved

/-- Move the hosts of a plan. -/
def execute (settings : CheckedSettings) (plan : Plan) : Run fleet Summary := do
  let verified ← secure settings plan.transfer
  let (waiting, duts) ← firstRound settings verified.succeeded { notLocked := verified.failed }
  let duts ← sweep settings waiting duts
  return .ofDuts plan duts

/-- A pass over hosts. -/
def run (source : Planner) (settings : Settings) (hosts : HostSet)
    (previous : Option Summary) : Run fleet Summary := do
  let settings ← Run.ofExcept settings.check
  let plan ← Run.plan source (candidates hosts previous) settings.ratio
  execute settings plan

end Pass

end Rehome
