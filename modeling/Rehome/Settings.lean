import Rehome.Partition
import Rehome.PassError
import Rehome.Retry
import Rehome.Text.Blank

/-!
# Settings — how a pass is to go

The settings of a pass are checked before anything is done. What the checks are for is that a pass
with checked settings makes progress: waiting for idle hosts goes on in steps of some length, and
every stage is tried at all.
-/

namespace Rehome

open Numeric (Binary64)

/-- How a pass is to go. -/
structure Settings where
  /-- The reason that is given for locking hosts. -/
  reason : String := "migration to the new fleet system"
  /-- The part of the hosts that is to move. -/
  ratio : Binary64 := .ofNat 1
  /-- Whether to move hosts without waiting for them to be idle. -/
  migrateImmediately : Bool := false
  /-- How long to wait for hosts to be idle before they are moved anyway. -/
  maxDuration : Duration := .ofSecs 3600
  pollInterval : Duration := .ofSecs 30
  /-- How many rows in a row have to show a host idle. -/
  minReadyIntervals : Nat := 10
  lockRetry : RetryPolicy := {}
  assignRetry : RetryPolicy := {}
  renameRetry : RetryPolicy := {}

namespace Settings

/-- The first stage that is never tried. -/
def untried? (settings : Settings) : Option Stage :=
  ([(.lock, settings.lockRetry), (.droneAssignment, settings.assignRetry),
      (.rename, settings.renameRetry)].find?
    fun (_, policy) => policy.maxAttempts == 0).map (·.1)

/-- The first thing that is wrong with the settings. -/
def fault? (settings : Settings) : Option PassError :=
  if Text.isBlankText settings.reason then some (.rejected .noReason)
  else if !isRatio settings.ratio then some (.rejected (.badRatio settings.ratio))
  else if !settings.migrateImmediately && settings.pollInterval.nanos == 0 then
    some (.badSetting .zeroPollInterval)
  else if !settings.migrateImmediately && settings.minReadyIntervals == 0 then
    some (.badSetting .zeroReadyIntervals)
  else settings.untried?.map fun stage => .badSetting (.noAttempts stage)

end Settings

/-- Settings with nothing wrong. -/
structure CheckedSettings extends Settings where
  faultless : toSettings.fault? = none

namespace Settings

/-- The settings, if nothing is wrong with them. -/
def check (settings : Settings) : Except PassError CheckedSettings :=
  match h : settings.fault? with
  | some e => .error e
  | none => .ok ⟨settings, h⟩

end Settings

namespace CheckedSettings

/-- When a pass waits, it does so in steps of some length. -/
theorem pollInterval_pos (settings : CheckedSettings) (h : settings.migrateImmediately = false) :
    0 < settings.pollInterval.nanos := by
  have hf := settings.faultless
  unfold Settings.fault? at hf
  rw [h] at hf
  split at hf
  · exact absurd hf (by simp)
  · split at hf
    · exact absurd hf (by simp)
    · split at hf
      · exact absurd hf (by simp)
      · rename_i hz
        simp only [Bool.not_false, Bool.true_and, beq_iff_eq] at hz
        exact Nat.pos_of_ne_zero hz

end CheckedSettings

end Rehome
