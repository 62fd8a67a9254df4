import Rehome.Fleet.Call
import Rehome.Rejection
import Rehome.Summary
import Rehome.Text.Quoted

/-!
# Errors that end a pass

A host that fails a stage is reported in the summary and never ends a pass. What does is input
that is rejected, a setting that makes no sense, a plan file that cannot be read, a tool that gives no
answer, and a plan that could not be drawn.
-/

namespace Rehome

/-- A setting that makes no sense. -/
inductive SettingFault where
  | zeroPollInterval
  | zeroReadyIntervals
  | noAttempts (stage : Stage)
  | noReason
  | unknownMode (mode : String)
  deriving DecidableEq

/-- What is wrong with a setting, in words. -/
def SettingFault.text : SettingFault → String
  | .zeroPollInterval => "poll interval must be positive when waiting for hosts to become ready"
  | .zeroReadyIntervals =>
    "hosts must be seen idle at least once when waiting for them to become ready"
  | .noAttempts stage => stage.name ++ " must be attempted at least once"
  | .noReason => "MIGRATION_REASON is required to migrate"
  | .unknownMode mode => "unknown mode " ++ Text.quoted mode ++ ", expected migrate or rollback"

/-- Why a file could not be read as a text. -/
inductive FileError where
  | notFound
  | notText
  deriving DecidableEq

/-- Why a pass or a rollback ended early. -/
inductive PassError where
  | rejected (cause : Rejection)
  | badSetting (cause : SettingFault)
  | tool (cause : ToolFailure)
  | planUnreadable (path : String) (cause : FileError)
  | planMalformed (path : String)
  | halted (cause : Halt)
  deriving DecidableEq

/-- The wording of an error, without its cause where that has a wording of its own. -/
def PassError.message : PassError → String
  | .rejected cause => "invalid argument: " ++ cause.message
  | .badSetting cause => "invalid setting: " ++ cause.text
  | .tool _ => "an external tool failed"
  | .planUnreadable path _ => "failed to read plan file " ++ path
  | .planMalformed path => "failed to parse plan file " ++ path
  | .halted cause => cause.message

end Rehome
