import Rehome.Numeric.Decimal
import Rehome.Settings

/-!
# Configuration — what the environment says

The program is configured by environment variables. They are looked at in a fixed order, and the
first that is missing without need or cannot be read is the error. `Config.settings?` gives the
settings of a pass, for which a reason has to be configured.
-/

namespace Rehome

open Numeric (Binary64 Binary)

/-- What is wrong with the environment, and with which variable. -/
inductive ConfigError where
  | missing (name : String)
  | unreadable (name : String)
  deriving DecidableEq

/-- The environment: the values of the variables that are set. -/
abbrev Environment := String → Option String

/-- What the program is to do. -/
inductive Mode where
  | migrate
  | rollback
  deriving DecidableEq

/-- The mode of a name. -/
def Mode.ofName (name : String) : Except PassError Mode :=
  if name = "migrate" then .ok .migrate
  else if name = "rollback" then .ok .rollback
  else .error (.badSetting (.unknownMode name))

/-- The variables that are looked at. -/
def Environment.names : List String :=
  ["LEGACY_TOOL_PATH", "TARGET_TOOL_PATH", "HOSTNAMES_FILE", "PLAN_FILE", "PREVIOUS_SUMMARY_FILE",
    "SUMMARY_FILE", "MODE", "MIGRATION_RATIO", "MIGRATION_REASON", "MIGRATE_IMMEDIATELY",
    "MAX_DURATION", "POLL_INTERVAL", "MIN_READY_INTERVALS", "PLAN_SEED", "ROLLBACK_BUG", "DRY_RUN",
    "RETRY_MAX_ATTEMPTS", "RETRY_BACKOFF_COEFFICIENT", "RETRY_INITIAL_INTERVAL",
    "RETRY_MAXIMUM_INTERVAL"]

/-- The configuration of the program. -/
structure Config where
  legacyToolPath : String
  targetToolPath : String
  hostnamesFile : String
  planFile : Option String
  previousSummaryFile : Option String
  summaryFile : Option String
  mode : String
  migrationRatio : Binary64
  migrationReason : Option String
  migrateImmediately : Bool
  maxDuration : Duration
  pollInterval : Duration
  minReadyIntervals : Nat
  planSeed : Option UInt64
  rollbackBug : Option String
  dryRun : Bool
  retryMaxAttempts : Nat
  retryBackoffCoefficient : Nat
  retryInitialInterval : Duration
  retryMaximumInterval : Duration

namespace Config

/-! ## Reading values -/

/-- A natural number below a limit, in digits after at most one plus sign. -/
def nat? (limit : Nat) (text : String) : Option Nat :=
  let digits :=
    match text.toList with
    | '+' :: cs => cs
    | cs => cs
  (Numeric.Decimal.wholeDigits? digits).filter (· < limit)

/-- A number of 32 bits. -/
def count? (text : String) : Option Nat := nat? UInt32.size text

/-- A seed of 64 bits. -/
def seed? (text : String) : Option UInt64 := (nat? UInt64.size text).map UInt64.ofNat

/-- A span of time in milliseconds. -/
def millis? (text : String) : Option Duration := (nat? UInt64.size text).map Duration.ofMillis

/-- A truth value. -/
def bool? (text : String) : Option Bool :=
  if text = "true" then some true else if text = "false" then some false else none

/-- A text that is not blank. -/
def filled? (text : String) : Option String :=
  if Text.isBlankText text then none else some text

/-- A reading that every text has. -/
def any? (text : String) : Option String := some text

/-- The value of a variable that need not be set. -/
def optional {α : Type} (env : Environment) (name : String) (read : String → Option α) :
    Except ConfigError (Option α) :=
  match env name with
  | none => .ok none
  | some text =>
    match read text with
    | some a => .ok (some a)
    | none => .error (.unreadable name)

/-- The value of a variable that has to be set. -/
def required {α : Type} (env : Environment) (name : String) (read : String → Option α) :
    Except ConfigError α := do
  match ← optional env name read with
  | some a => return a
  | none => throw (.missing name)

/-- The value of a variable, or a default if it is not set. -/
def defaulted {α : Type} (env : Environment) (name : String) (read : String → Option α) (a : α) :
    Except ConfigError α := do
  return (← optional env name read).getD a

/-! ## The configuration -/

/-- The configuration that the environment gives. -/
def ofEnvironment (env : Environment) : Except ConfigError Config := do
  let legacyToolPath ← defaulted env "LEGACY_TOOL_PATH" any? "atest"
  let targetToolPath ← defaulted env "TARGET_TOOL_PATH" any? "skylab"
  let hostnamesFile ← required env "HOSTNAMES_FILE" any?
  let planFile ← optional env "PLAN_FILE" any?
  let previousSummaryFile ← optional env "PREVIOUS_SUMMARY_FILE" any?
  let summaryFile ← optional env "SUMMARY_FILE" any?
  let mode ← defaulted env "MODE" any? "migrate"
  let migrationRatio ← defaulted env "MIGRATION_RATIO" Binary.ofText? (.ofNat 1)
  let migrationReason ← optional env "MIGRATION_REASON" filled?
  let migrateImmediately ← defaulted env "MIGRATE_IMMEDIATELY" bool? false
  let maxDuration ← defaulted env "MAX_DURATION" millis? (.ofMillis 3600000)
  let pollInterval ← defaulted env "POLL_INTERVAL" millis? (.ofMillis 30000)
  let minReadyIntervals ← defaulted env "MIN_READY_INTERVALS" count? 10
  let planSeed ← optional env "PLAN_SEED" seed?
  let rollbackBug ← optional env "ROLLBACK_BUG" filled?
  let dryRun ← defaulted env "DRY_RUN" bool? false
  let retryMaxAttempts ← defaulted env "RETRY_MAX_ATTEMPTS" count? 3
  let retryBackoffCoefficient ← defaulted env "RETRY_BACKOFF_COEFFICIENT" count? 2
  let retryInitialInterval ← defaulted env "RETRY_INITIAL_INTERVAL" millis? (.ofMillis 1000)
  let retryMaximumInterval ← defaulted env "RETRY_MAXIMUM_INTERVAL" millis? (.ofMillis 30000)
  return {
    legacyToolPath, targetToolPath, hostnamesFile, planFile, previousSummaryFile, summaryFile,
    mode, migrationRatio, migrationReason, migrateImmediately, maxDuration, pollInterval,
    minReadyIntervals, planSeed, rollbackBug, dryRun, retryMaxAttempts, retryBackoffCoefficient,
    retryInitialInterval, retryMaximumInterval }

/-- The one retry policy for all stages. -/
def retryPolicy (config : Config) : RetryPolicy where
  maxAttempts := config.retryMaxAttempts
  backoff := config.retryBackoffCoefficient
  initial := config.retryInitialInterval
  maximum := some config.retryMaximumInterval

/-- The settings of a pass. -/
def settings? (config : Config) : Except PassError Settings :=
  match config.migrationReason with
  | none => .error (.badSetting .noReason)
  | some reason =>
    .ok {
      reason
      ratio := config.migrationRatio
      migrateImmediately := config.migrateImmediately
      maxDuration := config.maxDuration
      pollInterval := config.pollInterval
      minReadyIntervals := config.minReadyIntervals
      lockRetry := config.retryPolicy
      assignRetry := config.retryPolicy
      renameRetry := config.retryPolicy }

end Config

end Rehome
