import Rehome.Cli.Disk
import Rehome.Config
import Rehome.Hostnames
import Rehome.Pass
import Rehome.Rollback
import Rehome.Tool.Systems

/-!
# The program — from an environment and files to a report

The program reads its configuration from the environment and its hosts from a file, and then runs
a pass or a rollback with the two tools. The summary or report is printed as JSON, and written to
a file too if one is configured. Whatever goes wrong ends the program with one error.
-/

namespace Rehome.Cli

/-- Why the program failed. -/
inductive ProgramError where
  | environment (cause : ConfigError)
  | hostnames (path : String)
  | summaryUnreadable (path : String)
  | summaryMalformed (path : String)
  | pass (cause : PassError)
  | write (path : String)
  deriving DecidableEq

/-- The wording of an error, without its cause. -/
def ProgramError.message : ProgramError → String
  | .environment _ => "failed to load configuration from env"
  | .hostnames path => "failed to read hostnames from " ++ path
  | .summaryUnreadable path => "failed to read previous summary " ++ path
  | .summaryMalformed path => "failed to parse previous summary " ++ path
  | .pass cause => cause.message
  | .write path => "failed to write summary to " ++ path

/-- The part of a text before its first line feed. -/
def firstLine (text : String) : String := String.ofList (text.toList.takeWhile (· ≠ '\n'))

/-- What the program leaves behind. -/
structure Report where
  /-- What it printed. -/
  stdout : String := ""
  /-- The error it ended with. -/
  error : Option ProgramError := none
  /-- The file it wrote and its text. -/
  written : Option (String × String) := none

/-- The exit code. -/
def Report.exitCode (r : Report) : Nat := if r.error.isSome then 1 else 0

/-- The first line of the error. -/
def Report.errorLine (r : Report) : Option String := r.error.map fun e => firstLine e.message

variable {σ : Type}

/-- Read the hosts. -/
def loadHosts (disk : Disk) (path : String) : Except ProgramError HostSet :=
  match disk.read path with
  | .ok text => .ok (hostnames text)
  | .error _ => .error (.hostnames path)

/-- Read the summary of the previous pass, if there is one. -/
def loadPrevious (disk : Disk) : Option String → Except ProgramError (Option Summary)
  | none => .ok none
  | some path =>
    match disk.read path with
    | .error _ => .error (.summaryUnreadable path)
    | .ok text =>
      match Summary.parse? text with
      | some summary => .ok (some summary)
      | none => .error (.summaryMalformed path)

/-- The planner that is configured: a plan file before a seed, and a seed of no one's choice
    without either. -/
def configuredPlanner (config : Config) (disk : Disk) (freshSeed : UInt64) :
    Except ProgramError Planner :=
  match config.planFile with
  | some path => (Planner.ofFile path (disk.read path)).mapError .pass
  | none => .ok (.fair (config.planSeed.getD freshSeed))

/-- What is to be run, as far as it can be told beforehand. The activity gives the JSON to
    print. -/
def activity (fleet : Fleet σ) (config : Config) (disk : Disk) (freshSeed : UInt64) :
    Except ProgramError (Run fleet Json) := do
  let mode ← (Mode.ofName config.mode).mapError .pass
  let hosts ← loadHosts disk config.hostnamesFile
  match mode with
  | .migrate =>
    let source ← configuredPlanner config disk freshSeed
    let previous ← loadPrevious disk config.previousSummaryFile
    let settings ← config.settings?.mapError .pass
    return do return (← Pass.run source settings hosts previous).toJson
  | .rollback =>
    let bug := config.rollbackBug.getD Rollback.defaultBug
    return do return (← Rollback.run bug Rollback.defaultBatchSize hosts config.dryRun).toJson

/-- Print a result, and write it to the configured file. -/
def publish (config : Config) (disk : Disk) (json : Json) : Report :=
  let text := json.pretty ++ "\n"
  match config.summaryFile with
  | none => { stdout := text }
  | some path =>
    if disk.canWrite path then { stdout := text, written := some (path, text) }
    else { stdout := text, error := some (.write path) }

/-- The two systems that are configured. -/
def systems (config : Config) : Tool.Systems := ⟨config.legacyToolPath, config.targetToolPath⟩

/-- Run the program with a configuration. -/
def runWith (runner : Tool.Runner σ) (config : Config) (disk : Disk) (freshSeed : UInt64) (s : σ) :
    Report × σ :=
  match activity ((systems config).fleet runner) config disk freshSeed with
  | .error e => ({ error := some e }, s)
  | .ok work =>
    let o := work.run s
    match o.result with
    | .error e => ({ error := some (.pass e) }, o.state)
    | .ok json => (publish config disk json, o.state)

/-- Run the program. -/
def run (runner : Tool.Runner σ) (env : Environment) (disk : Disk) (freshSeed : UInt64) (s : σ) :
    Report × σ :=
  match Config.ofEnvironment env with
  | .error e => ({ error := some (.environment e) }, s)
  | .ok config => runWith runner config disk freshSeed s

end Rehome.Cli
