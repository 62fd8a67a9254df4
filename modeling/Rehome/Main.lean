import Rehome.Cli.Program
import Rehome.Tool.Rehearsal

/-!
# The command line

The program as a rehearsal: it takes its configuration from the environment and its files from the
disk, and what the two tools would have answered from standard input, a response as JSON on each
line. It prints what the program prints, writes the file that it writes, and ends with its exit
code; the runs of the tools are listed on standard error.
-/

open Rehome

namespace Rehome.Main

/-- The variables of the environment that the program looks at. -/
def readEnvironment : IO Environment := do
  let values ← Environment.names.mapM fun name => do return (name, ← IO.getEnv name)
  return fun name => (values.lookup name).join

/-- The text of a file, or why it has none. -/
def readFile (path : String) : IO (Except FileError String) := do
  try return Cli.Disk.textOf (← IO.FS.readBinFile path)
  catch _ => return .error .notFound

/-- The disk as far as a configuration may need it. That a file cannot be written is found out in
    the attempt. -/
def readDisk (env : Environment) : IO Cli.Disk := do
  let names := ["HOSTNAMES_FILE", "PLAN_FILE", "PREVIOUS_SUMMARY_FILE"].filterMap env
  let texts ← names.mapM fun path => do return (path, ← readFile path)
  let read (path : String) := (texts.lookup path).getD (.error .notFound)
  return { read, canWrite := fun _ => true }

/-- The responses on standard input. A line that holds none ends them. -/
partial def readResponses (input : IO.FS.Stream) : IO (List Tool.Response) := do
  match Tool.Response.parse? (← input.getLine) with
  | some response => return response :: (← readResponses input)
  | none => return []

/-- A run of a tool on one line. -/
def describe (i : Tool.Invocation) : String :=
  let argument : Tool.Argument → String
    | .text a => Text.quoted a
    | .inputFile => "<input>"
  String.intercalate " " (i.program :: i.arguments.map argument)

/-- Write the file of a report, if it has one. -/
def write (report : Cli.Report) : IO Cli.Report := do
  match report.written with
  | none => return report
  | some (path, text) =>
    try
      IO.FS.writeFile path text
      return report
    catch _ => return { report with error := some (.write path) }

end Rehome.Main

open Rehome.Main in
/-- Rehearse the program. -/
def main : IO UInt32 := do
  let env ← readEnvironment
  let disk ← readDisk env
  let responses ← readResponses (← IO.getStdin)
  let installed := ["LEGACY_TOOL_PATH", "TARGET_TOOL_PATH"].filterMap env ++ ["atest", "skylab"]
  let freshSeed := UInt64.ofNat (← IO.rand 0 (UInt64.size - 1))
  let (report, rehearsal) :=
    Cli.run (Tool.Rehearsal.runner installed) env disk freshSeed { responses }
  IO.print report.stdout
  let report ← write report
  rehearsal.runs.reverse.forM fun run => IO.eprintln (describe run)
  match report.error with
  | some e => IO.eprintln ("Error: " ++ e.message)
  | none => pure ()
  return UInt32.ofNat report.exitCode
