import Rehome.Fleet.Basic
import Rehome.Text.Split
import Rehome.Text.Utf8
import Rehome.Tool.Output

/-!
# Processes — how a tool is started and what it leaves

A tool is started with arguments and at times with an input file, whose path takes the place of
every argument that is the placeholder. The input file holds a list of items, each on a line of
its own. A runner is whatever starts the tools; like a fleet it may do as it likes, but its clock
never goes back.
-/

namespace Rehome.Tool

/-- An argument: a text, or the path of the input file. -/
inductive Argument where
  | text (value : String)
  | inputFile
  deriving DecidableEq

/-- A tool to be started. -/
structure Invocation where
  program : String
  arguments : List Argument
  /-- What the input file holds, if there is one. -/
  input : Option String
  deriving DecidableEq

namespace Invocation

/-- The argument for which the path of the input file stands. -/
def placeholder : String := "\x7btempfile\x7d"

/-- The text of an input file after an item was put to it. A line feed follows, unless the whole
    text ends with one already. -/
def appendItem (body item : List Char) : List Char :=
  let body := body ++ item
  if body.getLast? = some '\n' then body else body ++ ['\n']

/-- The text of an input file for a list of items. -/
def inputText (items : List String) : String :=
  String.ofList (items.foldl (fun body item => appendItem body item.toList) [])

/-- A tool with arguments and no input file. -/
def plain (program : String) (arguments : List String) : Invocation :=
  ⟨program, arguments.map .text, none⟩

/-- A tool with an input file. -/
def withInput (program : String) (arguments items : List String) : Invocation :=
  ⟨program, arguments.map fun a => if a = placeholder then .inputFile else .text a,
    some (inputText items)⟩

/-- Whether an argument or the program holds a NUL, with which no tool can be started. -/
def hasNul (i : Invocation) : Bool :=
  let nul (text : String) : Bool := text.toList.contains '\x00'
  nul i.program || i.arguments.any fun
    | .text a => nul a
    | .inputFile => false

end Invocation

/-- Why a tool was not started. -/
inductive LaunchError where
  | notFound
  | notPermitted
  | nulByte
  deriving DecidableEq

/-- The wording of a failed start. -/
def LaunchError.message : LaunchError → String
  | .notFound => "No such file or directory (os error 2)"
  | .notPermitted => "Permission denied (os error 13)"
  | .nulByte => "nul byte found in provided data"

/-- What a process leaves when it ends. -/
structure Completion where
  /-- The exit code, unless it died from a signal. -/
  exitCode : Option Nat
  stdout : ByteArray
  stderr : ByteArray

/-- The output of a process. Dying from a signal counts as the code -1. -/
def Output.ofCompletion (c : Completion) : Output where
  exitCode :=
    match c.exitCode with
    | some code => code
    | none => -1
  stdout := Text.lines (Text.decode c.stdout)
  stderr := Text.lines (Text.decode c.stderr)

/-- Whatever starts the tools, and its clock. -/
structure Runner (σ : Type) extends Clock σ where
  launch : Invocation → σ → Except LaunchError Completion × σ
  time_le_launch : ∀ i s, time s ≤ time (launch i s).2

namespace Runner

variable {σ : Type}

/-- Run a tool to its end. -/
def execute (runner : Runner σ) (i : Invocation) (s : σ) : Except ToolFailure Output × σ :=
  if i.hasNul then (.error (.notStarted i.program LaunchError.nulByte.message), s)
  else
    match runner.launch i s with
    | (.ok completion, s) => (.ok (.ofCompletion completion), s)
    | (.error e, s) => (.error (.notStarted i.program e.message), s)

theorem time_le_execute (runner : Runner σ) (i : Invocation) (s : σ) :
    runner.time s ≤ runner.time (runner.execute i s).2 := by
  have h := runner.time_le_launch i s
  unfold execute
  split
  · exact Nat.le_refl _
  · split <;> simp_all

end Runner

end Rehome.Tool
