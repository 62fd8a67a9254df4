import Rehome.Tool.Process
import Rehome.Json.Reader

/-!
# Rehearsals — tools that answer from a list

In a rehearsal no process is started. The tools that are said to be installed answer, run by run,
with recorded responses, and with an empty success when those have run out. The runs are noted
down. Time passes by sleeping only.
-/

namespace Rehome.Tool

/-- What a tool prints in a run, and how it ends. -/
structure Response where
  stdout : ByteArray := .empty
  stderr : ByteArray := .empty
  /-- The status it exits with. The outside sees its lowest eight bits. -/
  status : Int := 0
  /-- Whether it dies from a signal instead. -/
  signalled : Bool := false

/-- What a response looks like from outside. -/
def Response.completion (r : Response) : Completion where
  exitCode := if r.signalled then none else some (r.status % 256).toNat
  stdout := r.stdout
  stderr := r.stderr

namespace Response

/-- The texts and the status that a member of an object gives, put to the others. -/
def withMember (r : Response) : Option String × Json → Option Response
  | (some "stdout", .string (some text)) => some { r with stdout := text.toUTF8 }
  | (some "stderr", .string (some text)) => some { r with stderr := text.toUTF8 }
  | (some "exit", .number text) => text.toInt?.map fun status => { r with status }
  | (some "signal", .bool signalled) => some { r with signalled }
  | _ => none

/-- Read a response: an object with any of the names `stdout`, `stderr`, `exit` and `signal`. -/
def parse? (text : String) : Option Response :=
  match Json.read? text with
  | some (.object members) => members.foldlM withMember {}
  | _ => none

end Response

/-- The state of a rehearsal: the responses to come, the runs so far, the last one first, and the
    time in nanoseconds. -/
structure Rehearsal where
  responses : List Response
  runs : List Invocation := []
  nanos : Nat := 0

namespace Rehearsal

/-- The program name that is a directory. -/
def directory : String := "/"

/-- Start a tool. -/
def launch (installed : List String) (i : Invocation) (s : Rehearsal) :
    Except LaunchError Completion × Rehearsal :=
  if i.program ∈ installed then
    (.ok (s.responses.headD {}).completion,
      { s with responses := s.responses.tail, runs := i :: s.runs })
  else if i.program = directory then (.error .notPermitted, s)
  else (.error .notFound, s)

theorem nanos_launch (installed : List String) (i : Invocation) (s : Rehearsal) :
    (launch installed i s).2.nanos = s.nanos := by
  unfold launch
  split
  · rfl
  · split <;> rfl

/-- The runner of a rehearsal. -/
def runner (installed : List String) : Runner Rehearsal where
  time s := s.nanos
  look s := s
  sleep span s := { s with nanos := s.nanos + span.nanos }
  time_le_look _ := Nat.le_refl _
  time_le_sleep _ _ := Nat.le_add_right _ _
  time_lt_sleep _ _ h := Nat.lt_add_of_pos_right h
  launch := launch installed
  time_le_launch i s := Nat.le_of_eq (nanos_launch installed i s).symm

end Rehearsal

end Rehome.Tool
