import Rehome.Tool.Listing
import Rehome.Tool.Process

/-!
# The two systems behind their tools

Each call is one run of a tool: of the legacy tool for statuses, locks, descriptors and names, of
the target tool for devices and drones. `Systems.invocation` says which run, `Systems.answer` what
its output means, and `Systems.fleet` puts both together to a fleet.
-/

namespace Rehome.Tool

/-- What the legacy system puts to the names of hosts that were renamed for migration. -/
def movedSuffix : String := "-migrated-do-not-use"

/-- The programs of the two systems. -/
structure Systems where
  legacy : String
  target : String

namespace Systems

/-! ## Runs -/

/-- The names that a renaming is asked for: for a rollback those the hosts have since migration. -/
def namesFor (direction : Marking) (hosts : HostSet) : List String :=
  match direction with
  | .moved => hosts.toList
  | .restored => hosts.toList.map (· ++ movedSuffix)

/-- The flag of a renaming. -/
def directionFlag : Marking → String
  | .moved => "--for-migration"
  | .restored => "--for-rollback"

/-- The run of a tool that makes a call. -/
def invocation (t : Systems) : Call → Invocation
  | .queryStatus hosts =>
    .withInput t.legacy ["host", "list", "--parse", "-M", Invocation.placeholder] hosts.toList
  | .lock hosts reason =>
    .withInput t.legacy ["host", "mod", "--lock", "-r", reason, "-M", Invocation.placeholder]
      hosts.toList
  | .unlock hosts =>
    .withInput t.legacy ["host", "mod", "--unlock", "-M", Invocation.placeholder] hosts.toList
  | .fetchDescriptor host => .plain t.legacy ["host", "statjson", "--", host]
  | .rename hosts direction =>
    .withInput t.legacy
      ["host", "rename", "--no-confirmation", directionFlag direction, "--parse", "-M",
        Invocation.placeholder]
      (namesFor direction hosts)
  | .add descriptor =>
    .withInput t.target
      ["add-dut", "-skip-image-download", "-skip-install-firmware", "-skip-install-os",
        "-specs-file", Invocation.placeholder]
      [descriptor.raw]
  | .assignDrone host => .plain t.target ["assign-dut", "--", host]
  | .remove hosts bug => .plain t.target (["remove-duts", "-delete", "-bug", bug] ++ hosts.toList)

/-! ## Answers -/

/-- The descriptor of a host: all lines of the output, which must not all be blank. -/
def descriptorOf (t : Systems) (host : Host) (o : Output) : Except ToolFailure Descriptor :=
  if !o.success then .error (.exited t.legacy o.exitCode o.reason)
  else if o.stdout.all Text.isBlankText then
    .error (.unreadable t.legacy ("empty descriptor for " ++ host))
  else .ok ⟨host, String.intercalate "\n" o.stdout⟩

/-- The outcome of a run of the target tool. There was nothing to do if the tool says so by some
    message, whatever its exit code. -/
def effectOf (o : Output) (alreadyDone : Option String) : Effect :=
  if alreadyDone.any o.mentions then .already
  else if o.success then .applied
  else .failed o.reason

/-- What the output of a call's run means. Locking hosts that are locked fails, so nothing is read
    off that. -/
def answer (t : Systems) : (call : Call) → Output → call.Reply
  | .queryStatus hosts, o => .ok ((statuses o.stdout).filter fun row => decide (row.host ∈ hosts))
  | .lock _ _, _ => .ok ()
  | .unlock _, o => .ok (unlocked o.stdout)
  | .fetchDescriptor host, o => t.descriptorOf host o
  | .rename _ direction, o => .ok (renamed direction o.stdout)
  | .add _, o => .ok (effectOf o (some "nothing to commit"))
  | .assignDrone _, o => .ok (effectOf o (some "already assigned"))
  | .remove _ _, o => .ok (effectOf o none)

/-- How the systems reply to a call. -/
def reply {σ : Type} (t : Systems) (runner : Runner σ) (call : Call) (s : σ) : call.Reply × σ :=
  let back := runner.execute (t.invocation call) s
  (back.1.bind (t.answer call), back.2)

/-- The fleet behind the tools. -/
def fleet {σ : Type} (t : Systems) (runner : Runner σ) : Fleet σ where
  toClock := runner.toClock
  reply := t.reply runner
  time_le_reply call s := runner.time_le_execute (t.invocation call) s

end Systems

end Rehome.Tool
