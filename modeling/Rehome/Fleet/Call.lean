import Rehome.HostSet

/-!
# Calls — what the fleet systems can be asked

Hosts are moved from a legacy system to a target system. Statuses, locks, descriptors and names
are asked of the legacy system; devices are added to, given a drone in and removed from the target
system. A call has a kind, and the kind fixes the type of the answer (`Kind.Answer`).

A tool that fails to answer at all is a `ToolFailure`. That a host could not be brought into a state
is not: it is an answer like any other (`Effect.failed`).
-/

namespace Rehome

/-- A host as the legacy system reports it. -/
structure StatusRow where
  host : Host
  locked : Bool
  busy : Bool
  deriving DecidableEq

/-- The full record of a device in the legacy system, which is passed on as it is. -/
structure Descriptor where
  host : Host
  raw : String
  deriving DecidableEq

/-- Why hosts are renamed in the legacy system. -/
inductive Marking where
  /-- To mark them as moved, so that no more work is given to them. -/
  | moved
  /-- To take such a mark back. -/
  | restored
  deriving DecidableEq

/-- What came of asking for a host to be in some state. -/
inductive Effect where
  /-- It was in that state before. -/
  | already
  | applied
  | failed (reason : String)
  deriving DecidableEq

namespace Effect

/-- Whether the host could not be brought into the state. -/
def isFailed : Effect → Bool
  | .failed _ => true
  | _ => false

end Effect

/-- Why a tool gave no answer. -/
inductive ToolFailure where
  | notStarted (program text : String)
  | disturbed (program text : String)
  | exited (program : String) (code : Int) (text : String)
  | unreadable (program text : String)
  deriving DecidableEq

/-- The wording of a tool's failure. -/
def ToolFailure.message : ToolFailure → String
  | .notStarted program text => "failed to spawn " ++ program ++ ": " ++ text
  | .disturbed program text => "io error while talking to " ++ program ++ ": " ++ text
  | .exited program code text =>
    program ++ " exited with status " ++ toString code ++ ": " ++ text
  | .unreadable program text => "could not parse output of " ++ program ++ ": " ++ text

/-- The kinds of calls. -/
inductive Call.Kind where
  | queryStatus
  | lock
  | unlock
  | fetchDescriptor
  | rename
  | add
  | assignDrone
  | remove
  deriving DecidableEq

/-- The type of the answers to a kind of call. -/
abbrev Call.Kind.Answer : Call.Kind → Type
  | .queryStatus => List StatusRow
  | .lock => Unit
  | .unlock => List Host
  | .fetchDescriptor => Descriptor
  | .rename => List Host
  | .add => Effect
  | .assignDrone => Effect
  | .remove => Effect

/-- Something asked of one of the two systems. -/
inductive Call where
  /-- The statuses of hosts. Those unknown to the system are missing from the answer. -/
  | queryStatus (hosts : HostSet)
  /-- To lock hosts. Only their statuses show whether it worked. -/
  | lock (hosts : HostSet) (reason : String)
  /-- To unlock hosts. The answer names those that were unlocked. -/
  | unlock (hosts : HostSet)
  /-- The descriptor of a host. -/
  | fetchDescriptor (host : Host)
  /-- To rename hosts. The answer names, as they were before, those that were renamed. -/
  | rename (hosts : HostSet) (direction : Marking)
  /-- To add a device to the target system. -/
  | add (descriptor : Descriptor)
  /-- To give a host a drone in the target system. -/
  | assignDrone (host : Host)
  /-- To remove hosts from the target system, for a bug. -/
  | remove (hosts : HostSet) (bug : String)
  deriving DecidableEq

namespace Call

/-- The kind of a call. -/
abbrev kind : Call → Kind
  | .queryStatus _ => .queryStatus
  | .lock .. => .lock
  | .unlock _ => .unlock
  | .fetchDescriptor _ => .fetchDescriptor
  | .rename .. => .rename
  | .add _ => .add
  | .assignDrone _ => .assignDrone
  | .remove .. => .remove

/-- The type of the answers to a call. -/
abbrev Answer (c : Call) : Type := c.kind.Answer

/-- What comes back from a call: an answer, or the failure of the tool. -/
abbrev Reply (c : Call) : Type := Except ToolFailure c.Answer

/-- The hosts that a call names. -/
def hosts : Call → HostSet
  | .queryStatus hosts => hosts
  | .lock hosts _ => hosts
  | .unlock hosts => hosts
  | .fetchDescriptor host => .ofList [host]
  | .rename hosts _ => hosts
  | .add descriptor => .ofList [descriptor.host]
  | .assignDrone host => .ofList [host]
  | .remove hosts _ => hosts

end Call

end Rehome
