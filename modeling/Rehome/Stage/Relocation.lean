import Rehome.Fleet.Run

/-!
# Relocation — into the target system, host by host

Each host's descriptor is fetched from the legacy system and added to the target system, and then
the host is given a drone, in as many attempts as the policy allows. A descriptor that cannot be
fetched ends the run: the legacy system is out of reach then, and no single host is to blame.
-/

namespace Rehome

/-- How far a host came in a relocation. -/
inductive Placement where
  | placed
  | notAdded
  | noDrone
  deriving DecidableEq

/-- What became of the hosts of a relocation. -/
structure Relocation where
  succeeded : HostSet := ∅
  needsAddToTarget : HostSet := ∅
  needsDroneAssignment : HostSet := ∅
  deriving DecidableEq

namespace Relocation

/-- The hosts that did not make it. -/
def failed (r : Relocation) : HostSet := r.needsAddToTarget ∪ r.needsDroneAssignment

/-- The result of one host put to the others. -/
def note (host : Host) (placement : Placement) (r : Relocation) : Relocation :=
  match placement with
  | .placed => { r with succeeded := r.succeeded.insert host }
  | .notAdded => { r with needsAddToTarget := r.needsAddToTarget.insert host }
  | .noDrone => { r with needsDroneAssignment := r.needsDroneAssignment.insert host }

end Relocation

namespace Relocation

variable {σ : Type} {fleet : Fleet σ}

/-- Up to `left` more attempts to give a host a drone; the next one has the given number, from 1. -/
def assign (policy : RetryPolicy) (host : Host) : (left attempt : Nat) → Run fleet Bool
  | 0, _ => return false
  | left + 1, attempt => do
    let outcome ← Run.call (.assignDrone host)
    if Effect.isFailed outcome then
      if policy.allowsAfter attempt then Run.waitAfter policy attempt
      assign policy host left (attempt + 1)
    else return true

/-- Relocate one host. -/
def place (policy : RetryPolicy) (host : Host) : Run fleet Placement := do
  let descriptor ← Run.call (.fetchDescriptor host)
  let outcome ← Run.call (.add descriptor)
  if Effect.isFailed outcome then return .notAdded
  else if ← assign policy host policy.maxAttempts 1 then return .placed
  else return .noDrone

/-- Relocate hosts in the order given. -/
def all (policy : RetryPolicy) : List Host → Run fleet Relocation
  | [] => return {}
  | host :: hosts => do
    let placement ← place policy host
    let rest ← all policy hosts
    return rest.note host placement

/-- Relocate every host of a set. -/
def run (policy : RetryPolicy) (hosts : HostSet) : Run fleet Relocation :=
  all policy hosts.toList

end Relocation

end Rehome
