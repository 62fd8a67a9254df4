import Rehome.Fleet.Run
import Rehome.Text.Blank

/-!
# Locking — so that nothing new is scheduled on a host

Whether a request to lock hosts worked is not asked of the request, which also fails for hosts
that were locked before: it is read off the statuses afterwards. Hosts not seen locked are asked
for again, as often as the policy allows.
-/

namespace Rehome

namespace Locking

variable {σ : Type} {fleet : Fleet σ}

/-- The hosts, of those asked about, that some row shows locked. -/
def lockedAmong (hosts : HostSet) (rows : List StatusRow) : HostSet :=
  .ofList ((rows.filter fun row => row.locked && decide (row.host ∈ hosts)).map (·.host))

/-- Ask about hosts, and give those that are locked. -/
def look (hosts : HostSet) : Run fleet HostSet := do
  let rows ← Run.call (.queryStatus hosts)
  return lockedAmong hosts rows

/-- Up to `left` more attempts to lock the remaining hosts, after so many that were made. -/
def attempts (policy : RetryPolicy) (reason : String) :
    (left made : Nat) → (remaining locked : HostSet) → Run fleet StepResult
  | 0, _, remaining, locked => return ⟨locked, remaining⟩
  | left + 1, made, remaining, locked =>
    if remaining.isEmpty then return ⟨locked, remaining⟩
    else do
      if made ≠ 0 then Run.waitAfter policy made
      Run.call (.lock remaining reason)
      let seen ← look remaining
      attempts policy reason left (made + 1) (remaining \ seen) (locked ∪ seen)

/-- Lock hosts. A reason has to be given, even for no hosts at all. -/
def run (policy : RetryPolicy) (hosts : HostSet) (reason : String) : Run fleet StepResult :=
  if Text.isBlankText reason then Run.fail (.rejected .noReason)
  else attempts policy reason policy.maxAttempts 0 hosts ∅

/-- Which of the hosts are locked, by a single look that changes nothing. -/
def verify (hosts : HostSet) : Run fleet StepResult :=
  if hosts.isEmpty then return {}
  else do
    let seen ← look hosts
    return .split hosts seen

end Locking

end Rehome
