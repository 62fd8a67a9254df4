import Rehome.Fleet.Run

/-!
# Renaming — the mark of a host that has moved

Hosts are renamed in the legacy system for migration. Those that the answer does not list are
asked for again, as often as the policy allows; names that were not asked for change nothing.
-/

namespace Rehome

namespace Renaming

variable {σ : Type} {fleet : Fleet σ}

/-- Up to `left` more attempts to rename the remaining hosts, after so many that were made. The
    result is the hosts that remain. -/
def attempts (policy : RetryPolicy) :
    (left made : Nat) → (remaining : HostSet) → Run fleet HostSet
  | 0, _, remaining => return remaining
  | left + 1, made, remaining =>
    if remaining.isEmpty then return remaining
    else do
      if made ≠ 0 then Run.waitAfter policy made
      let renamed ← Run.call (.rename remaining .moved)
      attempts policy left (made + 1) (remaining \ .ofList renamed)

/-- Rename hosts. -/
def run (policy : RetryPolicy) (hosts : HostSet) : Run fleet StepResult := do
  let remaining ← attempts policy policy.maxAttempts 0 hosts
  return ⟨hosts \ remaining, remaining⟩

end Renaming

end Rehome
