import Rehome.Duration

/-!
# Retry policies — how often a step is tried, and how long to wait in between

The wait after the first failed attempt is the initial one, and each further wait is longer by
the backoff coefficient, up to a maximum. The growth stops at `multiplierCap`, so the wait after
any attempt is found without computing the power itself.
-/

namespace Rehome

/-- How often a step is tried and how long to wait between two attempts. -/
structure RetryPolicy where
  /-- The number of attempts, the first one included. -/
  maxAttempts : Nat := 3
  /-- The factor between one wait and the next. -/
  backoff : Nat := 2
  /-- The wait after the first attempt. -/
  initial : Duration := .ofSecs 1
  /-- The longest wait allowed. -/
  maximum : Option Duration := none
  deriving DecidableEq

namespace RetryPolicy

/-- Attempts without waiting in between. -/
def immediate (maxAttempts : Nat) : RetryPolicy :=
  { maxAttempts, initial := .zero }

/-- The initial wait is never multiplied by more than this. -/
def multiplierCap : Nat := UInt32.size - 1

/-- The power of the coefficient, or the cap. From 2 upwards the power with exponent 32 is over
    the cap, so no larger exponent has to be computed. -/
def multiplier (coefficient exponent : Nat) : Nat :=
  min (Nat.pow coefficient (min exponent 32)) multiplierCap

/-- The wait after an attempt, counted from 1, and before the next one. -/
def waitAfter (policy : RetryPolicy) (attempt : Nat) : Duration :=
  let wait := policy.initial.scale (multiplier policy.backoff (attempt - 1))
  match policy.maximum with
  | some longest => wait.shorter longest
  | none => wait

/-- Whether another attempt follows when so many have been made. -/
def allowsAfter (policy : RetryPolicy) (attempts : Nat) : Bool :=
  decide (attempts < policy.maxAttempts)

end RetryPolicy

end Rehome
