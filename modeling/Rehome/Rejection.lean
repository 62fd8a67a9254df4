import Rehome.HostSet
import Rehome.Numeric.Shortest

/-!
# Rejected input — what can be wrong with the arguments of a step

Each cause of rejection is found before any work is done, so nothing has to be undone. Work on input
that is not rejected may still stop without a result (`Halt`).
-/

namespace Rehome

/-- Input that is rejected before any work is done. -/
inductive Rejection where
  | noWeights
  | badWeight (index : Nat) (value : Numeric.Binary64)
  | zeroTotal
  | badRatio (ratio : Numeric.Binary64)
  | overlap (host : Host)
  | uncovered (host : Host)
  | noReason
  deriving DecidableEq

/-- The wording of a rejection. -/
def Rejection.message : Rejection → String
  | .noWeights => "weights must not be empty"
  | .badWeight index value =>
    "weight at index " ++ toString index ++ " is not a non-negative finite number: " ++ value.toText
  | .zeroTotal => "weights must have a positive sum"
  | .badRatio ratio => "ratio must be a finite number in [0, 1], got " ++ ratio.toText
  | .overlap host => "host " ++ host ++ " appears in both the transfer and retain groups"
  | .uncovered host => "host " ++ host ++ " is not covered by the migration plan"
  | .noReason => "a reason is required to lock hosts"

/-- What stops work that nothing was rejected of. -/
inductive Halt where
  /-- Counts are asserted to add up to the seats, and do not. -/
  | miscount
  /-- For one draw of a sample all words that may be tried were thrown away. -/
  | noSample
  deriving DecidableEq

/-- The wording of a halt. -/
def Halt.message : Halt → String
  | .miscount => "the counts do not add up to the seats"
  | .noSample => "the random source gave no sample"

end Rehome
