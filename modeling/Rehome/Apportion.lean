import Rehome.Rejection
import Rehome.Chance.Source

/-!
# Apportionment — whole seats by largest remainder

Seats are distributed between weights. The weights are scaled to the sum one, and each index is
entitled to its share of the seats: the whole part of that at once, and one seat more for the
indices with the largest remainders as long as seats are left. Among equal remainders a draw
decides, made anew for every index and every distribution, so that no index is favoured. Counts that
do not add up to the seats are never handed out: there the computation stops.

All of it is binary floating point, rounded at each step as `Numeric.Binary` says.
-/

namespace Rehome

open Numeric (Binary64 Binary)
open Chance (Source)

namespace Apportion

/-! ## Shares -/

/-- Weights are finite and not below zero. Minus zero is a weight. -/
def isWeight (w : Binary64) : Bool := w.isFinite && !w.lt (.signedZero false)

/-- The first value that is no weight, with its index. -/
def firstInvalid? (weights : List Binary64) : Option (Nat × Binary64) :=
  (weights.zipIdx.find? fun (w, _) => !isWeight w).map fun (w, i) => (i, w)

/-- The sum, from the first weight to the last. -/
def total (weights : List Binary64) : Binary64 := weights.foldl .add (.signedZero false)

/-- The weights over their sum. -/
def shares (weights : List Binary64) : Except Rejection (List Binary64) :=
  if weights = [] then .error .noWeights
  else
    match firstInvalid? weights with
    | some (index, value) => .error (.badWeight index value)
    | none =>
      if (total weights).le (.signedZero false) then .error .zeroTotal
      else .ok (weights.map (·.div (total weights)))

/-! ## Seats -/

/-- No count of seats is larger than this. -/
def maxCount : Nat := UInt64.size - 1

/-- What an index is entitled to: whole seats and a remainder, and the draw that decides between
    equal remainders. -/
structure Entitlement where
  index : Nat
  full : Nat
  remainder : Binary64
  draw : Binary64

/-- The entitlement of one index to its share of the seats. -/
def Entitlement.ofShare (seats : Nat) (index : Nat) (share draw : Binary64) : Entitlement :=
  let exact := share.mul (.ofNat seats)
  { index
    full := exact.floor.toNatClamped maxCount
    remainder := exact.sub exact.floor
    draw }

/-- The larger remainder comes first, of equal ones the larger draw; otherwise the order stays. -/
def Entitlement.before (a b : Entitlement) : Bool :=
  if a.remainder.totalRank = b.remainder.totalRank then
    decide (b.draw.totalRank ≤ a.draw.totalRank)
  else decide (b.remainder.totalRank < a.remainder.totalRank)

/-- The indices that get a seat more, as many as seats are left over. -/
def extraIndices (seats : Nat) (entitlements : List Entitlement) : List Nat :=
  let leftover := seats - entitlements.foldl (fun n e => n + e.full) 0
  ((entitlements.mergeSort Entitlement.before).take leftover).map (·.index)

/-- The seats of each index. -/
def counts (seats : Nat) (entitlements : List Entitlement) : List Nat :=
  let extra := extraIndices seats entitlements
  entitlements.map fun e => if e.index ∈ extra then e.full + 1 else e.full

/-- The entitlements of all indices, from their shares and draws. -/
def entitlements (seats : Nat) (shares draws : List Binary64) : List Entitlement :=
  (shares.zip draws).zipIdx.map fun ((share, draw), index) => .ofShare seats index share draw

/-- The seats of each index by its share, with a draw made for each. -/
def handOut {σ : Type} (source : Source σ) (shares : List Binary64) (seats : Nat) (s : σ) :
    List Nat × σ :=
  let (draws, s) := source.draws shares.length s
  (counts seats (entitlements seats shares draws), s)

end Apportion

/-- Distribute seats between weights. One draw is made for each weight, and none when the weights
    are rejected. Of the counts it is asserted that they add up to the seats. -/
def apportion {σ : Type} (source : Source σ) (weights : List Binary64) (seats : Nat) (s : σ) :
    Except Halt (Except Rejection (List Nat) × σ) :=
  match Apportion.shares weights with
  | .error e => .ok (.error e, s)
  | .ok shares =>
    let (counts, s) := Apportion.handOut source shares seats s
    if counts.foldl (· + ·) 0 = seats then .ok (.ok counts, s) else .error .miscount

end Rehome
