import Rehome.Apportion
import Rehome.Chance.Sample

/-!
# Partition — which items move and which stay

A ratio splits a list of items into two groups. How many move is apportioned, so it is off the
exact share by less than one; which of them move is sampled. Both groups keep the order of the
list.
-/

namespace Rehome

open Numeric (Binary64 Binary)
open Chance (Source)

/-- Two groups that a list was split into. -/
structure Partition (α : Type) where
  transfer : List α
  retain : List α
  deriving DecidableEq

/-- Ratios are finite and from zero to one; minus zero is one of them. -/
def isRatio (ratio : Binary64) : Bool :=
  ratio.isFinite && Binary.le (.signedZero false) ratio && ratio.le (.ofNat 1)

/-- How many of `length` items a ratio entitles to move. -/
def transferSize {σ : Type} (source : Source σ) (length : Nat) (ratio : Binary64) (s : σ) :
    Except Halt (Except Rejection Nat × σ) :=
  if isRatio ratio then do
    let (counts, s) ← apportion source [ratio, (Binary.ofNat 1).sub ratio] length s
    return (counts.map (·.headD 0), s)
  else .ok (.error (.badRatio ratio), s)

/-- The items at the chosen positions, and the others. -/
def Partition.ofPositions {α : Type} (items : List α) (chosen : List Nat) : Partition α :=
  let (transfer, retain) := items.zipIdx.partition fun (_, i) => chosen.contains i
  { transfer := transfer.map (·.1), retain := retain.map (·.1) }

/-- Split a list so that a ratio of it moves. It also stops if for one draw of the sample `tries`
    words in a row had to be thrown away. -/
def partition {σ α : Type} (source : Source σ) (tries : Nat) (items : List α) (ratio : Binary64)
    (s : σ) : Except Halt (Except Rejection (Partition α) × σ) :=
  match transferSize source items.length ratio s with
  | .error halt => .error halt
  | .ok (.error e, s) => .ok (.error e, s)
  | .ok (.ok count, s) =>
    match source.sample tries count items.length s with
    | none => .error .noSample
    | some (chosen, s) => .ok (.ok (.ofPositions items chosen), s)

end Rehome
