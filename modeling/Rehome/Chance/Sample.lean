import Rehome.Chance.Range

/-!
# Samples without replacement

`Source.sample` chooses some of the positions `0 … length - 1`, each set of that many positions
as likely as any other. One of three methods does it, by what is cheaper: picking one position
for each of the last ones and falling back to that one when it is taken, drawing until a position
is new, or shuffling the front of the list of all positions. The choice of method compares costs
in binary floating point of 32 bits. Positions that are more than a word of 32 bits can tell apart
are always drawn until they are new, by words of 64.
-/

namespace Rehome.Chance.Source

variable {σ : Type}

/-- For each position of `upTo`, draw one that is not above it; if it is taken, take the position
    itself. -/
def pickUpTo (source : Source σ) (tries : Nat) :
    List Nat → List Nat → σ → Option (List Nat × σ)
  | [], chosen, s => some (chosen, s)
  | j :: upTo, chosen, s => do
    let (t, s) ← source.below tries (j + 1) s
    source.pickUpTo tries upTo ((if t ∈ chosen then j else t) :: chosen) s

/-- The draws of a shuffle of so many items, whose order is then of no interest. -/
def shuffleDraws (source : Source σ) (tries : Nat) : Nat → σ → Option σ
  | 0, s => some s
  | 1, s => some s
  | n + 2, s => do
    let (_, s) ← source.below tries (n + 2) s
    source.shuffleDraws tries (n + 1) s

/-- Draw positions below `length` until one is not among those chosen. -/
def drawNew (source : Source σ) (width : Width) (tries length : Nat) (chosen : List Nat) :
    Nat → σ → Option (Nat × σ)
  | 0, _ => none
  | again + 1, s => do
    let (t, s) ← source.drawPart width length (sharedLimit width length) tries s
    if t ∈ chosen then source.drawNew width tries length chosen again s else some (t, s)

/-- So many positions below `length`, each drawn until it is new. -/
def drawDistinct (source : Source σ) (width : Width) (tries length : Nat) :
    Nat → List Nat → σ → Option (List Nat × σ)
  | 0, chosen, s => some (chosen, s)
  | n + 1, chosen, s => do
    let (t, s) ← source.drawNew width tries length chosen tries s
    source.drawDistinct width tries length n (t :: chosen) s

/-- Swap each of the given places with one drawn from it and those after it. -/
def shuffleFront (source : Source σ) (tries : Nat) :
    List Nat → Array Nat → σ → Option (Array Nat × σ)
  | [], positions, s => some (positions, s)
  | i :: places, positions, s => do
    let (t, s) ← source.below tries (positions.size - i) s
    source.shuffleFront tries places (positions.swapIfInBounds i (i + t)) s

/-- The ways to take a sample. Positions that are drawn until they are new are drawn by words of a
    width. -/
inductive Method where
  | pick
  | reject (width : Width)
  | shuffle
  deriving DecidableEq

/-- What a method costs where a shuffle of all positions costs one for each. -/
structure Method.Costs where
  /-- To pick a position, with none picked before. -/
  picked : Numeric.Binary32
  /-- What picking one costs more for each position. -/
  comparison : Numeric.Binary32
  /-- To draw a position until it is new. -/
  drawn : Numeric.Binary32

/-- The costs for a length. All positions of a longer list are dearer to shuffle. -/
def Method.costs (length : Nat) : Method.Costs :=
  if length < 500000 then ⟨.ofNat 10, .ofQuotient 16 10, .ofNat 270⟩
  else ⟨.ofQuotient 70 9, .ofQuotient 8 45, .ofQuotient 330 9⟩

/-- The method for so many positions out of so many. -/
def Method.choose (amount length : Nat) : Method :=
  let size : Numeric.Binary32 := .ofNat length
  let count : Numeric.Binary32 := .ofNat amount
  let costs := Method.costs length
  if UInt32.size ≤ length then .reject .long
  else if amount < 163 then
    let cost := (costs.picked.add (costs.comparison.mul count)).mul count
    if 11 < amount ∧ size.lt cost then .shuffle else .pick
  else if size.lt (costs.drawn.mul count) then .shuffle
  else .reject .short

/-- Choose `amount` of the positions below `length` by one of the methods. Of interest is the set
    that they form. -/
def sampleBy (source : Source σ) (method : Method) (tries amount length : Nat) (s : σ) :
    Option (List Nat × σ) :=
  match method with
  | .pick => do
    let upTo := (List.range amount).map (length - amount + ·)
    let (chosen, s) ← source.pickUpTo tries upTo [] s
    if amount < 50 then some (chosen, s)
    else (source.shuffleDraws tries amount s).map (chosen, ·)
  | .reject width => source.drawDistinct width tries length amount [] s
  | .shuffle => do
    let (positions, s) ← source.shuffleFront tries (List.range amount) (Array.range length) s
    some (positions.toList.take amount, s)

/-- Choose `amount` of the positions below `length` by the method for so many. -/
def sample (source : Source σ) (tries amount length : Nat) (s : σ) : Option (List Nat × σ) :=
  source.sampleBy (Method.choose amount length) tries amount length s

end Rehome.Chance.Source
