import Rehome.Chance.Source

/-!
# Even draws from a range

A word times the size of a range falls, in steps of the number of all words of its width, into one
of as many parts as the range has members. The parts do not hold equally many words, so words whose
product leaves too large a remainder are thrown away and another is drawn.

Any number of words may have to be thrown away. The functions here take the number of words that
may be tried for one draw, and give nothing when all of them were thrown away.
-/

namespace Rehome.Chance.Source

variable {σ : Type}

/-- Draw words until the remainder of one is at most the limit, and give its part. -/
def drawPart (source : Source σ) (width : Width) (size limit : Nat) : Nat → σ → Option (Nat × σ)
  | 0, _ => none
  | tries + 1, s =>
    let (word, s) := source.next width s
    let product := word * size
    if product % width.words ≤ limit then some (product / width.words, s)
    else source.drawPart width size limit tries s

/-- The largest remainder accepted in a single draw: the size, shifted up as far as 32 bits
    allow, less one. -/
def singleLimit (size : Nat) : Nat := size <<< (31 - Nat.log2 size) - 1

/-- A number below `size`, by words of 32 bits. -/
def below (source : Source σ) (tries size : Nat) (s : σ) : Option (Nat × σ) :=
  source.drawPart .short size (singleLimit size) tries s

/-- The largest remainder accepted when many draws share a range: all but the words by which the
    number of all words exceeds a multiple of the size. -/
def sharedLimit (width : Width) (size : Nat) : Nat := width.words - 1 - width.words % size

end Rehome.Chance.Source
