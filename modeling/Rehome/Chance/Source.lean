import Rehome.Numeric.Binary
import Rehome.Chance.ChaCha

/-!
# Sources of random words

A source hands out words of 64 and of 32 bits and keeps a state in between. All that draws from
one is written for any source, so its laws hold whatever the words are. Three sources come with
the library: a counter, a list of words that starts over at its end, and the stream of a seed.
-/

namespace Rehome.Chance

/-- The widths that words are handed out in: 32 bits and 64. -/
inductive Width where
  | short
  | long
  deriving DecidableEq

/-- How many words of a width there are. -/
def Width.words : Width → Nat
  | .short => UInt32.size
  | .long => UInt64.size

/-- How words are taken from a state. -/
structure Source (σ : Type) where
  next64 : σ → UInt64 × σ
  next32 : σ → UInt32 × σ

namespace Source

variable {σ : Type}

/-- A source of words of 64 bits, whose words of 32 bits are the low halves of those. -/
def ofNext64 (next64 : σ → UInt64 × σ) : Source σ where
  next64 := next64
  next32 s := ((next64 s).1.toUInt32, (next64 s).2)

/-- A source of words of 32 bits, two of which make one of 64, the low half first. -/
def ofNext32 (next32 : σ → UInt32 × σ) : Source σ where
  next64 s :=
    let (low, s) := next32 s
    let (high, s) := next32 s
    (high.toUInt64 <<< 32 ||| low.toUInt64, s)
  next32 := next32

/-- The next word of a width, as a number. -/
def next (source : Source σ) : Width → σ → Nat × σ
  | .short, s => ((source.next32 s).1.toNat, (source.next32 s).2)
  | .long, s => ((source.next64 s).1.toNat, (source.next64 s).2)

/-- A number from zero up to but without one, a multiple of `2 ^ -53`: the highest 53 bits of a
    word. -/
def draw (source : Source σ) (s : σ) : Numeric.Binary64 × σ :=
  let (word, s) := source.next64 s
  (.ofQuotient (word >>> 11).toNat (1 <<< 53), s)

/-- So many draws, in order. -/
def draws (source : Source σ) : Nat → σ → List Numeric.Binary64 × σ
  | 0, s => ([], s)
  | n + 1, s =>
    let (x, s) := source.draw s
    let (xs, s) := source.draws n s
    (x :: xs, s)

end Source

/-- The state of a source that comes with the library. -/
inductive Generator where
  /-- Gives the value and then adds the increment to it, modulo `2 ^ 64`. -/
  | counter (value increment : UInt64)
  /-- Gives the words in turn, over and over. -/
  | cycle (words : List UInt64)
  /-- Gives the words of a stream. -/
  | stream (place : ChaCha.Stream)

namespace Generator

/-- The stream of a seed. -/
def seeded (seed : UInt64) : Generator := .stream (.ofSeed seed)

/-- The next word of 64 bits. -/
def next64 : Generator → UInt64 × Generator
  | .counter value increment => (value, .counter (value + increment) increment)
  | .cycle [] => (0, .cycle [])
  | .cycle (word :: words) => (word, .cycle (words ++ [word]))
  | .stream place =>
    let (word, place) := (Source.ofNext32 ChaCha.Stream.next).next64 place
    (word, .stream place)

/-- The next word of 32 bits. -/
def next32 : Generator → UInt32 × Generator
  | .stream place =>
    let (word, place) := place.next
    (word, .stream place)
  | generator => (Source.ofNext64 next64).next32 generator

/-- The sources that come with the library, as one. -/
def source : Source Generator := ⟨next64, next32⟩

end Generator

end Rehome.Chance
