/-!
# The stream of ChaCha with twelve rounds

A key of eight words is expanded, block by block, into a stream of words. A block comes from a
grid of sixteen words: four constants, the key, a counter of 64 bits and two zero words. Twelve
rounds mix the grid, and the grid before mixing is added to the grid after it.

`Stream.ofSeed` stretches a seed of 64 bits to a key with a linear congruential generator.
-/

namespace Rehome.Chance.ChaCha

/-- The sixteen words of a block. -/
abbrev Grid := Vector UInt32 16

/-- Rotation to the left. -/
def rotateLeft (x n : UInt32) : UInt32 := x <<< n ||| x >>> (32 - n)

/-- Mix four words of the grid. -/
def quarterRound (a b c d : Fin 16) (g : Grid) : Grid :=
  let g := g.set a (g[a] + g[b])
  let g := g.set d (rotateLeft (g[d] ^^^ g[a]) 16)
  let g := g.set c (g[c] + g[d])
  let g := g.set b (rotateLeft (g[b] ^^^ g[c]) 12)
  let g := g.set a (g[a] + g[b])
  let g := g.set d (rotateLeft (g[d] ^^^ g[a]) 8)
  let g := g.set c (g[c] + g[d])
  g.set b (rotateLeft (g[b] ^^^ g[c]) 7)

/-- A round on the columns of the grid and a round on its diagonals. -/
def doubleRound (g : Grid) : Grid :=
  let g := quarterRound 0 4 8 12 g
  let g := quarterRound 1 5 9 13 g
  let g := quarterRound 2 6 10 14 g
  let g := quarterRound 3 7 11 15 g
  let g := quarterRound 0 5 10 15 g
  let g := quarterRound 1 6 11 12 g
  let g := quarterRound 2 7 8 13 g
  quarterRound 3 4 9 14 g

/-- The key of a stream. -/
abbrev Key := Vector UInt32 8

/-- The grid of a block before mixing. The counter has its low half first. -/
def start (key : Key) (counter : UInt64) : Grid :=
  #v[0x61707865, 0x3320646e, 0x79622d32, 0x6b206574,
    key[0], key[1], key[2], key[3], key[4], key[5], key[6], key[7],
    counter.toUInt32, (counter >>> 32).toUInt32, 0, 0]

/-- A block of the stream. -/
def block (key : Key) (counter : UInt64) : Grid :=
  let before := start key counter
  let after := Nat.repeat doubleRound 6 before
  Vector.zipWith (· + ·) after before

/-- A place in a stream: the key, the number of the next block and what is left of the current
    one. -/
structure Stream where
  key : Key
  counter : UInt64
  rest : List UInt32

namespace Stream

/-- The next word of the stream. -/
def next (s : Stream) : UInt32 × Stream :=
  match s.rest with
  | word :: rest => (word, { s with rest })
  | [] =>
    let words := block s.key s.counter
    (words[0], { s with counter := s.counter + 1, rest := words.toList.tail })

/-- One step of the generator that stretches a seed. -/
def stretch (state : UInt64) : UInt64 := state * 6364136223846793005 + 11634580027462260723

/-- The word that a state of that generator gives: two shifts, and a rotation to the right by its
    five highest bits. -/
def keyWord (state : UInt64) : UInt32 :=
  let x : UInt32 := (((state >>> 18) ^^^ state) >>> 27).toUInt32
  let right : UInt32 := (state >>> 59).toUInt32
  rotateLeft x (32 - right)

/-- The stream of a seed, from its first word. -/
def ofSeed (seed : UInt64) : Stream :=
  let states := Vector.ofFn fun i : Fin 8 => Nat.repeat stretch (i.val + 1) seed
  { key := states.map keyWord, counter := 0, rest := [] }

end Stream

end Rehome.Chance.ChaCha
