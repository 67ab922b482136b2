/-!
# Random streams

The ChaCha stream cipher as a source of random words.

* `Stream`: a key, a number of rounds, the number of the next block and the words left of the
  current one.
* `Stream.ofSeed`: the stream of a 64-bit seed.
* `Stream.next32`, `Stream.next64`: the next word, and the next two words with the low one first.

The words of blocks 0, 1, 2, … follow each other without a gap, so a stream is an endless list of
32-bit words.
-/

namespace LocalSearch.Random

/-- The sixteen words of a block. -/
structure Block where
  (w0 w1 w2 w3 w4 w5 w6 w7 w8 w9 w10 w11 w12 w13 w14 w15 : UInt32)

namespace Block

/-- A word turned left. -/
@[inline]
def rotate (x : UInt32) (n : UInt32) : UInt32 :=
  (x <<< n) ||| (x >>> (32 - n))

/-- The quarter round on four words. -/
@[inline]
def quarter (a b c d : UInt32) : UInt32 × UInt32 × UInt32 × UInt32 :=
  let a := a + b
  let d := rotate (d ^^^ a) 16
  let c := c + d
  let b := rotate (b ^^^ c) 12
  let a := a + b
  let d := rotate (d ^^^ a) 8
  let c := c + d
  let b := rotate (b ^^^ c) 7
  (a, b, c, d)

/-- Quarter rounds on the four columns, then on the four diagonals. -/
def doubleRound (s : Block) : Block :=
  let (a0, b0, c0, d0) := quarter s.w0 s.w4 s.w8 s.w12
  let (a1, b1, c1, d1) := quarter s.w1 s.w5 s.w9 s.w13
  let (a2, b2, c2, d2) := quarter s.w2 s.w6 s.w10 s.w14
  let (a3, b3, c3, d3) := quarter s.w3 s.w7 s.w11 s.w15
  let (a0, b1, c2, d3) := quarter a0 b1 c2 d3
  let (a1, b2, c3, d0) := quarter a1 b2 c3 d0
  let (a2, b3, c0, d1) := quarter a2 b3 c0 d1
  let (a3, b0, c1, d2) := quarter a3 b0 c1 d2
  ⟨a0, a1, a2, a3, b0, b1, b2, b3, c0, c1, c2, c3, d0, d1, d2, d3⟩

/-- The words in order, each added to the same word of another block. -/
def sumWords (s t : Block) : List UInt32 :=
  [s.w0 + t.w0, s.w1 + t.w1, s.w2 + t.w2, s.w3 + t.w3, s.w4 + t.w4, s.w5 + t.w5, s.w6 + t.w6,
    s.w7 + t.w7, s.w8 + t.w8, s.w9 + t.w9, s.w10 + t.w10, s.w11 + t.w11, s.w12 + t.w12,
    s.w13 + t.w13, s.w14 + t.w14, s.w15 + t.w15]

end Block

/-- Eight words that choose a stream. -/
structure Key where
  (k0 k1 k2 k3 k4 k5 k6 k7 : UInt32)

/-- A position in the stream of a key. -/
structure Stream where
  key : Key
  /-- Half the number of rounds. -/
  doubleRounds : Nat
  /-- The number of the next block. -/
  counter : UInt64
  /-- The words of the last block that were not used yet. -/
  pending : List UInt32

instance : Inhabited Stream := ⟨⟨⟨0, 0, 0, 0, 0, 0, 0, 0⟩, 0, 0, []⟩⟩

namespace Stream

/-- The block before the rounds: four constants, the key and the block number. -/
def start (s : Stream) : Block :=
  let k := s.key
  ⟨0x61707865, 0x3320646e, 0x79622d32, 0x6b206574, k.k0, k.k1, k.k2, k.k3, k.k4, k.k5, k.k6, k.k7,
    s.counter.toUInt32, (s.counter >>> 32).toUInt32, 0, 0⟩

/-- The words of the next block. -/
def block (s : Stream) : List UInt32 :=
  (Nat.repeat Block.doubleRound s.doubleRounds s.start).sumWords s.start

/-- One step of the generator that spreads a seed over the key: the key word and the next state. -/
def spread (state : UInt64) : UInt32 × UInt64 :=
  let state := state * 6364136223846793005 + 11634580027462260723
  let word := (((state >>> 18) ^^^ state) >>> 27).toUInt32
  let turn := (state >>> 59).toUInt32
  ((word >>> turn) ||| (word <<< ((32 - turn) % 32)), state)

/-- The stream of a seed. -/
def ofSeed (doubleRounds : Nat) (seed : UInt64) : Stream :=
  let (k0, s) := spread seed
  let (k1, s) := spread s
  let (k2, s) := spread s
  let (k3, s) := spread s
  let (k4, s) := spread s
  let (k5, s) := spread s
  let (k6, s) := spread s
  let (k7, _) := spread s
  ⟨⟨k0, k1, k2, k3, k4, k5, k6, k7⟩, doubleRounds, 0, []⟩

/-- The stream that drives a search: twelve rounds. -/
def standard (seed : UInt64) : Stream := ofSeed 6 seed

/-- The stream that decides on one lazy move: eight rounds. -/
def quick (seed : UInt64) : Stream := ofSeed 4 seed

/-- The next word. -/
def next32 (s : Stream) : UInt32 × Stream :=
  match s.pending with
  | word :: rest => (word, { s with pending := rest })
  | [] =>
    match s.block with
    | word :: rest => (word, { s with counter := s.counter + 1, pending := rest })
    | [] => (0, s)

/-- The next two words as one, the low one first. -/
def next64 (s : Stream) : UInt64 × Stream :=
  let (low, s) := s.next32
  let (high, s) := s.next32
  (low.toUInt64 ||| (high.toUInt64 <<< 32), s)

end Stream

end LocalSearch.Random
