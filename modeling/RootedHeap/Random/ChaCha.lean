import RootedHeap.Random.Draws

/-!
ChaCha with twelve rounds as a generator. A block is the scrambled sum of a constant, a key of eight
words and a counter; the words of the blocks 0, 1, 2, … are drawn in order. A number below `n` is
the upper half of a word times `n`; where the lower half leaves the rounding open, the next word
settles it.
-/

namespace RootedHeap

/-- A generator: its key, the number of the next block, and the unused words of the last one. -/
structure ChaCha where
  key : List UInt32
  block : Nat
  unused : List UInt32

namespace ChaCha

abbrev Block := Array UInt32

def word (s : Block) (i : Nat) : UInt32 := s[i]?.getD 0

/-- A word turned left by `n` bits, for `n` from 1 to 31. -/
def rotateLeft (w n : UInt32) : UInt32 := (w <<< n) ||| (w >>> (32 - n))

/-- A word turned right by `n` bits. -/
def rotateRight (w n : UInt32) : UInt32 := if n = 0 then w else rotateLeft w (32 - n)

/-- Adds one word to another, and turns a third by the sum. -/
def addTurn (s : Block) (into from' turned : Nat) (n : UInt32) : Block :=
  let sum := word s into + word s from'
  (s.setIfInBounds into sum).setIfInBounds turned (rotateLeft (word s turned ^^^ sum) n)

def quarter (s : Block) (a b c d : Nat) : Block :=
  let s := addTurn s a b d 16
  let s := addTurn s c d b 12
  let s := addTurn s a b d 8
  addTurn s c d b 7

/-- Two rounds: the columns, then the diagonals. -/
def doubleRound (s : Block) : Block :=
  let s := quarter s 0 4 8 12
  let s := quarter s 1 5 9 13
  let s := quarter s 2 6 10 14
  let s := quarter s 3 7 11 15
  let s := quarter s 0 5 10 15
  let s := quarter s 1 6 11 12
  let s := quarter s 2 7 8 13
  quarter s 3 4 9 14

def span : Nat := 0x100000000

def constants : List UInt32 := [0x61707865, 0x3320646e, 0x79622d32, 0x6b206574]

/-- A block before the rounds. -/
def start (key : List UInt32) (block : Nat) : Block :=
  (constants ++ key ++ [UInt32.ofNat block, UInt32.ofNat (block / span), 0, 0]).toArray

/-- A block after twelve rounds, added to itself before them. -/
def scrambled (key : List UInt32) (block : Nat) : List UInt32 :=
  let before := start key block
  let after := (List.range 6).foldl (fun s _ => doubleRound s) before
  List.zipWith (· + ·) before.toList after.toList

/-- The first `n` words of the key of a seed. -/
def keyWords : (n : Nat) → (state : UInt64) → List UInt32
  | 0, _ => []
  | n + 1, state =>
    let state := state * 6364136223846793005 + 11634580027462260723
    let mixed := (((state >>> 18) ^^^ state) >>> 27).toUInt32
    rotateRight mixed (state >>> 59).toUInt32 :: keyWords n state

/-- The generator of a seed. -/
def ofSeed (seed : UInt64) : ChaCha := ⟨keyWords 8 seed, 0, []⟩

def next (g : ChaCha) : UInt32 × ChaCha :=
  match g.unused with
  | w :: rest => (w, { g with unused := rest })
  | [] =>
    let words := scrambled g.key g.block
    (words.headD 0, { g with block := g.block + 1, unused := words.tail })

/-- A number below `n`, for `n` from 1 to 2³². -/
def below (g : ChaCha) (n : Nat) : Nat × ChaCha :=
  let (w, g) := g.next
  let product := w.toNat * n
  let high := product / span
  let low := product % span
  if span - n < low then
    let (w, g) := g.next
    let carry := w.toNat * n / span
    (if span ≤ low + carry then high + 1 else high, g)
  else (high, g)

end ChaCha

instance : Draws ChaCha where
  below := ChaCha.below

end RootedHeap
