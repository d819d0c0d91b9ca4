/-!
# The random generator

A permuted congruential generator with 128 bits of state and 64 bits of output: the state runs
through a linear congruence, and a draw folds its two halves together and rotates the result by the
state's own top bits. A seed of 64 bits is spread over the state by a smaller generator of the same
family.
-/

namespace CoupTable

/-- A generator: where it stands, and the odd increment that tells its sequence from others. -/
structure Pcg where
  /-- Where the generator stands. -/
  state : BitVec 128
  /-- What each step adds. -/
  increment : BitVec 128
deriving DecidableEq, Repr

namespace Pcg

/-- The factor of the congruence. -/
def factor : BitVec 128 := 0x2360ED051FC65DA44385DF649FCCF645

/-- The generator one step on. -/
def step (g : Pcg) : Pcg :=
  { g with state := g.state * factor + g.increment }

/-- The next 64 bits, and the generator after them. -/
def next (g : Pcg) : BitVec 64 × Pcg :=
  let g := g.step
  let folded := g.state.setWidth 64 ^^^ (g.state >>> 64).setWidth 64
  (folded.rotateRight (g.state >>> 122).toNat, g)

/-- The first words of 32 bits that the seeding generator gives from its state `s`. -/
def seedWords : Nat → BitVec 64 → List (BitVec 32)
  | 0, _ => []
  | n + 1, s =>
    let s := s * 6364136223846793005 + 11634580027462260723
    let word := (((s >>> 18) ^^^ s) >>> 27).setWidth 32
    word.rotateRight (s >>> 59).toNat :: seedWords n s

/-- The number whose base `2^32` digits are the words, the least first. -/
def joinWords (words : List (BitVec 32)) : BitVec 128 :=
  words.foldr (fun word rest => rest <<< 32 ||| word.setWidth 128) 0

/-- The generator of eight words: the first four say where it starts, and the others, as an odd
number, what each step adds. -/
def ofWords (words : List (BitVec 32)) : Pcg :=
  let increment := joinWords (words.drop 4) ||| 1
  step { state := joinWords (words.take 4) + increment, increment }

/-- The generator of a seed. -/
def ofSeed (seed : Nat) : Pcg := ofWords (seedWords 8 (BitVec.ofNat 64 seed))

end Pcg

end CoupTable
