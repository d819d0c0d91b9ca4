import CoupTable.Random.Pcg

/-!
# Uniform draws

A number below `n` is drawn by multiplying a random word with `n` and keeping the high part of the
product; a product whose low part falls outside the largest whole number of intervals is drawn
again, which makes the result uniform. A draw is made even for `n = 1`.

A try fails with a chance below one half, whatever came before it. The number of tries is bounded
by `tries`, far beyond what any draw needs, and after that a draw counts as it is: the result is
below `n` in every case.
-/

namespace CoupTable.Pcg

/-- How often a draw may be repeated. -/
def tries : Nat := 4096

/-- How many words of `width` bits there are. -/
def wordCount (width : Nat) : Nat := 1 <<< width

/-- The greatest low part that counts when a number below `n` is drawn from words of `width`
bits. -/
def zone (width n : Nat) : Nat :=
  (n <<< (width - 1 - n.log2)) - 1

/-- Draws words of `width` bits until one gives a number below `n`. -/
def drawBelow (width n : Nat) : Nat → Pcg → Nat × Pcg
  | 0, g =>
    let (bits, g) := g.next
    (bits.toNat % wordCount width * n / wordCount width, g)
  | fuel + 1, g =>
    let (bits, g) := g.next
    let product := bits.toNat % wordCount width * n
    if product % wordCount width ≤ zone width n then (product / wordCount width, g)
    else drawBelow width n fuel g

/-- A number drawn below `n` is below `n`. -/
theorem drawBelow_lt {width n : Nat} (hn : 0 < n) (fuel : Nat) (g : Pcg) :
    (g.drawBelow width n fuel).1 < n := by
  have hcount : 0 < wordCount width := by
    rw [wordCount, Nat.one_shiftLeft]
    exact Nat.two_pow_pos width
  have hlt : ∀ word : Nat, word % wordCount width * n / wordCount width < n := by
    intro word
    rw [Nat.div_lt_iff_lt_mul hcount, Nat.mul_comm n]
    exact Nat.mul_lt_mul_of_pos_right (Nat.mod_lt word hcount) hn
  induction fuel generalizing g with
  | zero => exact hlt _
  | succ fuel ih =>
    unfold drawBelow
    dsimp only
    split
    · exact hlt _
    · exact ih _

/-- A uniform number below `n`, from whole words of 64 bits. -/
def below (g : Pcg) (n : Nat) : Nat × Pcg :=
  drawBelow 64 n tries g

/-- A number drawn below `n` from whole words is below `n`. -/
theorem below_lt (g : Pcg) {n : Nat} (hn : 0 < n) : (g.below n).1 < n := by
  unfold below
  -- `tries` is far too many to count down
  generalize tries = fuel
  exact drawBelow_lt hn fuel g

/-- A uniform number below `n`, from the low 32 bits of each word. -/
def belowShort (g : Pcg) (n : Nat) : Nat × Pcg :=
  drawBelow 32 n tries g

/-- Whether an event with one chance in five happens. -/
def oneInFive (g : Pcg) : Bool × Pcg :=
  let (bits, g) := g.next
  (bits.toNat < 3689348814741910528, g)

end CoupTable.Pcg

namespace CoupTable

variable {α : Type}

/-- Puts `a` into the list in exchange for its member number `i`, counted from one; `0` stands for
`a` itself, and nothing changes. -/
def swapInto (a : α) (l : List α) : Nat → α × List α
  | 0 => (a, l)
  | i + 1 =>
    match l[i]? with
    | some b => (b, l.set i a)
    | none => (a, l)

/-- Shuffles a list. The first place is settled first: what stands there changes places with a
member drawn from the whole list, counted from the far end. The rest is then shuffled likewise. -/
def shuffle (l : List α) (g : Pcg) : List α × Pcg :=
  go l.length l g
where
  /-- Settles `n` places, or all but the last. -/
  go : Nat → List α → Pcg → List α × Pcg
    | n + 1, a :: b :: l, g =>
      let draw := g.belowShort (l.length + 2)
      let swapped := swapInto a (b :: l) (l.length + 1 - draw.1)
      let rest := go n swapped.2 draw.2
      (swapped.1 :: rest.1, rest.2)
    | _, l, g => (l, g)

end CoupTable
