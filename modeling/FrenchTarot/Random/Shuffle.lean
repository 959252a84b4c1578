import FrenchTarot.Random.Range

/-!
# Shuffling

A list is shuffled by swapping the element at every position, from the first on, with an element at
a position not above it.  Those positions come in bundles: one number drawn below the product of
several successive bounds is split into one position for each of them.
-/

namespace FrenchTarot

/-- A source of positions: the next one is at most `count`. -/
structure PositionSource where
  count : Nat
  /-- What is left of the number drawn last. -/
  chunk : Nat
  /-- How many positions that number still has to give. -/
  left : Nat
  deriving DecidableEq, Repr

namespace PositionSource

/-- The first position is 0 without a draw. -/
def start : PositionSource := ⟨0, 0, 1⟩

/-- Multiplies `product` by `m`, `m + 1` and so on while the result has 32 bits; also tells how many
factors were taken.  Factors are at least 3, so there are fewer than 32 of them. -/
def bundle (product m : Nat) : Nat → Nat × Nat
  | 0 => (product, 0)
  | limit + 1 =>
    if product * m < UInt32.size then
      let (total, taken) := bundle (product * m) (m + 1) limit
      (total, taken + 1)
    else (product, 0)

/-- Gives the next position; draws a number when the last one is used up. -/
def next (p : PositionSource) (g : Generator) : Nat × PositionSource × Generator :=
  let m := p.count + 1
  let (chunk, left, g) :=
    if p.left = 0 then
      let (bound, more) := bundle m (m + 1) 32
      let (chunk, g) := g.below bound
      (chunk, more + 1, g)
    else (p.chunk, p.left, g)
  -- The last position of a bundle is all that is left of its number.
  if left = 1 then (chunk, ⟨m, chunk, 0⟩, g)
  else (chunk % m, ⟨m, chunk / m, left - 1⟩, g)

end PositionSource

namespace Generator

/-- Swaps the elements at `steps` positions from `i` on, each with one at a position drawn. -/
def shuffleFrom {α : Type} (xs : Array α) (i : Nat) (p : PositionSource) (g : Generator) :
    Nat → Array α × Generator
  | 0 => (xs, g)
  | steps + 1 =>
    let (j, p, g) := p.next g
    shuffleFrom (xs.swapIfInBounds i j) (i + 1) p g steps

def shuffle {α : Type} (xs : List α) (g : Generator) : List α × Generator :=
  let (ys, g) := shuffleFrom xs.toArray 0 .start g xs.length
  (ys.toList, g)

/-- What shuffling makes of a list. -/
def shuffled {α : Type} (xs : List α) (g : Generator) : List α := (shuffle xs g).1

end Generator

end FrenchTarot
