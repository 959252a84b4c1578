import FrenchTarot.Random.Keystream

/-!
# Numbers below a bound

A word that is drawn evenly among `modulus` values is scaled to a number below a bound by taking the
high half of its product with the bound.  When the low half is so large that a finer word could
carry into the high half, a second word decides that carry.
-/

namespace FrenchTarot.Generator

/-- Draws a word of 32 bits as a number. -/
def next32 (g : Generator) : Nat × Generator :=
  let (x, g) := g.next
  (x.toNat, g)

/-- Draws a word of 64 bits as a number, the low half first. -/
def next64 (g : Generator) : Nat × Generator :=
  let (low, g) := g.next32
  let (high, g) := g.next32
  (high * UInt32.size + low, g)

/-- Scales what `draw` gives, a number below `modulus`, to a number below `bound`. -/
def scale (modulus : Nat) (draw : Generator → Nat × Generator) (bound : Nat) (g : Generator) :
    Nat × Generator :=
  let (x, g) := draw g
  let high := x * bound / modulus
  let low := x * bound % modulus
  if modulus - bound < low then
    -- Only here can the second word carry into the result.
    let (y, g) := draw g
    (if modulus ≤ low + y * bound / modulus then high + 1 else high, g)
  else (high, g)

/-- Draws a number below a bound of at most 32 bits. -/
def below (bound : Nat) (g : Generator) : Nat × Generator := scale UInt32.size next32 bound g

/-- Draws a number from `low` to `high`, both included, which have up to 64 bits. -/
def between (low high : Nat) (g : Generator) : Nat × Generator :=
  let size := high - low + 1
  if UInt64.size ≤ size then g.next64
  else
    let (k, g) := scale UInt64.size next64 size g
    (low + k, g)

/-- Draws an element of a list; nothing is drawn from an empty list. -/
def choose {α : Type} (xs : List α) (g : Generator) : Option α × Generator :=
  if xs.isEmpty then (none, g)
  else
    let (k, g) := g.below xs.length
    (xs[k]?, g)

end FrenchTarot.Generator
