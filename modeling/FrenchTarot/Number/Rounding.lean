/-!
# Numbers of few significant bits

A number that is kept with a limited number of significant bits is replaced by the nearest one that
has no more of them.  Halfway between two of those, the one whose last bit is zero is taken.  A
number that fits the limit stays what it is.
-/

namespace FrenchTarot.Number

/-- The multiple of `unit` that is nearest to a number; halfway, the even multiple. -/
def nearestMultiple (unit n : Nat) : Nat :=
  let count := n / unit
  let excess := n % unit
  if unit < 2 * excess || (2 * excess = unit && count % 2 = 1) then (count + 1) * unit
  else count * unit

/-- A number rounded to `bits` significant bits. -/
def roundToBits (bits n : Nat) : Nat :=
  nearestMultiple (Nat.pow 2 (n.log2 + 1 - bits)) n

theorem nearestMultiple_one (n : Nat) : nearestMultiple 1 n = n := by
  simp [nearestMultiple, Nat.mod_one]

theorem roundToBits_of_log2_lt {bits n : Nat} (h : n.log2 < bits) : roundToBits bits n = n := by
  have no_bit_lost : n.log2 + 1 - bits = 0 := by omega
  rw [roundToBits, no_bit_lost]
  exact nearestMultiple_one n

end FrenchTarot.Number
