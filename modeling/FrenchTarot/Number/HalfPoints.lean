import FrenchTarot.Number.Rounding

/-!
# Half points as points

Card points are counted in halves and shown as points.  What is shown is the count with 24
significant bits: the exact number for all counts below 2²⁴, and so for every deal, and a rounded one
above.
-/

namespace FrenchTarot.HalfPoints

/-- The half points that are shown for a count. -/
def shown (half : Nat) : Nat := Number.roundToBits 24 half

/-- Points with one decimal, as in `45.5` and `45.0`. -/
def text (half : Nat) : String :=
  toString (shown half / 2) ++ (if shown half % 2 = 0 then ".0" else ".5")

/-- Points with a half where there is one, as in `45.5` and `45`. -/
def shortText (half : Nat) : String :=
  toString (shown half / 2) ++ (if shown half % 2 = 0 then "" else ".5")

end FrenchTarot.HalfPoints
