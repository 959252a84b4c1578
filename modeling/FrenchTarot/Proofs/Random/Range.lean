import FrenchTarot.Random.Range

/-!
# Numbers stay below their bound

A word is scaled by taking the high half of its product with the bound, and a second word may carry
into it.  The carry does no harm: a high half that is the greatest number allowed leaves a low half
that is too small to ask for a second word.
-/

namespace FrenchTarot.Generator

theorem next32_lt (g : Generator) : g.next32.1 < UInt32.size := UInt32.toNat_lt_size _

/-- **A scaled word is below the bound.** -/
theorem scale_lt {modulus bound : Nat} {draw : Generator → Nat × Generator}
    (hdraw : ∀ g, (draw g).1 < modulus) (hb : 0 < bound) (g : Generator) :
    (scale modulus draw bound g).1 < bound := by
  have hx := hdraw g
  have hsplit := Nat.div_add_mod ((draw g).1 * bound) modulus
  have hprod : ((draw g).1 + 1) * bound ≤ modulus * bound := Nat.mul_le_mul_right bound hx
  rw [Nat.succ_mul] at hprod
  -- The high half is below the bound, since the word is below the modulus.
  have hhigh : (draw g).1 * bound / modulus < bound := by
    refine (Nat.div_lt_iff_lt_mul (by omega)).mpr ?_
    rw [Nat.mul_comm bound]
    omega
  have hcarry : modulus - bound < (draw g).1 * bound % modulus →
      (draw g).1 * bound / modulus + 1 < bound := by
    intro hlow
    refine Nat.lt_of_not_le fun htop => ?_
    have htop : modulus * bound ≤ modulus * ((draw g).1 * bound / modulus + 1) :=
      Nat.mul_le_mul_left modulus (by omega)
    rw [Nat.mul_succ] at htop
    omega
  unfold scale
  dsimp only
  split
  · rename_i hlow
    have := hcarry hlow
    dsimp only
    split <;> omega
  · exact hhigh

theorem below_lt {bound : Nat} (hb : 0 < bound) (g : Generator) : (below bound g).1 < bound :=
  scale_lt next32_lt hb g

/-- **One of the elements of a list is chosen, if there are any.** -/
theorem choose_mem {α : Type} {xs : List α} (h : xs ≠ []) (g : Generator) :
    ∃ x ∈ xs, (choose xs g).1 = some x := by
  have hlt := below_lt (List.length_pos_iff.mpr h) g
  refine ⟨xs[(g.below xs.length).1], List.getElem_mem hlt, ?_⟩
  unfold choose
  rw [if_neg (by simpa using h)]
  exact List.getElem?_eq_getElem hlt

end FrenchTarot.Generator
