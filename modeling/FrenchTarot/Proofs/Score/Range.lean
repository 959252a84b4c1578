import FrenchTarot.Proofs.Deal.Fool
import FrenchTarot.Proofs.Deal.Outcome
import FrenchTarot.Proofs.Score.Standings
import Mathlib.Algebra.Order.BigOperators.Group.List

/-!
# How large a score can be

Totals are added up in 32 bits, so that a game must not be too long for them.  What a single deal
brings is bounded: its cards are those of the deck (`Over.possible`), and this bounds the distance
to the target, the unit and what a seat wins (`Possible.natAbs_seatScores_le`).

So the totals of half a million deals are in range, whatever happens in them (`inInt32_sum`).
-/

namespace FrenchTarot

namespace Points

/-- The figures that a deal can come to. -/
structure Possible (p : Points) : Prop where
  halfPoints : p.cardHalfPoints ≤ 182
  oudlers : p.oudlers ≤ 3
  points : 0 ≤ p.pointsAttack ∧ p.pointsAttack ≤ 91
  attackHandle : 0 ≤ p.attackHandlePoints ∧ p.attackHandlePoints ≤ 40
  defenseHandle : 0 ≤ p.defenseHandlePoints ∧ p.defenseHandlePoints ≤ 40

end Points

namespace DealState

theorem foolCredit_nonneg (side trickOwner : Option Team) (team : Team) :
    0 ≤ foolCredit side trickOwner team := by
  rcases side with _ | _ | _ <;> rcases trickOwner with _ | _ | _ <;> cases team <;> decide

theorem accountedHalfPoints_nonneg (d : DealState) (team : Team) :
    0 ≤ d.accountedHalfPoints team := by
  have hcredit := foolCredit_nonneg d.foolSide? d.foolTrickOwner? team
  rw [accountedHalfPoints]
  omega

theorem handleBonus_bounds (handle : Cards) (n : Nat) :
    0 ≤ handleBonus handle n ∧ handleBonus handle n ≤ 40 := by
  unfold handleBonus
  cases Handle.ofSize? handle.length with
  | none => simp
  | some h =>
    dsimp only
    unfold Handle.bonus
    split
    · cases h <;> decide
    · split <;> cases h <;> decide

/-- **A deal that is over has counted cards of the deck only.** -/
theorem Over.possible {d : DealState} (h : d.Over) : d.result.Possible := by
  obtain ⟨hhalf, houdlers⟩ := h.finished.attackTotal_eq
  have hsum := h.finished.accountedHalfPoints_sum
  have hsum' := h.finished.accountedOudlers_sum
  have hdefense := d.accountedHalfPoints_nonneg .defense
  have hle : d.attackTotal.halfPoints ≤ 182 := by omega
  have hle' : d.attackTotal.oudlers ≤ 3 := by omega
  have hpoints := d.two_mul_pointsAttack
  rw [← attackTotal_halfPoints] at hpoints
  refine ⟨hle, hle', ?_, handleBonus_bounds _ _, handleBonus_bounds _ _⟩
  split at hpoints
  · omega
  · split at hpoints <;> omega

end DealState

/-! ## From the figures to the scores -/

theorem Rules.target_bounds (oudlers : Nat) : 36 ≤ target oudlers ∧ target oudlers ≤ 56 := by
  unfold target
  split <;> omega

theorem Contract.multiplier_le (c : Contract) : c.multiplier ≤ 6 := by
  cases c <;> decide

/-- No seat has more than the four units of a taker who plays alone against four. -/
theorem Bid.natAbs_share_le (b : Bid) {n : Nat} (hn : Rules.supported n) (s : Seat) :
    (b.share n s).natAbs ≤ 4 := by
  have hplayers := Rules.supported_iff.mp hn
  unfold share
  split
  · split
    · split <;> omega
    · split <;> omega
  · omega

namespace Points

theorem natAbs_littleTrumpPoints_le (p : Points) (b : Bid) :
    (p.littleTrumpPoints b).natAbs ≤ 60 := by
  have hle := b.contract.multiplier_le
  have hnonneg := b.contract.multiplier_nonneg
  unfold littleTrumpPoints littleTrumpBonus
  dsimp only
  split <;> omega

theorem natAbs_slamPoints_le (p : Points) (b : Bid) : (p.slamPoints b).natAbs ≤ 400 := by
  unfold slamPoints
  split <;> decide

variable {p : Points}

theorem Possible.natAbs_raised_le (h : p.Possible) : (raised p.difference).natAbs ≤ 81 := by
  obtain ⟨hpos, hle⟩ := h.points
  obtain ⟨hlow, hhigh⟩ := Rules.target_bounds p.oudlers
  unfold raised contractBase difference target
  split <;> omega

theorem Possible.natAbs_bonuses_le (h : p.Possible) (b : Bid) : (p.bonuses b).natAbs ≤ 500 := by
  have hlittle := p.natAbs_littleTrumpPoints_le b
  have hslam := p.natAbs_slamPoints_le b
  have hattack := h.attackHandle
  have hdefense := h.defenseHandle
  unfold bonuses
  omega

/-- Every defender pays or gets the raised distance times the contract, and the bonuses. -/
theorem Possible.natAbs_unit_le (h : p.Possible) (b : Bid) : (p.unit b).natAbs ≤ 986 := by
  have hmultiplier : b.contract.multiplier.natAbs ≤ 6 := by
    have hle := b.contract.multiplier_le
    have hnonneg := b.contract.multiplier_nonneg
    omega
  calc (p.unit b).natAbs
    _ = (raised p.difference * b.contract.multiplier + p.bonuses b).natAbs := by rw [unit_eq]
    _ ≤ (raised p.difference * b.contract.multiplier).natAbs + (p.bonuses b).natAbs :=
      Int.natAbs_add_le _ _
    _ = (raised p.difference).natAbs * b.contract.multiplier.natAbs + (p.bonuses b).natAbs := by
      rw [Int.natAbs_mul]
    _ ≤ 81 * 6 + 500 :=
      Nat.add_le_add (Nat.mul_le_mul h.natAbs_raised_le hmultiplier) (h.natAbs_bonuses_le b)

/-- The most that a seat can win or lose in a deal: four units. -/
def mostInDeal : Nat := 986 * 4

/-- **What a seat wins in a deal is bounded.** -/
theorem Possible.natAbs_seatScores_le (h : p.Possible) (b : Bid) {n : Nat}
    (hn : Rules.supported n) (s : Seat) :
    ((p.seatScores b n).get s).natAbs ≤ mostInDeal := by
  rw [get_seatScores, Int.natAbs_mul]
  exact Nat.mul_le_mul (h.natAbs_unit_le b) (b.natAbs_share_le hn s)

end Points

/-! ## Totals -/

/-- **What is won in so few deals has 32 bits; they can be more than half a million.** -/
theorem inInt32_sum {scores : List Int} (few : scores.length * Points.mostInDeal < 2 ^ 31)
    (bounded : ∀ x ∈ scores, x.natAbs ≤ Points.mostInDeal) : InInt32 scores.sum := by
  have hhigh : scores.sum ≤ scores.length • (Points.mostInDeal : Int) := by
    refine List.sum_le_card_nsmul scores _ fun x hx => ?_
    have hx := bounded x hx
    omega
  have hlow : scores.length • (-(Points.mostInDeal : Int)) ≤ scores.sum := by
    refine List.card_nsmul_le_sum scores _ fun x hx => ?_
    have hx := bounded x hx
    omega
  rw [nsmul_eq_mul] at hhigh hlow
  unfold Points.mostInDeal at few hhigh hlow
  unfold InInt32
  omega

example : 500000 * Points.mostInDeal < 2 ^ 31 := by decide

end FrenchTarot
