import FrenchTarot.DealState
import FrenchTarot.Proofs.Cards.Figures
import FrenchTarot.Proofs.Seat.Round
import Mathlib.Algebra.Order.Floor.Div

/-!
# From half points to the outcome

The cards of the attack are counted in half points, and its target is a whole number of points.  A
result has whole points, so that half a point may have to go to one side; it goes to the side that
is ahead.  The winner and the distance are then read off the rounded points.

They are those of the exact count (`outcome_exact`): rounding moves the count away from the target
and never across it, so that the distance in points is half of the distance in half points, rounded
away from zero.  That function is monotone, and so is what follows it up to the score: a count that
is better in half points or in oudlers never costs the attack anything (`CountsMore.wins_no_less`).
-/

namespace FrenchTarot

/-! ## Halves -/

/-- Half of a number, rounded away from zero. -/
def halfAway (m : Int) : Int := m.sign * (m.natAbs ⌈/⌉ 2 : Nat)

theorem ceilDiv_two (k : Nat) : k ⌈/⌉ 2 = (k + 1) / 2 := Nat.ceilDiv_eq_add_pred_div k 2

/-- Below zero, rounding away from zero is rounding down. -/
theorem halfAway_eq (m : Int) : halfAway m = if 0 ≤ m then (m + 1) / 2 else m / 2 := by
  rw [halfAway, ceilDiv_two]
  rcases Int.lt_trichotomy m 0 with hneg | rfl | hpos
  · rw [Int.sign_eq_neg_one_of_neg hneg, if_neg (by omega)]
    omega
  · rfl
  · rw [Int.sign_eq_one_of_pos hpos, if_pos (by omega)]
    omega

theorem natAbs_halfAway (m : Int) : (halfAway m).natAbs = m.natAbs ⌈/⌉ 2 := by
  rw [halfAway_eq, ceilDiv_two]
  split <;> omega

theorem halfAway_nonneg {m : Int} : 0 ≤ halfAway m ↔ 0 ≤ m := by
  rw [halfAway_eq]
  split <;> omega

theorem halfAway_eq_zero {m : Int} : halfAway m = 0 ↔ m = 0 := by
  rw [halfAway_eq]
  split <;> omega

theorem sign_halfAway (m : Int) : (halfAway m).sign = m.sign := by
  have hnonneg := halfAway_nonneg (m := m)
  have hzero := halfAway_eq_zero (m := m)
  rcases Int.lt_trichotomy m 0 with hneg | rfl | hpos
  · rw [Int.sign_eq_neg_one_of_neg hneg, Int.sign_eq_neg_one_of_neg (by omega)]
  · rfl
  · rw [Int.sign_eq_one_of_pos hpos, Int.sign_eq_one_of_pos (by omega)]

theorem halfAway_mono {m m' : Int} (h : m ≤ m') : halfAway m ≤ halfAway m' := by
  rw [halfAway_eq, halfAway_eq]
  split <;> split <;> omega

/-! ## Rounding -/

namespace Points

/-- The outcome is the one of a count of half points against a target. -/
structure ExactOutcome (p : Points) (half : Nat) (target : Int) : Prop where
  winner : p.winner = .attack ↔ 2 * target ≤ half
  distance : p.difference.natAbs = (half - 2 * target).natAbs ⌈/⌉ 2
  sign : p.difference.sign = (half - 2 * target).sign
  level : p.difference = 0 ↔ half = 2 * target
  whole : half % 2 = 0 → 2 * p.pointsAttack = half
  /-- A half point goes to the attack when it has reached its target. -/
  ahead : half % 2 = 1 → 2 * target ≤ half → 2 * p.pointsAttack = half + 1
  /-- Otherwise it goes to the defense. -/
  behind : half % 2 = 1 → half < 2 * target → 2 * p.pointsAttack = half - 1

theorem winner_eq_attack {p : Points} : p.winner = .attack ↔ 0 ≤ p.difference := by
  unfold winner
  split <;> simp_all

theorem winner_eq_defense {p : Points} : p.winner = .defense ↔ p.difference < 0 := by
  unfold winner
  split <;> simp_all

end Points

namespace DealState

/-- Half points of the attack: those of its tricks, and those of the discard if it owns it. -/
def countedHalfPoints (d : DealState) : Nat :=
  d.attack.halfPoints + if d.discard.owner = some .attack then d.discard.cards.halfPoints else 0

/-- Oudlers of the attack, in its tricks and in the discard if it owns it. -/
def countedOudlers (d : DealState) : Nat :=
  d.attack.oudlers
    + if d.discard.owner = some .attack then d.discard.cards.countP Card.isOudler else 0

/-- The target of the attack. -/
def target (d : DealState) : Int := Rules.target d.countedOudlers

theorem attackTotal_halfPoints (d : DealState) :
    d.attackTotal.halfPoints = d.countedHalfPoints := by
  unfold attackTotal countedHalfPoints
  split <;> rfl

theorem attackTotal_oudlers (d : DealState) : d.attackTotal.oudlers = d.countedOudlers := by
  unfold attackTotal countedOudlers
  split
  · exact Statistics.addTrumps_oudlers _ _
  · rfl

/-- A half is added or left out, on the side of the count that is farther from the target. -/
theorem two_mul_roundHalf (half : Nat) (target : Int) :
    2 * roundHalf half target =
      half + if half % 2 = 0 then 0 else if 2 * target ≤ half then 1 else -1 := by
  unfold roundHalf
  split
  · omega
  · split <;> omega

/-- **Rounding takes the count away from the target.** -/
theorem roundHalf_sub (half : Nat) (target : Int) :
    roundHalf half target - target = halfAway (half - 2 * target) := by
  have hround := two_mul_roundHalf half target
  rw [halfAway_eq]
  split at hround
  · split <;> omega
  · split at hround <;> split <;> omega

theorem pointsAttack_result (d : DealState) :
    d.result.pointsAttack = roundHalf d.countedHalfPoints d.target := by
  rw [target, ← attackTotal_halfPoints, ← attackTotal_oudlers]
  rfl

/-- What the points of the attack have too much or too little. -/
theorem two_mul_pointsAttack (d : DealState) :
    2 * d.result.pointsAttack = d.countedHalfPoints +
      if d.countedHalfPoints % 2 = 0 then 0
      else if 2 * d.target ≤ d.countedHalfPoints then 1 else -1 := by
  rw [pointsAttack_result, two_mul_roundHalf]

theorem difference_result (d : DealState) :
    d.result.difference = halfAway (d.countedHalfPoints - 2 * d.target) := by
  have htarget : d.result.target = d.target := congrArg Rules.target d.attackTotal_oudlers
  rw [← roundHalf_sub, Points.difference, htarget, pointsAttack_result]

/-- **The outcome of a deal is the one of its half points: rounding changes neither the winner nor
the side that is ahead, and the distance is half of the exact one, rounded away from zero.**

The counts have no bound here.  They are kept in eight bits for the oudlers and the other counters
of the attack, and its points are computed in 32 bits with a sign: the result is this one as long as
no counter passes 255 and there are fewer than 2 ^ 31 - 1 half points.  A deal that is over has at
most three oudlers and 182 half points. -/
theorem outcome_exact (d : DealState) :
    d.result.cardHalfPoints = d.countedHalfPoints ∧ d.result.oudlers = d.countedOudlers
      ∧ d.result.ExactOutcome d.countedHalfPoints d.target := by
  have hround := d.two_mul_pointsAttack
  refine ⟨d.attackTotal_halfPoints, d.attackTotal_oudlers,
    ?_, ?_, ?_, ?_, fun heven => ?_, fun hodd hahead => ?_, fun hodd hbehind => ?_⟩
  · rw [Points.winner_eq_attack, difference_result, halfAway_nonneg]
    omega
  · rw [difference_result, natAbs_halfAway]
  · rw [difference_result, sign_halfAway]
  · rw [difference_result, halfAway_eq_zero]
    omega
  · rw [if_pos heven] at hround
    omega
  · rw [if_neg (by omega), if_pos hahead] at hround
    exact hround
  · rw [if_neg (by omega), if_neg (by omega)] at hround
    omega

end DealState

/-! ## Better counts -/

theorem Rules.target_anti {oudlers oudlers' : Nat} (h : oudlers ≤ oudlers') :
    target oudlers' ≤ target oudlers := by
  rcases oudlers with _ | _ | _ | oudlers <;> rcases oudlers' with _ | _ | _ | oudlers' <;>
    simp [target] at h ⊢

theorem Contract.multiplier_nonneg (c : Contract) : 0 ≤ c.multiplier := by
  cases c <;> decide

namespace Points

/-- The distance with the base of the contract, on the side that is ahead. -/
def raised (difference : Int) : Int :=
  if 0 ≤ difference then contractBase + difference else difference - contractBase

theorem raised_mono {m m' : Int} (h : m ≤ m') : raised m ≤ raised m' := by
  unfold raised contractBase
  split <;> split <;> omega

/-- What the attack gets from every defender besides the contract. -/
def bonuses (p : Points) (b : Bid) : Int :=
  p.littleTrumpPoints b + p.attackHandlePoints - p.defenseHandlePoints + p.slamPoints b

/-- The unit is the raised distance times the contract, and the bonuses. -/
theorem unit_eq (p : Points) (b : Bid) :
    p.unit b = raised p.difference * b.contract.multiplier + p.bonuses b := by
  unfold unit raised bonuses
  by_cases hahead : 0 ≤ p.difference
  · rw [winner_eq_attack.mpr hahead, if_pos hahead, Int.natAbs_of_nonneg hahead]
    dsimp only
    omega
  · have hbehind : p.difference < 0 := by omega
    have hcontract : -((contractBase + p.difference.natAbs) * b.contract.multiplier) =
        (p.difference - contractBase) * b.contract.multiplier := by
      rw [← Int.neg_mul]
      congr 1
      omega
    rw [winner_eq_defense.mpr hbehind, if_neg hahead]
    dsimp only
    rw [hcontract]
    omega

/-- **A better distance with the same bonuses is worth no less.** -/
theorem unit_mono {p p' : Points} {b : Bid} (hd : p.difference ≤ p'.difference)
    (hb : p.bonuses b = p'.bonuses b) : p.unit b ≤ p'.unit b := by
  have hproduct := Int.mul_le_mul_of_nonneg_right (raised_mono hd) b.contract.multiplier_nonneg
  rw [unit_eq, unit_eq, hb]
  omega

/-- At a table, what the attack wins grows with the unit, and what the defense wins falls. -/
theorem teamPoints_le {p p' : Points} {b : Bid} {n : Nat} (hn : Rules.supported n)
    (h : p.unit b ≤ p'.unit b) :
    p.teamPoints .attack b n ≤ p'.teamPoints .attack b n
      ∧ p'.teamPoints .defense b n ≤ p.teamPoints .defense b n := by
  have hdefenders : 0 ≤ if b.hasPartner then 3 else (n : Int) - 1 := by
    have hpos := Rules.players_pos hn
    split <;> omega
  have hattack : p.unit b * (if b.hasPartner then 3 else (n : Int) - 1) ≤
      p'.unit b * if b.hasPartner then 3 else (n : Int) - 1 :=
    Int.mul_le_mul_of_nonneg_right h hdefenders
  exact ⟨hattack, Int.neg_le_neg hattack⟩

end Points

namespace DealState

/-- The second deal is the first one, but that the attack has counted no fewer half points and no
fewer oudlers. -/
structure CountsMore (d d' : DealState) : Prop where
  same : { d with attack := d'.attack } = d'
  halfPoints : d.attack.halfPoints ≤ d'.attack.halfPoints
  oudlers : d.attack.oudlers ≤ d'.attack.oudlers

theorem CountsMore.difference_le {d d' : DealState} (h : d.CountsMore d') :
    d.result.difference ≤ d'.result.difference := by
  have hdiscard : d'.discard = d.discard := (congrArg discard h.same).symm
  have hhalf : d.countedHalfPoints ≤ d'.countedHalfPoints := by
    have := h.halfPoints
    unfold countedHalfPoints
    rw [hdiscard]
    omega
  have htarget : d'.target ≤ d.target := by
    have := h.oudlers
    refine Rules.target_anti ?_
    unfold countedOudlers
    rw [hdiscard]
    omega
  rw [difference_result, difference_result]
  exact halfAway_mono (by omega)

/-- The bonuses do not depend on the figures of the attack. -/
theorem CountsMore.bonuses_eq {d d' : DealState} (h : d.CountsMore d') (b : Bid) :
    d.result.bonuses b = d'.result.bonuses b := by
  rw [← h.same]
  rfl

/-- **More never hurts: with more half points or oudlers the attack wins no less, and the defense no
more.** -/
theorem CountsMore.wins_no_less {d d' : DealState} (h : d.CountsMore d') (b : Bid) {n : Nat}
    (hn : Rules.supported n) :
    d.result.teamPoints .attack b n ≤ d'.result.teamPoints .attack b n
      ∧ d'.result.teamPoints .defense b n ≤ d.result.teamPoints .defense b n :=
  Points.teamPoints_le hn (Points.unit_mono h.difference_le (h.bonuses_eq b))

/-- A count that is half a point short, and the same count with an oudler more. -/
def shortCount : DealState :=
  { DealState.new 3 with tricksWon := 12, attack := { halfPoints := 111 } }

def reachedCount : DealState := { shortCount with attack := { halfPoints := 111, oudlers := 1 } }

theorem shortCount_wins_no_less :
    shortCount.CountsMore reachedCount
      ∧ shortCount.result.winner = .defense ∧ reachedCount.result.winner = .attack
      ∧ shortCount.result.teamPoints .attack ⟨some .south, some .south, .guard, false⟩ 3 ≤
        reachedCount.result.teamPoints .attack ⟨some .south, some .south, .guard, false⟩ 3
      ∧ reachedCount.result.teamPoints .defense ⟨some .south, some .south, .guard, false⟩ 3 ≤
        shortCount.result.teamPoints .defense ⟨some .south, some .south, .guard, false⟩ 3 := by
  have hmore : shortCount.CountsMore reachedCount := ⟨rfl, by decide, by decide⟩
  exact ⟨hmore, by decide, by decide, hmore.wins_no_less _ (by decide)⟩

end DealState

end FrenchTarot
