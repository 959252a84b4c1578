import FrenchTarot.Proofs.Deal.Fool
import FrenchTarot.Proofs.Deal.Outcome
import Mathlib.Algebra.Group.Nat.Even

/-!
# When half points are left over

Every card is worth an odd number of half points, so that the half points of some cards are odd
exactly if their number is.  The Fool may change sides, but it takes an even number of half points
with it, and it is worth more than that, so that nothing is lost when they are taken from the side
that has won its trick (`countTrick_parity`).

A deal that is over therefore has half points left over exactly if the attack has an odd number of
cards.  At a table of four, tricks and dog have an even number, and no half point is ever left over
(`Over.halfPoints_leftOver`).
-/

namespace FrenchTarot

/-! ## Cards -/

theorem Card.halfPoints_mod_two (c : Card) : c.halfPoints % 2 = 1 := by
  unfold halfPoints
  split_ifs <;> rfl

namespace Cards

/-- **Half points are odd exactly if the number of cards is.** -/
theorem halfPoints_mod_two (cards : Cards) : cards.halfPoints % 2 = cards.length % 2 := by
  induction cards with
  | nil => rfl
  | cons c cards ih =>
    have hc := c.halfPoints_mod_two
    rw [halfPoints_cons, List.length_cons]
    omega

theorem halfPoints_le_of_mem {cards : Cards} {c : Card} (h : c ∈ cards) :
    c.halfPoints ≤ cards.halfPoints := by
  rw [← halfPoints_perm (List.perm_cons_erase h).symm, halfPoints_cons]
  exact Nat.le_add_right _ _

end Cards

namespace DealState

/-! ## Tricks -/

/-- **The Fool changes sides with an even number of half points.** -/
theorem countTrick_parity (s : Statistics) {trick : Cards} (owner : Team) {swap : Bool}
    (h : swap → trick.hasFool) :
    (countTrick s trick owner swap).halfPoints % 2 =
      (s.halfPoints + if owner = .attack then trick.length else 0) % 2 := by
  have hcards := trick.halfPoints_mod_two
  have hsum := Statistics.addTrumps_halfPoints s trick
  cases owner with
  | attack =>
    rw [if_pos rfl]
    cases swap with
    | false =>
      show (s.addTrumps trick).halfPoints % 2 = _
      omega
    | true =>
      -- The trick holds the Fool, so that there is enough to take from it.
      have hfool : 9 ≤ trick.halfPoints :=
        Cards.halfPoints_le_of_mem (Cards.hasFool_iff.mp (h rfl))
      show ((s.addTrumps trick).halfPoints - 8) % 2 = _
      omega
  | defense =>
    rw [if_neg (by decide)]
    cases swap with
    | false => rfl
    | true =>
      show (s.halfPoints + 8) % 2 = _
      omega

/-- Only a Fool that is there changes sides. -/
theorem hasFool_of_swap {d : DealState} {leader : Seat} {trick : Cards}
    (h : (d.resolve leader trick).2) : trick.hasFool := by
  by_contra hnone
  rw [d.resolve_no_swap leader (Bool.eq_false_iff.mpr hnone)] at h
  cases h

/-- **The half points of the tricks are odd exactly if the number of their cards is.** -/
theorem Played.parity {d : DealState} (h : d.Played) :
    d.attack.halfPoints % 2 = (d.players * d.tricksWon) % 2 := by
  induction h with
  | opening _ tricksWon attack =>
    rw [attack, tricksWon]
    rfl
  | trick before added ih =>
    obtain ⟨hsize, _, leader, _, rfl, _⟩ := addTrick_eq_ok.mp added
    rw [withTrick_attack, withTrick_tricksWon, withTrick_players,
      countTrick_parity _ _ hasFool_of_swap, Nat.mul_add, hsize, Nat.add_mod, ih, ← Nat.add_mod]
    split <;> simp

/-! ## The deal -/

/-- The attack has a card of each player in every trick it has won, and the discard if that is its
own. -/
theorem Finished.length_cardsOf {d : DealState} (h : d.Finished) :
    (d.cardsOf .attack).length = d.players * d.tricksWon +
      if d.discard.owner = some .attack then Rules.dogSize d.players else 0 := by
  have hwon := (h.played.accounted h.distinct.1).tricksWon
  have htricks : (d.tricksOf .attack).length = d.players * d.tricksWon := by
    have hlength : ∀ p ∈ d.tricks.filter fun p => p.owner = .attack,
        p.cards.length = d.players :=
      fun p hp => h.played.length_cards p (List.mem_filter.mp hp).1
    rw [tricksOf, List.length_flatMap, List.map_congr_left hlength, List.map_const',
      List.sum_replicate_nat, hwon, List.countP_eq_length_filter, Nat.mul_comm]
  rw [cardsOf, List.length_append, htricks]
  split
  · rw [h.discard_length]
  · rfl

theorem Finished.parity {d : DealState} (h : d.Finished) :
    d.countedHalfPoints % 2 = (d.cardsOf .attack).length % 2 := by
  have htricks := h.played.parity
  have hdiscard := d.discard.cards.halfPoints_mod_two
  rw [h.length_cardsOf, countedHalfPoints, ← h.discard_length]
  split <;> omega

/-- **Half points are left over exactly if the attack has an odd number of cards, which it never has
at a table of four.** -/
theorem Over.halfPoints_leftOver {d : DealState} (h : d.Over) :
    d.result.cardHalfPoints % 2 = (d.cardsOf .attack).length % 2
      ∧ (d.cardsOf .attack).length = d.players * d.tricksWon
        + (if d.discard.owner = some .attack then Rules.dogSize d.players else 0)
      ∧ (d.players = 4 →
        Even d.result.cardHalfPoints ∧ 2 * d.result.pointsAttack = d.result.cardHalfPoints) := by
  have hcounted : d.result.cardHalfPoints = d.countedHalfPoints := d.attackTotal_halfPoints
  have hlength := h.finished.length_cardsOf
  have hparity := h.finished.parity
  rw [hcounted]
  refine ⟨hparity, hlength, fun hfour => ?_⟩
  have heven : d.countedHalfPoints % 2 = 0 := by
    rw [hparity, hlength, hfour, show Rules.dogSize 4 = 6 from rfl]
    split <;> omega
  refine ⟨Nat.even_iff.mpr heven, ?_⟩
  rw [two_mul_pointsAttack, if_pos heven, Int.add_zero]

/-- A deal of four in the order of the deck.  South's Fool goes back to the defense from a trick
that North has won. -/
def fourInOrder : Record where
  version := Record.currentVersion
  info :=
    { players := 4
      taker := some .north
      contract := .guard
      slam := false
      firstLead := some .south
      dog := []
      attackHandle := []
      defenseHandle := []
      partner := none }
  tricks := (List.range 18).map fun k => (Cards.standard.drop (4 * k)).take 4

theorem fourInOrder_leftOver : ∃ d, fourInOrder.replay = .ok d ∧ d.Over ∧ d.players = 4
    ∧ d.result.cardHalfPoints % 2 = (d.cardsOf .attack).length % 2
    ∧ Even d.result.cardHalfPoints ∧ 2 * d.result.pointsAttack = d.result.cardHalfPoints := by
  have hreplay : fourInOrder.replay.toOption.map DealState.players = some 4 := by decide +kernel
  obtain ⟨d, hd, hfour⟩ := exists_of_map_toOption hreplay
  have hover : d.Over := .replay hd
  obtain ⟨hparity, _, heven⟩ := hover.halfPoints_leftOver
  exact ⟨d, hd, hover, hfour, hparity, heven hfour⟩

end DealState

end FrenchTarot
