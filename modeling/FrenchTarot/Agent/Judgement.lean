import FrenchTarot.Table.Basic

/-!
# How a player without a mind of its own decides

The strength of a hand gives the contract to bid; everything else takes the first choice that the
rules allow.  `defaultAction?` is that decision for the seat that has to act.
-/

namespace FrenchTarot

/-- Worth of the Little: the more, the more trumps protect it. -/
def littleWorth (trumps : Nat) : Int :=
  if trumps < 5 then 0 else if trumps = 5 then 5 else if trumps ≤ 7 then 7 else 8

/-- Strength of a hand with these figures. -/
def Statistics.strength (s : Statistics) : Int :=
  (if s.bigTrump then 9 else 0) + (if s.fool then 7 else 0)
    + (if s.littleTrump then littleWorth s.trumps else 0)
    + s.trumps * 2 + s.majorTrumps * 2
    + s.kings * 6 + s.queens * 3 + s.knights * 2 + s.jacks
    + s.weddings + s.longSuits * 5 + s.cuts * 5 + s.singletons * 3 + s.sequences * 4

/-- The contract that a hand of this strength bids. -/
def Contract.ofStrength (strength : Int) : Contract :=
  if strength ≤ 35 then .pass
  else if strength ≤ 50 then .take
  else if strength ≤ 65 then .guard
  else if strength ≤ 75 then .guardWithout
  else .guardAgainst

/-- The contract that a hand bids over the best one so far. -/
def Cards.chooseBid (hand : Cards) (best : Contract) : Contract :=
  let wanted := Contract.ofStrength hand.statistics.strength
  if wanted.outbids best then wanted else .pass

namespace Table

/-- A decision for the seat that has to act. -/
def defaultAction? (t : Table) : Option Action := do
  let seat ← t.acting?
  let hand := t.hand seat
  match t.phase with
  | .awaitingBid => some (.bid (hand.chooseBid t.deal.bid.contract) false)
  | .awaitingKingCall => some (.kingCall hand.firstCall)
  | .awaitingDiscard => some (.discard (hand.firstDiscard t.deal.dog t.players))
  | .awaitingHandle => some .noHandle
  | .awaitingCard => (t.legal seat).head?.map .card
  | _ => none

end Table

end FrenchTarot
