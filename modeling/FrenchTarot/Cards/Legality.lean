import FrenchTarot.Cards.Basic

/-!
# Legal cards

Which cards of a hand may be played on the trick in progress.  The suit led has to be followed; a
player without it has to play a trump, and a trump above those of the trick if there is one in the
hand.  The Fool may always be played, and it is never what a player is obliged to play.
-/

namespace FrenchTarot.Cards

/-- The duty to trump, for a player who does not follow an ordinary suit: a trump at least as high
as those of the trick, any trump when the hand has none so high, and any card when the hand has no
trump but the Fool. -/
def meetsTrumpDuty (hand trick : Cards) (card : Card) : Bool :=
  let held := hand.highestTrump?.map Card.rank
  if !card.isTrump then held.isNone
  else
    match trick.highestTrump? with
    | some best => best.rank ≤ card.rank || held.all (· < best.rank)
    | none => true

/-- Whether a hand may play `card` on a trick. -/
def canPlay (hand trick : Cards) (card : Card) : Bool :=
  card ∈ hand &&
    (card.isFool ||
      match trick.requiredSuit? with
      | none => true
      | some .trumps => hand.meetsTrumpDuty trick card
      | some suit =>
        card.suit = suit || (!hand.any (fun c => c.suit = suit) && hand.meetsTrumpDuty trick card))

/-- The cards of a hand that may be played on a trick, in hand order. -/
def legal (hand trick : Cards) : Cards := hand.filter fun c => hand.canPlay trick c

end FrenchTarot.Cards
