import FrenchTarot.Cards.Basic

/-!
# Sorting cards

Cards are sorted by suit, and in a suit from the highest rank down.  The order of the suits is given
by their five letters; a text that is not such an order stands for the usual one.
-/

namespace FrenchTarot.Cards

/-- The usual order of suits: trumps, clubs, spades, diamonds, hearts. -/
def usualOrder : List Suit := [.trumps, .clubs, .spades, .diamonds, .hearts]

/-- The order of suits that a text gives: the five letters, each once, capital or small. -/
def suitOrder? (order : List Char) : Option (List Suit) :=
  match order.mapM Suit.ofLetter? with
  | none => none
  | some suits => if suits.length = 5 && Suit.all.all (· ∈ suits) then some suits else none

/-- Weight of a card: a hundred for every suit that comes after its own, plus its rank. -/
def weight (suits : List Suit) (c : Card) : Nat :=
  100 * suits.reverse.idxOf c.suit + c.rank

/-- Sorts by falling weight; cards of equal weight keep their order. -/
def sortBySuits (suits : List Suit) (cards : Cards) : Cards :=
  cards.mergeSort fun a b => weight suits b ≤ weight suits a

/-- Sorts in the order of suits that a text gives, or in the usual one. -/
def sort (order : String) (cards : Cards) : Cards :=
  cards.sortBySuits ((suitOrder? order.toList).getD usualOrder)

end FrenchTarot.Cards
