import FrenchTarot.Cards.Order
import FrenchTarot.Seat

/-!
# Piles

A pile is a list of cards with the side that owns it, as far as somebody does: the discard, or the
cards of a side.  Changing the cards of a pile does not change its owner.
-/

namespace FrenchTarot

/-- Cards that may belong to a side. -/
structure Pile where
  cards : Cards
  owner : Option Team
  deriving DecidableEq, Repr

namespace Pile

/-- A pile without an owner. -/
def ofCards (cards : Cards) : Pile := ⟨cards, none⟩

def empty : Pile := ofCards []

instance : Inhabited Pile := ⟨empty⟩

def push (p : Pile) (c : Card) : Pile := { p with cards := p.cards ++ [c] }

def append (p : Pile) (cards : Cards) : Pile := { p with cards := p.cards ++ cards }

/-- Drops all cards and keeps the owner. -/
def clear (p : Pile) : Pile := { p with cards := [] }

/-- Gives the pile to a side, or to nobody. -/
def setOwner (p : Pile) (owner : Option Team) : Pile := { p with owner }

/-- Removes every copy of a card; also tells how many there were. -/
def remove (p : Pile) (c : Card) : Pile × Nat :=
  ({ p with cards := p.cards.remove c }, p.cards.copies c)

/-- Removes the cards of a list one after the other; also tells how many of them were found. -/
def takeOut (p : Pile) (others : Cards) : Pile × Nat :=
  let (rest, found) := p.cards.takeOut others
  ({ p with cards := rest }, found)

/-- Sorts the cards; see `Cards.sort`. -/
def sort (p : Pile) (order : String) : Pile := { p with cards := p.cards.sort order }

end Pile

end FrenchTarot
