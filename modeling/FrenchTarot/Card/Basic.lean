/-!
# Suits and cards

The deck of French Tarot has four ordinary suits of fourteen cards, and twenty-two trumps that
include the Fool.  A card is a rank with a suit.  Not every such pair is a card of the deck:
`Card.valid` says which ones are.  Card points are counted in half points, so that they stay whole
numbers.
-/

namespace FrenchTarot

/-- The four ordinary suits and the trumps. -/
inductive Suit where
  | spades
  | hearts
  | diamonds
  | clubs
  | trumps
  deriving DecidableEq, Repr, Inhabited

namespace Suit

/-- The suits in the order of a new deck. -/
def all : List Suit := [spades, hearts, diamonds, clubs, trumps]

/-- The suits other than the trumps. -/
def ordinary : List Suit := [spades, hearts, diamonds, clubs]

/-- Place of the suit in `Suit.all`. -/
def index : Suit → Nat
  | spades => 0
  | hearts => 1
  | diamonds => 2
  | clubs => 3
  | trumps => 4

/-- The letter that stands for the suit in a card's text. -/
def letter : Suit → Char
  | spades => 'S'
  | hearts => 'H'
  | diamonds => 'D'
  | clubs => 'C'
  | trumps => 'T'

def ofLetter? (c : Char) : Option Suit :=
  match c.toUpper with
  | 'S' => some spades
  | 'H' => some hearts
  | 'D' => some diamonds
  | 'C' => some clubs
  | 'T' => some trumps
  | _ => none

theorem ofLetter?_letter (s : Suit) : ofLetter? s.letter = some s := by
  cases s <;> rfl

end Suit

namespace Rank

/-- Rank of the lowest card of an ordinary suit. -/
abbrev ace : Nat := 1
abbrev jack : Nat := 11
abbrev knight : Nat := 12
abbrev queen : Nat := 13
/-- Rank of the kings, the highest of an ordinary suit. -/
abbrev king : Nat := 14
abbrev bigTrump : Nat := 21

/-- The ranks of the honours, highest first. -/
def honours : List Nat := [king, queen, knight, jack]

end Rank

/-- A card: ranks go from 1 to 14 in the ordinary suits, and from 0 (the Fool) to 21 in trumps. -/
structure Card where
  rank : Nat
  suit : Suit
  deriving DecidableEq, Repr, Inhabited

namespace Card

/-- The Fool, a trump of rank 0 that wins no trick. -/
def fool : Card := ⟨0, .trumps⟩

/-- The Little, the trump of rank 1. -/
def little : Card := ⟨1, .trumps⟩

/-- The Big, the trump of rank 21. -/
def big : Card := ⟨Rank.bigTrump, .trumps⟩

/-- Whether the deck holds such a card. -/
def valid (c : Card) : Bool :=
  match c.suit with
  | .trumps => c.rank ≤ Rank.bigTrump
  | _ => Rank.ace ≤ c.rank && c.rank ≤ Rank.king

/-- Trumps, the Fool included. -/
def isTrump (c : Card) : Bool := c.suit = .trumps

def isFool (c : Card) : Bool := c = fool

/-- The Fool, the Little and the Big. -/
def isOudler (c : Card) : Bool := c = fool || c = little || c = big

/-- Value of a card in half points. -/
def halfPoints (c : Card) : Nat :=
  if c.isOudler then 9
  else if c.isTrump then 1
  else if c.rank = Rank.king then 9
  else if c.rank = Rank.queen then 7
  else if c.rank = Rank.knight then 5
  else if c.rank = Rank.jack then 3
  else 1

end Card

end FrenchTarot
