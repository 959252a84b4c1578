import FrenchTarot.Card.Text

/-!
# Lists of cards

What can be read off an ordered list of cards, and how cards are taken out of it.  A list may hold
a card more than once; taking a card out removes every copy.  The Fool is a trump of rank 0, but it
is never the highest trump and it never sets the suit of a trick.
-/

namespace FrenchTarot.Cards

/-- A new deck: the ordinary suits in order, each from ace to king, then the trumps. -/
def standard : Cards :=
  Suit.ordinary.flatMap (fun s => (List.range' Rank.ace Rank.king).map fun r => ⟨r, s⟩)
    ++ (List.range (Rank.bigTrump + 1)).map fun r => ⟨r, .trumps⟩

/-- How many copies of a card the list holds. -/
def copies (cards : Cards) (c : Card) : Nat := cards.countP (· = c)

/-- Position of the first copy of a card. -/
def position? (cards : Cards) (c : Card) : Option Nat := cards.findIdx? (· = c)

/-- The list without any copy of a card. -/
def remove (cards : Cards) (c : Card) : Cards := cards.filter (· ≠ c)

/-- Removes the cards of `others` one after the other; also tells how many of them were there when
their turn came. -/
def takeOut (cards : Cards) : Cards → Cards × Nat
  | [] => (cards, 0)
  | c :: others =>
    let found := if c ∈ cards then 1 else 0
    let (rest, more) := takeOut (cards.remove c) others
    (rest, found + more)

def hasFool (cards : Cards) : Bool := Card.fool ∈ cards

def hasLittle (cards : Cards) : Bool := Card.little ∈ cards

/-- A card of the greatest rank; of several, the last. -/
def highest? (cards : Cards) : Option Card :=
  cards.foldl (fun best c =>
    match best with
    | none => some c
    | some b => if b.rank ≤ c.rank then some c else some b) none

/-- The highest trump other than the Fool. -/
def highestTrump? (cards : Cards) : Option Card :=
  highest? (cards.filter fun c => c.isTrump && !c.isFool)

/-- The highest card of the suit of the first ordinary card. -/
def highestOfSuitLed? (cards : Cards) : Option Card :=
  match cards.find? fun c => !c.isTrump with
  | none => none
  | some lead => highest? (cards.filter fun c => c.suit = lead.suit)

/-- The suit that has to be followed on a trick, once a card other than the Fool has been played. -/
def requiredSuit? (trick : Cards) : Option Suit :=
  (trick.find? fun c => !c.isFool).map Card.suit

/-- A hand whose only trump is the Little.  Such a hand is not played. -/
def isLoneLittle (hand : Cards) : Bool :=
  hand.highestTrump? = some Card.little && !hand.hasFool

end FrenchTarot.Cards
