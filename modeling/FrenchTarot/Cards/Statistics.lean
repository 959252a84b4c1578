import FrenchTarot.Cards.Basic

/-!
# Figures about cards

`Statistics` collects what counts about a set of cards: trumps, honours, the shape of the suits and
the card points.  The trump figures and the suit figures are added separately, and several lists of
cards may be added into one record: all counters go up, while the number of cards per suit is that
of the last list.  Counters are kept in eight bits and half points in 32; the record has them as
numbers without a bound, and speaks of lists whose figures have that room, as those of a deal do.
-/

namespace FrenchTarot

/-- Figures about one or several lists of cards. -/
structure Statistics where
  cards : Nat := 0
  /-- All trumps, the Fool included. -/
  trumps : Nat := 0
  oudlers : Nat := 0
  /-- Trumps of rank 15 and above. -/
  majorTrumps : Nat := 0
  kings : Nat := 0
  queens : Nat := 0
  knights : Nat := 0
  jacks : Nat := 0
  /-- Suits of which both the king and the queen are there. -/
  weddings : Nat := 0
  /-- Suits of five cards or more. -/
  longSuits : Nat := 0
  cuts : Nat := 0
  singletons : Nat := 0
  /-- Runs of at least five consecutive ranks in a suit. -/
  sequences : Nat := 0
  /-- Number of cards of each ordinary suit, in the order of `Suit.ordinary`. -/
  suits : Vector Nat 4 := .replicate 4 0
  littleTrump : Bool := false
  bigTrump : Bool := false
  fool : Bool := false
  halfPoints : Nat := 0
  deriving DecidableEq, Repr

namespace Cards

/-- Card points of a list, in half points. -/
def halfPoints (cards : Cards) : Nat := cards.foldr (fun c total => c.halfPoints + total) 0

def ofSuit (cards : Cards) (s : Suit) : Cards := cards.filter fun c => c.suit = s

def countRank (cards : Cards) (rank : Nat) : Nat := cards.countP fun c => c.rank = rank

def hasRank (cards : Cards) (rank : Nat) : Bool := cards.any fun c => c.rank = rank

/-- How many maximal runs of consecutive ranks from ace to king have at least five members; a run
counts when its fifth rank is reached. -/
def countRuns (cards : Cards) : Nat :=
  let step := fun (state : Nat × Nat) rank =>
    let (run, found) := state
    if cards.hasRank rank then (run + 1, if run + 1 = 5 then found + 1 else found) else (0, found)
  ((List.range' Rank.ace Rank.king).foldl step (0, 0)).2

end Cards

namespace Statistics

/-- One for a fact that holds. -/
def tally (b : Bool) : Nat := if b then 1 else 0

/-- Adds the trump figures and the card points of a list. -/
def addTrumps (s : Statistics) (cards : Cards) : Statistics :=
  let trumps := cards.filter Card.isTrump
  { s with
    cards := s.cards + cards.length
    trumps := s.trumps + trumps.length
    oudlers := s.oudlers + trumps.countP Card.isOudler
    majorTrumps := s.majorTrumps + trumps.countP fun c => 15 ≤ c.rank
    littleTrump := s.littleTrump || Card.little ∈ cards
    bigTrump := s.bigTrump || Card.big ∈ cards
    fool := s.fool || Card.fool ∈ cards
    halfPoints := s.halfPoints + cards.halfPoints }

/-- Adds the honours and the shape of one ordinary suit. -/
def addSuit (cards : Cards) (s : Statistics) (suit : Suit) : Statistics :=
  let held := cards.ofSuit suit
  let count := held.length
  { s with
    jacks := s.jacks + held.countRank Rank.jack
    knights := s.knights + held.countRank Rank.knight
    queens := s.queens + held.countRank Rank.queen
    kings := s.kings + held.countRank Rank.king
    suits := s.suits.setIfInBounds suit.index count
    cuts := s.cuts + tally (count = 0)
    singletons := s.singletons + tally (count = 1)
    longSuits := s.longSuits + tally (5 ≤ count)
    weddings := s.weddings + tally (held.hasRank Rank.king && held.hasRank Rank.queen)
    sequences := s.sequences + held.countRuns }

/-- Adds the figures of the four ordinary suits of a list. -/
def addSuits (s : Statistics) (cards : Cards) : Statistics :=
  Suit.ordinary.foldl (addSuit cards) s

end Statistics

def Cards.statistics (cards : Cards) : Statistics :=
  (({} : Statistics).addTrumps cards).addSuits cards

end FrenchTarot
