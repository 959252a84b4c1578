import FrenchTarot.Cards.Statistics
import FrenchTarot.Contract
import FrenchTarot.Rules

/-!
# Declarations of the players

Besides playing cards, players show handles, and the taker sets a discard aside and may call a
card.  Each kind has its check here, and the choices that are always at hand: the first cards that
may be discarded, and the first honour that may be called.
-/

namespace FrenchTarot.Cards

/-! ## Handles -/

/-- Whether `handle` is a handle of this hand: the right number of trumps of the hand, each shown
once, and the Fool among them only if no other trump is left. -/
def isHandle (hand handle : Cards) : Bool :=
  (Handle.ofSize? handle.length).isSome
    && handle.all (fun c => c.isTrump && c ∈ hand)
    && handle.all (fun c => handle.copies c = 1)
    && !(handle.hasFool && handle.length < hand.countP Card.isTrump)

/-! ## Discards -/

/-- Trumps and kings are never discarded. -/
def discardable (c : Card) : Bool := !c.isTrump && c.rank ≠ Rank.king

/-- Whether the taker may set `discard` aside from this hand and the dog. -/
def isDiscard (hand dog discard : Cards) (n : Nat) : Bool :=
  discard.length = Rules.dogSize n
    && discard.all fun c => (c ∈ hand || c ∈ dog) && discardable c && discard.copies c = 1

/-- The first cards of the hand, then of the dog, that may be discarded. -/
def firstDiscard (hand dog : Cards) (n : Nat) : Cards :=
  ((hand ++ dog).filter discardable).take (Rules.dogSize n)

/-! ## Calling a card -/

/-- Whether a card of this rank may be called, given each honour rank with the number of such cards
held: a rank may be called once all four cards of every rank above it are held. -/
def callableRank (rank : Nat) : List (Nat × Nat) → Bool
  | [] => false
  | (honour, held) :: lower => rank = honour || (4 ≤ held && callableRank rank lower)

/-- Whether a taker with these figures may call `card`. -/
def canCall (stats : Statistics) (card : Card) : Bool :=
  card.suit ≠ .trumps
    && callableRank card.rank
      [(Rank.king, stats.kings), (Rank.queen, stats.queens), (Rank.knight, stats.knights),
        (Rank.jack, stats.jacks)]

/-- The honours of the ordinary suits, kings first. -/
def honours : Cards :=
  Rank.honours.flatMap fun r => Suit.ordinary.map fun s => ⟨r, s⟩

/-- The first honour that a hand may call and does not hold; the king of clubs if there is none. -/
def firstCall (hand : Cards) : Card :=
  let stats := hand.statistics
  (honours.find? fun c => c ∉ hand && canCall stats c).getD ⟨Rank.king, .clubs⟩

end FrenchTarot.Cards
