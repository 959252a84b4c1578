import FrenchTarot.Proofs.Cards.Choices
import FrenchTarot.Proofs.Table.Calls

/-!
# Discards that can be made

The first cards that may be discarded are a discard whenever there is any.  A discard consists of
such cards, all of them different, so that there must be enough of them in hand and dog; and as many
of the first ones as are needed are enough.

What is left of hand and dog is the taker's hand for the play.  Taking a card out removes every copy
of it, and no card is there twice: each of the other cards is still there once, and the hand is as
large as before.
-/

namespace FrenchTarot

namespace Cards

/-- What is left of hand and dog at a table of `n` when cards have been set aside. -/
structure Exchange (n : Nat) (hand dog discard rest : Cards) : Prop where
  /-- The cards that are left are all the others. -/
  mem_iff : ∀ c, c ∈ rest ↔ c ∈ hand ++ dog ∧ c ∉ discard
  nodup : rest.Nodup
  perm : (discard ++ rest).Perm (hand ++ dog)
  length_eq : dog.length = Rules.dogSize n → rest.length = hand.length

variable {n : Nat} {hand dog discard : Cards}

/-- **A discard leaves the other cards, and as many as there were in the hand.** -/
theorem exchange_takeOut (distinct : (hand ++ dog).Nodup)
    (allowed : hand.isDiscard dog discard n) :
    Exchange n hand dog discard ((hand ++ dog).takeOut discard).1 := by
  obtain ⟨hlength, hnodup, hmem, _⟩ := isDiscard_iff.mp allowed
  have hperm := perm_append_takeOut distinct hnodup hmem
  refine ⟨fun c => mem_takeOut, ?_, hperm, fun hdog => ?_⟩
  · rw [takeOut_fst]
    exact distinct.filter _
  · have htotal := hperm.length_eq
    rw [List.length_append, List.length_append] at htotal
    omega

/-- The cards that may be discarded are counted. -/
theorem length_filter_discardable (cards : Cards) :
    (cards.filter discardable).length =
      cards.countP fun c => c.suit ≠ .trumps ∧ c.rank ≠ Rank.king := by
  rw [← List.countP_eq_length_filter]
  refine List.countP_congr fun c _ => ?_
  simp [discardable, Card.isTrump]

end Cards

namespace Table

variable {t t' : Table} {seat : Seat} {discard : Cards}

/-- A discard that is accepted leaves the taker with the rest of hand and dog. -/
theorem layDiscard_hand (ok : (layDiscard seat discard).run t = .ok () t') :
    (t.hand seat).isDiscard t.deal.dog discard t.players
      ∧ t'.hand seat = ((t.hand seat ++ t.deal.dog).takeOut discard).1 := by
  rw [layDiscard_run, check_eq_ok] at ok
  obtain ⟨_, ok⟩ := ok
  cases htaker : t.deal.bid.taker with
  | none =>
    rw [htaker] at ok
    cases ok
  | some taker =>
    rw [htaker] at ok
    dsimp only at ok
    rw [check_eq_ok, check_eq_ok] at ok
    obtain ⟨rfl, allowed, ok⟩ := ok
    cases ok
    refine ⟨allowed, ?_⟩
    show (t.hands.cards.set taker _).get taker = _
    rw [PerSeat.get_set, if_pos rfl]

end Table

namespace Cards

/-- **The first cards that may be discarded are a discard whenever there is one, which is so when
there are enough cards that are neither trumps nor kings.  Every discard leaves all others once,
and with them the taker goes on at the table.** -/
theorem firstDiscard_succeeds {hand dog : Cards} (distinct : (hand ++ dog).Nodup) (n : Nat) :
    (hand.isDiscard dog (hand.firstDiscard dog n) n ↔ ∃ discard, hand.isDiscard dog discard n)
      ∧ ((∃ discard, hand.isDiscard dog discard n) ↔
        Rules.dogSize n ≤ (hand ++ dog).countP fun c => c.suit ≠ .trumps ∧ c.rank ≠ Rank.king)
      ∧ (∀ discard, hand.isDiscard dog discard n →
        Exchange n hand dog discard ((hand ++ dog).takeOut discard).1)
      ∧ ∀ (t t' : Table) (seat : Seat) (discard : Cards), t.hand seat = hand → t.deal.dog = dog →
        t.players = n → (Table.layDiscard seat discard).run t = .ok () t' →
        Exchange n hand dog discard (t'.hand seat) := by
  have henough : (∃ discard, hand.isDiscard dog discard n) →
      Rules.dogSize n ≤ ((hand ++ dog).filter discardable).length := fun ⟨_, allowed⟩ =>
    dogSize_le_of_isDiscard allowed
  refine ⟨⟨fun allowed => ⟨_, allowed⟩, fun some => isDiscard_firstDiscard distinct (henough some)⟩,
    ?_, fun _ => exchange_takeOut distinct, ?_⟩
  · rw [← length_filter_discardable]
    exact ⟨henough, fun enough => ⟨_, isDiscard_firstDiscard distinct enough⟩⟩
  · rintro t t' seat discard rfl rfl rfl ok
    obtain ⟨allowed, hhand⟩ := Table.layDiscard_hand ok
    rw [hhand]
    exact exchange_takeOut distinct allowed

/-- A hand and a dog for five, with three cards that may be discarded. -/
def thinHand : Cards := [⟨14, .spades⟩, Card.fool, ⟨1, .hearts⟩, ⟨13, .clubs⟩]

def thinDog : Cards := [Card.big, ⟨2, .hearts⟩, ⟨14, .clubs⟩]

theorem thinHand_discard :
    (thinHand ++ thinDog).Nodup ∧ Rules.dogSize 5 = 3
      ∧ thinHand.isDiscard thinDog [⟨1, .hearts⟩, ⟨13, .clubs⟩, ⟨2, .hearts⟩] 5
      ∧ thinHand.isDiscard thinDog (thinHand.firstDiscard thinDog 5) 5
      ∧ Exchange 5 thinHand thinDog [⟨1, .hearts⟩, ⟨13, .clubs⟩, ⟨2, .hearts⟩]
        [⟨14, .spades⟩, Card.fool, Card.big, ⟨14, .clubs⟩]
      ∧ ¬ ∃ discard, thinHand.isDiscard thinDog discard 3 := by
  have distinct : (thinHand ++ thinDog).Nodup := by decide
  have allowed : thinHand.isDiscard thinDog [⟨1, .hearts⟩, ⟨13, .clubs⟩, ⟨2, .hearts⟩] 5 := by
    decide
  obtain ⟨first, _, rest, _⟩ := firstDiscard_succeeds distinct 5
  obtain ⟨_, few, _⟩ := firstDiscard_succeeds distinct 3
  refine ⟨distinct, rfl, allowed, first.mpr ⟨_, allowed⟩, rest _ allowed, fun some => ?_⟩
  exact absurd (few.mp some) (by decide)

end Cards

end FrenchTarot
