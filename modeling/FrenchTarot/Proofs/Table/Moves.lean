import FrenchTarot.Proofs.Deal.Complete
import FrenchTarot.Table.Acknowledge
import Mathlib.Logic.Relation

/-!
# The moves of a table

Everything that a call changes at a table is made up of a few moves: a deal is dealt, a seat bids,
the dog is shown, a card is played, a trick is won, and so on.  `Move` lists them, each with the
table it leads to and with what the call has checked before it.  Nothing else happens at a table
(`Table.Call.moves`), so that a property of all tables is proved by going once through this
list.

A call may make several moves in a row: declining a handle is noted first, and then the play goes
on.
-/

namespace FrenchTarot

namespace Phase

/-- From the cards being dealt until the play begins, or everybody has passed. -/
def beforePlay : Phase → Bool
  | cardsDealt | awaitingBid | bidShown | allPassed | awaitingKingCall | kingCallShown | dogShown
  | awaitingDiscard => true
  | _ => false

/-- From the beginning of the play to the end of the deal. -/
def duringPlay : Phase → Bool
  | dealStarting | awaitingHandle | handleShown | awaitingCard | cardShown | trickEnded
  | dealEnded => true
  | _ => false

/-- There is a deal on the table. -/
def inDeal (p : Phase) : Bool := p.beforePlay || p.duringPlay

/-- The phases from which the play goes on by itself. -/
def goesOn : Phase → Bool
  | dealStarting | awaitingHandle | handleShown | cardShown | trickEnded => true
  | _ => false

/-- The phases in which a deal is over. -/
def endsDeal : Phase → Bool
  | allPassed | dealEnded => true
  | _ => false

theorem not_both (p : Phase) : ¬ (p.beforePlay ∧ p.duringPlay) := by
  cases p <;> decide

theorem duringPlay_of_goesOn {p : Phase} : p.goesOn → p.duringPlay := by
  cases p <;> decide

end Phase

namespace Table

/-! ## Where the moves lead -/

/-- The seat in turn has bid. -/
def afterBid (t : Table) (contract : Contract) (slam : Bool) : Table :=
  let (deal, accepted) := t.deal.recordBid contract slam t.current
  { t.note t.current (.bid accepted) with
    deal
    position := t.position + 1
    current := t.current.next t.players
    phase := .bidShown }

/-- The seat, other than the taker, that holds the called card. -/
def calledPartner (t : Table) (taker : Seat) (card : Card) : Option Seat :=
  (t.hands.locate? card).filter fun s => s ≠ taker

/-- The taker has called a card. -/
def afterCall (t : Table) (taker : Seat) (card : Card) : Table :=
  { t.note taker (.kingCall card) with
    deal := t.deal.setPartner (t.calledPartner taker card)
    calledCard := some card
    phase := .kingCallShown }

/-- The play begins. -/
def opened (t : Table) : Table :=
  { t with
    phase := .dealStarting
    tricksDone := 0
    position := 0
    handleAsked := .replicate false
    current := t.openingLeader
    deal := t.deal.setFirstPlayer t.openingLeader }

/-- The taker has taken the dog and set cards aside. -/
def exchanged (t : Table) (taker : Seat) (discard : Cards) : Table :=
  { t.note taker (.discard discard) with
    hands := t.hands.set taker (Cards.takeOut (t.hand taker ++ t.deal.dog) discard).1
    deal := t.deal.setDiscard discard .attack }

/-- The seat in turn has shown a handle. -/
def afterHandle (t : Table) (handle : Cards) : Table :=
  { t.note t.current (.handle handle) with
    deal := t.deal.keepHandle handle t.current
    phase := .handleShown }

/-- The seat in turn has played a card. -/
def afterCard (t : Table) (card : Card) : Table :=
  { t.note t.current (.card card) with
    hands := t.hands.set t.current ((t.hand t.current).remove card)
    trick := t.trick ++ [card]
    position := t.position + 1
    current := t.current.next t.players
    phase := .cardShown }

/-- The table at the end of a trick, before the trick is counted. -/
def gathered (t : Table) : Table :=
  { t with phase := .trickEnded, position := 0, tricksDone := t.tricksDone + 1, trick := [] }

/-- The trick is won and added to the deal. -/
def afterTrick (t : Table) (deal : DealState) (winner : Seat) : Table :=
  { t.gathered with deal, current := winner }.note winner (.trickWon (t.tricksDone + 1))

/-- The deal is counted. -/
def counted (t : Table) : Table :=
  { t with points := some t.deal.result, phase := .dealEnded }

/-! ## The moves -/

/-- What can happen at a table. -/
inductive Move (t : Table) : Table → Prop where
  /-- The table is set up anew; the deal that was on it is given up. -/
  | create {n : Nat} (supported : Rules.supported n) (dealer : Seat) (generator : Generator) :
      Move t { t with
        players := n
        deal := .new n
        hands := .empty n
        dealer
        phase := .awaitingPlayers
        generator }
  | chooseDealer (dealer : Seat) : Move t { t with dealer }
  | chooseDistribution (distribution : Distribution) : Move t { t with distribution }
  | getReady : Move t { t with phase := .awaitingReady }
  | stop : Move t { t with phase := .stopped }
  | deal {d : Deal} (complete : Rules.supported t.players → d.Complete t.players)
      (generator : Generator) : Move t (place { cleared t with generator } d)
  | bid (phase : t.phase = .awaitingBid) (contract : Contract) (slam : Bool) :
      Move t (t.afterBid contract slam)
  /-- The next seat is asked for a bid. -/
  | askBid (phase : t.phase = .cardsDealt ∨ t.phase = .bidShown)
      (more : t.position < t.players) : Move t { t with phase := .awaitingBid }
  | passOut (phase : t.phase = .cardsDealt ∨ t.phase = .bidShown)
      (ended : t.players ≤ t.position) (untaken : t.deal.bid.contract.isTaken = false) :
      Move t { t with phase := .allPassed, position := 0 }
  /-- The taker is asked to call a card. -/
  | askCall (phase : t.phase = .cardsDealt ∨ t.phase = .bidShown)
      (taken : t.deal.bid.contract.isTaken) (five : t.players = 5) (position : Nat) :
      Move t { t with phase := .awaitingKingCall, deal := t.deal.setPartner none, position }
  | call (phase : t.phase = .awaitingKingCall) {taker : Seat}
      (isTaker : t.deal.bid.taker = some taker) {card : Card}
      (callable : Cards.canCall (t.hand taker).statistics card) :
      Move t (t.afterCall taker card)
  /-- At a table of five a card has been called before the dog is seen. -/
  | showDog (phase : t.phase = .cardsDealt ∨ t.phase = .bidShown ∨ t.phase = .kingCallShown)
      (taken : t.deal.bid.contract.isTaken) (unowned : t.deal.bid.contract.dogOwner? = none)
      (position : Nat) (called : t.players = 5 → t.phase = .kingCallShown) :
      Move t { t with phase := .dogShown, position }
  /-- The dog goes to its owner unseen, and the play begins. -/
  | openUnseen (phase : t.phase = .cardsDealt ∨ t.phase = .bidShown ∨ t.phase = .kingCallShown)
      (taken : t.deal.bid.contract.isTaken) {owner : Team}
      (owned : t.deal.bid.contract.dogOwner? = some owner)
      (called : t.players = 5 → t.phase = .kingCallShown) :
      Move t (opened { t with deal := t.deal.setDiscard t.deal.dog owner })
  | askDiscard (phase : t.phase = .dogShown) : Move t { t with phase := .awaitingDiscard }
  | discard (phase : t.phase = .awaitingDiscard) {taker : Seat}
      (isTaker : t.deal.bid.taker = some taker) {cards : Cards}
      (allowed : (t.hand taker).isDiscard t.deal.dog cards t.players) :
      Move t (t.exchanged taker cards).opened
  | askHandle (phase : t.phase.goesOn) (more : t.position < t.players) (first : t.tricksDone = 0)
      (unasked : t.handleAsked.get t.current = false) :
      Move t { t with phase := .awaitingHandle, handleAsked := t.handleAsked.set t.current true }
  | handle (phase : t.phase = .awaitingHandle) {cards : Cards}
      (allowed : (t.hand t.current).isHandle cards) : Move t (t.afterHandle cards)
  | decline (phase : t.phase = .awaitingHandle) : Move t (t.note t.current .noHandle)
  | askCard (phase : t.phase.goesOn) (more : t.position < t.players)
      (unfinished : t.phase = .trickEnded → t.tricksDone < Rules.handSize t.players) :
      Move t { t with phase := .awaitingCard }
  | card (phase : t.phase = .awaitingCard) {c : Card}
      (allowed : (t.hand t.current).canPlay t.trick c) : Move t (t.afterCard c)
  | winTrick (phase : t.phase.goesOn) (full : t.players ≤ t.position) {deal : DealState}
      {winner : Seat} (added : t.deal.addTrick t.trick = .ok (deal, winner)) :
      Move t (t.afterTrick deal winner)
  | finish (phase : t.phase = .trickEnded) (played : Rules.handSize t.players ≤ t.tricksDone) :
      Move t t.counted

/-- Some moves in a row. -/
abbrev Moves : Table → Table → Prop := Relation.ReflTransGen Move

/-- What every move keeps is kept by several. -/
theorem Moves.keep {P : Table → Prop} (hstep : ∀ t t', P t → Move t t' → P t') {t t' : Table}
    (h : Moves t t') (ht : P t) : P t' := by
  induction h with
  | refl => exact ht
  | tail _ hm ih => exact hstep _ _ ih hm

end Table

end FrenchTarot
