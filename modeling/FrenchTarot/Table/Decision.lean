import FrenchTarot.Table.Sequence

/-!
# Decisions of the players

Every decision is checked before it changes anything: the phase first, then the seat, then whether
the rules allow it.  `apply` takes any decision and tells what came of it.
-/

namespace FrenchTarot.Table

/-- Records the bid of a seat; tells the contract that counts for it. -/
def placeBid (seat : Seat) (contract : Contract) (slam : Bool) : TableM Contract := do
  expectPhase .awaitingBid
  let t ← get
  expectSeat t.current seat
  let (deal, accepted) := t.deal.recordBid contract slam seat
  let t := t.note seat (.bid accepted)
  set { t with
    deal
    position := t.position + 1
    current := t.current.next t.players
    phase := .bidShown }
  return accepted

/-- Records the card that the taker calls; tells the partner, if another seat holds the card. -/
def callCard (seat : Seat) (card : Card) : TableM (Option Seat) := do
  expectPhase .awaitingKingCall
  let taker ← expectTaker
  expectSeat taker seat
  let t ← get
  if !Cards.canCall (t.hand taker).statistics card then throw (.invalidKingCall card)
  -- A taker who calls a card of the own hand, or of the dog, plays alone.
  let partner := (t.hands.locate? card).filter fun s => s ≠ taker
  let t := t.note seat (.kingCall card)
  set { t with
    deal := t.deal.setPartner partner
    calledCard := some card
    phase := .kingCallShown }
  return partner

/-- Takes the dog into the taker's hand and sets the discard aside; then the play starts. -/
def layDiscard (seat : Seat) (discard : Cards) : TableM Unit := do
  expectPhase .awaitingDiscard
  let taker ← expectTaker
  expectSeat taker seat
  let t ← get
  if !(t.hand taker).isDiscard t.deal.dog discard t.players then throw (.invalidDiscard discard)
  let (hand, _) := Cards.takeOut (t.hand taker ++ t.deal.dog) discard
  let t := t.note seat (.discard discard)
  set { t with
    hands := t.hands.set taker hand
    deal := t.deal.setDiscard discard .attack }
  let _ ← startDeal

/-- Records a handle that the seat in turn shows. -/
def showHandle (seat : Seat) (handle : Cards) : TableM Unit := do
  expectPhase .awaitingHandle
  let t ← get
  expectSeat t.current seat
  if !(t.hand seat).isHandle handle then throw (.invalidHandle handle)
  let t := t.note seat (.handle handle)
  set { t with
    deal := t.deal.keepHandle handle seat
    phase := .handleShown }

/-- The seat in turn shows no handle, and the play goes on. -/
def declineHandle (seat : Seat) : TableM Transition := do
  expectPhase .awaitingHandle
  let t ← get
  expectSeat t.current seat
  set (t.note seat .noHandle)
  continuePlay

/-- Plays a card of the seat in turn. -/
def playCard (seat : Seat) (card : Card) : TableM Unit := do
  expectPhase .awaitingCard
  let t ← get
  expectSeat t.current seat
  if !(t.hand seat).canPlay t.trick card then throw (.illegalCard card)
  let t := t.note seat (.card card)
  set { t with
    hands := t.hands.set seat ((t.hand seat).remove card)
    trick := t.trick ++ [card]
    position := t.position + 1
    current := t.current.next t.players
    phase := .cardShown }

/-- The transition to the present phase. -/
def report (event : Event) : TableM Transition := do return (← get).transition event

def apply (seat : Seat) : Action → TableM Transition
  | .bid contract slam => do
    let accepted ← placeBid seat contract slam
    report (.bid seat accepted (slam && accepted.isTaken))
  | .kingCall card => do
    let _ ← callCard seat card
    report (.kingCalled card)
  | .discard cards => do
    layDiscard seat cards
    report .discarded
  | .handle cards => do
    showHandle seat cards
    report (.handle seat cards)
  | .noHandle => declineHandle seat
  | .card card => do
    playCard seat card
    report (.cardPlayed seat card)

end FrenchTarot.Table
