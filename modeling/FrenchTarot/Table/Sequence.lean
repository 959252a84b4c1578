import FrenchTarot.Table.Basic

/-!
# The course of a deal

The steps that a table takes by itself between the decisions: closing the auction, settling the dog,
starting the play, going on to the next card or trick, and counting the deal.
-/

namespace FrenchTarot.Table

/-- Replaces the table and tells whose turn it is there. -/
def moveTurn (t : Table) : TableM Transition := do
  set t
  return t.turn

/-- Replaces the table and tells what happened. -/
def moveTo (t : Table) (event : Event) : TableM Transition := do
  set t
  return t.transition event

/-- The seat that leads the first trick: a taker who announced a slam, or the seat after the
dealer. -/
def openingLeader (t : Table) : Seat :=
  match t.deal.bid.slam, t.deal.bid.taker with
  | true, some taker => taker
  | _, _ => t.dealer.next t.players

/-- Starts the play of the cards. -/
def startDeal : TableM Transition := do
  let t ← get
  let leader := t.openingLeader
  moveTo
    { t with
      phase := .dealStarting
      tricksDone := 0
      position := 0
      handleAsked := .replicate false
      current := leader
      deal := t.deal.setFirstPlayer leader }
    (.startDeal leader)

/-- Shows the dog, or gives it to its owner and starts the play. -/
def settleDog : TableM Transition := do
  let t ← get
  if t.deal.showsDog then moveTo { t with phase := .dogShown } (.showDog t.deal.dog)
  else do
    set { t with deal := t.deal.settleDog }
    startDeal

/-- Goes on with the auction, or closes it. -/
def continueAuction : TableM Transition := do
  let t ← get
  let roundOver : Bool := t.players ≤ t.position
  let t := if roundOver then { t with position := 0 } else t
  let phase := Phase.afterBid t.deal.bid roundOver t.players
  match phase with
  -- Until a card is called the taker plays alone.
  | .awaitingKingCall => moveTurn { t with phase, deal := t.deal.setPartner none }
  | .dogShown | .dealStarting => do
    set t
    settleDog
  | .allPassed => moveTo { t with phase } .allPassed
  | _ => moveTurn { t with phase }

/-- Goes on with the play: the trick is won, or the next seat is asked for a handle or a card. -/
def continuePlay : TableM Transition := do
  let t ← get
  let asked := t.handleAsked.get t.current
  let phase := Phase.inPlay (t.players ≤ t.position) (t.tricksDone = 0) asked
  match phase with
  | .trickEnded => do
    let trick := t.trick
    let number := t.tricksDone + 1
    let t := { t with phase, position := 0, tricksDone := number, trick := [] }
    -- The trick has left the table even if the deal should refuse it.
    set t
    match t.deal.addTrick trick with
    | .error e => throw (.trick e)
    | .ok (deal, winner) =>
      let t := { t with deal, current := winner }
      moveTo (t.note winner (.trickWon number)) (.trickWon winner number)
  | .awaitingHandle => moveTurn { t with phase, handleAsked := t.handleAsked.set t.current true }
  | _ => moveTurn { t with phase }

/-- Counts the deal. -/
def finishDeal : TableM Transition := do
  let t ← get
  let points := t.deal.result
  moveTo { t with points := some points, phase := .dealEnded } (.endOfDeal points)

end FrenchTarot.Table
