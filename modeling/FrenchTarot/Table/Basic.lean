import FrenchTarot.Cards.Legality
import FrenchTarot.Deal.Distribution
import FrenchTarot.DealState
import FrenchTarot.Phase

/-!
# Tables

A table holds the hands and the state of one deal and moves through the phases of that deal.
Players act on it, and whoever runs it acknowledges what it shows.  This module has the table, what
goes in and what comes out: actions, events, refusals and the history of the deal.

A call on a table is a computation of `TableM`: it gives a result or a refusal, and in both cases
the table as it stands afterwards.
-/

namespace FrenchTarot

/-! ## What goes in and out -/

inductive Action where
  | bid (contract : Contract) (slam : Bool)
  | kingCall (card : Card)
  | discard (cards : Cards)
  | handle (cards : Cards)
  | noHandle
  | card (card : Card)
  deriving DecidableEq, Repr

/-- What a call has brought about, to be shown to the players. -/
inductive Event where
  | ready
  | newDeal (dealer : Seat)
  /-- This seat has to decide. -/
  | turn (seat : Seat)
  /-- The contract is the one that counts for the seat. -/
  | bid (seat : Seat) (contract : Contract) (slam : Bool)
  | allPassed
  | kingCalled (card : Card)
  | showDog (dog : Cards)
  | discarded
  | startDeal (firstPlayer : Seat)
  | handle (seat : Seat) (handle : Cards)
  | cardPlayed (seat : Seat) (card : Card)
  | trickWon (winner : Seat) (trick : Nat)
  | endOfDeal (points : Points)
  | stopped
  deriving DecidableEq, Repr

/-- The phase after a call, with what the call has brought about. -/
structure Transition where
  phase : Phase
  event : Event
  deriving DecidableEq, Repr

/-- Why a table refuses a call. -/
inductive Refusal where
  | wrongPhase (expected actual : Phase)
  | wrongSeat (expected seat : Seat)
  | nothingToAcknowledge (phase : Phase)
  | illegalCard (card : Card)
  | invalidDiscard (cards : Cards)
  | invalidHandle (cards : Cards)
  | invalidKingCall (card : Card)
  | noTaker
  | deal (cause : DealError)
  | trick (cause : TrickError)
  deriving DecidableEq, Repr

namespace Refusal

def message : Refusal → String
  | wrongPhase expected actual =>
    "action expected in " ++ expected.name ++ ", engine is in " ++ actual.name
  | wrongSeat expected seat => seat.name ++ " cannot act, waiting for " ++ expected.name
  | nothingToAcknowledge phase => "nothing to acknowledge in " ++ phase.name
  | illegalCard card => "card " ++ card.text ++ " cannot be played"
  | invalidDiscard cards => "invalid discard: " ++ cards.text
  | invalidHandle cards => "invalid handle: " ++ cards.text
  | invalidKingCall card => card.text ++ " cannot be called"
  | noTaker => "no taker for this deal"
  | deal cause => "cannot deal: " ++ cause.message
  | trick cause => cause.message

end Refusal

/-! ## The history of a deal -/

/-- What a seat has done. -/
inductive Deed where
  | bid (contract : Contract)
  | kingCall (card : Card)
  | discard (cards : Cards)
  | handle (cards : Cards)
  | noHandle
  | card (card : Card)
  /-- The seat has won the trick of this number, counted from one. -/
  | trickWon (number : Nat)
  deriving DecidableEq, Repr

namespace Deed

/-- Short name of a deed. -/
def label : Deed → String
  | bid _ => "Bid"
  | kingCall _ => "King call"
  | discard _ => "Discard"
  | handle _ => "Handle"
  | noHandle => "No handle"
  | card _ => "Card"
  | trickWon _ => "Trick won"

/-- Text of what the deed is about. -/
def detail : Deed → String
  | bid contract => contract.name
  | kingCall called => called.text
  | discard cards => cards.text
  | handle cards => cards.text
  | noHandle => ""
  | card played => played.text
  | trickWon number => toString number

end Deed

/-- An entry of the history: who did what in which phase. -/
structure HistoryEntry where
  seat : Seat
  deed : Deed
  phase : Phase
  deriving DecidableEq, Repr

/-! ## The table -/

/-- A table with the deal in progress. -/
structure Table where
  players : Nat
  phase : Phase
  deal : DealState
  hands : Hands
  dealer : Seat
  /-- The seat whose turn it is in the auction and in the play. -/
  current : Seat
  /-- How many seats have acted in the auction or in the trick in progress. -/
  position : Nat
  tricksDone : Nat
  trick : Cards
  handleAsked : PerSeat Bool
  calledCard : Option Card
  /-- The result, once the deal has ended. -/
  points : Option Points
  /-- How the next deal is distributed. -/
  distribution : Distribution
  generator : Generator
  /-- What has happened in the deal, oldest first. -/
  history : List HistoryEntry
  deriving DecidableEq, Repr

abbrev TableM := EStateM Refusal Table

namespace Table

/-- A table at which nobody plays yet; what it draws comes from the seed. -/
def ofSeed (seed : UInt64) : Table where
  players := 4
  phase := .stopped
  deal := .new 4
  hands := .empty 4
  dealer := .south
  current := .south
  position := 0
  tricksDone := 0
  trick := []
  handleAsked := .replicate false
  calledCard := none
  points := none
  distribution := .random
  generator := .ofSeed seed
  history := []

/-- The seat that has to decide, if one has to. -/
def acting? (t : Table) : Option Seat :=
  match t.phase with
  | .awaitingBid | .awaitingHandle | .awaitingCard => some t.current
  | .awaitingKingCall | .awaitingDiscard => t.deal.bid.taker
  | _ => none

def hand (t : Table) (s : Seat) : Cards := t.hands.get s

/-- The cards that a seat may play on the trick in progress. -/
def legal (t : Table) (s : Seat) : Cards := (t.hand s).legal t.trick

/-- The last entries of the history. -/
def recent (t : Table) (count : Nat) : List HistoryEntry :=
  t.history.drop (t.history.length - count)

/-- A transition to the phase in which the table is. -/
def transition (t : Table) (event : Event) : Transition := ⟨t.phase, event⟩

/-- The transition that tells whose turn it is. -/
def turn (t : Table) : Transition :=
  match t.acting? with
  | some seat => t.transition (.turn seat)
  | none => t.transition .ready

/-- The table with a deed added to its history. -/
def note (t : Table) (seat : Seat) (deed : Deed) : Table :=
  { t with history := t.history ++ [⟨seat, deed, t.phase⟩] }

/-- Refuses a call outside of its phase. -/
def expectPhase (expected : Phase) : TableM Unit := do
  let t ← get
  if t.phase ≠ expected then throw (.wrongPhase expected t.phase)

/-- Refuses a call of any seat but the expected one. -/
def expectSeat (expected seat : Seat) : TableM Unit := do
  if expected ≠ seat then throw (.wrongSeat expected seat)

/-- The taker of the deal. -/
def expectTaker : TableM Seat := do
  match (← get).deal.bid.taker with
  | some taker => return taker
  | none => throw .noTaker

end Table

end FrenchTarot
