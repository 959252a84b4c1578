import FrenchTarot.DealState
import FrenchTarot.Json.Basic

/-!
# Records of deals

A record holds what is needed to rebuild a finished deal: who played what, the dog, the handles and
the tricks.  Winners, owners and the discard are left out, because replaying the tricks gives them
back: the discard is what was never played.  Replaying accepts nothing but a complete deal.
-/

namespace FrenchTarot

/-- What a record says about a deal besides its tricks. -/
structure DealInfo where
  players : UInt8
  taker : Option Seat
  contract : Contract
  slam : Bool
  firstLead : Option Seat
  dog : Cards
  attackHandle : Cards
  defenseHandle : Cards
  /-- The called partner, if the taker had one. -/
  partner : Option Seat
  deriving DecidableEq, Repr

structure Record where
  version : String
  info : DealInfo
  tricks : List Cards
  deriving DecidableEq, Repr

/-- Why a record is not a complete deal, or cannot be read. -/
inductive RecordError where
  | version (found : String)
  | players (cause : PlayersError)
  | trickCount (expected found : Nat)
  | trickSize (number expected found : Nat)
  /-- A card of this trick was played before, or is not in the deck. -/
  | duplicate (number : Nat)
  | discard (expected found : Nat)
  | trick (cause : TrickError)
  | json (cause : JsonError)
  deriving DecidableEq, Repr

namespace Record

def currentVersion : String := "3"

end Record

namespace RecordError

def message : RecordError → String
  | version found =>
    "wrong deal log version: expected " ++ Record.currentVersion ++ ", found '" ++ found ++ "'"
  | players cause => cause.message
  | trickCount expected found =>
    "deal log holds " ++ toString found ++ " tricks, expected " ++ toString expected
  | trickSize number expected found =>
    "trick " ++ toString number ++ " holds " ++ toString found ++ " cards, expected "
      ++ toString expected
  | duplicate number => "trick " ++ toString number ++ " repeats a card already played"
  | discard expected found =>
    toString found ++ " cards left for the discard, expected " ++ toString expected
  | trick cause => cause.message
  | json cause => cause.message

end RecordError

namespace Record

def ofState (d : DealState) : Record where
  version := currentVersion
  info :=
    { players := UInt8.ofNat d.players
      taker := d.bid.taker
      contract := d.bid.contract
      slam := d.bid.slam
      firstLead := d.firstPlayer
      dog := d.dog
      attackHandle := d.attackHandle
      defenseHandle := d.defenseHandle
      partner := if d.bid.hasPartner then d.bid.partner else none }
  tricks := d.tricks.map PlayedTrick.cards

def opening (info : DealInfo) : DealState :=
  { DealState.new info.players.toNat with
    bid := ⟨info.taker, info.partner <|> info.taker, info.contract, info.slam⟩
    dog := info.dog
    attackHandle := info.attackHandle
    defenseHandle := info.defenseHandle
    firstPlayer := info.firstLead }

/-- Plays tricks with the cards of `remaining`; gives the deal after them and the cards that are
left.  `number` counts the tricks from one. -/
def playTricks (d : DealState) (remaining : Cards) (number : Nat) :
    List Cards → Except RecordError (DealState × Cards)
  | [] => .ok (d, remaining)
  | trick :: tricks =>
    if trick.length ≠ d.players then .error (.trickSize number d.players trick.length)
    else
      let (remaining, found) := remaining.takeOut trick
      if found ≠ d.players then .error (.duplicate number)
      else
        match d.addTrick trick with
        | .error e => .error (.trick e)
        | .ok (d, _) => playTricks d remaining (number + 1) tricks

/-- The side that owns the discard of a record. -/
def discardOwner (contract : Contract) : Team :=
  if contract = .guardAgainst then .defense else .attack

/-- Rebuilds the deal of a record. -/
def replay (r : Record) : Except RecordError DealState := do
  let n := r.info.players.toNat
  (Rules.checkPlayers n).mapError .players
  if r.tricks.length ≠ Rules.handSize n then
    throw (.trickCount (Rules.handSize n) r.tricks.length)
  let (d, remaining) ← playTricks (opening r.info) Cards.standard 1 r.tricks
  if remaining.length ≠ Rules.dogSize n then
    throw (.discard (Rules.dogSize n) remaining.length)
  -- The cards that no trick has used are the discard.
  return d.setDiscard remaining (discardOwner r.info.contract)

end Record

end FrenchTarot
