import FrenchTarot.Contract

/-!
# The phases of a table

A table goes through the phases of a deal one after the other.  In some of them a player has to
decide; the others show what has happened and wait to be acknowledged.  Which phase comes next
depends on the bid, the number of players and how far the trick has got, and on nothing else.
-/

namespace FrenchTarot

/-- What a table waits for. -/
inductive Phase where
  | stopped
  | awaitingPlayers
  | awaitingReady
  | cardsDealt
  | awaitingBid
  | bidShown
  | allPassed
  | awaitingKingCall
  | kingCallShown
  | dogShown
  | awaitingDiscard
  | dealStarting
  | awaitingHandle
  | handleShown
  | awaitingCard
  | cardShown
  | trickEnded
  | dealEnded
  deriving DecidableEq, Repr, Inhabited

namespace Phase

def name : Phase → String
  | stopped => "Stopped"
  | awaitingPlayers => "WaitForPlayers"
  | awaitingReady => "WaitForReady"
  | cardsDealt => "WaitForCards"
  | awaitingBid => "WaitForBid"
  | bidShown => "WaitForShowBid"
  | allPassed => "WaitForAllPassed"
  | awaitingKingCall => "WaitForKingCall"
  | kingCallShown => "WaitForShowKingCall"
  | dogShown => "WaitForShowDog"
  | awaitingDiscard => "WaitForDiscard"
  | dealStarting => "WaitForStartDeal"
  | awaitingHandle => "WaitForHandle"
  | handleShown => "WaitForShowHandle"
  | awaitingCard => "WaitForPlayedCard"
  | cardShown => "WaitForShowCard"
  | trickEnded => "WaitForEndOfTrick"
  | dealEnded => "WaitForEndOfDeal"

/-- Whether a player has to decide. -/
def awaitsAction : Phase → Bool
  | awaitingBid | awaitingKingCall | awaitingDiscard | awaitingHandle | awaitingCard => true
  | _ => false

/-- Whether acknowledging stops here: a player has to decide, or the deal is over. -/
def isResting : Phase → Bool
  | dealEnded | allPassed | stopped => true
  | p => p.awaitsAction

/-- The phase after the auction or the call: the dog is shown, unless the contract leaves it
unseen. -/
def afterAuction (contract : Contract) : Phase :=
  if contract.dogOwner?.isSome then dealStarting else dogShown

/-- The phase after a bid, where `roundOver` says whether every seat has spoken.  A slam that is
announced ends the auction at once. -/
def afterBid (bid : Bid) (roundOver : Bool) (n : Nat) : Phase :=
  if !roundOver && !(bid.slam && bid.contract.isTaken) then awaitingBid
  else if !bid.contract.isTaken then allPassed
  else if n = 5 then awaitingKingCall
  else afterAuction bid.contract

/-- The phase of the card play: every seat is asked for a handle before its first card. -/
def inPlay (trickComplete firstTrick handleAsked : Bool) : Phase :=
  if trickComplete then trickEnded
  else if firstTrick && !handleAsked then awaitingHandle
  else awaitingCard

end Phase

end FrenchTarot
