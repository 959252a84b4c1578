import FrenchTarot.Cards.Declaration
import FrenchTarot.Pile
import FrenchTarot.Points

/-!
# The state of a deal

`DealState` holds what has been decided and played in a deal: the bid, the dog and the discard, the
handles, and the tricks with the seats that won them.  Tricks are resolved as they are added, and
`DealState.result` counts the deal from what is stored.

The Fool wins no trick.  It stays with the side that played it, which gives a card of half a point
for it when the other side won the trick; in the last trick it changes sides instead, unless the
taker plays it there after the attack has won every trick before, which completes a slam.
-/

namespace FrenchTarot

/-- A trick with its cards in the order of play. -/
structure PlayedTrick where
  cards : Cards
  winner : Seat
  /-- The winner's side when the trick was won. -/
  owner : Team
  deriving DecidableEq, Repr

/-- What has happened in a deal. -/
structure DealState where
  players : Nat
  bid : Bid
  dog : Cards
  discard : Pile
  attackHandle : Cards
  defenseHandle : Cards
  /-- The tricks played so far, oldest first. -/
  tricks : List PlayedTrick
  /-- How many of them the attack has won. -/
  tricksWon : Nat
  /-- Figures of the tricks of the attack, corrected for the Fool. -/
  attack : Statistics
  /-- The seat that leads the first trick. -/
  firstPlayer : Option Seat
  deriving DecidableEq, Repr

inductive TrickError where
  | size (expected actual : Nat)
  | dealFinished (tricks : Nat)
  | noLeader
  deriving DecidableEq, Repr

namespace TrickError

def message : TrickError → String
  | size expected actual =>
    "trick holds " ++ toString actual ++ " cards, expected " ++ toString expected
  | dealFinished tricks => "all " ++ toString tricks ++ " tricks of the deal are already played"
  | noLeader => "no player is set to lead the first trick"

end TrickError

namespace DealState

/-- Before anything has happened. -/
def new (players : Nat) : DealState :=
  ⟨players, .none, [], .empty, [], [], [], 0, {}, none⟩

/-! ## Bids, dog and handles -/

/-- Records a bid.  Only a contract above the best one is kept, and otherwise the seat passes; the
result is the contract that counts for the seat.  A slam is announced only with a contract that
somebody plays. -/
def recordBid (d : DealState) (contract : Contract) (slam : Bool) (seat : Seat) :
    DealState × Contract :=
  if contract.outbids d.bid.contract then
    let bid : Bid :=
      { taker := if contract.isTaken then some seat else d.bid.taker
        partner := if contract.isTaken then some seat else d.bid.partner
        contract
        slam := slam && contract.isTaken }
    ({ d with bid }, contract)
  else (d, .pass)

/-- Sets the partner of the taker; without one, the taker plays alone. -/
def setPartner (d : DealState) (partner : Option Seat) : DealState :=
  { d with bid := { d.bid with partner := partner <|> d.bid.taker } }

def setDog (d : DealState) (dog : Cards) : DealState := { d with dog }

/-- Sets the discard and the side that it counts for. -/
def setDiscard (d : DealState) (discard : Cards) (owner : Team) : DealState :=
  { d with discard := ⟨discard, some owner⟩ }

/-- Gives the dog to its owner in the contracts without a discard. -/
def settleDog (d : DealState) : DealState :=
  match d.bid.contract.dogOwner? with
  | some owner => d.setDiscard d.dog owner
  | none => d

/-- Whether the contract has the dog shown and a discard made. -/
def showsDog (d : DealState) : Bool := d.bid.contract.dogOwner?.isNone

/-- Keeps a handle for the side of the seat that shows it. -/
def keepHandle (d : DealState) (handle : Cards) (seat : Seat) : DealState :=
  match d.bid.teamOf seat with
  | .attack => { d with attackHandle := handle }
  | .defense => { d with defenseHandle := handle }

def setFirstPlayer (d : DealState) (seat : Seat) : DealState := { d with firstPlayer := some seat }

/-! ## Tricks -/

/-- The seat that leads a trick: the first player, then the winner of the trick before. -/
def leader? (d : DealState) : Nat → Option Seat
  | 0 => d.firstPlayer
  | turn + 1 => d.tricks[turn]?.map PlayedTrick.winner

/-- The seat that played a card in a trick. -/
def ownerOf? (d : DealState) (c : Card) (turn : Nat) : Option Seat := do
  let leader ← d.leader? turn
  let trick ← d.tricks[turn]?
  let position ← trick.cards.position? c
  return leader.advance position d.players

/-- The seat of a card in a trick that `leader` led. -/
def seatOf (leader : Seat) (trick : Cards) (c : Card) (n : Nat) : Seat :=
  match trick.position? c with
  | some position => leader.advance position n
  | none => leader

/-- The card that wins a trick by rank: the highest trump, or else the highest card of the suit
led. -/
def leadingCard (trick : Cards) : Card :=
  (trick.highestTrump? <|> trick.highestOfSuitLed?).getD Card.fool

/-- Value, in half points, that changes sides with the Fool: its nine for a card of one. -/
def foolSwap : Nat := 8

/-- Who wins a trick, and whether the Fool in it changes sides. -/
def resolve (d : DealState) (leader : Seat) (trick : Cards) : Seat × Bool :=
  let n := d.players
  let turn := d.tricks.length
  let winner := seatOf leader trick (leadingCard trick) n
  if trick.hasFool then
    let foolSeat := seatOf leader trick Card.fool n
    let sameSide : Bool := d.bid.teamOf winner = d.bid.teamOf foolSeat
    if Rules.dealOver (turn + 1) n then
      -- Played last, the Fool is lost, unless the taker completes a slam with it.
      if d.tricksWon + 1 = Rules.handSize n && d.bid.taker = some foolSeat then (foolSeat, false)
      else (winner, sameSide)
    else (winner, !sameSide)
  else (winner, false)

/-- Figures of the attack after a trick. -/
def countTrick (s : Statistics) (trick : Cards) (owner : Team) (swap : Bool) : Statistics :=
  match owner, swap with
  | .attack, false => s.addTrumps trick
  | .attack, true =>
    let s := s.addTrumps trick
    { s with halfPoints := s.halfPoints - foolSwap, oudlers := s.oudlers - 1 }
  | .defense, false => s
  | .defense, true => { s with halfPoints := s.halfPoints + foolSwap, oudlers := s.oudlers + 1 }

/-- Adds a complete trick and tells who wins it. -/
def addTrick (d : DealState) (trick : Cards) : Except TrickError (DealState × Seat) :=
  let total := Rules.handSize d.players
  if trick.length ≠ d.players then .error (.size d.players trick.length)
  else if total ≤ d.tricks.length then .error (.dealFinished total)
  else
    match d.leader? d.tricks.length with
    | none => .error .noLeader
    | some leader =>
      let (winner, swap) := d.resolve leader trick
      let owner := d.bid.teamOf winner
      .ok ({ d with
        tricks := d.tricks ++ [⟨trick, winner, owner⟩]
        tricksWon := d.tricksWon + (if owner = .attack then 1 else 0)
        attack := countTrick d.attack trick owner swap }, winner)

/-! ## The result -/

def slamTeam (d : DealState) : Option Team :=
  if d.tricksWon = 0 then some .defense
  else if d.tricksWon = Rules.handSize d.players then some .attack
  else none

/-- The trick in which the Little earns its bonus: the last one, or the one before it when a slam
was made and the Fool was played last. -/
def bonusTrick? (d : DealState) : Option PlayedTrick :=
  match d.tricks.reverse with
  | [] => none
  | [last] => some last
  | last :: before :: _ =>
    if d.slamTeam.isSome && last.cards.hasFool then some before else some last

/-- The side that won the Little in that trick. -/
def littleTrumpOwner (d : DealState) : Option Team :=
  match d.bonusTrick? with
  | some trick => if trick.cards.hasLittle then some trick.owner else none
  | none => none

/-- Figures of all cards of the attack: its tricks, and the discard if it owns it. -/
def attackTotal (d : DealState) : Statistics :=
  if d.discard.owner = some .attack then d.attack.addTrumps d.discard.cards else d.attack

/-- Half points as whole points: a half goes to the attack if it has reached the target, and to the
defense otherwise. -/
def roundHalf (half : Nat) (target : Int) : Int :=
  if half % 2 = 0 then half / 2
  else if 2 * target ≤ half then (half + 1) / 2
  else (half - 1) / 2

/-- Bonus of a handle that was shown, if one was. -/
def handleBonus (handle : Cards) (n : Nat) : Int :=
  match Handle.ofSize? handle.length with
  | some h => h.bonus n
  | none => 0

def result (d : DealState) : Points :=
  let total := d.attackTotal
  let attackHandle := handleBonus d.attackHandle d.players
  let defenseHandle := handleBonus d.defenseHandle d.players
  { pointsAttack := roundHalf total.halfPoints (Rules.target total.oudlers)
    cardHalfPoints := total.halfPoints
    oudlers := total.oudlers
    handlePoints := attackHandle + defenseHandle
    attackHandlePoints := attackHandle
    defenseHandlePoints := defenseHandle
    slamDone := d.slamTeam.isSome
    slamTeam := d.slamTeam
    littleTrumpOwner := d.littleTrumpOwner }

end DealState

end FrenchTarot
