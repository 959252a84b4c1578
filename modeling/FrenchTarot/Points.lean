import FrenchTarot.Contract
import FrenchTarot.Rules

/-!
# The result of a deal

`Points` holds what is counted at the end of a deal; the functions below turn it into scores.  The
attack plays against each defender for the same stake, the unit: the distance to the target raised
by a fixed base and multiplied by the contract, with the bonuses added.  A taker with a partner wins
twice the unit and the partner once.
-/

namespace FrenchTarot

/-- What is counted at the end of a deal. -/
structure Points where
  /-- Card points of the attack, once the half point has gone to the side that is ahead. -/
  pointsAttack : Int := 0
  /-- Card points of the attack as counted, in half points. -/
  cardHalfPoints : Nat := 0
  oudlers : Nat := 0
  /-- Bonuses of all handles of the deal. -/
  handlePoints : Int := 0
  attackHandlePoints : Int := 0
  defenseHandlePoints : Int := 0
  /-- Whether one side won all tricks. -/
  slamDone : Bool := false
  slamTeam : Option Team := none
  /-- The side that won the Little in the last trick. -/
  littleTrumpOwner : Option Team := none
  deriving DecidableEq, Repr

namespace Points

/-- Fixed part of every contract. -/
def contractBase : Int := 25

/-- Bonus for the Little in the last trick, before it is multiplied by the contract. -/
def littleTrumpBonus : Int := 10

/-- Bonus for a slam that was announced and made. -/
def slamAnnounced : Int := 400

/-- Bonus for a slam that was made without being announced. -/
def slamUnannounced : Int := 200

/-- What a slam costs that was announced and not made. -/
def slamFailed : Int := -200

/-- Points that the attack has to make. -/
def target (p : Points) : Int := Rules.target p.oudlers

/-- Distance of the attack from its target. -/
def difference (p : Points) : Int := p.pointsAttack - p.target

/-- The attack wins when it reaches its target. -/
def winner (p : Points) : Team := if 0 ≤ p.difference then .attack else .defense

/-- Slam bonus as the attack sees it. -/
def slamPoints (p : Points) (b : Bid) : Int :=
  match p.slamTeam, b.slam with
  | some .attack, true => slamAnnounced
  | some .attack, false => slamUnannounced
  | some .defense, true => slamFailed - slamUnannounced
  | some .defense, false => -slamUnannounced
  | none, true => slamFailed
  | none, false => 0

/-- Bonus for the Little in the last trick as the attack sees it. -/
def littleTrumpPoints (p : Points) (b : Bid) : Int :=
  let bonus := littleTrumpBonus * b.contract.multiplier
  match p.littleTrumpOwner with
  | some .attack => bonus
  | some .defense => -bonus
  | none => 0

/-- What each defender pays to the attack. -/
def unit (p : Points) (b : Bid) : Int :=
  let contract := (contractBase + p.difference.natAbs) * b.contract.multiplier
  let signed :=
    match p.winner with
    | .attack => contract
    | .defense => -contract
  signed + p.littleTrumpPoints b + p.attackHandlePoints - p.defenseHandlePoints + p.slamPoints b

/-- What a side wins in all, at a table of `n` players. -/
def teamPoints (p : Points) (team : Team) (b : Bid) (n : Nat) : Int :=
  let defenders : Int := if b.hasPartner then 3 else n - 1
  let attack := p.unit b * defenders
  match team with
  | .attack => attack
  | .defense => -attack

/-- What one seat wins, at a table of `n` players. -/
def seatScore (p : Points) (b : Bid) (n : Nat) (s : Seat) : Int :=
  if b.taker = some s then
    if b.hasPartner then 2 * p.unit b else (n - 1) * p.unit b
  else if b.partner = some s then p.unit b
  else -p.unit b

/-- What every seat wins; nothing for the seats that do not take part. -/
def seatScores (p : Points) (b : Bid) (n : Nat) : PerSeat Int :=
  .ofFn fun s => if s.index < n then p.seatScore b n s else 0

end Points

end FrenchTarot
