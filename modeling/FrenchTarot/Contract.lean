import FrenchTarot.Seat

/-!
# Contracts, bids and handles

Contracts are ordered: a bid counts only if it is strictly above the best one so far.  A bid names
the taker and the partner of the attack; without a called partner the two are the same seat.
-/

namespace FrenchTarot

/-- Contract levels, from the lowest to the highest. -/
inductive Contract where
  | noBid
  | pass
  | take
  | guard
  | guardWithout
  | guardAgainst
  deriving DecidableEq, Repr, Inhabited

inductive ContractError where
  | unknown (text : String)
  deriving DecidableEq, Repr

namespace ContractError

def message : ContractError → String
  | unknown text => "invalid contract: '" ++ text ++ "'"

end ContractError

namespace Contract

def all : List Contract := [noBid, pass, take, guard, guardWithout, guardAgainst]

def level : Contract → Nat
  | noBid => 0
  | pass => 1
  | take => 2
  | guard => 3
  | guardWithout => 4
  | guardAgainst => 5

/-- Name of a contract; no bid has the empty name. -/
def name : Contract → String
  | noBid => ""
  | pass => "Pass"
  | take => "Take"
  | guard => "Guard"
  | guardWithout => "Guard without"
  | guardAgainst => "Guard against"

def ofText (text : String) : Except ContractError Contract :=
  match all.find? fun c => c.name = text with
  | some c => .ok c
  | none => .error (.unknown text)

/-- Whether this contract replaces `best`. -/
def outbids (c best : Contract) : Bool := best.level < c.level

/-- What the result of the deal is multiplied by; nothing for a contract that nobody can win. -/
def multiplier : Contract → Int
  | take => 1
  | guard => 2
  | guardWithout => 4
  | guardAgainst => 6
  | noBid | pass => 0

/-- Whether somebody plays the contract. -/
def isTaken (c : Contract) : Bool := 0 < c.multiplier

/-- The side that gets the dog unseen, in the contracts without a discard. -/
def dogOwner? : Contract → Option Team
  | guardWithout => some .attack
  | guardAgainst => some .defense
  | _ => none

theorem ofText_name (c : Contract) : ofText c.name = .ok c := by
  cases c <;> rfl

end Contract

/-- The best bid of an auction. -/
structure Bid where
  taker : Option Seat
  /-- The called partner of a five-player deal; the taker otherwise. -/
  partner : Option Seat
  contract : Contract
  slam : Bool
  deriving DecidableEq, Repr

namespace Bid

/-- Before anybody has spoken. -/
def none : Bid := ⟨.none, .none, .noBid, false⟩

instance : Inhabited Bid := ⟨none⟩

/-- Whether the taker plays with another seat. -/
def hasPartner (b : Bid) : Bool :=
  match b.taker, b.partner with
  | some t, some p => t ≠ p
  | _, _ => false

/-- Whether a seat belongs to the attack. -/
def isAttacker (b : Bid) (s : Seat) : Bool := b.taker = some s || b.partner = some s

def teamOf (b : Bid) (s : Seat) : Team := if b.isAttacker s then .attack else .defense

end Bid

/-- A declaration of trumps, by the number of trumps shown. -/
inductive Handle where
  | simple
  | double
  | triple
  deriving DecidableEq, Repr

namespace Handle

/-- The handle that shows this number of trumps. -/
def ofSize? : Nat → Option Handle
  | 10 => some simple
  | 13 => some double
  | 15 => some triple
  | _ => none

def size : Handle → Nat
  | simple => 10
  | double => 13
  | triple => 15

def name : Handle → String
  | simple => "Simple"
  | double => "Double"
  | triple => "Triple"

/-- Bonus of a handle at a table of `n` players. -/
def bonus (h : Handle) (n : Nat) : Int :=
  if n = 3 then
    match h with
    | simple => 13
    | double => 15
    | triple => 18
  else if n = 5 then
    match h with
    | simple => 8
    | double => 10
    | triple => 13
  else
    match h with
    | simple => 20
    | double => 30
    | triple => 40

theorem ofSize?_size (h : Handle) : ofSize? h.size = some h := by
  cases h <;> rfl

end Handle

end FrenchTarot
