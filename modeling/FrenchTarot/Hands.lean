import FrenchTarot.Cards.Basic
import FrenchTarot.Rules
import FrenchTarot.Seat

/-!
# Hands

The cards that the seats of a table hold, and the check that hands and dog make up a distribution:
every hand and the dog have the right size, and no card is there twice.
-/

namespace FrenchTarot

/-- The hands at a table of `players`; seats beyond that number do not take part. -/
structure Hands where
  players : Nat
  cards : PerSeat Cards
  deriving DecidableEq, Repr

/-- Why hands and dog do not make up a distribution. -/
inductive DistributionError where
  | handSize (seat : Seat) (expected actual : Nat)
  | dogSize (expected actual : Nat)
  /-- This card repeats an earlier one. -/
  | duplicate (card : Card)
  deriving DecidableEq, Repr

namespace DistributionError

def message : DistributionError → String
  | handSize seat expected actual =>
    seat.name ++ " holds " ++ toString actual ++ " cards, expected " ++ toString expected
  | dogSize expected actual =>
    "dog holds " ++ toString actual ++ " cards, expected " ++ toString expected
  | duplicate card => "card " ++ card.text ++ " dealt more than once"

end DistributionError

namespace Hands

def empty (players : Nat) : Hands := ⟨players, .replicate []⟩

def get (h : Hands) (s : Seat) : Cards := h.cards.get s

def set (h : Hands) (s : Seat) (cards : Cards) : Hands := { h with cards := h.cards.set s cards }

/-- The seats that take part. -/
def seats (h : Hands) : List Seat := Seat.taken h.players

/-- The first seat that holds a card. -/
def locate? (h : Hands) (c : Card) : Option Seat := h.seats.find? fun s => c ∈ h.get s

def total (h : Hands) : Nat := (h.seats.flatMap h.get).length

def clear (h : Hands) : Hands := empty h.players

/-- The first card of a list that also stands earlier in it. -/
def firstRepeat? (seen : Cards) : Cards → Option Card
  | [] => none
  | c :: cards => if c ∈ seen then some c else firstRepeat? (c :: seen) cards

/-- Checks hands and dog: first the hands in seat order, then the dog, then the cards. -/
def checkDistribution (h : Hands) (dog : Cards) : Except DistributionError Unit :=
  let size := Rules.handSize h.players
  match h.seats.find? fun s => (h.get s).length ≠ size with
  | some s => .error (.handSize s size (h.get s).length)
  | none =>
    if dog.length ≠ Rules.dogSize h.players then
      .error (.dogSize (Rules.dogSize h.players) dog.length)
    else
      match firstRepeat? [] (h.seats.flatMap h.get ++ dog) with
      | some c => .error (.duplicate c)
      | none => .ok ()

end Hands

end FrenchTarot
