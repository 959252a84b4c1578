/-!
# What depends on the number of players

The deck is split into equal hands and a dog, whose sizes depend on the number of players alone.
A table is played by three, four or five; the functions below are defined for every number, and
`checkPlayers` tells the supported ones.
-/

namespace FrenchTarot

/-- A number of players for which the game is not defined. -/
structure PlayersError where
  players : Nat
  deriving DecidableEq, Repr

namespace PlayersError

def message (e : PlayersError) : String :=
  "unsupported number of players: " ++ toString e.players ++ " (expected 3, 4 or 5)"

end PlayersError

namespace Rules

def deckSize : Nat := 78

/-- Three, four or five players. -/
def supported (n : Nat) : Bool := 3 ≤ n && n ≤ 5

/-- Refuses any other number of players. -/
def checkPlayers (n : Nat) : Except PlayersError Unit :=
  if supported n then .ok () else .error ⟨n⟩

/-- Cards of each hand, which is also the number of tricks of a deal. -/
def handSize (n : Nat) : Nat :=
  if n = 3 then 24 else if n = 5 then 15 else 18

/-- Cards that are left for the dog. -/
def dogSize (n : Nat) : Nat := deckSize - handSize n * n

/-- Whether that many completed tricks end the deal. -/
def dealOver (tricks n : Nat) : Bool := handSize n ≤ tricks

/-- Points that the attack has to make with that many oudlers. -/
def target (oudlers : Nat) : Int :=
  match oudlers with
  | 0 => 56
  | 1 => 51
  | 2 => 41
  | _ => 36

theorem hands_and_dog {n : Nat} (h : supported n) : handSize n * n + dogSize n = deckSize := by
  have : n = 3 ∨ n = 4 ∨ n = 5 := by simp [supported] at h; omega
  rcases this with rfl | rfl | rfl <;> rfl

end Rules

end FrenchTarot
