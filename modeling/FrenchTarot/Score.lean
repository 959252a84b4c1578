import FrenchTarot.Points

/-!
# The score of a game

A game is a planned number of deals.  The score keeps every deal that was played with what the seats
won, and ranks the seats by their totals.
-/

namespace FrenchTarot

/-- One finished deal in the score. -/
structure ScoreEntry where
  points : Points
  bid : Bid
  players : Nat
  seats : PerSeat Int
  deriving DecidableEq, Repr

structure Score where
  /-- How many deals are planned. -/
  deals : Nat
  /-- The deals played so far, oldest first. -/
  history : List ScoreEntry
  deriving DecidableEq, Repr

namespace Score

/-- A game of some deals, none of them played. -/
def new (deals : Nat) : Score := ⟨deals, []⟩

def played (s : Score) : Nat := s.history.length

/-- Whether the planned number of deals has been played. -/
def isFinished (s : Score) : Bool := s.deals ≤ s.played

def add (s : Score) (points : Points) (bid : Bid) (players : Nat) : Score :=
  { s with history := s.history ++ [⟨points, bid, players, points.seatScores bid players⟩] }

/-- What a seat has won in all deals.  The sum is taken in 32 bits, and wraps around beyond them. -/
def total (s : Score) (seat : Seat) : Int :=
  (s.history.foldl (fun total e => total + Int32.ofInt (e.seats.get seat)) 0).toInt

/-- Number of players of the last deal. -/
def players (s : Score) : Nat :=
  match s.history.getLast? with
  | some e => e.players
  | none => 0

/-- The seats with their totals, from the best to the worst; seats with equal totals stay in seat
order. -/
def podium (s : Score) : List (Seat × Int) :=
  ((Seat.taken s.players).map fun seat => (seat, s.total seat)).mergeSort fun a b => b.2 ≤ a.2

/-- The seat in front. -/
def winner? (s : Score) : Option Seat := s.podium.head?.map Prod.fst

end Score

end FrenchTarot
