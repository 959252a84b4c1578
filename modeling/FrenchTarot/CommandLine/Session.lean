import FrenchTarot.Agent.Roster
import FrenchTarot.Record.Text
import FrenchTarot.Score

/-!
# A game between bots

A session plays deals between bots until the planned number of them is in the score.  A deal that
everybody passes is not counted and is dealt again; the session gives up when too many deals in a
row are passed.
-/

namespace FrenchTarot.CommandLine

/-- The session gives up after this many passed deals in a row. -/
def mostPasses : Nat := 50

structure Session where
  game : Game
  score : Score
  players : Nat
  /-- How many deals in a row everybody has passed. -/
  passes : Nat
  deriving DecidableEq, Repr

/-- A deal that was played. -/
structure PlayedDeal where
  /-- Its number in the game, counted from one. -/
  number : Nat
  record : Record
  points : Points
  bid : Bid
  deriving DecidableEq, Repr

/-- How a round of a session ended. -/
inductive Round where
  | played (session : Session) (deal : PlayedDeal)
  | passed (session : Session)
  | gaveUp
  | refused (cause : Refusal)
  /-- The deal was not finished in the time given. -/
  | unfinished
  deriving DecidableEq, Repr

namespace Session

/-- A session as configured, whose bots and random choices come from a seed. -/
def start (c : Config) (seed : UInt64) : Except ConfigError Session :=
  match Table.setup c (Table.ofSeed seed) with
  | .error e _ => .error e
  | .ok _ table =>
    let n := c.players.toNat
    .ok ⟨⟨table, .bots n seed, 0⟩, .new c.mode.deals, n, 0⟩

/-- A call on the game of a session. -/
def call {α : Type} (s : Session) (x : GameM α) : Except Refusal (α × Session) :=
  match x s.game with
  | .ok a game => .ok (a, { s with game })
  | .error e _ => .error e

/-- Acknowledges what the table shows. -/
def acknowledge (files : Files) (s : Session) : Except Refusal Session := do
  let (_, s) ← s.call (Game.onTable (Table.acknowledge files))
  return s

def playRound (files : Files) (s : Session) : Round :=
  let outcome := do
    let s ← s.acknowledge files
    s.call (Game.playDeal files)
  match outcome with
  | .error e => .refused e
  | .ok (.unfinished, _) => .unfinished
  | .ok (.played points, s) =>
    let deal := s.game.table.deal
    let score := s.score.add points deal.bid s.players
    .played { s with score, passes := 0 } ⟨score.played, .ofState deal, points, deal.bid⟩
  | .ok (_, s) =>
    let passes := s.passes + 1
    if mostPasses ≤ passes then .gaveUp else .passed { s with passes }

/-- The file that the next deal is read from, if it is. -/
def dealFile? (s : Session) : Option String :=
  match s.game.table.distribution with
  | .custom path => some path
  | _ => none

end Session

end FrenchTarot.CommandLine
