import FrenchTarot.Agent.Basic
import FrenchTarot.Table.Acknowledge

/-!
# Rosters

A roster says which agent sits where, and drives the table: whenever a seat has to decide, its agent
is asked.  A decision against the rules is replaced by the fallback, so that the deal goes on.
`playDeal` plays a whole deal; seats without an agent, and persons who have handed in nothing, play
the fallback there, and a bot that takes its time is waited for.
-/

namespace FrenchTarot

structure Roster where
  seats : List (Option Agent)
  /-- The least time between two actions of bots. -/
  pause : Nat
  /-- Before this time no bot acts. -/
  waitsUntil : Option Nat
  deriving DecidableEq, Repr

namespace Roster

def empty (seats : Nat) : Roster := ⟨List.replicate seats none, 0, none⟩

def agent? (r : Roster) (s : Seat) : Option Agent := r.seats[s.index]?.join

/-- Seats an agent, or empties the seat; the roster grows up to the seat if it has to. -/
def setAgent (r : Roster) (s : Seat) (agent : Option Agent) : Roster :=
  let missing := s.index + 1 - r.seats.length
  { r with seats := (r.seats ++ List.replicate missing none).set s.index agent }

/-- A roster of bots without delay, each with the seed after that of the seat before. -/
def bots (players : Nat) (seed : UInt64) : Roster :=
  (Seat.taken players).foldl
    (fun r s => r.setAgent s (some (.bot (.ofSeed .firstLegal (seed + UInt64.ofNat s.index)))))
    (empty players)

/-- Whether some seat is played by a bot. -/
def anyBots (r : Roster) : Bool := r.seats.any fun a => a.map Agent.kind = some .bot

def clear (r : Roster) : Roster :=
  { r with seats := r.seats.map fun _ => none, waitsUntil := none }

def text (r : Roster) : String :=
  let letter := fun (a : Option Agent) => (a.map fun a => a.kind.letter).getD '-'
  "AgentTable(" ++ String.ofList (r.seats.map letter) ++ ")"

/-- Hands a decision to the agent of a seat; tells whether it was taken. -/
def receive (r : Roster) (s : Seat) (action : Action) : Roster × Bool :=
  match r.agent? s with
  | none => (r, false)
  | some agent =>
    let (agent, taken) := agent.receive action
    (r.setAgent s (some agent), taken)

end Roster

/-- A table with the agents at it, and the time. -/
structure Game where
  table : Table
  roster : Roster
  clock : Nat
  deriving DecidableEq, Repr

/-- A call on a table with agents. -/
abbrev GameM := EStateM Refusal Game

inductive DealOutcome where
  | played (points : Points)
  /-- Everybody passed, or the game was stopped. -/
  | notPlayed
  /-- The table ended a deal without a result. -/
  | uncounted
  /-- The deal was not finished in the time given. -/
  | unfinished
  deriving DecidableEq, Repr

namespace Game

/-- A call on the table alone. -/
def onTable {α : Type} (x : TableM α) : GameM α := fun g =>
  match x g.table with
  | .ok a table => .ok a { g with table }
  | .error e table => .error e { g with table }

/-- Whether a decision is replaced when it is refused for this reason. -/
def isReplaced : Refusal → Bool
  | .illegalCard _ | .invalidDiscard _ | .invalidHandle _ | .invalidKingCall _ => true
  | _ => false

/-- Plays the fallback for the seat that has to decide; tells whether there is one. -/
def playDefault : GameM Bool := do
  match (← get).table.defaultAction?, (← get).table.acting? with
  | some action, some seat => do
    let _ ← onTable (Table.apply seat action)
    return true
  | _, _ => return false

/-- Takes the decision of an agent, or the fallback if the rules do not allow it. -/
def submit (seat : Seat) (action : Action) : GameM Bool := do
  try
    let _ ← onTable (Table.apply seat action)
    return true
  catch e => if isReplaced e then playDefault else throw e

/-- Asks the agent of the seat that has to decide; tells whether a decision was taken. -/
def takeTurn : GameM Bool := do
  let g ← get
  match g.table.acting? with
  | none => return false
  | some seat =>
    match g.roster.agent? seat with
    | none => return false
    | some agent =>
      let isBot : Bool := agent.kind = .bot
      if isBot && g.roster.waitsUntil.any (g.clock < ·) then return false
      let (agent, action) := agent.turn g.table seat g.clock
      -- What the agent has drawn stays drawn, whether its decision is taken or not.
      set { g with roster := g.roster.setAgent seat (some agent) }
      match action with
      | none => return false
      | some action => do
        let acted ← submit seat action
        if acted && isBot && 0 < g.roster.pause then
          modify fun h =>
            { h with roster := { h.roster with waitsUntil := some (g.clock + g.roster.pause) } }
        return acted

/-- Lets a millisecond pass. -/
def wait : GameM Unit := modify fun g => { g with clock := g.clock + 1 }

/-- Has the seat that has to decide take its decision, or lets a bot have its time for it. -/
def playTurn : GameM Unit := do
  if !(← takeTurn) then
    let g ← get
    match g.table.acting? with
    | none => pure ()
    | some seat =>
      -- A bot decides in its own time; nobody else is waited for.
      if (g.roster.agent? seat).map Agent.kind = some .bot then wait
      else do
        let _ ← playDefault

/-- Goes on until the deal is over, in at most `limit` rounds. -/
def playWithin (files : Files) : Nat → GameM DealOutcome
  | 0 => return .unfinished
  | limit + 1 => do
    let _ ← onTable (Table.acknowledgeAll files)
    let t := (← get).table
    match t.phase with
    | .dealEnded =>
      match t.points with
      | some points => return .played points
      | none => return .uncounted
    | .allPassed | .stopped => return .notPlayed
    | _ =>
      playTurn
      playWithin files limit

/-- Longest delay of an agent. -/
def delayOf : Option Agent → Nat
  | some (.bot b) => max b.minDelay b.maxDelay
  | _ => 0

/-- More decisions than there are in a deal: a bid, a handle and the cards of every seat, a call and
a discard. -/
def mostDecisions : Nat := 128

/-- Rounds until bots may act at all. -/
def waiting (g : Game) : Nat := g.roster.waitsUntil.getD 0 - g.clock

/-- Rounds in which a deal is over, however long the bots take. -/
def rounds (g : Game) : Nat :=
  g.waiting + mostDecisions *
    (2 + g.roster.pause + g.roster.seats.foldr (fun a total => delayOf a + total) 0)

def playDeal (files : Files) : GameM DealOutcome := do
  playWithin files (rounds (← get))

end Game

end FrenchTarot
