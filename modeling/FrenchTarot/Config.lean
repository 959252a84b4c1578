import FrenchTarot.Deal.Distribution
import FrenchTarot.Json.Tagged

/-!
# Table configurations

A configuration says how many play, how the cards are distributed, who deals first and how many
deals the game has.  Every field may be missing in its text, and has a usual value then.
-/

namespace FrenchTarot

inductive GameMode where
  | quickDeal
  | tournament (deals : UInt64)
  deriving DecidableEq, Repr, Inhabited

namespace GameMode

def deals : GameMode → Nat
  | quickDeal => 1
  | tournament n => n.toNat

end GameMode

structure Config where
  players : UInt8 := 4
  distribution : Distribution := .random
  /-- The dealer of the first deal; drawn if there is none. -/
  dealer : Option Seat := none
  mode : GameMode := .quickDeal
  deriving DecidableEq, Repr

inductive ConfigError where
  | players (cause : PlayersError)
  /-- The dealer has no seat at the table. -/
  | dealer (seat : Seat) (players : Nat)
  | noDeals
  | json (cause : JsonError)
  deriving DecidableEq, Repr

namespace ConfigError

def message : ConfigError → String
  | players cause => cause.message
  | dealer seat n =>
    "dealer " ++ seat.name ++ " is not seated at a " ++ toString n ++ "-player table"
  | noDeals => "a tournament needs at least one deal"
  | json cause => cause.message

end ConfigError

namespace Config

/-- Checks the number of players, then the dealer, then the number of deals. -/
def check (c : Config) : Except ConfigError Unit := do
  let n := c.players.toNat
  (Rules.checkPlayers n).mapError .players
  match c.dealer with
  | some seat => if n ≤ seat.index then throw (.dealer seat n)
  | none => pure ()
  if c.mode.deals = 0 then throw .noDeals

/-! ## Writing -/

def distributionJson : Distribution → Json
  | .random => .object [("type", .string "Random")]
  | .numbered seed => .object [("type", .string "Numbered"), ("seed", .integer seed.toNat)]
  | .custom path => .object [("type", .string "Custom"), ("file", .string path)]

def modeJson : GameMode → Json
  | .quickDeal => .object [("type", .string "QuickDeal")]
  | .tournament deals =>
    .object [("type", .string "SimpleTournament"), ("deals", .integer deals.toNat)]

def dealerJson : Option Seat → Json
  | some seat => .string seat.name
  | none => .null

def toJson (c : Config) : Json :=
  .object [
    ("number_of_players", .integer c.players.toNat),
    ("distribution", distributionJson c.distribution),
    ("dealer", dealerJson c.dealer),
    ("mode", modeJson c.mode)]

/-- The text of a configuration, without spaces. -/
def toText (c : Config) : String := c.toJson.compact

/-! ## Reading -/

/-- The limit of nesting for what stands inside a field of a configuration. -/
def innerDepth : Nat := Json.maxDepth - 2

def distributionFrom : Reader Distribution := fun cs => do
  let ((form, payload), rest) ← Json.taggedFrom ["Random", "Numbered", "Custom"] innerDepth cs
  match form with
  | "Numbered" => return (.numbered (← payload.asField "seed" Json.asUInt64), rest)
  | "Custom" => return (.custom (← payload.asField "file" Json.asText), rest)
  | _ => do
    payload.asNothing
    return (.random, rest)

def modeFrom : Reader GameMode := fun cs => do
  let ((form, payload), rest) ← Json.taggedFrom ["QuickDeal", "SimpleTournament"] innerDepth cs
  match form with
  | "SimpleTournament" => return (.tournament (← payload.asField "deals" Json.asUInt64), rest)
  | _ => do
    payload.asNothing
    return (.quickDeal, rest)

/-- The fields of a configuration that have been read. -/
structure Draft where
  players : Option UInt8 := none
  distribution : Option Distribution := none
  dealer : Option (Option Seat) := none
  mode : Option GameMode := none

def fields : List (Json.Field Draft) :=
  [.stored "number_of_players" (·.players) (fun d v => { d with players := some v })
      (Json.plainFrom Json.asUInt8),
    .stored "distribution" (·.distribution) (fun d v => { d with distribution := some v })
      distributionFrom,
    .stored "dealer" (·.dealer) (fun d v => { d with dealer := some v })
      (Json.plainFrom (Json.orNull Json.asSeat)),
    .stored "mode" (·.mode) (fun d v => { d with mode := some v }) modeFrom]

/-- Missing fields have their usual values. -/
def Draft.finish (d : Draft) : Config :=
  let usual : Config := {}
  { players := d.players.getD usual.players
    distribution := d.distribution.getD usual.distribution
    dealer := d.dealer.getD usual.dealer
    mode := d.mode.getD usual.mode }

/-- Reads the text of a configuration and checks it. -/
def ofText (text : String) : Except ConfigError Config := do
  let c ← (Json.readAll (Json.recordFrom fields {} fun d => .ok d.finish) text).mapError .json
  c.check
  return c

end Config

end FrenchTarot
