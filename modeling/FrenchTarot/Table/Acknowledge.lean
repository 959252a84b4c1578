import FrenchTarot.Config
import FrenchTarot.Table.Dealing
import FrenchTarot.Table.Decision

/-!
# Acknowledging

Whoever runs a table acknowledges what it shows, and the table moves on.  Waiting for a handle may
be acknowledged as well, and then no handle is shown; every other decision has to be made.
-/

namespace FrenchTarot.Table

/-- The distribution of the deal after one: a numbered series goes on with the next number. -/
def followingDistribution : Distribution → Distribution
  | .numbered seed => .numbered (seed + 1)
  | other => other

/-- Deals by the table's distribution. -/
def dealNext (files : Files) : TableM Transition := do
  let distribution := (← get).distribution
  let used ← (newDeal files distribution).adaptExcept Refusal.deal
  modify fun t => { t with distribution := followingDistribution used }
  -- A deal that names its first player has set the dealer too.
  let t ← get
  return t.transition (.newDeal t.dealer)

/-- Acknowledges the present phase. -/
def acknowledge (files : Files) : TableM Transition := do
  let t ← get
  match t.phase with
  | .awaitingPlayers => newGame
  | .awaitingReady => dealNext files
  | .allPassed | .dealEnded => moveTo { t with phase := .awaitingReady } .ready
  | .cardsDealt | .bidShown => continueAuction
  | .kingCallShown => settleDog
  | .dogShown => moveTurn { t with phase := .awaitingDiscard }
  | .dealStarting | .handleShown | .cardShown => continuePlay
  | .awaitingHandle => declineHandle t.current
  | .trickEnded => if Rules.dealOver t.tricksDone t.players then finishDeal else continuePlay
  | .stopped | .awaitingBid | .awaitingKingCall | .awaitingDiscard | .awaitingCard =>
    throw (.nothingToAcknowledge t.phase)

/-- Acknowledges until the table rests, at most `limit` times; gives the last transition. -/
def acknowledgeWithin (files : Files) (last : Transition) : Nat → TableM Transition
  | 0 => return last
  | limit + 1 => do
    if (← get).phase.isResting then return last
    else acknowledgeWithin files (← acknowledge files) limit

/-- No more than this many phases follow each other before the table rests. -/
def longestRun : Nat := 8

/-- Acknowledges until a player has to decide, the deal is over or everybody has passed. -/
def acknowledgeAll (files : Files) : TableM Transition := do
  acknowledgeWithin files (← get).turn longestRun

/-- Sets a table up as configured. -/
def setup (c : Config) : EStateM ConfigError Table Transition := do
  MonadExcept.ofExcept c.check
  let transition ← (create c.players.toNat).adaptExcept ConfigError.players
  modify fun t =>
    let t :=
      match c.dealer with
      | some dealer => { t with dealer := dealer.previous t.players }
      | none => t
    { t with distribution := c.distribution }
  return transition

end FrenchTarot.Table
