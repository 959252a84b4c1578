import FrenchTarot.Table.Basic

/-!
# Setting up a table and dealing

Creating a table, starting and stopping a game, and dealing.  A new deal starts from a clean slate:
nothing of the deal before is kept but the seat of the dealer, who moves on by one.  A distribution
that cannot be used is replaced by a random one.
-/

namespace FrenchTarot.Table

/-- Sets the table up for a number of players and draws the dealer. -/
def create (players : Nat) : EStateM PlayersError Table Transition := do
  MonadExcept.ofExcept (Rules.checkPlayers players)
  let t ← get
  let (index, generator) := t.generator.below players
  let t := { t with
    players
    deal := .new players
    hands := .empty players
    dealer := (Seat.ofIndex? index).getD .south
    phase := .awaitingPlayers
    generator }
  set t
  return t.transition .ready

/-- Chooses the dealer of the next deal, before which the dealer moves on by one. -/
def setFirstDealer (dealer : Seat) : TableM Unit :=
  modify fun t => { t with dealer := dealer.previous t.players }

/-- Chooses how the next deals are distributed. -/
def setDistribution (distribution : Distribution) : TableM Unit :=
  modify fun t => { t with distribution }

def newGame : TableM Transition :=
  modifyGet fun t =>
    let t := { t with phase := .awaitingReady }
    (t.transition .ready, t)

def stop : TableM Transition :=
  modifyGet fun t =>
    let t := { t with phase := .stopped }
    (t.transition .stopped, t)

/-- The table before a new deal, with the dealer moved on. -/
def cleared (t : Table) : Table :=
  let dealer := t.dealer.next t.players
  { t with
    deal := .new t.deal.players
    position := 0
    tricksDone := 0
    trick := []
    handleAsked := .replicate false
    calledCard := none
    points := none
    history := []
    dealer
    current := dealer.next t.players }

/-- The table with the cards of a deal on it. -/
def place (t : Table) (d : Deal) : Table :=
  let t :=
    match d.firstPlayer with
    | some first => { t with current := first, dealer := first.previous t.players }
    | none => t
  { t with hands := d.hands, deal := t.deal.setDog d.dog, phase := .cardsDealt }

/-- The distribution that a deal comes from: a numbered one has the number that was used. -/
def usedDistribution (distribution : Distribution) (d : Deal) : Distribution :=
  match distribution, d.seed with
  | .numbered _, some seed => .numbered seed
  | _, _ => distribution

/-- Draws from the table's generator. -/
def draw {ε α : Type} (x : EStateM ε Generator α) : EStateM ε Table α := fun t =>
  match x t.generator with
  | .ok a generator => .ok a { t with generator }
  | .error e generator => .error e { t with generator }

/-- Draws the deal that was asked for, or a spare one at random when that one cannot be had.  Tells
the distribution that was used. -/
def drawEither (requested spare : EStateM DealError Generator Deal) (used : Deal → Distribution) :
    EStateM DealError Table (Deal × Distribution) :=
  tryCatch (do
      let deal ← draw requested
      return (deal, used deal))
    fun _ => do
      let deal ← draw spare
      return (deal, .random)

/-- Deals, or deals at random when the distribution cannot be used.  Tells the distribution that was
used. -/
def distribute (files : Files) (distribution : Distribution) :
    EStateM DealError Table (Deal × Distribution) := do
  let players := (← get).players
  drawEither (distribution.deal files players) (Deal.random players)
    (usedDistribution distribution)

/-- Starts a new deal; tells the distribution that was used. -/
def newDeal (files : Files) (distribution : Distribution) :
    EStateM DealError Table Distribution := do
  modify cleared
  let (deal, used) ← distribute files distribution
  modify (place · deal)
  return used

end FrenchTarot.Table
