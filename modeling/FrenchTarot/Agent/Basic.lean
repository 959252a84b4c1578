import FrenchTarot.Agent.Judgement
import FrenchTarot.Random.Range

/-!
# Agents

An agent decides for a seat.  A human agent gives on the decision that was handed to it; a bot
decides by itself, and may take its time.  Time is counted in milliseconds.
-/

namespace FrenchTarot

/-- How a bot chooses among the legal cards. -/
inductive CardPolicy where
  | firstLegal
  | randomLegal
  deriving DecidableEq, Repr, Inhabited

/-- A player that decides by itself. -/
structure Bot where
  policy : CardPolicy
  /-- The shortest and the longest time that the bot takes to act. -/
  minDelay : Nat
  maxDelay : Nat
  generator : Generator
  /-- Before this time the bot does not act. -/
  waitsUntil : Option Nat
  deriving DecidableEq, Repr

/-- Who decides for a seat. -/
inductive Agent where
  /-- A person, with the decision that was handed in and not yet given on. -/
  | human (pending : Option Action)
  | bot (bot : Bot)
  deriving DecidableEq, Repr

inductive AgentKind where
  | human
  | bot
  deriving DecidableEq, Repr

namespace AgentKind

def name : AgentKind → String
  | human => "Human"
  | bot => "Bot"

def letter : AgentKind → Char
  | human => 'H'
  | bot => 'B'

end AgentKind

namespace Bot

def ofSeed (policy : CardPolicy) (seed : UInt64) : Bot :=
  ⟨policy, 0, 0, .ofAgentSeed seed, none⟩

/-- Draws how long the bot takes this time; nothing is drawn when there is no choice. -/
def drawDelay (b : Bot) : Nat × Bot :=
  let longest := max b.minDelay b.maxDelay
  if longest = b.minDelay then (b.minDelay, b)
  else
    let (delay, generator) := b.generator.between b.minDelay longest
    (delay, { b with generator })

/-- The bot's decision for a seat that has to act. -/
def decide (b : Bot) (t : Table) (seat : Seat) : Bot × Option Action :=
  if t.phase ≠ .awaitingCard then (b, t.defaultAction?)
  else
    match b.policy with
    | .firstLegal => (b, (t.legal seat).head?.map .card)
    | .randomLegal =>
      let (card, generator) := b.generator.choose (t.legal seat)
      ({ b with generator }, card.map .card)

/-- The bot's decision at a time, if it makes one: with a delay it starts waiting first, and it
decides when the time is over. -/
def turn (b : Bot) (t : Table) (seat : Seat) (now : Nat) : Bot × Option Action :=
  if t.acting? ≠ some seat then (b, none)
  else
    let (delay, b) := b.drawDelay
    let act := { b with waitsUntil := none }.decide t seat
    if delay = 0 then act
    else
      match b.waitsUntil with
      | none => ({ b with waitsUntil := some (now + delay) }, none)
      | some time => if now < time then (b, none) else act

end Bot

namespace Agent

def kind : Agent → AgentKind
  | human _ => .human
  | bot _ => .bot

/-- Hands a decision to an agent; only a person without one takes it. -/
def receive (a : Agent) (action : Action) : Agent × Bool :=
  match a with
  | human none => (human (some action), true)
  | human (some pending) => (human (some pending), false)
  | bot b => (bot b, false)

/-- The agent's decision for a seat, if it makes one.  A person's decision is given on once, and it
is forgotten when the deal has ended or the game is stopped. -/
def turn (a : Agent) (t : Table) (seat : Seat) (now : Nat) : Agent × Option Action :=
  match a with
  | human pending =>
    if t.phase = .dealEnded || t.phase = .stopped then (human none, none)
    else if t.acting? ≠ some seat then (human pending, none)
    else (human none, pending)
  | bot b =>
    let (b, action) := b.turn t seat now
    (bot b, action)

end Agent

end FrenchTarot
