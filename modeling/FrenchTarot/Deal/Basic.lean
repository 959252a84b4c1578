import FrenchTarot.Hands
import FrenchTarot.Json.Basic
import FrenchTarot.Random.Shuffle

/-!
# Deals

A deal is what a distribution of the cards leaves: the hands and the dog.  A deck is dealt by giving
each seat its cards in one go, in seat order, and the rest to the dog.  A deal in which somebody
holds the Little as the only trump is not played: a random deal is then shuffled again, and a
numbered deal goes on to the next number.
-/

namespace FrenchTarot

/-- Hands and dog at the start of a deal. -/
structure Deal where
  hands : Hands
  dog : Cards
  /-- The seat that plays first, where the deal says so. -/
  firstPlayer : Option Seat
  /-- The number of the deal, if it has one. -/
  seed : Option UInt64
  deriving DecidableEq, Repr

inductive DealError where
  | players (cause : PlayersError)
  /-- The file has another format. -/
  | version (found : String)
  /-- The file does not name a seat of the table. -/
  | firstPlayer (text : String)
  /-- The file is for another number of players. -/
  | playerMismatch (expected found : Nat)
  | distribution (cause : DistributionError)
  | unreadable
  | json (cause : JsonError)
  /-- None of the shuffles that were tried can be played. -/
  | unplayable
  deriving DecidableEq, Repr

namespace Deal

/-- Format of deal files and of records. -/
def fileVersion : String := "3"

end Deal

namespace DealError

def message : DealError → String
  | players cause => cause.message
  | version found =>
    "wrong deal file version: expected " ++ Deal.fileVersion ++ ", found '" ++ found ++ "'"
  | firstPlayer text => "invalid first player: '" ++ text ++ "'"
  | playerMismatch expected found =>
    "deal file is for " ++ toString found ++ " players, table has " ++ toString expected
  | distribution cause => cause.message
  | unreadable => "io error: the file cannot be read"
  | json cause => cause.message
  | unplayable => "no shuffle can be played"

end DealError

namespace Deal

/-- Deals a deck to `n` players. -/
def ofDeck (n : Nat) (deck : Cards) : Except DealError Deal := do
  (Rules.checkPlayers n).mapError .players
  let size := Rules.handSize n
  let hands : Hands := ⟨n, .ofFn fun s =>
    if s.index < n then (deck.drop (s.index * size)).take size else []⟩
  let dog := deck.drop (size * n)
  (hands.checkDistribution dog).mapError .distribution
  return ⟨hands, dog, none, none⟩

/-- Whether somebody holds the Little as the only trump. -/
def hasLoneLittle (d : Deal) : Bool := d.hands.seats.any fun s => (d.hands.get s).isLoneLittle

/-- How many shuffles are tried before a deal is given up: as many as there are seeds. -/
def attempts : Nat := UInt64.size

/-- Shuffles and deals a deck until the deal can be played, at most `limit` times. -/
def randomWithin (deck : Cards) (n : Nat) : Nat → EStateM DealError Generator Deal
  | 0 => throw .unplayable
  | limit + 1 => do
    let shuffled ← modifyGet fun g => g.shuffle deck
    match ofDeck n shuffled with
    | .error e => throw e
    | .ok deal => if deal.hasLoneLittle then randomWithin deck n limit else return deal

/-- A deal drawn from the generator. -/
def random (n : Nat) : EStateM DealError Generator Deal :=
  randomWithin Cards.standard n attempts

/-- The deck of a seed. -/
def numberedDeck (seed : UInt64) : Cards := (Generator.ofSeed seed).shuffled Cards.standard

/-- The deal of the first seed from `seed` on that can be played, among `limit` of them. -/
def numberedWithin (n : Nat) : Nat → UInt64 → Except DealError Deal
  | 0, _ => .error .unplayable
  | limit + 1, seed =>
    match ofDeck n (numberedDeck seed) with
    | .error e => .error e
    | .ok deal =>
      if deal.hasLoneLittle then numberedWithin n limit (seed + 1)
      else .ok { deal with seed := some seed }

/-- The deal of a seed, or of the next one that can be played. -/
def numbered (n : Nat) (seed : UInt64) : Except DealError Deal := numberedWithin n attempts seed

end Deal

end FrenchTarot
