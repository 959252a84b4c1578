import FrenchTarot.Deal.File

/-!
# Distributions

How the cards of the next deal are distributed: at random, by number, or from a file.  Files are
seen as a function from paths to texts, which has no text for a path that cannot be read.
-/

namespace FrenchTarot

/-- The texts of the files that can be read. -/
abbrev Files := String → Option String

/-- How the cards of the next deal are distributed. -/
inductive Distribution where
  | random
  | numbered (seed : UInt64)
  | custom (path : String)
  deriving DecidableEq, Repr, Inhabited

namespace Distribution

/-- The deal of a file, which must be for `n` players. -/
def ofFile (files : Files) (n : Nat) (path : String) : Except DealError Deal :=
  match files path with
  | none => .error .unreadable
  | some text => do
    let deal ← Deal.ofText text
    if deal.hands.players ≠ n then throw (.playerMismatch n deal.hands.players)
    return deal

/-- The deal that a distribution gives to `n` players.  Only a random one draws from the generator. -/
def deal (files : Files) (n : Nat) : Distribution → EStateM DealError Generator Deal
  | random => Deal.random n
  | numbered seed => MonadExcept.ofExcept (Deal.numbered n seed)
  | custom path => MonadExcept.ofExcept (ofFile files n path)

end Distribution

end FrenchTarot
