import FrenchTarot.Json.Reader

/-!
# Decoding values

How a JSON value stands for a piece of the game: an integer in a range, a truth value, a card list,
a seat, a contract.  A value of another kind, or out of range, is unusable; where the fault is in a
text of the game, the error tells which.
-/

namespace FrenchTarot.Json

/-- Takes a value as a piece of the game. -/
abbrev Decoder (α : Type) := Json → Except JsonError α

/-- The error of a value that does not fit. -/
def unfit {α : Type} : Except JsonError α := .error (.unusable none)

/-- The error of a text of the game that cannot be read. -/
def reading {ε α : Type} (cause : ε → TextError) (result : Except ε α) : Except JsonError α :=
  result.mapError fun e => .unusable (some (cause e))

def asBool : Decoder Bool
  | boolean b => .ok b
  | _ => unfit

/-- A natural number below a bound. -/
def asBelow (bound : Nat) : Decoder Nat
  | integer (.ofNat n) => if n < bound then .ok n else unfit
  | _ => unfit

def asUInt8 : Decoder UInt8 := fun j => (asBelow UInt8.size j).map UInt8.ofNat

def asUInt64 : Decoder UInt64 := fun j => (asBelow UInt64.size j).map UInt64.ofNat

def asText : Decoder String
  | string text => .ok text
  | _ => unfit

def asCards : Decoder Cards := fun j => do reading .cards (Cards.ofText (← asText j))

def asSeat : Decoder Seat := fun j => do reading .seat (Seat.ofText (← asText j))

/-- A seat that may be missing, by the name that stands for none. -/
def asSeatOrNowhere : Decoder (Option Seat) := fun j => do
  reading .seat (Seat.ofTextOrNowhere (← asText j))

def asContract : Decoder Contract := fun j => do reading .contract (Contract.ofText (← asText j))

/-- A list of values of one kind. -/
def asList {α : Type} (decode : Decoder α) : Decoder (List α)
  | array items => items.mapM decode
  | _ => unfit

/-- A value or null. -/
def orNull {α : Type} (decode : Decoder α) : Decoder (Option α)
  | null => .ok none
  | j => (decode j).map some

/-- A field that has to be there. -/
def required {α : Type} : Option α → Except JsonError α
  | some a => .ok a
  | none => unfit

end FrenchTarot.Json
