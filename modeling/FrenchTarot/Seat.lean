/-!
# Seats and sides

Five seats stand around the table, and a table of `n` players uses the first `n` of them in turn.
`PerSeat` holds one value for every seat.  In a deal the seats fall into two sides, the attack and
the defense.
-/

namespace FrenchTarot

inductive Seat where
  | south
  | east
  | north
  | west
  | fifth
  deriving DecidableEq, Repr, Inhabited

inductive SeatError where
  | unknown (text : String)
  deriving DecidableEq, Repr

namespace SeatError

def message : SeatError → String
  | unknown text => "invalid place: '" ++ text ++ "'"

end SeatError

namespace Seat

/-- The seats in the order of play. -/
def all : List Seat := [south, east, north, west, fifth]

/-- Place of the seat in the order of play. -/
def index : Seat → Nat
  | south => 0
  | east => 1
  | north => 2
  | west => 3
  | fifth => 4

def ofIndex? : Nat → Option Seat
  | 0 => some south
  | 1 => some east
  | 2 => some north
  | 3 => some west
  | 4 => some fifth
  | _ => none

/-- The seats of a table of `n` players. -/
def taken (n : Nat) : List Seat := all.take n

/-- A table has at least one seat and at most five, whatever number of players is asked for. -/
def tableSize (n : Nat) : Nat := max 1 (min n 5)

/-- The seat whose index is `k`, counted around a table of `n` players. -/
def around (n k : Nat) : Seat := (ofIndex? (k % tableSize n)).getD south

def next (s : Seat) (n : Nat) : Seat := around n (s.index + 1)

def previous (s : Seat) (n : Nat) : Seat := around n (s.index + tableSize n - 1)

/-- The seat that is reached after `steps` moves. -/
def advance (s : Seat) (steps n : Nat) : Seat := around n (s.index + steps)

def name : Seat → String
  | south => "South"
  | east => "East"
  | north => "North"
  | west => "West"
  | fifth => "Fifth"

/-- The name that stands for no seat. -/
def nowhere : String := "Nowhere"

/-- Name of a seat that may be missing. -/
def nameOf : Option Seat → String
  | some s => s.name
  | none => nowhere

def ofText (text : String) : Except SeatError Seat :=
  match all.find? fun s => s.name = text with
  | some s => .ok s
  | none => .error (.unknown text)

/-- Reads a seat that may be missing. -/
def ofTextOrNowhere (text : String) : Except SeatError (Option Seat) :=
  if text = nowhere then .ok none else (ofText text).map some

theorem ofText_name (s : Seat) : ofText s.name = .ok s := by
  cases s <;> rfl

theorem ofIndex?_index (s : Seat) : ofIndex? s.index = some s := by
  cases s <;> rfl

end Seat

/-- The two sides of a deal. -/
inductive Team where
  | attack
  | defense
  deriving DecidableEq, Repr, Inhabited

namespace Team

def opponent : Team → Team
  | attack => defense
  | defense => attack

def name : Team → String
  | attack => "Attack"
  | defense => "Defense"

end Team

structure PerSeat (α : Type) where
  south : α
  east : α
  north : α
  west : α
  fifth : α
  deriving DecidableEq, Repr

namespace PerSeat

variable {α β : Type}

def replicate (a : α) : PerSeat α := ⟨a, a, a, a, a⟩

def ofFn (f : Seat → α) : PerSeat α := ⟨f .south, f .east, f .north, f .west, f .fifth⟩

def get (v : PerSeat α) : Seat → α
  | .south => v.south
  | .east => v.east
  | .north => v.north
  | .west => v.west
  | .fifth => v.fifth

def set (v : PerSeat α) (s : Seat) (a : α) : PerSeat α :=
  match s with
  | .south => { v with south := a }
  | .east => { v with east := a }
  | .north => { v with north := a }
  | .west => { v with west := a }
  | .fifth => { v with fifth := a }

def toList (v : PerSeat α) : List α := [v.south, v.east, v.north, v.west, v.fifth]

@[simp] theorem get_replicate (a : α) (s : Seat) : (replicate a).get s = a := by
  cases s <;> rfl

@[simp] theorem get_ofFn (f : Seat → α) (s : Seat) : (ofFn f).get s = f s := by
  cases s <;> rfl

theorem get_set (v : PerSeat α) (s t : Seat) (a : α) :
    (v.set s a).get t = if t = s then a else v.get t := by
  cases s <;> cases t <;> rfl

end PerSeat

end FrenchTarot
