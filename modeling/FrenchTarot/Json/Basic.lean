import FrenchTarot.Card.Text
import FrenchTarot.Contract

/-!
# JSON values

The values that files of this game are made of, and the three ways in which a text fails to be such
a file: it ends too early, it is not JSON, or it is JSON that does not fit.  In the last case the
fault may be a card list, a seat or a contract that cannot be read, and then it says which.
-/

namespace FrenchTarot

inductive Json where
  | null
  | boolean (b : Bool)
  /-- A numeral that is written as an integer and has at most 64 bits. -/
  | integer (value : Int)
  /-- Any other numeral, as it is written. -/
  | decimal (text : String)
  | string (text : String)
  | array (items : List Json)
  /-- An object keeps its entries in order, repeated names included. -/
  | object (entries : List (String × Json))
  deriving Inhabited

/-- Why a piece of text in a file cannot be read. -/
inductive TextError where
  | cards (cause : CardError)
  | seat (cause : SeatError)
  | contract (cause : ContractError)
  deriving DecidableEq, Repr

namespace TextError

def message : TextError → String
  | cards cause => cause.message
  | seat cause => cause.message
  | contract cause => cause.message

end TextError

/-- Why a JSON text cannot be used. -/
inductive JsonError where
  /-- The text ends before the value does. -/
  | incomplete
  /-- The text is not JSON, or is nested too deeply. -/
  | malformed
  /-- A field is missing, repeated, of the wrong type, out of range or unreadable. -/
  | unusable (detail : Option TextError)
  deriving DecidableEq, Repr

namespace JsonError

def message : JsonError → String
  | incomplete => "json error: the text ends too early"
  | malformed => "json error: malformed text"
  | unusable (some e) => "json error: " ++ e.message
  | unusable none => "json error: unexpected contents"

end JsonError

namespace Json

/-- The value of a name in an object; of several, the last. -/
def get? (j : Json) (name : String) : Option Json :=
  match j with
  | object entries => (entries.reverse.find? fun e => e.1 = name).map Prod.snd
  | _ => none

end Json

/-- Takes a value from the front of a text and gives the rest of the text. -/
abbrev Reader (α : Type) := List Char → Except JsonError (α × List Char)

end FrenchTarot
