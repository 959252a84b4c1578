import FrenchTarot.Json.Decode
import FrenchTarot.Json.Printer
import FrenchTarot.Record.Basic

/-!
# The text of a record

A record is written as a JSON object.  It is read in two steps: first the whole text as a value,
then, if its version is the current one, the fields of that value.  Of a name that comes twice the
last value counts, and the fields of an object are taken in the order of their names, so that the
first of them that does not fit decides the error.
-/

namespace FrenchTarot

namespace DealInfo

/-! ## Writing -/

/-- The value of the deal's information; a partner is written only if there is one. -/
def toJson (i : DealInfo) : Json :=
  .object ([
    ("number_of_players", .integer i.players.toNat),
    ("taker", .string (Seat.nameOf i.taker)),
    ("contract", .string i.contract.name),
    ("slam", .boolean i.slam),
    ("first_trick_lead", .string (Seat.nameOf i.firstLead)),
    ("dog", .string i.dog.text),
    ("attack_handle", .string i.attackHandle.text),
    ("defense_handle", .string i.defenseHandle.text)]
    ++ match i.partner with
      | some s => [("partner", .string s.name)]
      | none => [])

/-! ## Reading -/

/-- The fields of the deal's information that have been taken. -/
structure Draft where
  players : Option UInt8 := none
  taker : Option (Option Seat) := none
  contract : Option Contract := none
  slam : Option Bool := none
  firstLead : Option (Option Seat) := none
  dog : Option Cards := none
  attackHandle : Option Cards := none
  defenseHandle : Option Cards := none
  partner : Option (Option Seat) := none

/-- How the value of a field is taken into a draft. -/
abbrev Take := Draft → Json → Except JsonError Draft

def takePlayers : Take := fun d j => return { d with players := some (← Json.asUInt8 j) }

def takeTaker : Take := fun d j => return { d with taker := some (← Json.asSeatOrNowhere j) }

def takeContract : Take := fun d j => return { d with contract := some (← Json.asContract j) }

def takeSlam : Take := fun d j => return { d with slam := some (← Json.asBool j) }

def takeFirstLead : Take := fun d j =>
  return { d with firstLead := some (← Json.asSeatOrNowhere j) }

def takeDog : Take := fun d j => return { d with dog := some (← Json.asCards j) }

def takeAttackHandle : Take := fun d j => return { d with attackHandle := some (← Json.asCards j) }

def takeDefenseHandle : Take := fun d j =>
  return { d with defenseHandle := some (← Json.asCards j) }

def takePartner : Take := fun d j => return { d with partner := some (← Json.asSeatOrNowhere j) }

/-- The fields in the order in which they stand in an array. -/
def inOrder : List Take :=
  [takePlayers, takeTaker, takeContract, takeSlam, takeFirstLead, takeDog, takeAttackHandle,
    takeDefenseHandle, takePartner]

/-- The fields in the order of their names. -/
def byName : List (String × Take) :=
  [("attack_handle", takeAttackHandle), ("contract", takeContract),
    ("defense_handle", takeDefenseHandle), ("dog", takeDog), ("first_trick_lead", takeFirstLead),
    ("number_of_players", takePlayers), ("partner", takePartner), ("slam", takeSlam),
    ("taker", takeTaker)]

/-- Takes the items of an array; there must not be more than there are fields. -/
def takeItems (d : Draft) : List Take → List Json → Except JsonError Draft
  | _, [] => .ok d
  | [], _ :: _ => Json.unfit
  | take :: takes, j :: items => do takeItems (← take d j) takes items

/-- Takes the entries of an object. -/
def takeEntries (j : Json) (d : Draft) : List (String × Take) → Except JsonError Draft
  | [] => .ok d
  | (name, take) :: takes =>
    match j.get? name with
    | none => takeEntries j d takes
    | some value => do takeEntries j (← take d value) takes

/-- All fields but the partner have to be there. -/
def Draft.finish (d : Draft) : Except JsonError DealInfo := do
  return {
    players := ← Json.required d.players
    taker := ← Json.required d.taker
    contract := ← Json.required d.contract
    slam := ← Json.required d.slam
    firstLead := ← Json.required d.firstLead
    dog := ← Json.required d.dog
    attackHandle := ← Json.required d.attackHandle
    defenseHandle := ← Json.required d.defenseHandle
    partner := d.partner.join }

/-- The deal's information of a value. -/
def ofJson : Json.Decoder DealInfo
  | .array items => do (← takeItems {} inOrder items).finish
  | .object entries => do (← takeEntries (.object entries) {} byName).finish
  | _ => Json.unfit

end DealInfo

namespace Record

def toJson (r : Record) : Json :=
  .object [
    ("version", .string r.version),
    ("deal_info", r.info.toJson),
    ("tricks", .array (r.tricks.map fun t => .string t.text))]

def toText (r : Record) : String := r.toJson.pretty

/-- The version that a value claims to have; nothing if it claims none. -/
def versionOf (j : Json) : String :=
  match j.get? "version" with
  | some (.string text) => text
  | _ => ""

def ofJson : Json.Decoder Record := fun j => do
  let info ← (j.get? "deal_info").mapM DealInfo.ofJson
  let tricks ← (j.get? "tricks").mapM (Json.asList Json.asCards)
  let version ← (j.get? "version").mapM Json.asText
  return ⟨← Json.required version, ← Json.required info, ← Json.required tricks⟩

def ofText (text : String) : Except RecordError Record := do
  let j ← (Json.parse text).mapError .json
  let found := versionOf j
  if found ≠ currentVersion then throw (.version found)
  (ofJson j).mapError .json

end Record

end FrenchTarot
