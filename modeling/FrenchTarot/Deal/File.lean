import FrenchTarot.Deal.Basic
import FrenchTarot.Json.Fields
import FrenchTarot.Json.Printer

/-!
# Deal files

A deal is stored as a record of the format, the first player, the dog and the five hands.  The
number of players is not written: it is the number of hands that hold cards.  Only a complete
distribution is accepted.
-/

namespace FrenchTarot.Deal

/-! ## Writing -/

def toJson (d : Deal) : Json :=
  .object [
    ("version", .string fileVersion),
    ("FirstPlayer", .string (Seat.nameOf d.firstPlayer)),
    ("Dog", .string d.dog.text),
    ("South", .string (d.hands.get .south).text),
    ("East", .string (d.hands.get .east).text),
    ("North", .string (d.hands.get .north).text),
    ("West", .string (d.hands.get .west).text),
    ("Fifth", .string (d.hands.get .fifth).text)]

/-- The text of a deal's file. -/
def toText (d : Deal) : String := d.toJson.pretty

/-! ## Reading -/

/-- The fields of a deal file that have been read. -/
structure FileDraft where
  version : Option String := none
  firstPlayer : Option String := none
  dog : Option Cards := none
  south : Option Cards := none
  east : Option Cards := none
  north : Option Cards := none
  west : Option Cards := none
  fifth : Option Cards := none

/-- The contents of a deal file, before they are checked. -/
structure FileContents where
  version : String
  firstPlayer : String
  dog : Cards
  hands : PerSeat Cards

def fileFields : List (Json.Field FileDraft) :=
  let text := Json.plainFrom Json.asText
  let cards := Json.plainFrom Json.asCards
  [.stored "version" (·.version) (fun d v => { d with version := some v }) text,
    .stored "FirstPlayer" (·.firstPlayer) (fun d v => { d with firstPlayer := some v }) text,
    .stored "Dog" (·.dog) (fun d v => { d with dog := some v }) cards,
    .stored "South" (·.south) (fun d v => { d with south := some v }) cards,
    .stored "East" (·.east) (fun d v => { d with east := some v }) cards,
    .stored "North" (·.north) (fun d v => { d with north := some v }) cards,
    .stored "West" (·.west) (fun d v => { d with west := some v }) cards,
    .stored "Fifth" (·.fifth) (fun d v => { d with fifth := some v }) cards]

/-- All fields of a deal file have to be there. -/
def FileDraft.finish (d : FileDraft) : Except JsonError FileContents := do
  let version ← Json.required d.version
  let firstPlayer ← Json.required d.firstPlayer
  let dog ← Json.required d.dog
  let south ← Json.required d.south
  let east ← Json.required d.east
  let north ← Json.required d.north
  let west ← Json.required d.west
  let fifth ← Json.required d.fifth
  return ⟨version, firstPlayer, dog, ⟨south, east, north, west, fifth⟩⟩

/-- Checks the contents of a deal file: the format, the first player's name, the number of players,
that the first player is one of them, and the distribution. -/
def ofContents (c : FileContents) : Except DealError Deal := do
  if c.version ≠ fileVersion then throw (.version c.version)
  let first ←
    match Seat.ofTextOrNowhere c.firstPlayer with
    | .ok (some s) => pure s
    | _ => throw (.firstPlayer c.firstPlayer)
  let n := c.hands.toList.countP fun cards => !cards.isEmpty
  (Rules.checkPlayers n).mapError .players
  if n ≤ first.index then throw (.firstPlayer c.firstPlayer)
  let hands : Hands := ⟨n, c.hands⟩
  (hands.checkDistribution c.dog).mapError .distribution
  return ⟨hands, c.dog, some first, none⟩

def ofText (text : String) : Except DealError Deal := do
  let contents ← (Json.readAll (Json.recordFrom fileFields {} FileDraft.finish) text).mapError .json
  ofContents contents

end FrenchTarot.Deal
