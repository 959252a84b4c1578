import FrenchTarot.CommandLine.Session
import FrenchTarot.Number.HalfPoints

/-!
# What a session prints

The lines for a deal that was played and for the end of a game.  Scores have their sign in front,
zero too, and card points have a half where there is one.
-/

namespace FrenchTarot.CommandLine

/-- A score with its sign. -/
def signed (score : Int) : String :=
  if score < 0 then toString score else "+" ++ toString score

/-- The text for a deal that was played: its number, its record, how the contract went, and what
every seat wins. -/
def dealLines (deals players : Nat) (d : PlayedDeal) : List String :=
  let taker := (d.bid.taker.map Seat.name).getD "nobody"
  let side :=
    match d.points.winner with
    | .attack => "attack"
    | .defense => "defense"
  let scores := d.points.seatScores d.bid players
  ["Deal " ++ toString d.number ++ "/" ++ toString deals,
    d.record.toText,
    "Taker: " ++ taker ++ " (" ++ d.bid.contract.name ++ "), attack "
      ++ HalfPoints.shortText d.points.cardHalfPoints ++ " points, needed "
      ++ toString d.points.target
      ++ ", " ++ side ++ " wins"]
    ++ (Seat.taken players).map fun s => "  " ++ s.name ++ ": " ++ signed (scores.get s)

/-- The text for a deal that everybody passed. -/
def passedLine : String := "All players passed, new deal."

/-- The text for the end of a game; a single deal needs none. -/
def finalLines (score : Score) : List String :=
  if score.deals ≤ 1 then []
  else
    "Final ranking" ::
      (score.podium.zipIdx 1).map fun ((seat, total), rank) =>
        "  " ++ toString rank ++ ". " ++ seat.name ++ ": " ++ signed total

end FrenchTarot.CommandLine
