import FrenchTarot.Main
import FrenchTarot.Proofs.Cards.Removal
import FrenchTarot.Proofs.Cards.Duties
import FrenchTarot.Proofs.Checks
import FrenchTarot.Proofs.Json.Draft
import FrenchTarot.Proofs.Seat.Round
import FrenchTarot.Proofs.Deal.Complete
import FrenchTarot.Proofs.Agent.Fallback
import FrenchTarot.Proofs.Cards.Figures
import FrenchTarot.Proofs.Cards.Collecting
import FrenchTarot.Proofs.Cards.Text
import FrenchTarot.Proofs.Deal.Fool
import FrenchTarot.Proofs.Deal.Winner
import FrenchTarot.Proofs.Deal.Slam
import FrenchTarot.Proofs.Deal.Outcome
import FrenchTarot.Proofs.Deal.Parity
import FrenchTarot.Proofs.Table.Conservation
import FrenchTarot.Proofs.Table.Handles
import FrenchTarot.Proofs.Table.Refusals
import FrenchTarot.Proofs.Deal.Plays
import FrenchTarot.Proofs.Table.Attribution
import FrenchTarot.Proofs.Table.Course
import FrenchTarot.Proofs.Table.Following
import FrenchTarot.Proofs.Table.Runs
import FrenchTarot.Proofs.Deal.Offers
import FrenchTarot.Proofs.Table.Auction
import FrenchTarot.Proofs.Deal.Shares
import FrenchTarot.Proofs.Record.Scores
import FrenchTarot.Proofs.Record.Accepted
import FrenchTarot.Proofs.Agent.Pending
import FrenchTarot.Proofs.Record.Text
import FrenchTarot.Proofs.Deal.Generated
import FrenchTarot.Proofs.Deal.File
import FrenchTarot.Proofs.Table.NewDeal
import FrenchTarot.Proofs.Table.CalledCard
import FrenchTarot.Proofs.Table.Partner
import FrenchTarot.Proofs.Table.Progress
import FrenchTarot.Proofs.Table.Scores
import FrenchTarot.Proofs.Agent.Playing
import FrenchTarot.Proofs.Cards.Sorting
import FrenchTarot.Proofs.Table.Discards
import FrenchTarot.Proofs.Deal.Numbers
import FrenchTarot.Proofs.Table.Series
import FrenchTarot.Proofs.Table.Setup
import FrenchTarot.Proofs.Agent.Keeping
import FrenchTarot.Proofs.CommandLine.Rounds
import FrenchTarot.Proofs.CommandLine.GameLoop
import FrenchTarot.Proofs.Score.Standings
import FrenchTarot.Proofs.Score.Range
import FrenchTarot.Proofs.Cards.Showing
import FrenchTarot.Proofs.Agent.Calling
import FrenchTarot.Proofs.Config.Text
