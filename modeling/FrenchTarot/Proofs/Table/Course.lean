import FrenchTarot.Phase
import FrenchTarot.Proofs.Deal.Tricks

/-!
# The course of a deal

From the cards being dealt to the end of the deal the phases of a table come in a fixed order.  The
only choices are the bids, which say how long the auction is and what is played, and for each seat
whether it shows a handle.  A `Course` has these choices, and `Course.phases` is the order.

Nothing here is about tables.  That they keep to a course is shown with the runs of a deal.
-/

namespace FrenchTarot

/-! ## Auctions -/

/-- A bid that was granted: the contract that counts for the seat, and whether a slam goes with
it. -/
structure Announcement where
  contract : Contract
  slam : Bool
  deriving DecidableEq, Repr

/-- Whether nobody is asked any more: somebody plays, and has announced a slam. -/
def Announcement.closes (a : Announcement) : Bool := a.slam && a.contract.isTaken

/-- The bids, with one that may have been granted. -/
def announced (bids : List Announcement) : Option Announcement → List Announcement
  | some b => bids ++ [b]
  | none => bids

/-- The contract that is played: the last one that somebody took. -/
def wonContract? (bids : List Announcement) : Option Contract :=
  bids.foldl (fun won b => if b.contract.isTaken then some b.contract else won) none

theorem wonContract?_append (bids : List Announcement) (b : Announcement) :
    wonContract? (bids ++ [b]) =
      if b.contract.isTaken then some b.contract else wonContract? bids := by
  rw [wonContract?, List.foldl_append]
  rfl

/-- The bids of an auction that is over.  Every seat has spoken, unless one of them has announced a
slam. -/
structure AuctionOver (n : Nat) (bids : List Announcement) : Prop where
  length_le : bids.length ≤ n
  unclosed : ∀ b ∈ bids.dropLast, b.closes = false
  closed : bids.length < n → ∃ b, bids.getLast? = some b ∧ b.closes

/-- The seats that have not spoken may pass. -/
theorem AuctionOver.padded {n : Nat} {bids : List Announcement} (hle : bids.length ≤ n)
    (hopen : bids.any Announcement.closes = false) :
    AuctionOver n (bids ++ List.replicate (n - bids.length) ⟨.pass, false⟩) where
  length_le := by
    rw [List.length_append, List.length_replicate]
    omega
  unclosed := fun b hb => by
    rcases List.mem_append.mp ((List.dropLast_sublist _).subset hb) with hb | hb
    · simpa using List.any_eq_false.mp hopen b hb
    · rw [(List.mem_replicate.mp hb).2]
      rfl
  closed := fun hlt => by
    rw [List.length_append, List.length_replicate] at hlt
    omega

/-- The contract that somebody plays, if somebody does. -/
def Bid.taken? (b : Bid) : Option Contract := if b.contract.isTaken then some b.contract else .none

/-- Whether a slam is announced with a contract that somebody plays. -/
def Bid.closed (b : Bid) : Bool := b.slam && b.contract.isTaken

namespace DealState

/-- **The best bid has the last contract that was taken.** -/
theorem taken?_recordBid (d : DealState) (contract : Contract) (slam : Bool) (seat : Seat) :
    (d.recordBid contract slam seat).1.bid.taken? =
      if (d.recordBid contract slam seat).2.isTaken then some (d.recordBid contract slam seat).2
      else d.bid.taken? := by
  unfold recordBid
  split
  · rename_i outbids
    dsimp only
    by_cases taken : contract.isTaken
    · simp [Bid.taken?, taken]
    · -- Nothing below a contract that is played can outbid one.
      have untaken : ¬ d.bid.contract.isTaken := fun best =>
        taken (Contract.isTaken_of_outbids outbids best)
      simp [Bid.taken?, taken, untaken]
  · rfl

/-- A slam counts with a contract that the bid has won. -/
theorem closed_recordBid {d : DealState} (going : d.bid.closed = false) (contract : Contract)
    (slam : Bool) (seat : Seat) :
    (d.recordBid contract slam seat).1.bid.closed =
      (slam && (d.recordBid contract slam seat).2.isTaken
        && (d.recordBid contract slam seat).2.isTaken) := by
  unfold recordBid
  split
  · rfl
  · rw [going]
    cases slam <;> rfl

end DealState

/-! ## Courses -/

/-- What is decided in a deal as far as its course depends on it: the bids, and for each seat, in
the order in which they are asked, whether it shows a handle. -/
structure Course where
  bids : List Announcement
  handles : List Bool

namespace Course

/-- A piece of a course, `k` times over. -/
def times (k : Nat) (piece : List Phase) : List Phase := (List.replicate k piece).flatten

@[simp] theorem times_zero (piece : List Phase) : times 0 piece = [] := rfl

theorem times_succ (k : Nat) (piece : List Phase) :
    times (k + 1) piece = times k piece ++ piece := by
  rw [times, List.replicate_succ', List.flatten_concat, times]

theorem times_isPrefix {j k : Nat} (h : j ≤ k) (piece : List Phase) :
    times j piece <+: times k piece := by
  obtain ⟨m, rfl⟩ := Nat.exists_eq_add_of_le h
  rw [times, times, List.replicate_add, List.flatten_append]
  exact List.prefix_append _ _

/-- A card is called at a table of five. -/
def kingCall (n : Nat) : List Phase := if n = 5 then [.awaitingKingCall, .kingCallShown] else []

/-- The dog is shown, and the taker makes a discard. -/
def dogExchange (contract : Contract) : List Phase :=
  if contract = .take ∨ contract = .guard then [.dogShown, .awaitingDiscard] else []

/-- From the auction to the beginning of the play. -/
def preparation (n : Nat) (contract : Contract) : List Phase :=
  kingCall n ++ dogExchange contract ++ [.dealStarting]

/-- The auction with its bids. -/
def auction (bids : List Announcement) : List Phase :=
  .cardsDealt :: times bids.length [.awaitingBid, .bidShown]

/-- A seat is asked for a handle and for its first card. -/
def firstTurn (shown : Bool) : List Phase :=
  .awaitingHandle :: (if shown then [.handleShown] else []) ++ [.awaitingCard, .cardShown]

def firstTrick (handles : List Bool) : List Phase := handles.flatMap firstTurn ++ [.trickEnded]

def trick (n : Nat) : List Phase := times n [.awaitingCard, .cardShown] ++ [.trickEnded]

/-- The phases of a whole deal at a table of `n` players. -/
def phases (c : Course) (n : Nat) : List Phase :=
  auction c.bids ++
    match wonContract? c.bids with
    | none => [.allPassed]
    | some contract =>
      preparation n contract ++ firstTrick c.handles ++ times (Rules.handSize n - 1) (trick n)
        ++ [.dealEnded]

/-- The course of a deal with an auction that is over, and with an answer of every seat. -/
structure Valid (c : Course) (n : Nat) : Prop where
  auction : AuctionOver n c.bids
  handles : c.handles.length = n

theorem auction_isPrefix (c : Course) (n : Nat) : auction c.bids <+: c.phases n :=
  List.prefix_append _ _

/-- The phases of the play up to the last card, or to the last trick. -/
def played (n : Nat) (handles : List Bool) : (tricks position : Nat) → List Phase
  | 0, _ => handles.flatMap firstTurn
  | k + 1, position =>
    firstTrick handles ++ times k (trick n) ++ times position [.awaitingCard, .cardShown]

theorem played_trick {n tricks : Nat} {handles : List Bool} :
    played n handles (tricks + 1) 0 = played n handles tricks n ++ [.trickEnded] := by
  cases tricks with
  | zero => simp [played, firstTrick]
  | succ k =>
    simp only [played, times_succ, trick, times_zero, List.append_nil, List.append_assoc]

end Course

end FrenchTarot
