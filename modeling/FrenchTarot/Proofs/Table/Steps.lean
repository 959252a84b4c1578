import FrenchTarot.Proofs.Table.Course
import FrenchTarot.Proofs.Table.Reachable

/-!
# The steps of a deal

Between dealing and the end of a deal a table sees decisions and acknowledgements.  `Request` lists
these calls, and `Step` says where each of them leads when it is granted, with all that was checked
on the way.  `Move` is about single changes, of which a call may make several; a step is a whole
call, so that the phases after the steps are the ones that an observer of the table sees.

A step tells of the bid that it grants, which is how the auction can be followed from outside.
-/

namespace FrenchTarot

/-- The bid that an event tells of. -/
def Event.announced? : Event → Option Announcement
  | .bid _ contract slam => some ⟨contract, slam⟩
  | _ => none

namespace Table

variable {α β : Type}

/-! ## Requests -/

/-- A call of a deal in progress. -/
inductive Request where
  | placeBid (seat : Seat) (contract : Contract) (slam : Bool)
  | callCard (seat : Seat) (card : Card)
  | layDiscard (seat : Seat) (discard : Cards)
  | showHandle (seat : Seat) (handle : Cards)
  | declineHandle (seat : Seat)
  | playCard (seat : Seat) (card : Card)
  | apply (seat : Seat) (action : Action)
  | acknowledge

/-- Makes the call; tells the bid, if it is one. -/
def Request.perform (files : Files) : Request → TableM (Option Announcement)
  | placeBid seat contract slam =>
    (fun accepted => some ⟨accepted, slam && accepted.isTaken⟩) <$>
      Table.placeBid seat contract slam
  | callCard seat card => (fun _ => none) <$> Table.callCard seat card
  | layDiscard seat discard => (fun _ => none) <$> Table.layDiscard seat discard
  | showHandle seat handle => (fun _ => none) <$> Table.showHandle seat handle
  | declineHandle seat => (fun _ => none) <$> Table.declineHandle seat
  | playCard seat card => (fun _ => none) <$> Table.playCard seat card
  | apply seat action =>
    (fun transition => transition.event.announced?) <$> Table.apply seat action
  | acknowledge => (fun _ => none) <$> Table.acknowledge files

/-- The call as one of all the calls on a table. -/
def Request.toCall : Request → Call
  | placeBid seat contract slam => .placeBid seat contract slam
  | callCard seat card => .callCard seat card
  | layDiscard seat discard => .layDiscard seat discard
  | showHandle seat handle => .showHandle seat handle
  | declineHandle seat => .declineHandle seat
  | playCard seat card => .playCard seat card
  | apply seat action => .apply seat action
  | acknowledge => .acknowledge

theorem map_eq_ok {f : α → β} {x : TableM α} {t t' : Table} {b : β} :
    (f <$> x).run t = .ok b t' ↔ ∃ a, x.run t = .ok a t' ∧ f a = b := by
  rw [← bind_pure_comp, EStateM.run_bind]
  cases x.run t <;> simp [and_comm]

theorem map_eq_error {f : α → β} {x : TableM α} {t t' : Table} {e : Refusal} :
    (f <$> x).run t = .error e t' ↔ x.run t = .error e t' := by
  rw [← bind_pure_comp, EStateM.run_bind]
  cases x.run t <;> simp

/-- Only the result is looked at. -/
theorem Plays.map {x : TableM α} {t : Table} (h : t.Plays (x.run t)) (f : α → β) :
    t.Plays ((f <$> x).run t) := by
  rw [← bind_pure_comp, EStateM.run_bind]
  cases hx : x.run t <;> rw [hx] at h <;> exact h

/-- A request that is granted leaves the table that the call leaves. -/
theorem Request.after?_of_ok {r : Request} {files : Files} {t t' : Table} {b : Option Announcement}
    (ok : (r.perform files).run t = .ok b t') : r.toCall.after? files t = some t' := by
  cases r <;> obtain ⟨a, ok, -⟩ := map_eq_ok.mp ok <;> simp [toCall, Call.after?, ok, answered]

/-- A request of a deal that is refused changes nothing. -/
theorem Request.plays {t : Table} (h : t.Sound) (deal : t.phase.inDeal) (r : Request)
    (files : Files) : t.Plays ((r.perform files).run t) := by
  cases r with
  | placeBid seat contract slam => exact (placeBid_plays t seat contract slam).map _
  | callCard seat card => exact (callCard_plays t seat card).map _
  | layDiscard seat discard => exact (layDiscard_plays t seat discard).map _
  | showHandle seat handle => exact (showHandle_plays t seat handle).map _
  | declineHandle seat => exact (declineHandle_plays h seat).map _
  | playCard seat card => exact (playCard_plays t seat card).map _
  | apply seat action => exact (apply_plays h seat action).map _
  | acknowledge =>
    exact (acknowledge_plays h files fun ready => by rw [ready] at deal; cases deal).map _

/-! ## Steps -/

/-- Whether the next seat is asked for a bid. -/
def AuctionOpen (t : Table) : Prop :=
  t.position < t.players ∧ (t.deal.bid.slam && t.deal.bid.contract.isTaken) = false

/-- Where going on with the play leads. -/
inductive Continued (t : Table) : Table → Prop where
  | won (full : t.players ≤ t.position) {deal : DealState} {winner : Seat}
      (added : t.deal.addTrick t.trick = .ok (deal, winner)) :
      Continued t (t.afterTrick deal winner)
  | askHandle (more : t.position < t.players) (first : t.tricksDone = 0)
      (unasked : t.handleAsked.get t.current = false) :
      Continued t
        { t with phase := .awaitingHandle, handleAsked := t.handleAsked.set t.current true }
  | askCard (more : t.position < t.players)
      (asked : t.tricksDone = 0 → t.handleAsked.get t.current = true) :
      Continued t { t with phase := .awaitingCard }

/-- Where settling the dog leads. -/
inductive Settled (t : Table) : Table → Prop where
  | shown (unowned : t.deal.bid.contract.dogOwner? = none) : Settled t { t with phase := .dogShown }
  | unseen {owner : Team} (owned : t.deal.bid.contract.dogOwner? = some owner) :
      Settled t (opened { t with deal := t.deal.setDiscard t.deal.dog owner })

/-- Where a request that is granted leads in a deal, and the bid that it tells of. -/
inductive Step (t : Table) : Option Announcement → Table → Prop where
  | askBid (phase : t.phase = .cardsDealt ∨ t.phase = .bidShown) (more : t.AuctionOpen) :
      Step t none { t with phase := .awaitingBid }
  | bid (phase : t.phase = .awaitingBid) {contract accepted : Contract} {slam : Bool}
      (recorded : (t.deal.recordBid contract slam t.current).2 = accepted) :
      Step t (some ⟨accepted, slam && accepted.isTaken⟩) (t.afterBid contract slam)
  | passOut (phase : t.phase = .cardsDealt ∨ t.phase = .bidShown) (closed : ¬ t.AuctionOpen)
      (untaken : t.deal.bid.contract.isTaken = false) :
      Step t none { t.recounted with phase := .allPassed }
  | askCall (phase : t.phase = .cardsDealt ∨ t.phase = .bidShown) (closed : ¬ t.AuctionOpen)
      (taken : t.deal.bid.contract.isTaken) (five : t.players = 5) :
      Step t none
        { t.recounted with phase := .awaitingKingCall, deal := t.deal.setPartner none }
  | call (phase : t.phase = .awaitingKingCall) (taker : Seat) (card : Card) :
      Step t none (t.afterCall taker card)
  /-- The dog is settled right after the auction where no card is called. -/
  | closeAuction (phase : t.phase = .cardsDealt ∨ t.phase = .bidShown) (closed : ¬ t.AuctionOpen)
      (taken : t.deal.bid.contract.isTaken) (notFive : t.players ≠ 5) {t' : Table}
      (settled : Settled t.recounted t') : Step t none t'
  | closeCall (phase : t.phase = .kingCallShown) {t' : Table} (settled : Settled t t') :
      Step t none t'
  | askDiscard (phase : t.phase = .dogShown) : Step t none { t with phase := .awaitingDiscard }
  | discard (phase : t.phase = .awaitingDiscard) (taker : Seat) (cards : Cards) :
      Step t none (t.exchanged taker cards).opened
  | handle (phase : t.phase = .awaitingHandle) (cards : Cards) : Step t none (t.afterHandle cards)
  | decline (phase : t.phase = .awaitingHandle) {t' : Table}
      (continued : Continued (t.note t.current .noHandle) t') : Step t none t'
  | card (phase : t.phase = .awaitingCard) (c : Card) : Step t none (t.afterCard c)
  | goOn (phase : t.phase = .dealStarting ∨ t.phase = .handleShown ∨ t.phase = .cardShown)
      {t' : Table} (continued : Continued t t') : Step t none t'
  | nextTrick (phase : t.phase = .trickEnded) (unfinished : t.tricksDone < Rules.handSize t.players)
      {t' : Table} (continued : Continued t t') : Step t none t'
  | finish (phase : t.phase = .trickEnded) (played : Rules.handSize t.players ≤ t.tricksDone) :
      Step t none t.counted

/-- A step leads to a phase of the deal. -/
theorem Step.inDeal {t t' : Table} {b : Option Announcement} (h : Step t b t') :
    t'.phase.inDeal := by
  have settled : ∀ {t t' : Table}, Settled t t' → t'.phase.inDeal := fun h => by cases h <;> rfl
  have continued : ∀ {t t' : Table}, Continued t t' → t'.phase.inDeal := fun h => by
    cases h <;> rfl
  cases h with
  | closeAuction _ _ _ _ hs => exact settled hs
  | closeCall _ hs => exact settled hs
  | decline _ hc => exact continued hc
  | goOn _ hc => exact continued hc
  | nextTrick _ _ hc => exact continued hc
  | _ => rfl

/-! ## Requests make steps -/

theorem report_eq_ok {x : TableM α} {event : α → Event} {t t' : Table} {transition : Transition}
    (ok : (x >>= fun a => report (event a)).run t = .ok transition t') :
    ∃ a, x.run t = .ok a t' ∧ transition.event = event a := by
  rw [EStateM.run_bind] at ok
  cases hx : x.run t with
  | ok a t1 =>
    rw [hx] at ok
    cases ok
    exact ⟨a, rfl, rfl⟩
  | error e t1 =>
    rw [hx] at ok
    cases ok

theorem continuePlay_continued {t t' : Table} {transition : Transition}
    (ok : continuePlay.run t = .ok transition t') : Continued t t' := by
  rw [continuePlay_run] at ok
  split at ok
  · rename_i full
    cases hadd : t.deal.addTrick t.trick with
    | error e =>
      rw [hadd] at ok
      cases ok
    | ok r =>
      obtain ⟨deal, winner⟩ := r
      rw [hadd] at ok
      cases ok
      exact .won full hadd
  · rename_i more
    split at ok
    · rename_i ask
      cases ok
      exact .askHandle (Nat.not_le.mp more) ask.1 ask.2
    · rename_i ask
      cases ok
      exact .askCard (Nat.not_le.mp more) fun first => by simpa [first] using ask

theorem settleDog_settled {t t' : Table} {transition : Transition}
    (ok : settleDog.run t = .ok transition t') : Settled t t' := by
  rw [settleDog_run] at ok
  cases hdog : t.deal.bid.contract.dogOwner? with
  | none =>
    rw [hdog] at ok
    cases ok
    exact .shown hdog
  | some owner =>
    rw [hdog] at ok
    cases ok
    exact .unseen hdog

theorem continueAuction_step {t t' : Table} {transition : Transition}
    (phase : t.phase = .cardsDealt ∨ t.phase = .bidShown)
    (ok : continueAuction.run t = .ok transition t') : Step t none t' := by
  rw [continueAuction_run] at ok
  split at ok
  · rename_i more
    cases ok
    exact .askBid phase more
  · rename_i closed
    split at ok
    · rename_i untaken
      cases ok
      exact .passOut phase closed untaken
    · rename_i taken
      rw [Bool.not_eq_false] at taken
      split at ok
      · rename_i five
        cases ok
        exact .askCall phase closed taken five
      · rename_i notFive
        exact .closeAuction phase closed taken notFive (settleDog_settled ok)

theorem placeBid_step {t t' : Table} {seat : Seat} {contract accepted : Contract} {slam : Bool}
    (ok : (placeBid seat contract slam).run t = .ok accepted t') :
    Step t (some ⟨accepted, slam && accepted.isTaken⟩) t' := by
  rw [placeBid_run, check_eq_ok, check_eq_ok] at ok
  obtain ⟨phase, rfl, ok⟩ := ok
  cases ok
  exact .bid phase rfl

theorem callCard_step {t t' : Table} {seat : Seat} {card : Card} {partner : Option Seat}
    (ok : (callCard seat card).run t = .ok partner t') : Step t none t' := by
  rw [callCard_run, check_eq_ok] at ok
  obtain ⟨phase, ok⟩ := ok
  cases htaker : t.deal.bid.taker with
  | none =>
    rw [htaker] at ok
    cases ok
  | some taker =>
    rw [htaker] at ok
    dsimp only at ok
    rw [check_eq_ok, check_eq_ok] at ok
    obtain ⟨_, _, ok⟩ := ok
    cases ok
    exact .call phase taker card

theorem layDiscard_step {t t' : Table} {seat : Seat} {cards : Cards}
    (ok : (layDiscard seat cards).run t = .ok () t') : Step t none t' := by
  rw [layDiscard_run, check_eq_ok] at ok
  obtain ⟨phase, ok⟩ := ok
  cases htaker : t.deal.bid.taker with
  | none =>
    rw [htaker] at ok
    cases ok
  | some taker =>
    rw [htaker] at ok
    dsimp only at ok
    rw [check_eq_ok, check_eq_ok] at ok
    obtain ⟨_, _, ok⟩ := ok
    cases ok
    exact .discard phase taker cards

theorem showHandle_step {t t' : Table} {seat : Seat} {cards : Cards}
    (ok : (showHandle seat cards).run t = .ok () t') : Step t none t' := by
  rw [showHandle_run, check_eq_ok, check_eq_ok, check_eq_ok] at ok
  obtain ⟨phase, _, _, ok⟩ := ok
  cases ok
  exact .handle phase cards

theorem declineHandle_step {t t' : Table} {seat : Seat} {transition : Transition}
    (ok : (declineHandle seat).run t = .ok transition t') : Step t none t' := by
  rw [declineHandle_run, check_eq_ok, check_eq_ok] at ok
  obtain ⟨phase, _, ok⟩ := ok
  exact .decline phase (continuePlay_continued ok)

theorem playCard_step {t t' : Table} {seat : Seat} {c : Card}
    (ok : (playCard seat c).run t = .ok () t') : Step t none t' := by
  rw [playCard_run, check_eq_ok, check_eq_ok, check_eq_ok] at ok
  obtain ⟨phase, _, _, ok⟩ := ok
  cases ok
  exact .card phase c

/-- The events of the play tell of no bid. -/
theorem Continued.announced? {t t' : Table} {transition : Transition}
    (ok : continuePlay.run t = .ok transition t') : transition.event.announced? = none := by
  rw [continuePlay_run] at ok
  split at ok
  · cases hadd : t.deal.addTrick t.trick with
    | error e =>
      rw [hadd] at ok
      cases ok
    | ok r =>
      rw [hadd] at ok
      cases ok
      rfl
  · split at ok <;> cases ok <;> rfl

theorem apply_step {t t' : Table} {seat : Seat} {action : Action} {transition : Transition}
    (ok : (apply seat action).run t = .ok transition t') :
    Step t transition.event.announced? t' := by
  cases action with
  | bid contract slam =>
    obtain ⟨accepted, ok, event⟩ := report_eq_ok ok
    rw [event]
    exact placeBid_step ok
  | kingCall card =>
    obtain ⟨_, ok, event⟩ := report_eq_ok ok
    rw [event]
    exact callCard_step ok
  | discard cards =>
    obtain ⟨_, ok, event⟩ := report_eq_ok ok
    rw [event]
    exact layDiscard_step ok
  | handle cards =>
    obtain ⟨_, ok, event⟩ := report_eq_ok ok
    rw [event]
    exact showHandle_step ok
  | noHandle =>
    have hstep := declineHandle_step ok
    rw [apply, declineHandle_run, check_eq_ok, check_eq_ok] at ok
    rw [Continued.announced? ok.2.2]
    exact hstep
  | card c =>
    obtain ⟨_, ok, event⟩ := report_eq_ok ok
    rw [event]
    exact playCard_step ok

/-- **While a deal goes on, an acknowledgement that is granted makes a step.** -/
theorem acknowledge_step {t t' : Table} {files : Files} {transition : Transition}
    (deal : t.phase.inDeal) (going : t.phase.endsDeal = false)
    (ok : (acknowledge files).run t = .ok transition t') : Step t none t' := by
  unfold acknowledge at ok
  rw [get_bind_run] at ok
  cases hp : t.phase with
  | cardsDealt =>
    rw [hp] at ok
    exact continueAuction_step (Or.inl hp) ok
  | bidShown =>
    rw [hp] at ok
    exact continueAuction_step (Or.inr hp) ok
  | kingCallShown =>
    rw [hp] at ok
    exact .closeCall hp (settleDog_settled ok)
  | dogShown =>
    rw [hp] at ok
    cases ok
    exact .askDiscard hp
  | dealStarting =>
    rw [hp] at ok
    exact .goOn (Or.inl hp) (continuePlay_continued ok)
  | handleShown =>
    rw [hp] at ok
    exact .goOn (Or.inr (Or.inl hp)) (continuePlay_continued ok)
  | cardShown =>
    rw [hp] at ok
    exact .goOn (Or.inr (Or.inr hp)) (continuePlay_continued ok)
  | awaitingHandle =>
    rw [hp] at ok
    exact declineHandle_step ok
  | trickEnded =>
    rw [hp] at ok
    dsimp only at ok
    split at ok
    · rename_i closed
      cases ok
      exact .finish hp (by simpa [Rules.dealOver] using closed)
    · rename_i closed
      exact .nextTrick hp (by simpa [Rules.dealOver] using closed) (continuePlay_continued ok)
  | awaitingBid | awaitingKingCall | awaitingDiscard | awaitingCard =>
    rw [hp] at ok
    cases ok
  | allPassed | dealEnded =>
    rw [hp] at going
    cases going
  | stopped | awaitingPlayers | awaitingReady =>
    rw [hp] at deal
    cases deal

/-- **While a deal goes on, a request that is granted makes a step.** -/
theorem Request.step {r : Request} {files : Files} {t t' : Table} {b : Option Announcement}
    (deal : t.phase.inDeal) (going : t.phase.endsDeal = false)
    (ok : (r.perform files).run t = .ok b t') : Step t b t' := by
  cases r with
  | placeBid seat contract slam =>
    obtain ⟨accepted, granted, rfl⟩ := map_eq_ok.mp ok
    exact placeBid_step granted
  | callCard seat card =>
    obtain ⟨_, granted, rfl⟩ := map_eq_ok.mp ok
    exact callCard_step granted
  | layDiscard seat discard =>
    obtain ⟨_, granted, rfl⟩ := map_eq_ok.mp ok
    exact layDiscard_step granted
  | showHandle seat handle =>
    obtain ⟨_, granted, rfl⟩ := map_eq_ok.mp ok
    exact showHandle_step granted
  | declineHandle seat =>
    obtain ⟨_, granted, rfl⟩ := map_eq_ok.mp ok
    exact declineHandle_step granted
  | playCard seat card =>
    obtain ⟨_, granted, rfl⟩ := map_eq_ok.mp ok
    exact playCard_step granted
  | apply seat action =>
    obtain ⟨_, granted, rfl⟩ := map_eq_ok.mp ok
    exact apply_step granted
  | acknowledge =>
    obtain ⟨_, granted, rfl⟩ := map_eq_ok.mp ok
    exact acknowledge_step deal going granted

end Table

end FrenchTarot
