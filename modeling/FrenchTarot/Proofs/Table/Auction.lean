import FrenchTarot.Proofs.Deal.Offers
import FrenchTarot.Proofs.Table.Runs

/-!
# How an auction ends

An auction is observed from the cards being dealt to the acknowledgement that closes it, with the
offers that were granted a hearing and the contracts that came back for them.  `Auction` has these
runs.  Whatever else is called in between is refused, or it concerns the deals to come.

The table keeps the best bid and a count of seats.  `Auctioned` says what these have to do with the
offers: the bid is the one that the offers settle on, the seat in turn is the one after those that
have spoken, and nobody is asked once an offer has ended the auction.  From this follows what an
observer can tell from the offers alone (`Auction.outcome`): who speaks, what is granted, who plays
what, when the auction is closed, and whether everybody has passed.
-/

namespace FrenchTarot

/-- The phases of an auction. -/
def Phase.inAuction : Phase → Bool
  | cardsDealt | awaitingBid | bidShown => true
  | _ => false

/-- An auction is a part of a deal that is not over. -/
theorem Phase.inDeal_of_inAuction {p : Phase} (h : p.inAuction) :
    p.inDeal ∧ p.endsDeal = false := by
  revert h
  cases p <;> decide

/-- The auction is over after these offers: all seats of a table of `n` players have spoken, or the
last offer is the first one that ends it. -/
def AuctionClosed (n : Nat) (offers : List Offer) : Prop :=
  offers.length = n ∨ ∃ before last, offers = before ++ [last] ∧ last.EndsAuction before
    ∧ ∀ earlier o later, before = earlier ++ o :: later → ¬ o.EndsAuction earlier

namespace Table

/-! ## Runs of an auction -/

/-- The offer that a request makes, if it is a bid. -/
def Request.offer? : Request → Option Offer
  | placeBid seat contract slam | apply seat (.bid contract slam) => some ⟨seat, contract, slam⟩
  | _ => none

/-- A run of an auction with the offers that were taken and the contracts that were granted.  It
goes on as long as the auction does, and so its last table may be the one after the auction.  To
acknowledge until the table rests is to make several of these calls. -/
inductive Auction (start : Table) : List Offer → List Contract → Table → Prop where
  | opened : Auction start [] [] start
  | granted {offers : List Offer} {answers : List Contract} {t t' : Table}
      {b : Option Announcement} (before : Auction start offers answers t)
      (going : t.phase.inAuction) (r : Request) (files : Files)
      (ok : (r.perform files).run t = .ok b t') :
      Auction start (offers ++ r.offer?.toList) (answers ++ (b.map Announcement.contract).toList) t'
  | refused {offers : List Offer} {answers : List Contract} {t t' : Table} {e : Refusal}
      (before : Auction start offers answers t) (going : t.phase.inAuction) (r : Request)
      (files : Files) (error : (r.perform files).run t = .error e t') :
      Auction start offers answers t'
  | dealerChosen {offers : List Offer} {answers : List Contract} {t t' : Table}
      (before : Auction start offers answers t) (going : t.phase.inAuction) (dealer : Seat)
      (ok : (setFirstDealer dealer).run t = .ok () t') : Auction start offers answers t'
  | distributionChosen {offers : List Offer} {answers : List Contract} {t t' : Table}
      (before : Auction start offers answers t) (going : t.phase.inAuction)
      (distribution : Distribution) (ok : (setDistribution distribution).run t = .ok () t') :
      Auction start offers answers t'

variable {t t' : Table} {b : Option Announcement} {r : Request} {files : Files}

/-- **A bid that is taken comes from the seat in turn, and the deal grants its contract.** -/
theorem Request.bids {o : Offer} (offer : r.offer? = some o)
    (ok : (r.perform files).run t = .ok b t') : t.phase = .awaitingBid ∧ t.current = o.seat
      ∧ t' = t.afterBid o.contract o.slam
      ∧ b.map Announcement.contract = some (t.deal.recordBid o.contract o.slam o.seat).2 := by
  have hplaced : ∀ {accepted t'}, (Table.placeBid o.seat o.contract o.slam).run t = .ok accepted t' →
      t.phase = .awaitingBid ∧ t.current = o.seat ∧ t' = t.afterBid o.contract o.slam
        ∧ accepted = (t.deal.recordBid o.contract o.slam o.seat).2 := fun ok => by
    rw [placeBid_run, check_eq_ok, check_eq_ok] at ok
    obtain ⟨phase, seat, ok⟩ := ok
    cases ok
    exact ⟨phase, seat, rfl, rfl⟩
  cases r with
  | placeBid seat contract slam =>
    cases offer
    obtain ⟨accepted, placed, rfl⟩ := map_eq_ok.mp ok
    obtain ⟨phase, turn, after, rfl⟩ := hplaced placed
    exact ⟨phase, turn, after, rfl⟩
  | apply seat action =>
    cases action with
    | bid contract slam =>
      cases offer
      obtain ⟨transition, granted, rfl⟩ := map_eq_ok.mp ok
      obtain ⟨accepted, placed, event⟩ := report_eq_ok granted
      obtain ⟨phase, turn, after, rfl⟩ := hplaced placed
      refine ⟨phase, turn, after, ?_⟩
      rw [event]
      rfl
    | _ => cases offer
  | _ => cases offer

/-- A request that is not a bid tells of none. -/
theorem Request.announces_none (other : r.offer? = none)
    (ok : (r.perform files).run t = .ok b t') : b = none := by
  cases r with
  | placeBid => cases other
  | apply seat action =>
    obtain ⟨transition, granted, rfl⟩ := map_eq_ok.mp ok
    cases action with
    | bid => cases other
    | noHandle =>
      rw [show Table.apply seat .noHandle = Table.declineHandle seat from rfl, declineHandle_run,
        check_eq_ok, check_eq_ok] at granted
      exact Continued.announced? granted.2.2
    | _ =>
      obtain ⟨_, _, event⟩ := report_eq_ok granted
      rw [event]
      rfl
  | _ =>
    obtain ⟨_, _, rfl⟩ := map_eq_ok.mp ok
    rfl

/-! ## The table of an auction -/

/-- What the table has to do with the offers. -/
structure Auctioned (n : Nat) (first : Seat) (offers : List Offer) (answers : List Contract)
    (t : Table) : Prop where
  players : t.players = n
  length_le : offers.length ≤ n
  seats : offers.map Offer.seat = first.round offers.length n
  answers_length : answers.length = offers.length
  answers : ∀ (i : Nat) (o : Offer), offers[i]? = some o → answers[i]? = some (o.granted (offers.take i))
  settles : Settles offers t.deal.bid
  /-- No offer but the last one can have ended the auction. -/
  unended : ∀ before o after, offers = before ++ o :: after → after ≠ [] → ¬ o.EndsAuction before
  closed : t.deal.bid.closed ↔ ∃ before last, offers = before ++ [last] ∧ last.EndsAuction before
  position : t.phase.inAuction → t.position = offers.length
  current : t.phase.inAuction → t.current = first.advance offers.length n
  /-- Before the cards are acknowledged nobody has spoken. -/
  silent : t.phase = .cardsDealt → offers = []
  going : t.phase = .awaitingBid → t.AuctionOpen
  finished : t.phase.inAuction = false → AuctionClosed n offers
    ∧ (t.phase = .allPassed ↔ t.deal.bid.contract.isTaken = false)

namespace Auctioned

variable {n : Nat} {first : Seat} {offers : List Offer} {answers : List Contract}

/-- **The auction is closed where the table does not ask for another bid.** -/
theorem closed_iff (h : t.Auctioned n first offers answers) (phase : t.phase.inAuction) :
    AuctionClosed n offers ↔ ¬ t.AuctionOpen := by
  rw [AuctionOpen, h.position phase, h.players, AuctionClosed]
  have hle := h.length_le
  constructor
  · rintro (hall | ⟨before, last, heq, hends, _⟩) ⟨more, hopen⟩
    · omega
    · have hclosed := h.closed.mpr ⟨before, last, heq, hends⟩
      rw [Bid.closed, hopen] at hclosed
      cases hclosed
  · intro hnot
    by_cases more : offers.length < n
    · right
      have hclosed : t.deal.bid.closed = true := by
        by_contra hopen
        exact hnot ⟨more, by simpa [Bid.closed] using hopen⟩
      obtain ⟨before, last, heq, hends⟩ := h.closed.mp hclosed
      refine ⟨before, last, heq, hends, fun earlier o later hb => ?_⟩
      refine h.unended earlier o (later ++ [last]) ?_ (by simp)
      rw [heq, hb, List.append_assoc, List.cons_append]
    · left
      omega

/-- What neither touches the bids nor the seats in turn. -/
theorem frame (h : t.Auctioned n first offers answers) (phase : t.phase.inAuction)
    (same : t'.phase = t.phase) (players : t'.players = t.players) (deal : t'.deal = t.deal)
    (position : t'.position = t.position) (current : t'.current = t.current) :
    t'.Auctioned n first offers answers where
  players := players.trans h.players
  length_le := h.length_le
  seats := h.seats
  answers_length := h.answers_length
  answers := h.answers
  settles := deal ▸ h.settles
  unended := h.unended
  closed := deal ▸ h.closed
  position := fun hp => position.trans (h.position (same ▸ hp))
  current := fun hp => current.trans (h.current (same ▸ hp))
  silent := fun hp => h.silent (same ▸ hp)
  going := fun hp => by
    have hopen := h.going (same ▸ hp)
    rw [AuctionOpen] at hopen ⊢
    rwa [players, deal, position]
  finished := fun hp => by
    rw [same, phase] at hp
    cases hp

/-- The next seat is asked. -/
theorem askBid (h : t.Auctioned n first offers answers)
    (phase : t.phase = .cardsDealt ∨ t.phase = .bidShown) (more : t.AuctionOpen) :
    Auctioned n first offers answers { t with phase := .awaitingBid } :=
  { h with
    position := fun _ => h.position (by rcases phase with hp | hp <;> rw [hp] <;> rfl)
    current := fun _ => h.current (by rcases phase with hp | hp <;> rw [hp] <;> rfl)
    silent := nofun
    going := fun _ => more
    finished := nofun }

/-- **An offer is the one of the seat in turn, and the next seat comes after it.** -/
theorem bid (h : t.Auctioned n first offers answers) (hn : Rules.supported n)
    (phase : t.phase = .awaitingBid) (o : Offer) (turn : t.current = o.seat) :
    (t.afterBid o.contract o.slam).Auctioned n first (offers ++ [o])
      (answers ++ [(t.deal.recordBid o.contract o.slam o.seat).2]) := by
  have inAuction : t.phase.inAuction := by rw [phase]; rfl
  obtain ⟨more, hopen⟩ := h.going phase
  have hposition := h.position inAuction
  have hcurrent := h.current inAuction
  have hdeal : (t.afterBid o.contract o.slam).deal =
      (t.deal.recordBid o.contract o.slam o.seat).1 := by
    rw [afterBid, turn]
  have hclosed := h.settles.closed_recordBid_iff hopen o
  exact {
    players := h.players
    length_le := by
      have := h.players
      rw [List.length_append, List.length_singleton]
      omega
    seats := by
      rw [List.map_append, h.seats, List.length_append, List.length_singleton, Seat.round_succ,
        ← hcurrent, turn]
      rfl
    answers_length := by
      rw [List.length_append, List.length_append, h.answers_length]
      rfl
    answers := fun i x hx => by
      rcases Nat.lt_or_ge i offers.length with hi | hi
      · rw [List.getElem?_append_left hi] at hx
        rw [List.getElem?_append_left (h.answers_length ▸ hi), List.take_append_of_le_length
          (Nat.le_of_lt hi)]
        exact h.answers i x hx
      · -- It is the last offer, which is answered by the deal.
        have hlast : i = offers.length := by
          have := (List.getElem?_eq_some_iff.mp hx).1
          rw [List.length_append, List.length_singleton] at this
          omega
        subst hlast
        rw [List.getElem?_concat_length] at hx
        cases hx
        rw [← h.answers_length, List.getElem?_concat_length, h.answers_length,
          List.take_left' rfl, h.settles.recordBid_granted]
    settles := by
      rw [hdeal]
      exact h.settles.recordBid_settles o
    unended := fun before x after heq hne hends => by
      obtain ⟨after, last, rfl⟩ := (List.eq_nil_or_concat after).resolve_left hne
      rw [List.concat_eq_append, ← List.cons_append, ← List.append_assoc] at heq
      obtain ⟨heq, _⟩ := List.append_inj' heq rfl
      -- An offer that ended the auction would have closed it before this one.
      by_cases hafter : after = []
      · subst hafter
        have := h.closed.mpr ⟨before, x, heq, hends⟩
        rw [Bid.closed, hopen] at this
        cases this
      · exact h.unended before x after heq hafter hends
    closed := by
      rw [hdeal, hclosed]
      constructor
      · exact fun hends => ⟨offers, o, rfl, hends⟩
      · rintro ⟨before, last, heq, hends⟩
        obtain ⟨rfl, hlast⟩ := List.append_inj' heq rfl
        cases hlast
        exact hends
    position := fun _ => by
      rw [List.length_append, List.length_singleton, ← hposition]
      rfl
    current := fun _ => by
      rw [List.length_append, List.length_singleton, ← Seat.next_advance hn, ← hcurrent,
        ← h.players]
      rfl
    -- A bid is shown now.
    silent := fun hp => by cases hp
    going := fun hp => by cases hp
    finished := fun hp => by cases hp }

/-- **The auction is closed where the next seat is not asked.** -/
theorem close (h : t.Auctioned n first offers answers)
    (phase : t.phase = .cardsDealt ∨ t.phase = .bidShown) (closed : ¬ t.AuctionOpen)
    (finished : t'.phase.inAuction = false) (players : t'.players = t.players)
    (bid : t'.deal.bid = t.deal.bid)
    (passed : t'.phase = .allPassed ↔ t.deal.bid.contract.isTaken = false) :
    t'.Auctioned n first offers answers := by
  have inAuction : t.phase.inAuction := by rcases phase with hp | hp <;> rw [hp] <;> rfl
  have hover : ∀ {P : Prop}, t'.phase.inAuction → P := fun hp => by
    rw [finished] at hp
    cases hp
  exact {
    players := players.trans h.players
    length_le := h.length_le
    seats := h.seats
    answers_length := h.answers_length
    answers := h.answers
    settles := bid ▸ h.settles
    unended := h.unended
    closed := bid ▸ h.closed
    position := hover
    current := hover
    silent := fun hp => hover (by rw [hp]; rfl)
    going := fun hp => hover (by rw [hp]; rfl)
    finished := fun _ => ⟨(h.closed_iff inAuction).mpr closed, bid ▸ passed⟩ }

/-- A taker who calls nobody is the partner already. -/
theorem setPartner_none (h : t.Auctioned n first offers answers)
    (taken : t.deal.bid.contract.isTaken) : (t.deal.setPartner none).bid = t.deal.bid := by
  obtain ⟨o, _, htaker, hpartner, _⟩ := h.settles.taken taken
  show { t.deal.bid with partner := t.deal.bid.taker } = t.deal.bid
  rw [htaker, ← hpartner]

/-- Settling the dog leaves the bid as it is. -/
theorem settled_bid {t t' : Table} (h : Settled t t') : t'.deal.bid = t.deal.bid
    ∧ t'.players = t.players ∧ t'.phase ≠ .allPassed ∧ t'.phase.inAuction = false := by
  cases h with
  | shown => exact ⟨rfl, rfl, nofun, rfl⟩
  | unseen => exact ⟨rfl, rfl, nofun, rfl⟩

/-- **Every other request that is granted in an auction asks the next seat or closes it.** -/
theorem step (h : t.Auctioned n first offers answers) (phase : t.phase.inAuction)
    (step : Step t none t') : t'.Auctioned n first offers answers := by
  have hother : ∀ {p : Phase} {P : Prop}, p.inAuction = false → t.phase = p → P :=
    fun hp heq => by
      rw [heq, hp] at phase
      cases phase
  cases step with
  | askBid shown more => exact h.askBid shown more
  | passOut shown closed untaken =>
    exact h.close shown closed rfl rfl rfl ⟨fun _ => untaken, fun _ => rfl⟩
  | askCall shown closed taken five =>
    refine h.close shown closed rfl rfl (h.setPartner_none taken) ⟨nofun, fun untaken => ?_⟩
    rw [taken] at untaken
    cases untaken
  | closeAuction shown closed taken notFive settled =>
    obtain ⟨hbid, hplayers, hphase, hover⟩ := settled_bid settled
    refine h.close shown closed hover hplayers hbid ⟨fun hp => absurd hp hphase, fun untaken => ?_⟩
    rw [taken] at untaken
    cases untaken
  | call hp | closeCall hp | askDiscard hp | discard hp | handle hp | decline hp | card hp
  | nextTrick hp | finish hp => exact hother rfl hp
  | goOn hp => rcases hp with hp | hp | hp <;> exact hother rfl hp

end Auctioned

/-! ## The outcome -/

/-- A deal begins with nobody having spoken. -/
theorem Reachable.auctioned (h : Reachable t) (phase : t.phase = .cardsDealt) :
    t.Auctioned t.players t.current [] [] := by
  obtain ⟨hposition, hbid⟩ := h.fresh phase
  have hs := h.sound
  have hcurrent := (hs.before (by rw [phase]; rfl)).current_lt
  exact {
    players := rfl
    length_le := Nat.zero_le _
    seats := rfl
    answers_length := rfl
    answers := nofun
    settles := by
      rw [hbid]
      exact settles_none
    unended := by simp
    closed := by
      rw [hbid]
      constructor
      · nofun
      · rintro ⟨before, last, heq, _⟩
        simp at heq
    position := fun _ => hposition
    current := fun _ => (Seat.advance_zero hs.supported hcurrent).symm
    silent := fun _ => rfl
    going := fun hp => nomatch phase.symm.trans hp
    finished := fun hp => by
      rw [phase] at hp
      cases hp }

variable {start : Table} {offers : List Offer} {answers : List Contract}

/-- **Every call in an auction keeps the table and the offers together.** -/
theorem Auction.auctioned (h : Reachable start) (phase : start.phase = .cardsDealt)
    (run : Auction start offers answers t) :
    t.Auctioned start.players start.current offers answers ∧ Reachable t := by
  have hn := h.sound.supported
  induction run with
  | opened => exact ⟨h.auctioned phase, h⟩
  | granted _ going r files ok ih =>
    obtain ⟨ih, hr⟩ := ih
    refine ⟨?_, hr.call files r.toCall (Request.after?_of_ok ok)⟩
    cases hoffer : r.offer? with
    | some o =>
      obtain ⟨hphase, turn, rfl, hanswer⟩ := Request.bids hoffer ok
      rw [hanswer]
      exact ih.bid hn hphase o turn
    | none =>
      obtain rfl := Request.announces_none hoffer ok
      rw [Option.toList_none, List.append_nil, Option.map_none, Option.toList_none,
        List.append_nil]
      obtain ⟨deal, unended⟩ := Phase.inDeal_of_inAuction going
      exact ih.step going (Request.step deal unended ok)
  | refused _ going r files error ih =>
    obtain ⟨ih, hr⟩ := ih
    have hsame := Request.plays hr.sound (Phase.inDeal_of_inAuction going).1 r files
    rw [error] at hsame
    cases hsame
    exact ⟨ih, hr⟩
  | dealerChosen _ going dealer ok ih =>
    obtain ⟨ih, hr⟩ := ih
    cases ok
    exact ⟨ih.frame going rfl rfl rfl rfl rfl, hr.call (fun _ => none) (.setFirstDealer dealer) rfl⟩
  | distributionChosen _ going distribution ok ih =>
    obtain ⟨ih, hr⟩ := ih
    cases ok
    exact ⟨ih.frame going rfl rfl rfl rfl rfl,
      hr.call (fun _ => none) (.setDistribution distribution) rfl⟩

/-- What an observer of an auction at a table of `n` players can tell from the offers, where `first`
is the seat that speaks first. -/
structure AuctionOutcome (n : Nat) (first : Seat) (offers : List Offer) (answers : List Contract)
    (t : Table) : Prop where
  /-- The seats speak one after the other. -/
  seats : offers.map Offer.seat = first.round offers.length n
  /-- Each seat is granted what it has asked for if that is above every offer before, and otherwise
  it passes. -/
  answers : answers.length = offers.length
    ∧ ∀ (i : Nat) (o : Offer), offers[i]? = some o → answers[i]? = some (o.granted (offers.take i))
  /-- The highest contract is played, by the seat that has asked for it first. -/
  settles : Settles offers t.deal.bid
  /-- A bid that is acknowledged closes the auction, or the next seat is asked. -/
  closes : t.phase = .bidShown → ∀ files, ∃ transition t',
    (acknowledge files).run t = .ok transition t'
      ∧ (AuctionClosed n offers → t'.phase.inAuction = false)
      ∧ (¬ AuctionClosed n offers → t'.phase = .awaitingBid)
  /-- Nobody is asked in an auction that is closed. -/
  asks : t.phase = .awaitingBid → ¬ AuctionClosed n offers
  /-- The auction has been left by closing it, and everybody has passed exactly if nobody has asked
  for a contract that is played. -/
  finished : t.phase.inAuction = false → AuctionClosed n offers
    ∧ (t.phase = .allPassed ↔ ∀ o ∈ offers, o.contract.isTaken = false)

/-- An acknowledgement in an auction is granted. -/
theorem continueAuction_ok (t : Table) : ∃ transition t', continueAuction.run t = .ok transition t'
    ∧ (t.AuctionOpen → t'.phase = .awaitingBid)
    ∧ (¬ t.AuctionOpen → t'.phase.inAuction = false) := by
  rw [continueAuction_run]
  split
  · rename_i more
    exact ⟨_, _, rfl, fun _ => rfl, fun closed => absurd more closed⟩
  · rename_i closed
    have hopen : ∀ {P : Prop}, t.AuctionOpen → P := fun more => absurd more closed
    split
    · exact ⟨_, _, rfl, hopen, fun _ => rfl⟩
    · split
      · exact ⟨_, _, rfl, hopen, fun _ => rfl⟩
      · rw [settleDog_run]
        cases t.recounted.deal.bid.contract.dogOwner? <;> exact ⟨_, _, rfl, hopen, fun _ => rfl⟩

/-- **The offers of an auction tell its outcome.** -/
theorem Auction.outcome (h : Reachable start) (phase : start.phase = .cardsDealt)
    (run : Auction start offers answers t) :
    AuctionOutcome start.players start.current offers answers t := by
  obtain ⟨ha, _⟩ := run.auctioned h phase
  exact {
    seats := ha.seats
    answers := ⟨ha.answers_length, ha.answers⟩
    settles := ha.settles
    closes := fun shown files => by
      have hiff := ha.closed_iff (by rw [shown]; rfl)
      obtain ⟨transition, t', ok, more, closed⟩ := t.continueAuction_ok
      refine ⟨transition, t', ?_, fun hc => closed (hiff.mp hc), fun hc => more ?_⟩
      · unfold acknowledge
        rw [get_bind_run, shown]
        exact ok
      · exact Classical.not_not.mp fun hnot => hc (hiff.mpr hnot)
    asks := fun asked hc => (ha.closed_iff (by rw [asked]; rfl)).mp hc (ha.going asked)
    finished := fun hover => by
      obtain ⟨hclosed, hpassed⟩ := ha.finished hover
      exact ⟨hclosed, hpassed.trans ha.settles.untaken_iff⟩ }

/-! ## An auction -/

/-- The next seat is asked and speaks. -/
theorem Auction.speak (run : Auction start offers answers t)
    (phase : t.phase = .cardsDealt ∨ t.phase = .bidShown) (more : t.AuctionOpen)
    (contract : Contract) (slam : Bool) :
    Auction start (offers ++ [⟨t.current, contract, slam⟩])
      (answers ++ [(t.deal.recordBid contract slam t.current).2])
      ({ t with phase := .awaitingBid }.afterBid contract slam) := by
  have hasked : (Request.acknowledge.perform (fun _ => none)).run t =
      .ok none { t with phase := .awaitingBid } := by
    refine map_eq_ok.mpr ⟨⟨.awaitingBid, .turn t.current⟩, ?_, rfl⟩
    unfold acknowledge
    rw [get_bind_run]
    rcases phase with hp | hp <;> rw [hp] <;> exact (continueAuction_run t).trans (if_pos more)
  have asked := run.granted (by rcases phase with hp | hp <;> rw [hp] <;> rfl) _ _ hasked
  rw [show Request.acknowledge.offer? = none from rfl, Option.map_none, Option.toList_none,
    Option.toList_none, List.append_nil, List.append_nil] at asked
  exact asked.granted rfl (.placeBid t.current contract slam) (fun _ => none)
    (map_eq_ok.mpr ⟨_, (placeBid_run _ _ _ _).trans ((if_pos rfl).trans (if_pos rfl)), rfl⟩)

/-- The first seat bids a guard, and the slam that the second one announces with a lower bid does
not count. -/
theorem Reachable.underbid (h : Reachable start) (phase : start.phase = .cardsDealt) :
    ∃ t, Auction start [⟨start.current, .guard, false⟩,
      ⟨start.current.next start.players, .take, true⟩] [.guard, .pass] t := by
  obtain ⟨hposition, hbid⟩ := h.fresh phase
  have hthree : 3 ≤ start.players :=
    of_decide_eq_true (Bool.and_eq_true_iff.mp h.sound.supported).1
  -- The table when the first seat has spoken.
  let spoken := { start with phase := .awaitingBid }.afterBid .guard false
  have hspoken : spoken.deal.bid = ⟨some start.current, some start.current, .guard, false⟩ := by
    show (start.deal.recordBid .guard false start.current).1.bid = _
    rw [DealState.recordBid, hbid]
    rfl
  have hguard : (start.deal.recordBid .guard false start.current).2 = .guard := by
    rw [DealState.recordBid, hbid]
    rfl
  have htake : (spoken.deal.recordBid .take true spoken.current).2 = .pass := by
    rw [DealState.recordBid, hspoken]
    rfl
  have first : Auction start [⟨start.current, .guard, false⟩] [.guard] spoken := by
    have run := Auction.opened.speak (Or.inl phase) ⟨by omega, by rw [hbid]; rfl⟩ .guard false
    rwa [hguard] at run
  have more : spoken.position < spoken.players := by
    show start.position + 1 < start.players
    omega
  have second := first.speak (Or.inr rfl) ⟨more, by rw [hspoken]; rfl⟩ .take true
  rw [htake] at second
  exact ⟨_, second⟩

theorem trialDeal_outcome : ∃ offers answers t, Auction trialDeal offers answers t
    ∧ answers = [.guard, .pass]
    ∧ AuctionOutcome trialDeal.players trialDeal.current offers answers t := by
  have phase := trial_played.1
  obtain ⟨t, run⟩ := trialDeal_reachable.underbid phase
  exact ⟨_, _, t, run, rfl, run.outcome trialDeal_reachable phase⟩

end Table

end FrenchTarot
