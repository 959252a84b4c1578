import FrenchTarot.Proofs.Deal.Plays
import FrenchTarot.Proofs.Table.Steps

/-!
# Following a deal

A table computes its next phase from a few counters and flags: how many seats have spoken or played,
how many tricks are done, who has been asked for a handle, and the best bid.  This module says what
they have to do with what an observer has seen, which is the bids that were granted and the tables
after them.

There is an invariant for each part of a deal: `Bidding`, `PassedOut`, `Preparing` and `Playing`,
put together in `Followed`.  In the play it is the phases of the turn in progress that tell the
flags apart (`Playing.asked_iff`), and so the seat in turn is asked for a handle once.  Each step
keeps the invariants (`Step.followed`).
-/

namespace FrenchTarot.Table

/-! ## What is seen -/

/-- The phases of some tables. -/
def phasesOf (visited : List Table) : List Phase := visited.map Table.phase

/-- The seats in turn at the tables of one phase. -/
def seatsIn (phase : Phase) (visited : List Table) : List Seat :=
  (visited.filter fun t => t.phase = phase).map Table.current

theorem phasesOf_append (visited : List Table) (t : Table) :
    phasesOf (visited ++ [t]) = phasesOf visited ++ [t.phase] := by
  rw [phasesOf, List.map_append]
  rfl

theorem seatsIn_append {phase : Phase} {t : Table} (ht : t.phase = phase) (visited : List Table) :
    seatsIn phase (visited ++ [t]) = seatsIn phase visited ++ [t.current] := by
  simp [seatsIn, ht]

theorem seatsIn_append_other {phase : Phase} {t : Table} (ht : t.phase ≠ phase)
    (visited : List Table) : seatsIn phase (visited ++ [t]) = seatsIn phase visited := by
  simp [seatsIn, ht]

/-- Nobody is asked for a handle or for a card before the play. -/
theorem seatsIn_eq_nil {phase : Phase} {visited : List Table}
    (quiet : ∀ s ∈ visited, s.phase.beforePlay) (hp : phase.beforePlay = false) :
    seatsIn phase visited = [] := by
  have hnone : visited.filter (fun t => t.phase = phase) = [] := by
    refine List.filter_eq_nil_iff.mpr fun s hs he => ?_
    have hbefore := quiet s hs
    rw [of_decide_eq_true he, hp] at hbefore
    cases hbefore
  rw [seatsIn, hnone]
  rfl

/-! ## The auction -/

/-- A table in the auction: the bids are those of the seats that have spoken. -/
structure Bidding (t : Table) (bids : List Announcement) (visited : List Table) : Prop where
  spoken : bids.length = t.position
  position_le : t.position ≤ t.players
  unclosed : ∀ b ∈ bids.dropLast, b.closes = false
  closed : bids.any Announcement.closes = t.deal.bid.closed
  won : wonContract? bids = t.deal.bid.taken?
  going : t.phase = .awaitingBid → t.AuctionOpen
  phases : phasesOf visited =
    Course.auction bids ++ if t.phase = .awaitingBid then [.awaitingBid] else []
  quiet : ∀ s ∈ visited, s.phase.beforePlay

/-- The table after the auction, with everybody having passed. -/
structure PassedOut (t : Table) (bids : List Announcement) (visited : List Table) : Prop where
  auction : AuctionOver t.players bids
  won : wonContract? bids = none
  phases : phasesOf visited = Course.auction bids ++ [.allPassed]
  quiet : ∀ s ∈ visited, s.phase.beforePlay

/-- Up to this phase of the preparation. -/
def preparedUpTo (n : Nat) : Phase → List Phase
  | .awaitingKingCall => [.awaitingKingCall]
  | .dogShown => Course.kingCall n ++ [.dogShown]
  | .awaitingDiscard => Course.kingCall n ++ [.dogShown, .awaitingDiscard]
  | _ => Course.kingCall n

/-- A table between the auction and the play. -/
structure Preparing (t : Table) (bids : List Announcement) (visited : List Table) : Prop where
  auction : AuctionOver t.players bids
  won : wonContract? bids = some t.deal.bid.contract
  five : t.phase = .awaitingKingCall → t.players = 5
  phases : phasesOf visited = Course.auction bids ++ preparedUpTo t.players t.phase
  quiet : ∀ s ∈ visited, s.phase.beforePlay

theorem quiet_append {visited : List Table} (quiet : ∀ s ∈ visited, s.phase.beforePlay) {t : Table}
    (ht : t.phase.beforePlay) : ∀ s ∈ visited ++ [t], s.phase.beforePlay := by
  intro s hs
  rcases List.mem_append.mp hs with hs | hs
  · exact quiet s hs
  · rw [List.mem_singleton.mp hs]
    exact ht

/-! ## The play -/

/-- The phases of the turn in progress.  In the first trick a seat is asked for a handle before it
is asked for a card. -/
inductive Turn (t : Table) : List Phase → Prop where
  | starting (phase : t.phase = .dealStarting) (first : t.tricksDone = 0) (begun : t.position = 0) :
      Turn t []
  | handle (phase : t.phase = .awaitingHandle) (first : t.tricksDone = 0) : Turn t [.awaitingHandle]
  | handleShown (phase : t.phase = .handleShown) (first : t.tricksDone = 0) :
      Turn t [.awaitingHandle, .handleShown]
  | firstCard (phase : t.phase = .awaitingCard) (first : t.tricksDone = 0) (shown : Bool) :
      Turn t (.awaitingHandle :: (if shown then [.handleShown] else []) ++ [.awaitingCard])
  | card (phase : t.phase = .awaitingCard) (later : t.tricksDone ≠ 0) : Turn t [.awaitingCard]
  | cardShown (phase : t.phase = .cardShown) : Turn t []
  | won (phase : t.phase = .trickEnded) (later : t.tricksDone ≠ 0) : Turn t []
  | ended (phase : t.phase = .dealEnded) (later : t.tricksDone ≠ 0) : Turn t [.dealEnded]

/-- The phases up to the beginning of the play. -/
structure Opening (n : Nat) (bids : List Announcement) (opening : List Phase) : Prop where
  auction : AuctionOver n bids
  phases : ∃ contract, wonContract? bids = some contract
    ∧ opening = Course.auction bids ++ Course.preparation n contract

/-- Who has been asked since `leader` has begun the play: a round of so many seats for a handle, and
in the first trick a round of so many seats for a card. -/
structure Asked (t : Table) (visited : List Table) (leader : Seat) (handles cards : Nat) :
    Prop where
  leads : t.deal.firstPlayer = some leader
  handles : seatsIn .awaitingHandle visited = leader.round handles t.players
  flags : ∀ s, t.handleAsked.get s = true ↔ s ∈ seatsIn .awaitingHandle visited
  cards_first : t.tricksDone = 0 →
    seatsIn .awaitingCard visited = leader.round cards t.players
  cards_later : t.tricksDone ≠ 0 →
    leader.round t.players t.players <+: seatsIn .awaitingCard visited

/-- A table in the play, which `leader` has begun, with the answers of the seats that were asked for
a handle. -/
structure Playing (t : Table) (opening : List Phase) (visited : List Table) (leader : Seat)
    (handles : List Bool) (pending : List Phase) : Prop where
  turn : t.Turn pending
  phases : phasesOf visited =
    opening ++ (Course.played t.players handles t.tricksDone t.position ++ pending)
  answers : handles.length = if t.tricksDone = 0 then t.position else t.players
  asked : t.Asked visited leader (handles.length + pending.count .awaitingHandle)
    (t.position + pending.count .awaitingCard)

/-! ## Following a table -/

/-- What the table has to do with the bids that were granted and the tables that were seen. -/
def Followed (t : Table) (bids : List Announcement) (visited : List Table) : Prop :=
  match t.phase with
  | .cardsDealt | .awaitingBid | .bidShown => t.Bidding bids visited
  | .allPassed => t.PassedOut bids visited
  | .awaitingKingCall | .kingCallShown | .dogShown | .awaitingDiscard => t.Preparing bids visited
  | .dealStarting | .awaitingHandle | .handleShown | .awaitingCard | .cardShown | .trickEnded
  | .dealEnded => ∃ opening leader handles pending, Opening t.players bids opening
    ∧ t.Playing opening visited leader handles pending
  | .stopped | .awaitingPlayers | .awaitingReady => False

variable {t t' : Table} {bids : List Announcement} {visited : List Table}

theorem Followed.inDeal (h : t.Followed bids visited) : t.phase.inDeal := by
  unfold Followed at h
  cases hp : t.phase <;> rw [hp] at h <;> first | rfl | cases h

theorem Followed.bidding (h : t.Followed bids visited)
    (phase : t.phase = .cardsDealt ∨ t.phase = .awaitingBid ∨ t.phase = .bidShown) :
    t.Bidding bids visited := by
  unfold Followed at h
  rcases phase with hp | hp | hp <;> rw [hp] at h <;> exact h

theorem Followed.preparing (h : t.Followed bids visited) (phase : t.phase = .awaitingKingCall
    ∨ t.phase = .kingCallShown ∨ t.phase = .dogShown ∨ t.phase = .awaitingDiscard) :
    t.Preparing bids visited := by
  unfold Followed at h
  rcases phase with hp | hp | hp | hp <;> rw [hp] at h <;> exact h

theorem Followed.playing (h : t.Followed bids visited) (during : t.phase.duringPlay) :
    ∃ opening leader handles pending, Opening t.players bids opening
      ∧ t.Playing opening visited leader handles pending := by
  unfold Followed at h
  cases hp : t.phase <;> rw [hp] at h during <;> first | exact h | cases during

/-! ## Steps of the auction -/

/-- **Where nobody is asked any more, the auction is over.** -/
theorem Bidding.auctionOver (h : t.Bidding bids visited) (closed : ¬ t.AuctionOpen) :
    AuctionOver t.players bids where
  length_le := by
    rw [h.spoken]
    exact h.position_le
  unclosed := h.unclosed
  closed := by
    intro hlt
    have hclosed : bids.any Announcement.closes = true := by
      rw [h.closed]
      by_contra hopen
      exact closed ⟨h.spoken ▸ hlt, by simpa [Bid.closed] using hopen⟩
    -- Only the last bid can be the one that closes the auction.
    obtain ⟨b, hb, hcloses⟩ := List.any_eq_true.mp hclosed
    have hne : bids ≠ [] := List.ne_nil_of_mem hb
    refine ⟨bids.getLast hne, List.getLast?_eq_getLast_of_ne_nil hne, ?_⟩
    rw [← List.dropLast_append_getLast hne] at hb
    rcases List.mem_append.mp hb with hb | hb
    · rw [h.unclosed b hb] at hcloses
      cases hcloses
    · rwa [List.mem_singleton.mp hb] at hcloses

/-- Between two bids nobody is being asked. -/
theorem Bidding.phases_shown (h : t.Bidding bids visited)
    (phase : t.phase = .cardsDealt ∨ t.phase = .bidShown) :
    phasesOf visited = Course.auction bids := by
  rw [h.phases, if_neg (by rcases phase with hp | hp <;> rw [hp] <;> decide), List.append_nil]

theorem Bidding.askBid (h : t.Bidding bids visited)
    (phase : t.phase = .cardsDealt ∨ t.phase = .bidShown) (more : t.AuctionOpen) :
    Bidding { t with phase := .awaitingBid } bids
      (visited ++ [{ t with phase := .awaitingBid }]) :=
  { h with
    going := fun _ => more
    phases := by
      rw [phasesOf_append, h.phases_shown phase]
      rfl
    quiet := quiet_append h.quiet rfl }

/-- **A bid is the next one of the auction.** -/
theorem Bidding.bid (h : t.Bidding bids visited) (phase : t.phase = .awaitingBid)
    {contract accepted : Contract} {slam : Bool}
    (recorded : (t.deal.recordBid contract slam t.current).2 = accepted) :
    (t.afterBid contract slam).Bidding (bids ++ [⟨accepted, slam && accepted.isTaken⟩])
      (visited ++ [t.afterBid contract slam]) := by
  subst recorded
  obtain ⟨more, hopen⟩ := h.going phase
  have hnone : bids.any Announcement.closes = false := h.closed.trans hopen
  exact {
    spoken := by
      rw [List.length_append, h.spoken]
      rfl
    position_le := more
    unclosed := by
      rw [List.dropLast_concat]
      exact fun b hb => by simpa using List.any_eq_false.mp hnone b hb
    closed := by
      rw [List.any_append, hnone, List.any_cons, List.any_nil, Bool.or_false, Bool.false_or]
      exact (DealState.closed_recordBid hopen contract slam t.current).symm
    won := by
      rw [wonContract?_append, h.won]
      exact (DealState.taken?_recordBid t.deal contract slam t.current).symm
    going := fun hp => nomatch hp
    phases := by
      rw [phasesOf_append, h.phases, if_pos phase, Course.auction, Course.auction,
        List.length_append, List.length_singleton, Course.times_succ]
      simp [afterBid]
    quiet := quiet_append h.quiet rfl }

theorem Bidding.passOut (h : t.Bidding bids visited)
    (phase : t.phase = .cardsDealt ∨ t.phase = .bidShown) (closed : ¬ t.AuctionOpen)
    (untaken : t.deal.bid.contract.isTaken = false) :
    PassedOut { t.recounted with phase := .allPassed } bids
      (visited ++ [{ t.recounted with phase := .allPassed }]) :=
  { auction := h.auctionOver closed
    won := by
      rw [h.won, Bid.taken?, untaken]
      rfl
    phases := by rw [phasesOf_append, h.phases_shown phase]
    quiet := quiet_append h.quiet rfl }

/-- After the auction the contract is the one that was won in it. -/
theorem Bidding.won_taken (h : t.Bidding bids visited) (taken : t.deal.bid.contract.isTaken) :
    wonContract? bids = some t.deal.bid.contract := by
  rw [h.won, Bid.taken?, if_pos taken]

theorem Bidding.askCall (h : t.Bidding bids visited)
    (phase : t.phase = .cardsDealt ∨ t.phase = .bidShown) (closed : ¬ t.AuctionOpen)
    (taken : t.deal.bid.contract.isTaken) (five : t.players = 5) :
    Preparing { t.recounted with phase := .awaitingKingCall, deal := t.deal.setPartner none } bids
      (visited ++
        [{ t.recounted with phase := .awaitingKingCall, deal := t.deal.setPartner none }]) :=
  { auction := h.auctionOver closed
    won := h.won_taken taken
    five := fun _ => five
    phases := by
      rw [phasesOf_append, h.phases_shown phase]
      rfl
    quiet := quiet_append h.quiet rfl }

/-! ## Steps to the play -/

theorem Preparing.call (h : t.Preparing bids visited) (phase : t.phase = .awaitingKingCall)
    (taker : Seat) (card : Card) :
    (t.afterCall taker card).Preparing bids (visited ++ [t.afterCall taker card]) :=
  { auction := h.auction
    won := h.won
    five := fun hp => nomatch hp
    phases := by
      rw [phasesOf_append, h.phases, phase]
      show _ = Course.auction bids ++ Course.kingCall t.players
      rw [Course.kingCall, if_pos (h.five phase), List.append_assoc]
      rfl
    quiet := quiet_append h.quiet rfl }

theorem Preparing.askDiscard (h : t.Preparing bids visited) (phase : t.phase = .dogShown) :
    Preparing { t with phase := .awaitingDiscard } bids
      (visited ++ [{ t with phase := .awaitingDiscard }]) :=
  { h with
    five := fun hp => nomatch hp
    phases := by
      rw [phasesOf_append, h.phases, phase]
      simp [preparedUpTo]
    quiet := quiet_append h.quiet rfl }

/-- **The play begins with nobody asked.** -/
theorem playing_opened (t : Table) {opening : List Phase}
    (phases : phasesOf visited ++ [.dealStarting] = opening)
    (quiet : ∀ s ∈ visited, s.phase.beforePlay) :
    t.opened.Playing opening (visited ++ [t.opened]) t.openingLeader [] [] := by
  have hnone : ∀ p : Phase, p.beforePlay = false → p ≠ .dealStarting →
      seatsIn p (visited ++ [t.opened]) = [] := fun p hp hne => by
    rw [seatsIn_append_other (fun he => hne he.symm), seatsIn_eq_nil quiet hp]
  exact {
    turn := .starting rfl rfl rfl
    phases := by
      rw [phasesOf_append, ← phases]
      exact (List.append_nil _).symm
    answers := rfl
    asked := {
      leads := rfl
      handles := hnone .awaitingHandle rfl (by decide)
      flags := fun s => by
        rw [hnone .awaitingHandle rfl (by decide)]
        simp [opened]
      cards_first := fun _ => hnone .awaitingCard rfl (by decide)
      cards_later := fun later => absurd rfl later } }

theorem dogExchange_of_unowned {contract : Contract} (taken : contract.isTaken)
    (unowned : contract.dogOwner? = none) :
    Course.dogExchange contract = [.dogShown, .awaitingDiscard] := by
  revert taken unowned
  cases contract <;> decide

theorem dogExchange_of_owned {contract : Contract} {owner : Team}
    (owned : contract.dogOwner? = some owner) : Course.dogExchange contract = [] := by
  cases contract <;> first | rfl | cases owned

/-- **Settling the dog shows it, or begins the play.** -/
theorem Settled.followed (auction : AuctionOver t.players bids)
    (won : wonContract? bids = some t.deal.bid.contract)
    (phases : phasesOf visited = Course.auction bids ++ Course.kingCall t.players)
    (quiet : ∀ s ∈ visited, s.phase.beforePlay) (h : Settled t t') :
    t'.Followed bids (visited ++ [t']) := by
  cases h with
  | shown unowned =>
    show Preparing _ _ _
    exact {
      auction := auction
      won := won
      five := fun hp => nomatch hp
      phases := by
        rw [phasesOf_append, phases, List.append_assoc]
        rfl
      quiet := quiet_append quiet rfl }
  | unseen owned =>
    refine ⟨_, _, [], [], ⟨auction, _, won, rfl⟩, playing_opened _ ?_ quiet⟩
    rw [phases, Course.preparation, dogExchange_of_owned owned, List.append_nil, List.append_assoc]
    rfl

theorem Preparing.discard (h : t.Preparing bids visited) (phase : t.phase = .awaitingDiscard)
    (taken : t.deal.bid.contract.isTaken) (unowned : t.deal.bid.contract.dogOwner? = none)
    (taker : Seat) (cards : Cards) :
    (t.exchanged taker cards).opened.Followed bids
      (visited ++ [(t.exchanged taker cards).opened]) := by
  refine ⟨_, _, [], [], ⟨h.auction, _, h.won, rfl⟩, playing_opened _ ?_ h.quiet⟩
  rw [h.phases, phase, Course.preparation, dogExchange_of_unowned taken unowned]
  simp [preparedUpTo, exchanged, opened, note]

/-! ## Steps of the play -/

section Play

variable {opening : List Phase} {leader : Seat} {handles : List Bool} {pending : List Phase}

theorem Turn.noted (h : t.Turn pending) (seat : Seat) (deed : Deed) :
    (t.note seat deed).Turn pending := by
  cases h with
  | starting phase first begun => exact .starting phase first begun
  | handle phase first => exact .handle phase first
  | handleShown phase first => exact .handleShown phase first
  | firstCard phase first shown => exact .firstCard (t := t.note seat deed) phase first shown
  | card phase later => exact .card phase later
  | cardShown phase => exact .cardShown phase
  | won phase later => exact .won phase later
  | ended phase later => exact .ended phase later

/-- The turn in progress where the play goes on: the seat in turn has been asked for a handle, and
this is the first trick, or it has not been asked for anything. -/
theorem Turn.goesOn_cases (h : t.Turn pending) (phase : t.phase.goesOn) :
    (t.tricksDone = 0 ∧ ∃ shown : Bool,
      pending = .awaitingHandle :: if shown then [.handleShown] else []) ∨ pending = [] := by
  cases h with
  | handle _ first => exact Or.inl ⟨first, false, rfl⟩
  | handleShown _ first => exact Or.inl ⟨first, true, rfl⟩
  | firstCard hp | card hp | ended hp =>
    rw [hp] at phase
    cases phase
  | starting | cardShown | won => exact Or.inr rfl

/-- When everybody has played to the trick, nobody is being asked for anything. -/
theorem Turn.eq_nil_of_full (h : t.Turn pending) (hd : t.InPlay) (phase : t.phase.goesOn)
    (full : t.players ≤ t.position) : pending = [] := by
  cases h with
  | handle hp => exact absurd (hd.more (Or.inl hp)) (Nat.not_lt.mpr full)
  | handleShown hp => exact absurd (hd.more (Or.inr (Or.inl hp))) (Nat.not_lt.mpr full)
  | firstCard hp | card hp | ended hp =>
    rw [hp] at phase
    cases phase
  | starting | cardShown | won => rfl

/-- A step that does not ask anybody, and wins no trick. -/
theorem Asked.stay {k j : Nat} (h : t.Asked visited leader k j)
    (handle : t'.phase ≠ .awaitingHandle) (card : t'.phase ≠ .awaitingCard)
    (players : t'.players = t.players) (tricks : t'.tricksDone = t.tricksDone)
    (flags : t'.handleAsked = t.handleAsked) (leads : t'.deal.firstPlayer = t.deal.firstPlayer) :
    t'.Asked (visited ++ [t']) leader k j where
  leads := leads.trans h.leads
  handles := by
    rw [seatsIn_append_other handle, players]
    exact h.handles
  flags := fun s => by
    rw [seatsIn_append_other handle, flags]
    exact h.flags s
  cards_first := by
    rw [seatsIn_append_other card, players, tricks]
    exact h.cards_first
  cards_later := by
    rw [seatsIn_append_other card, players, tricks]
    exact h.cards_later

/-- The first trick is won when a whole round has been asked for a card. -/
theorem Asked.won {k j : Nat} (h : t.Asked visited leader k t.players) {deal : DealState}
    (leads : deal.firstPlayer = t.deal.firstPlayer) (winner : Seat) :
    (t.afterTrick deal winner).Asked (visited ++ [t.afterTrick deal winner]) leader k j where
  leads := leads.trans h.leads
  handles := (seatsIn_append_other (by nofun) visited).trans h.handles
  flags := fun s => by
    rw [seatsIn_append_other (t := t.afterTrick deal winner) (by nofun)]
    exact h.flags s
  cards_first := fun first => nomatch first
  cards_later := fun _ => by
    rw [seatsIn_append_other (t := t.afterTrick deal winner) (by nofun)]
    show leader.round t.players t.players <+: _
    by_cases first : t.tricksDone = 0
    · exact ⟨[], by rw [List.append_nil, h.cards_first first]⟩
    · exact h.cards_later first

theorem Asked.handle {k j : Nat} (h : t.Asked visited leader k j) (first : t.tricksDone = 0)
    (turn : t.current = leader.advance k t.players) (t' : Table)
    (ht : t' =
      { t with phase := .awaitingHandle, handleAsked := t.handleAsked.set t.current true }) :
    t'.Asked (visited ++ [t']) leader (k + 1) j := by
  have hasked : seatsIn .awaitingHandle (visited ++ [t']) =
      seatsIn .awaitingHandle visited ++ [t.current] := by
    rw [seatsIn_append (by rw [ht]), ht]
  subst ht
  exact {
    leads := h.leads
    handles := by rw [hasked, h.handles, turn, Seat.round_succ]
    flags := fun s => by
      rw [hasked, List.mem_append, List.mem_singleton, ← h.flags s, PerSeat.get_set]
      by_cases hst : s = t.current <;> simp [hst]
    cards_first := fun _ => by
      rw [seatsIn_append_other (by nofun)]
      exact h.cards_first first
    cards_later := fun later => absurd first later }

theorem Asked.card {k j : Nat} (h : t.Asked visited leader k j)
    (turn : t.tricksDone = 0 → t.current = leader.advance j t.players) (t' : Table)
    (ht : t' = { t with phase := .awaitingCard }) :
    t'.Asked (visited ++ [t']) leader k (j + 1) := by
  have hcards : seatsIn .awaitingCard (visited ++ [t']) =
      seatsIn .awaitingCard visited ++ [t.current] := by
    rw [seatsIn_append (by rw [ht]), ht]
  subst ht
  exact {
    leads := h.leads
    handles := by
      rw [seatsIn_append_other (by nofun)]
      exact h.handles
    flags := fun s => by
      rw [seatsIn_append_other (by nofun)]
      exact h.flags s
    cards_first := fun first => by rw [hcards, h.cards_first first, turn first, Seat.round_succ]
    cards_later := fun later => by
      rw [hcards]
      exact (h.cards_later later).trans (List.prefix_append _ _) }

namespace Playing

theorem current_eq (h : t.Playing opening visited leader handles pending) (hd : t.InPlay)
    (first : t.tricksDone = 0) : t.current = leader.advance t.position t.players := by
  obtain ⟨leader', r⟩ := hd.round
  have hleads := r.leads
  rw [first] at hleads
  cases h.asked.leads.symm.trans hleads
  exact r.current

/-- **In the first trick the seat in turn is marked as asked while it is, and not before.** -/
theorem asked_iff (h : t.Playing opening visited leader handles pending) (hs : t.Seated)
    (hd : t.InPlay) (first : t.tricksDone = 0) (more : t.position < t.players) :
    t.handleAsked.get t.current = true ↔ .awaitingHandle ∈ pending := by
  rw [h.asked.flags, h.asked.handles, h.answers, if_pos first, h.current_eq hd first]
  constructor
  · intro hmem
    by_contra hnone
    rw [List.count_eq_zero.mpr hnone, Nat.add_zero] at hmem
    exact Seat.advance_not_mem_round hs.supported more leader hmem
  · intro hsome
    refine List.mem_map.mpr ⟨t.position, List.mem_range.mpr ?_, rfl⟩
    exact Nat.lt_add_of_pos_right (List.count_pos_iff.mpr hsome)

theorem won (h : t.Playing opening visited leader handles pending) (hd : t.InPlay)
    (phase : t.phase.goesOn) (full : t.players ≤ t.position) {deal : DealState} {winner : Seat}
    (added : t.deal.addTrick t.trick = .ok (deal, winner)) :
    (t.afterTrick deal winner).Playing opening (visited ++ [t.afterTrick deal winner]) leader
      handles [] := by
  obtain rfl := h.turn.eq_nil_of_full hd phase full
  have hall : t.position = t.players := Nat.le_antisymm hd.position_le full
  have hasked := h.asked
  rw [hall] at hasked
  obtain ⟨_, _, _, _, rfl, _⟩ := DealState.addTrick_eq_ok.mp added
  exact {
    turn := .won rfl (Nat.succ_ne_zero _)
    phases := by
      rw [phasesOf_append, h.phases, hall, List.append_nil, List.append_nil, List.append_assoc]
      exact congrArg (opening ++ ·) Course.played_trick.symm
    answers := by
      have hlength := h.answers
      rw [hall, ite_self] at hlength
      exact hlength
    asked := hasked.won (t.deal.withTrick_firstPlayer _ t.trick) winner }

theorem askHandle (h : t.Playing opening visited leader handles []) (hd : t.InPlay)
    (first : t.tricksDone = 0) (t' : Table)
    (ht : t' =
      { t with phase := .awaitingHandle, handleAsked := t.handleAsked.set t.current true }) :
    t'.Playing opening (visited ++ [t']) leader handles [.awaitingHandle] := by
  have hlength := h.answers
  rw [if_pos first] at hlength
  have hasked := h.asked.handle first (hlength ▸ h.current_eq hd first) t' ht
  subst ht
  exact {
    turn := .handle rfl first
    phases := by
      rw [phasesOf_append, h.phases, List.append_nil, List.append_assoc]
    answers := h.answers
    asked := hasked }

theorem askCard (h : t.Playing opening visited leader handles pending) (hd : t.InPlay)
    (turn : Turn { t with phase := .awaitingCard } (pending ++ [.awaitingCard]))
    (uncarded : pending.count .awaitingCard = 0) (t' : Table)
    (ht : t' = { t with phase := .awaitingCard }) :
    t'.Playing opening (visited ++ [t']) leader handles (pending ++ [.awaitingCard]) := by
  have hbefore := h.asked
  rw [uncarded] at hbefore
  have hasked := hbefore.card (h.current_eq hd) t' ht
  subst ht
  exact {
    turn := turn
    phases := by
      rw [phasesOf_append, h.phases]
      simp only [List.append_assoc]
    answers := h.answers
    asked := by
      rw [List.count_append, List.count_append, uncarded]
      exact hasked }

/-- **Going on with the play asks the seat in turn for a handle once, and then for a card.** -/
theorem continued (h : t.Playing opening visited leader handles pending) (hs : t.Seated)
    (hd : t.InPlay) (phase : t.phase.goesOn) (c : Continued t t') :
    ∃ pending', t'.Playing opening (visited ++ [t']) leader handles pending' := by
  cases c with
  | won full added => exact ⟨_, h.won hd phase full added⟩
  | askHandle more first unasked =>
    have hnone : .awaitingHandle ∉ pending := fun hmem => by
      rw [(h.asked_iff hs hd first more).mpr hmem] at unasked
      cases unasked
    rcases h.turn.goesOn_cases phase with ⟨_, shown, rfl⟩ | rfl
    · exact absurd List.mem_cons_self hnone
    · exact ⟨_, h.askHandle hd first _ rfl⟩
  | askCard more asked =>
    rcases h.turn.goesOn_cases phase with ⟨first, shown, rfl⟩ | rfl
    · have turn := @Turn.firstCard { t with phase := .awaitingCard } rfl first shown
      refine ⟨_, h.askCard hd turn ?_ _ rfl⟩
      cases shown <;> rfl
    · -- Nobody is asked for a card in the first trick without having been asked for a handle.
      refine ⟨_, h.askCard hd (.card rfl fun first => ?_) rfl _ rfl⟩
      exact List.not_mem_nil ((h.asked_iff hs hd first more).mp (asked first))

theorem noted (h : t.Playing opening visited leader handles pending) (seat : Seat) (deed : Deed) :
    (t.note seat deed).Playing opening visited leader handles pending :=
  { h with
    turn := h.turn.noted seat deed
    asked := { h.asked with } }

theorem handle (h : t.Playing opening visited leader handles pending)
    (phase : t.phase = .awaitingHandle) (cards : Cards) :
    (t.afterHandle cards).Playing opening (visited ++ [t.afterHandle cards]) leader handles
      [.awaitingHandle, .handleShown] := by
  obtain ⟨first, rfl⟩ : t.tricksDone = 0 ∧ pending = [.awaitingHandle] := by
    cases h.turn with
    | handle _ first => exact ⟨first, rfl⟩
    | _ hp =>
      rw [phase] at hp
      cases hp
  obtain ⟨_, _, heq⟩ := t.deal.keepHandle_eq cards t.current
  have hleads := congrArg DealState.firstPlayer heq
  exact {
    turn := .handleShown rfl first
    phases := by
      rw [phasesOf_append, h.phases]
      simp only [List.append_assoc]
      rfl
    answers := h.answers
    asked := h.asked.stay (by nofun) (by nofun) rfl rfl rfl hleads }

/-- **A card ends the turn.** -/
theorem card (h : t.Playing opening visited leader handles pending)
    (phase : t.phase = .awaitingCard) (c : Card) : ∃ handles',
      (t.afterCard c).Playing opening (visited ++ [t.afterCard c]) leader handles' [] := by
  have hlength := h.answers
  have hasked := h.asked
  have hphase : (t.afterCard c).phase = .cardShown := rfl
  cases h.turn with
  | firstCard _ first shown =>
    rw [if_pos first] at hlength
    -- The answer of the seat is known now.
    refine ⟨handles ++ [shown], ?_⟩
    exact {
      turn := .cardShown rfl
      phases := by
        rw [phasesOf_append, h.phases]
        show _ = opening ++ (Course.played t.players (handles ++ [shown]) t.tricksDone
          (t.position + 1) ++ [])
        rw [first, Course.played, Course.played, List.flatMap_append, List.flatMap_singleton,
          Course.firstTurn]
        simp [afterCard]
      answers := by
        rw [List.length_append, hlength]
        exact (if_pos first).symm
      asked := by
        rw [List.length_append]
        cases shown <;>
          exact hasked.stay (by rw [hphase]; decide) (by rw [hphase]; decide) rfl rfl rfl rfl }
  | card _ later =>
    refine ⟨handles, ?_⟩
    obtain ⟨k, hk⟩ := Nat.exists_eq_succ_of_ne_zero later
    exact {
      turn := .cardShown rfl
      phases := by
        rw [phasesOf_append, h.phases]
        show _ = opening ++ (Course.played t.players handles t.tricksDone (t.position + 1) ++ [])
        rw [hk, Course.played, Course.played, Course.times_succ]
        simp [afterCard]
      answers := by
        rw [if_neg later] at hlength
        exact hlength.trans (if_neg later).symm
      asked := hasked.stay (by rw [hphase]; decide) (by rw [hphase]; decide) rfl rfl rfl rfl }
  | _ hp =>
    rw [phase] at hp
    cases hp

theorem counted (h : t.Playing opening visited leader handles pending)
    (phase : t.phase = .trickEnded) :
    t.counted.Playing opening (visited ++ [t.counted]) leader handles [.dealEnded] := by
  obtain ⟨later, rfl⟩ : t.tricksDone ≠ 0 ∧ pending = [] := by
    cases h.turn with
    | won _ later => exact ⟨later, rfl⟩
    | _ hp =>
      rw [phase] at hp
      cases hp
  exact {
    turn := .ended rfl later
    phases := by
      rw [phasesOf_append, h.phases, List.append_nil, List.append_assoc]
      rfl
    answers := h.answers
    asked := h.asked.stay (by nofun) (by nofun) rfl rfl rfl rfl }

end Playing

theorem Continued.followed (hs : t.Seated) (hd : t.InPlay) (phase : t.phase.goesOn)
    (hopening : Opening t.players bids opening)
    (h : t.Playing opening visited leader handles pending) (c : Continued t t') :
    t'.Followed bids (visited ++ [t']) := by
  obtain ⟨pending', h'⟩ := h.continued hs hd phase c
  cases c <;> exact ⟨_, _, _, _, hopening, h'⟩

end Play

/-! ## Every step -/

theorem Step.players {b : Option Announcement} (step : Step t b t') : t'.players = t.players := by
  cases step with
  | closeAuction _ _ _ _ settled | closeCall _ settled => cases settled <;> rfl
  | decline _ continued | goOn _ continued | nextTrick _ _ continued => cases continued <;> rfl
  | _ => rfl

/-- **Every step goes on with the course.** -/
theorem Step.followed (hs : t.Sound) (h : t.Followed bids visited) {b : Option Announcement}
    (step : Step t b t') : t'.Followed (announced bids b) (visited ++ [t']) := by
  have hshown : t.phase = .cardsDealt ∨ t.phase = .bidShown → t.Bidding bids visited :=
    fun phase => h.bidding (by rcases phase with hp | hp <;> simp [hp])
  have hplay : t.phase.goesOn → Continued t t' → t'.Followed bids (visited ++ [t']) :=
    fun phase continued => by
      have during := Phase.duringPlay_of_goesOn phase
      obtain ⟨opening, leader, handles, pending, hopening, hp⟩ := h.playing during
      exact continued.followed hs.toSeated (hs.during during) phase hopening hp
  cases step with
  | askBid phase more => exact (hshown phase).askBid phase more
  | bid phase recorded => exact (h.bidding (Or.inr (Or.inl phase))).bid phase recorded
  | passOut phase closed untaken => exact (hshown phase).passOut phase closed untaken
  | askCall phase closed taken five => exact (hshown phase).askCall phase closed taken five
  | call phase taker card => exact (h.preparing (Or.inl phase)).call phase taker card
  | closeAuction phase closed taken notFive settled =>
    have hb := hshown phase
    refine Settled.followed (t := t.recounted) (hb.auctionOver closed) (hb.won_taken taken) ?_
      hb.quiet settled
    rw [hb.phases_shown phase]
    show _ = Course.auction bids ++ Course.kingCall t.players
    rw [Course.kingCall, if_neg notFive, List.append_nil]
  | closeCall phase settled =>
    have hp := h.preparing (Or.inr (Or.inl phase))
    refine settled.followed hp.auction hp.won ?_ hp.quiet
    rw [hp.phases, phase]
    rfl
  | askDiscard phase => exact (h.preparing (Or.inr (Or.inr (Or.inl phase)))).askDiscard phase
  | discard phase taker cards =>
    have hb := hs.before (by rw [phase]; rfl)
    exact (h.preparing (Or.inr (Or.inr (Or.inr phase)))).discard phase
      (hb.taken (by simp [phase])) (hb.unowned (by simp [phase])) taker cards
  | handle phase cards =>
    obtain ⟨opening, leader, handles, pending, hopening, hp⟩ := h.playing (by rw [phase]; rfl)
    exact ⟨_, _, _, _, hopening, hp.handle phase cards⟩
  | decline phase continued =>
    have during : t.phase.duringPlay := by rw [phase]; rfl
    obtain ⟨opening, leader, handles, pending, hopening, hp⟩ := h.playing during
    -- The refusal is noted in the history, and the play goes on from there.
    have hd : (t.note t.current .noHandle).InPlay :=
      (hs.during during).noted (playedNow_note t t.current .noHandle)
    have hseated : (t.note t.current .noHandle).Seated :=
      ⟨hs.supported, hs.deal_players, hs.hands_players⟩
    have hgo : t.phase.goesOn := by rw [phase]; rfl
    exact continued.followed hseated hd hgo hopening (hp.noted t.current .noHandle)
  | card phase c =>
    obtain ⟨opening, leader, handles, pending, hopening, hp⟩ := h.playing (by rw [phase]; rfl)
    obtain ⟨handles', hp'⟩ := hp.card phase c
    exact ⟨_, _, _, _, hopening, hp'⟩
  | goOn phase continued =>
    exact hplay (by rcases phase with hp | hp | hp <;> rw [hp] <;> rfl) continued
  | nextTrick phase unfinished continued => exact hplay (by rw [phase]; rfl) continued
  | finish phase played =>
    obtain ⟨opening, leader, handles, pending, hopening, hp⟩ := h.playing (by rw [phase]; rfl)
    exact ⟨_, _, _, _, hopening, hp.counted phase⟩

end FrenchTarot.Table
