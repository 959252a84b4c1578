import FrenchTarot.Proofs.Table.Following

/-!
# The runs of a deal

A run starts where the cards have been dealt and goes on until the deal is over, with any requests
in any order, granted or refused.  Everything that was seen in a run is followed (`Run.followed`),
and so it is the beginning of a course (`Run.onCourse`): what is left of the auction can be passed,
and the seats that are still to be asked for a handle may answer as they like.
-/

namespace FrenchTarot.Table

/-- A run of a deal with the bids that were granted and the tables that were seen.  A request that
is refused is not seen. -/
inductive Run (start : Table) : List Announcement → List Table → Table → Prop where
  | start : Run start [] [start] start
  | granted {bids : List Announcement} {visited : List Table} {t t' : Table}
      {b : Option Announcement} (before : Run start bids visited t)
      (going : t.phase.endsDeal = false) (r : Request) (files : Files)
      (ok : (r.perform files).run t = .ok b t') :
      Run start (announced bids b) (visited ++ [t']) t'
  | refused {bids : List Announcement} {visited : List Table} {t t' : Table} {e : Refusal}
      (before : Run start bids visited t) (going : t.phase.endsDeal = false) (r : Request)
      (files : Files) (error : (r.perform files).run t = .error e t') : Run start bids visited t'

variable {t t' : Table} {bids : List Announcement} {visited : List Table}

/-! ## The beginning of a course -/

/-- **An auction goes on with passes, as far as the course is concerned.** -/
theorem Bidding.course (h : t.Bidding bids visited) : ∃ c : Course, c.Valid t.players
    ∧ bids <+: c.bids ∧ phasesOf visited <+: c.phases t.players := by
  by_cases going : t.AuctionOpen
  · obtain ⟨more, hopen⟩ := going
    have hle : bids.length ≤ t.players := h.spoken ▸ h.position_le
    refine ⟨⟨_, List.replicate t.players false⟩,
      ⟨AuctionOver.padded hle (h.closed.trans hopen), List.length_replicate⟩,
      List.prefix_append _ _, ?_⟩
    refine List.IsPrefix.trans ?_ (Course.auction_isPrefix _ _)
    rw [h.phases, Course.auction, Course.auction, List.length_append, List.length_replicate,
      Nat.add_sub_cancel' hle]
    -- The bid that is being asked for is the beginning of one more piece.
    have hpiece : (if t.phase = .awaitingBid then [Phase.awaitingBid] else []) <+:
        [.awaitingBid, .bidShown] := by
      split
      · exact List.prefix_append [Phase.awaitingBid] [.bidShown]
      · exact List.nil_prefix
    have hnext := Course.times_isPrefix (h.spoken ▸ more : bids.length + 1 ≤ t.players)
      [.awaitingBid, .bidShown]
    rw [Course.times_succ] at hnext
    rw [List.cons_append]
    exact List.prefix_cons_inj _ |>.mpr
      (((List.prefix_append_right_inj _).mpr hpiece).trans hnext)
  · refine ⟨⟨bids, List.replicate t.players false⟩, ⟨h.auctionOver going, List.length_replicate⟩,
      List.prefix_rfl, ?_⟩
    rw [h.phases, if_neg fun hp => going (h.going hp), List.append_nil]
    exact Course.auction_isPrefix ⟨bids, _⟩ _

theorem PassedOut.course (h : t.PassedOut bids visited) : ∃ c : Course, c.Valid t.players
    ∧ bids = c.bids ∧ phasesOf visited = c.phases t.players := by
  refine ⟨⟨bids, List.replicate t.players false⟩, ⟨h.auction, List.length_replicate⟩, rfl, ?_⟩
  rw [h.phases, Course.phases, h.won]

theorem preparedUpTo_isPrefix {n : Nat} {contract : Contract} {phase : Phase}
    (five : phase = .awaitingKingCall → n = 5)
    (exchange : phase = .dogShown ∨ phase = .awaitingDiscard →
      Course.dogExchange contract = [.dogShown, .awaitingDiscard]) :
    preparedUpTo n phase <+: Course.preparation n contract := by
  rw [Course.preparation, List.append_assoc]
  unfold preparedUpTo
  split
  · rw [Course.kingCall, if_pos (five rfl)]
    exact List.prefix_append [Phase.awaitingKingCall] _
  · rw [exchange (Or.inl rfl)]
    exact (List.prefix_append_right_inj _).mpr (List.prefix_append [Phase.dogShown] _)
  · rw [exchange (Or.inr rfl)]
    exact (List.prefix_append_right_inj _).mpr
      (List.prefix_append [Phase.dogShown, .awaitingDiscard] _)
  · exact List.prefix_append _ _

theorem Preparing.course (h : t.Preparing bids visited)
    (exchange : t.phase = .dogShown ∨ t.phase = .awaitingDiscard →
      Course.dogExchange t.deal.bid.contract = [.dogShown, .awaitingDiscard]) :
    ∃ c : Course, c.Valid t.players ∧ bids = c.bids ∧ phasesOf visited <+: c.phases t.players := by
  refine ⟨⟨bids, List.replicate t.players false⟩, ⟨h.auction, List.length_replicate⟩, rfl, ?_⟩
  rw [h.phases, Course.phases, h.won]
  refine (List.prefix_append_right_inj _).mpr ?_
  dsimp only
  simp only [List.append_assoc]
  exact (preparedUpTo_isPrefix h.five exchange).trans (List.prefix_append _ _)

section Play

variable {opening : List Phase} {leader : Seat} {handles : List Bool} {pending : List Phase}

/-- The turn in progress is the beginning of one. -/
theorem Turn.prefix_firstTurn (h : t.Turn pending) (first : t.tricksDone = 0) :
    ∃ shown, pending <+: Course.firstTurn shown := by
  cases h with
  | starting | cardShown => exact ⟨false, List.nil_prefix⟩
  | handle => exact ⟨false, List.prefix_append [Phase.awaitingHandle] _⟩
  | handleShown => exact ⟨true, List.prefix_append [Phase.awaitingHandle, .handleShown] _⟩
  | firstCard _ _ shown =>
    refine ⟨shown, ?_⟩
    rw [Course.firstTurn, List.cons_append, List.cons_append]
    exact (List.prefix_cons_inj _).mpr
      ((List.prefix_append_right_inj _).mpr (List.prefix_append [Phase.awaitingCard] _))
  | card _ later | won _ later | ended _ later => exact absurd first later

/-- The trick in progress is the beginning of one, or the last trick has been won. -/
theorem Turn.prefix_trick (h : t.Turn pending) (hd : t.InPlay) (later : t.tricksDone ≠ 0)
    (going : t.phase ≠ .dealEnded) :
    Course.times t.position [.awaitingCard, .cardShown] ++ pending <+: Course.trick t.players := by
  rw [Course.trick]
  cases h with
  | card phase =>
    have more := hd.more (Or.inr (Or.inr phase))
    have hnext := Course.times_isPrefix (Nat.succ_le_of_lt more) [Phase.awaitingCard, .cardShown]
    rw [Course.times_succ] at hnext
    refine List.IsPrefix.trans ?_ (hnext.trans (List.prefix_append _ _))
    exact (List.prefix_append_right_inj _).mpr (List.prefix_append [Phase.awaitingCard] _)
  | cardShown | won =>
    rw [List.append_nil]
    exact (Course.times_isPrefix hd.position_le _).trans (List.prefix_append _ _)
  | starting _ first | handle _ first | handleShown _ first | firstCard _ first =>
    exact absurd first later
  | ended phase => exact absurd phase going

namespace Playing

/-- **In the first trick the seats that are still to be asked may answer as they like.** -/
theorem prefix_first (h : t.Playing opening visited leader handles pending) (hd : t.InPlay)
    (first : t.tricksDone = 0) : ∃ rest : List Bool, (handles ++ rest).length = t.players
      ∧ Course.played t.players handles t.tricksDone t.position ++ pending <+:
        Course.firstTrick (handles ++ rest) := by
  have hlength := h.answers
  rw [if_pos first] at hlength
  rw [first, Course.played]
  by_cases more : t.position < t.players
  · obtain ⟨shown, hshown⟩ := h.turn.prefix_firstTurn first
    refine ⟨shown :: List.replicate (t.players - t.position - 1) false, ?_, ?_⟩
    · rw [List.length_append, hlength, List.length_cons, List.length_replicate]
      omega
    · rw [Course.firstTrick, List.flatMap_append, List.flatMap_cons, List.append_assoc]
      refine (List.prefix_append_right_inj _).mpr (hshown.trans ?_)
      rw [List.append_assoc]
      exact List.prefix_append _ _
  · -- Everybody has answered, and nobody is asked any more.
    have hle := hd.position_le
    have hnil : pending = [] := by
      cases h.turn with
      | handle phase => exact absurd (hd.more (Or.inl phase)) more
      | handleShown phase => exact absurd (hd.more (Or.inr (Or.inl phase))) more
      | firstCard phase => exact absurd (hd.more (Or.inr (Or.inr phase))) more
      | starting | cardShown => rfl
      | card _ later | won _ later | ended _ later => exact absurd first later
    refine ⟨[], ?_, ?_⟩
    · rw [List.append_nil, hlength]
      omega
    · rw [hnil, List.append_nil, List.append_nil]
      exact List.prefix_append _ _

/-- **After the first trick the others follow, as many as there are cards in a hand.** -/
theorem prefix_later (h : t.Playing opening visited leader handles pending) (hs : t.Seated)
    (hd : t.InPlay) (later : t.tricksDone ≠ 0) (going : t.phase ≠ .dealEnded) :
    Course.played t.players handles t.tricksDone t.position ++ pending <+:
      Course.firstTrick handles
        ++ Course.times (Rules.handSize t.players - 1) (Course.trick t.players) := by
  obtain ⟨k, hk⟩ := Nat.exists_eq_succ_of_ne_zero later
  rw [hk, Course.played, List.append_assoc, List.append_assoc]
  refine (List.prefix_append_right_inj _).mpr ?_
  by_cases last : t.tricksDone < Rules.handSize t.players
  · have hnext := Course.times_isPrefix (by omega : k + 1 ≤ Rules.handSize t.players - 1)
      (Course.trick t.players)
    rw [Course.times_succ] at hnext
    exact ((List.prefix_append_right_inj _).mpr (h.turn.prefix_trick hd later going)).trans hnext
  · -- The last trick has been won, and the deal is about to be counted.
    have hended : t.phase = .trickEnded := by
      by_contra hp
      exact last (hd.unfinished hp going)
    have hnil : pending = [] := by
      cases h.turn with
      | won | cardShown | starting => rfl
      | _ hp =>
        rw [hended] at hp
        cases hp
    have hle := hd.played.length_le
    rw [hd.tricks_length, hs.deal_players] at hle
    rw [hnil, hd.between (Or.inl hended), Course.times_zero, List.append_nil, List.append_nil]
    exact Course.times_isPrefix (by omega) _

theorem course (h : t.Playing opening visited leader handles pending) (hs : t.Seated)
    (hd : t.InPlay) (hopening : Opening t.players bids opening) (going : t.phase ≠ .dealEnded) :
    ∃ c : Course, c.Valid t.players ∧ bids = c.bids ∧ phasesOf visited <+: c.phases t.players := by
  obtain ⟨contract, hwon, rfl⟩ := hopening.phases
  -- What is left is one list of answers for which the tricks so far are the beginning of all.
  obtain ⟨rest, hlength, hprefix⟩ : ∃ rest : List Bool, (handles ++ rest).length = t.players
      ∧ Course.played t.players handles t.tricksDone t.position ++ pending <+:
        Course.firstTrick (handles ++ rest)
          ++ Course.times (Rules.handSize t.players - 1) (Course.trick t.players) := by
    by_cases first : t.tricksDone = 0
    · obtain ⟨rest, hlength, hprefix⟩ := h.prefix_first hd first
      exact ⟨rest, hlength, hprefix.trans (List.prefix_append _ _)⟩
    · refine ⟨[], ?_, ?_⟩
      · rw [List.append_nil, h.answers, if_neg first]
      · rw [List.append_nil]
        exact h.prefix_later hs hd first going
  refine ⟨⟨bids, handles ++ rest⟩, ⟨hopening.auction, hlength⟩, rfl, ?_⟩
  rw [h.phases, Course.phases, hwon, List.append_assoc]
  refine (List.prefix_append_right_inj _).mpr ?_
  dsimp only
  rw [List.append_assoc, List.append_assoc]
  refine (List.prefix_append_right_inj _).mpr ?_
  rw [← List.append_assoc]
  exact hprefix.trans (List.prefix_append _ _)

/-- **At the end of the deal the course is complete.** -/
theorem course_ended (h : t.Playing opening visited leader handles pending) (hd : t.InPlay)
    (hopening : Opening t.players bids opening) (ended : t.phase = .dealEnded) :
    ∃ c : Course, c.Valid t.players ∧ bids = c.bids ∧ phasesOf visited = c.phases t.players := by
  obtain ⟨contract, hwon, rfl⟩ := hopening.phases
  obtain ⟨later, rfl⟩ : t.tricksDone ≠ 0 ∧ pending = [.dealEnded] := by
    cases h.turn with
    | ended _ later => exact ⟨later, rfl⟩
    | _ hp =>
      rw [ended] at hp
      cases hp
  obtain ⟨k, hk⟩ := Nat.exists_eq_succ_of_ne_zero later
  have hlength := h.answers
  rw [if_neg later] at hlength
  have hall : Rules.handSize t.players - 1 = k := by
    rw [← (hd.ended ended).1, hk]
    rfl
  refine ⟨⟨bids, handles⟩, ⟨hopening.auction, hlength⟩, rfl, ?_⟩
  rw [h.phases, Course.phases, hwon, hk, Course.played, hd.between (Or.inr ended), hall,
    Course.times_zero, List.append_nil, List.append_assoc]
  dsimp only
  simp only [List.append_assoc]

end Playing

end Play

/-- **Wherever a table is, what was gone through is the beginning of a course, and at the end of the
deal it is all of it.** -/
theorem Followed.course (hs : t.Sound) (h : t.Followed bids visited) : ∃ c : Course,
    c.Valid t.players ∧ bids <+: c.bids ∧ phasesOf visited <+: c.phases t.players
      ∧ (t.phase.endsDeal → bids = c.bids ∧ phasesOf visited = c.phases t.players) := by
  cases hp : t.phase with
  | cardsDealt | awaitingBid | bidShown =>
    obtain ⟨c, hvalid, hbids, hphases⟩ := (h.bidding (by simp [hp])).course
    exact ⟨c, hvalid, hbids, hphases, nofun⟩
  | allPassed =>
    have hpassed : t.PassedOut bids visited := by
      unfold Followed at h
      rwa [hp] at h
    obtain ⟨c, hvalid, hbids, hphases⟩ := hpassed.course
    exact ⟨c, hvalid, hbids ▸ List.prefix_rfl, hphases ▸ List.prefix_rfl,
      fun _ => ⟨hbids, hphases⟩⟩
  | awaitingKingCall | kingCallShown | dogShown | awaitingDiscard =>
    have hb := hs.before (by rw [hp]; rfl)
    obtain ⟨c, hvalid, hbids, hphases⟩ := (h.preparing (by simp [hp])).course fun hdog =>
      dogExchange_of_unowned (hb.taken (by simp [hp])) (hb.unowned hdog)
    exact ⟨c, hvalid, hbids ▸ List.prefix_rfl, hphases, nofun⟩
  | dealStarting | awaitingHandle | handleShown | awaitingCard | cardShown | trickEnded =>
    have during : t.phase.duringPlay := by rw [hp]; rfl
    obtain ⟨opening, leader, handles, pending, hopening, hplay⟩ := h.playing during
    obtain ⟨c, hvalid, hbids, hphases⟩ :=
      hplay.course hs.toSeated (hs.during during) hopening (by rw [hp]; decide)
    exact ⟨c, hvalid, hbids ▸ List.prefix_rfl, hphases, nofun⟩
  | dealEnded =>
    have during : t.phase.duringPlay := by rw [hp]; rfl
    obtain ⟨opening, leader, handles, pending, hopening, hplay⟩ := h.playing during
    obtain ⟨c, hvalid, hbids, hphases⟩ := hplay.course_ended (hs.during during) hopening hp
    exact ⟨c, hvalid, hbids ▸ List.prefix_rfl, hphases ▸ List.prefix_rfl,
      fun _ => ⟨hbids, hphases⟩⟩
  | stopped | awaitingPlayers | awaitingReady =>
    have hdeal := h.inDeal
    rw [hp] at hdeal
    cases hdeal

/-! ## Who is asked -/

section Play

variable {opening : List Phase} {leader : Seat} {handles : List Bool} {pending : List Phase}

/-- In the first trick a seat is asked for a handle before it is asked for a card. -/
theorem Turn.count_le (h : t.Turn pending) (hd : t.InPlay) (first : t.tricksDone = 0) :
    pending.count .awaitingCard ≤ pending.count .awaitingHandle
      ∧ t.position + pending.count .awaitingHandle ≤ t.players := by
  cases h with
  | starting | cardShown => exact ⟨Nat.le_refl _, hd.position_le⟩
  | handle phase => exact ⟨Nat.zero_le _, hd.more (Or.inl phase)⟩
  | handleShown phase => exact ⟨Nat.zero_le _, hd.more (Or.inr (Or.inl phase))⟩
  | firstCard phase _ shown =>
    have more := hd.more (Or.inr (Or.inr phase))
    cases shown <;> exact ⟨Nat.le_refl _, more⟩
  | card _ later | won _ later | ended _ later => exact absurd first later

/-- **The seats that have been asked for a handle are a round, and the first cards are asked of the
same seats.** -/
theorem Playing.asked_round (h : t.Playing opening visited leader handles pending)
    (hd : t.InPlay) : ∃ k ≤ t.players,
      seatsIn .awaitingHandle visited = leader.round k t.players
        ∧ (seatsIn .awaitingCard visited).take t.players <+: leader.round k t.players
        ∧ (t.tricksDone ≠ 0 → k = t.players) := by
  have hlength := h.answers
  refine ⟨handles.length + pending.count .awaitingHandle, ?_⟩
  by_cases first : t.tricksDone = 0
  · rw [if_pos first] at hlength
    obtain ⟨hcards, hle⟩ := h.turn.count_le hd first
    refine ⟨hlength ▸ hle, h.asked.handles, ?_, fun later => absurd first later⟩
    rw [h.asked.cards_first first]
    exact (List.take_prefix _ _).trans (Seat.round_isPrefix (by omega) leader t.players)
  · rw [if_neg first] at hlength
    have hnone : pending.count .awaitingHandle = 0 := by
      cases h.turn with
      | starting _ zero | handle _ zero | handleShown _ zero | firstCard _ zero =>
        exact absurd zero first
      | card | cardShown | won | ended => rfl
    rw [h.asked.handles, hnone, hlength, Nat.add_zero]
    refine ⟨Nat.le_refl _, rfl, ?_, fun _ => rfl⟩
    have hcards := List.prefix_iff_eq_take.mp (h.asked.cards_later first)
    rw [Seat.length_round] at hcards
    exact ⟨[], by rw [List.append_nil, ← hcards]⟩

end Play

/-! ## Whole runs -/

/-- What the bids that were granted and the tables that were seen on the way to `t` have to do with
the course of a deal at a table of `n` players. -/
structure OnCourse (n : Nat) (t : Table) (bids : List Announcement) (visited : List Table) :
    Prop where
  /-- The phases are the beginning of a course, and all of it at the end of the deal. -/
  course : ∃ c : Course, c.Valid n ∧ bids <+: c.bids ∧ phasesOf visited <+: c.phases n
    ∧ (t.phase.endsDeal → bids = c.bids ∧ phasesOf visited = c.phases n)
  /-- No seat is asked for a handle twice. -/
  asked_once : (seatsIn .awaitingHandle visited).Nodup
  /-- The first cards are asked of the seats that were asked for a handle, one after the other. -/
  first_cards : (seatsIn .awaitingCard visited).take n <+: seatsIn .awaitingHandle visited
  /-- In a deal that was played every seat was asked. -/
  asked_all : t.phase = .dealEnded → (seatsIn .awaitingHandle visited).Perm (Seat.taken n)
  /-- Such a deal has as many tricks as a hand has cards, with a card of each seat. -/
  finished : t.phase = .dealEnded → t.deal.tricks.length = Rules.handSize n
    ∧ ∀ p ∈ t.deal.tricks, p.cards.length = n

theorem Followed.keepsCourse (hs : t.Sound) (h : t.Followed bids visited) :
    OnCourse t.players t bids visited := by
  have hcourse := h.course hs
  rcases Bool.or_eq_true_iff.mp h.inDeal with before | during
  · -- Nobody has been asked yet.
    have quiet : ∀ s ∈ visited, s.phase.beforePlay := by
      unfold Followed at h
      cases hp : t.phase <;> rw [hp] at h before <;> first | exact h.quiet | cases before
    have hended : t.phase ≠ .dealEnded := fun hp => by
      rw [hp] at before
      cases before
    exact {
      course := hcourse
      asked_once := by
        rw [seatsIn_eq_nil quiet rfl]
        exact List.nodup_nil
      first_cards := by
        have hcards : seatsIn .awaitingCard visited = [] := seatsIn_eq_nil quiet rfl
        rw [hcards, List.take_nil]
        exact List.nil_prefix
      asked_all := fun hp => absurd hp hended
      finished := fun hp => absurd hp hended }
  · obtain ⟨opening, leader, handles, pending, hopening, hplay⟩ := h.playing during
    have hd := hs.during during
    obtain ⟨k, hk, hasked, hcards, hall⟩ := hplay.asked_round hd
    exact {
      course := hcourse
      asked_once := by
        rw [hasked]
        exact Seat.nodup_round hs.supported hk leader
      first_cards := by
        rw [hasked]
        exact hcards
      asked_all := fun ended => by
        have later : t.tricksDone ≠ 0 := by
          rw [(hd.ended ended).1]
          exact Nat.ne_of_gt (Rules.handSize_pos hs.supported)
        rw [hasked, hall later]
        exact Seat.round_perm_taken hs.supported leader
      finished := fun ended => by
        refine ⟨hd.tricks_length.trans (hd.ended ended).1, fun p hp => ?_⟩
        rw [hd.played.length_cards p hp, hs.deal_players] }

/-- A deal begins with a count of nobody, and with no bid. -/
theorem Reachable.fresh (h : Reachable t) (phase : t.phase = .cardsDealt) :
    t.position = 0 ∧ t.deal.bid = .none := by
  refine h.keep (P := fun t => t.phase = .cardsDealt → t.position = 0 ∧ t.deal.bid = .none)
    (fun _ => nofun) (fun t t' _ hk hm => ?_) phase
  cases hm with
  | chooseDealer => exact hk
  | chooseDistribution => exact hk
  | deal =>
    intro _
    unfold place
    split <;> exact ⟨rfl, rfl⟩
  | decline phase => exact hk
  | _ => exact nofun

theorem Reachable.bidding (h : Reachable t) (phase : t.phase = .cardsDealt) :
    t.Bidding [] [t] := by
  obtain ⟨hposition, hbid⟩ := h.fresh phase
  exact {
    spoken := hposition.symm
    position_le := by
      rw [hposition]
      exact Nat.zero_le _
    unclosed := nofun
    closed := by
      rw [hbid]
      rfl
    won := by
      rw [hbid]
      rfl
    going := fun hp => nomatch phase.symm.trans hp
    phases := by
      rw [if_neg (by rw [phase]; decide), phasesOf, List.map_singleton, phase]
      rfl
    quiet := fun s hs => by
      rw [List.mem_singleton.mp hs, phase]
      rfl }

/-- **Every step of a run goes on with the course.** -/
theorem Run.followed {start : Table} (h : Reachable start) (phase : start.phase = .cardsDealt)
    (run : Run start bids visited t) :
    Reachable t ∧ t.players = start.players ∧ t.Followed bids visited := by
  induction run with
  | start =>
    refine ⟨h, rfl, ?_⟩
    unfold Followed
    rw [phase]
    exact h.bidding phase
  | granted _ going r files ok ih =>
    obtain ⟨hr, hn, hf⟩ := ih
    have step := Request.step hf.inDeal going ok
    exact ⟨hr.call files r.toCall (Request.after?_of_ok ok), step.players.trans hn,
      step.followed hr.sound hf⟩
  | refused _ _ r files error ih =>
    obtain ⟨hr, hn, hf⟩ := ih
    have hsame := Request.plays hr.sound hf.inDeal r files
    rw [error] at hsame
    cases hsame
    exact ⟨hr, hn, hf⟩

/-- **From the cards being dealt to the end of the deal a table keeps to the course of a deal.** -/
theorem Run.onCourse {start : Table} (h : Reachable start) (phase : start.phase = .cardsDealt)
    (run : Run start bids visited t) : OnCourse start.players t bids visited := by
  obtain ⟨hr, hn, hf⟩ := run.followed h phase
  rw [← hn]
  exact hf.keepsCourse hr.sound

/-! ## A whole deal -/

theorem Request.after?_getD_of_error {r : Request} {files : Files} {e : Refusal}
    (error : (r.perform files).run t = .error e t') :
    (r.toCall.after? files t).getD t = t' ∨ (r.toCall.after? files t).getD t = t := by
  cases r <;> rw [perform, map_eq_error] at error <;>
    · rw [toCall, Call.after?, error, answered]
      split
      · exact Or.inr rfl
      · exact Or.inl rfl

/-- A request goes on with a run, whether it is granted or refused. -/
theorem Run.request {start : Table} (run : Run start bids visited t)
    (going : t.phase.endsDeal = false) (r : Request) (files : Files) :
    ∃ bids' visited', Run start bids' visited' ((r.toCall.after? files t).getD t) := by
  cases hr : (r.perform files).run t with
  | ok b t' =>
    rw [Request.after?_of_ok hr]
    exact ⟨_, _, run.granted going r files hr⟩
  | error e t' =>
    rcases Request.after?_getD_of_error hr with hsame | hsame <;> rw [hsame]
    · exact ⟨_, _, run.refused going r files hr⟩
    · exact ⟨_, _, run⟩

theorem Run.playOut {start : Table} (run : Run start bids visited t) {count : Nat}
    (going : t.goesOnFor count) : ∃ bids' visited', Run start bids' visited' (t.playOut count) := by
  induction count generalizing t bids visited with
  | zero => exact ⟨_, _, run⟩
  | succ count ih =>
    obtain ⟨hnow, hnext⟩ := Bool.and_eq_true_iff.mp going
    have husual : ∃ bids' visited', Run start bids' visited'
        ((Call.after? (fun _ => none) t (.usual t)).getD t) := by
      unfold Call.usual
      split
      · exact run.request (by simpa using hnow) (.apply _ _) _
      · exact run.request (by simpa using hnow) .acknowledge _
    obtain ⟨bids', visited', run'⟩ := husual
    exact ih run' hnext

/-- A deal that is played from the first bid to the last trick. -/
theorem trialEnd_onCourse : ∃ bids visited, Run trialDeal bids visited trialEnd
    ∧ trialEnd.phase = .dealEnded ∧ OnCourse trialDeal.players trialEnd bids visited := by
  obtain ⟨phase, hfirst, _, hrest, ended⟩ := trial_played
  obtain ⟨_, _, run⟩ := (Run.start : Run trialDeal [] [trialDeal] trialDeal).playOut hfirst
  obtain ⟨bids, visited, run⟩ := run.playOut hrest
  exact ⟨bids, visited, run, ended, run.onCourse trialDeal_reachable phase⟩

end FrenchTarot.Table
