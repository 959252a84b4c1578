import FrenchTarot.Proofs.Table.Sound

/-!
# What the calls do

One equation for each call on a table: which checks it makes, in which order, how it is refused, and
which table it leads to when it is granted.  From the equations follows what all calls have in
common (`Plays`): at a sound table a call either is refused and changes nothing, or it makes moves.
Dealing is the exception.  It clears the table before it draws, and it does not come to an end
when no shuffle can be played.

The generators of deals stay closed terms throughout.  Unfolding them over the deck would carry out
the shuffle.
-/

namespace FrenchTarot.Table

variable {ε α : Type}

/-! ## The checks -/

theorem get_bind_run (x : Table → TableM α) (t : Table) : (get >>= x).run t = (x t).run t := rfl

theorem set_bind_run (t' : Table) (x : PUnit → TableM α) (t : Table) :
    (set t' >>= x).run t = (x ⟨⟩).run t' := rfl

theorem expectPhase_bind_run (expected : Phase) (x : Unit → TableM α) (t : Table) :
    (expectPhase expected >>= x).run t =
      if t.phase = expected then (x ()).run t else .error (.wrongPhase expected t.phase) t := by
  unfold expectPhase
  rw [bind_assoc, get_bind_run]
  by_cases h : t.phase = expected
  · rw [if_pos h, if_neg (fun hne => hne h)]
    rfl
  · rw [if_neg h, if_pos h]
    rfl

theorem expectSeat_bind_run (expected seat : Seat) (x : Unit → TableM α) (t : Table) :
    (expectSeat expected seat >>= x).run t =
      if expected = seat then (x ()).run t else .error (.wrongSeat expected seat) t := by
  unfold expectSeat
  by_cases h : expected = seat
  · rw [if_pos h, if_neg (fun hne => hne h)]
    rfl
  · rw [if_neg h, if_pos h]
    rfl

theorem expectTaker_bind_run (x : Seat → TableM α) (t : Table) :
    (expectTaker >>= x).run t =
      match t.deal.bid.taker with
      | some taker => (x taker).run t
      | none => .error .noTaker t := by
  unfold expectTaker
  rw [bind_assoc, get_bind_run]
  cases t.deal.bid.taker <;> rfl

/-- What is decided has to pass a test. -/
theorem expect_run (test : Bool) (refusal : Refusal) (x : PUnit → TableM α) (t : Table) :
    (if (!test) = true then throw refusal >>= x else x ⟨⟩).run t =
      if test then (x ⟨⟩).run t else .error refusal t := by
  cases test <;> rfl

/-- A check that was passed. -/
theorem check_eq_ok {p : Prop} [Decidable p] {r : EStateM.Result Refusal Table α} {e : Refusal}
    {t t' : Table} {a : α} : (if p then r else .error e t) = .ok a t' ↔ p ∧ r = .ok a t' := by
  by_cases hp : p <;> simp [hp]

/-! ## Decisions -/

theorem placeBid_run (t : Table) (seat : Seat) (contract : Contract) (slam : Bool) :
    (placeBid seat contract slam).run t =
      if t.phase = .awaitingBid then
        if t.current = seat then
          .ok (t.deal.recordBid contract slam seat).2 (t.afterBid contract slam)
        else .error (.wrongSeat t.current seat) t
      else .error (.wrongPhase .awaitingBid t.phase) t := by
  unfold placeBid
  simp only [expectPhase_bind_run, get_bind_run, expectSeat_bind_run]
  refine if_congr Iff.rfl (ite_congr rfl (fun hs => ?_) fun _ => rfl) rfl
  subst hs
  rfl

theorem callCard_run (t : Table) (seat : Seat) (card : Card) :
    (callCard seat card).run t =
      if t.phase = .awaitingKingCall then
        match t.deal.bid.taker with
        | none => .error .noTaker t
        | some taker =>
          if taker = seat then
            if Cards.canCall (t.hand taker).statistics card then
              .ok (t.calledPartner taker card) (t.afterCall taker card)
            else .error (.invalidKingCall card) t
          else .error (.wrongSeat taker seat) t
      else .error (.wrongPhase .awaitingKingCall t.phase) t := by
  unfold callCard
  simp only [expectPhase_bind_run, get_bind_run, expectSeat_bind_run, expectTaker_bind_run]
  refine if_congr Iff.rfl ?_ rfl
  cases t.deal.bid.taker with
  | none => rfl
  | some taker =>
    refine ite_congr rfl (fun hs => ?_) fun _ => rfl
    subst hs
    exact expect_run _ _ _ t

theorem layDiscard_run (t : Table) (seat : Seat) (discard : Cards) :
    (layDiscard seat discard).run t =
      if t.phase = .awaitingDiscard then
        match t.deal.bid.taker with
        | none => .error .noTaker t
        | some taker =>
          if taker = seat then
            if (t.hand taker).isDiscard t.deal.dog discard t.players then
              .ok () (t.exchanged taker discard).opened
            else .error (.invalidDiscard discard) t
          else .error (.wrongSeat taker seat) t
      else .error (.wrongPhase .awaitingDiscard t.phase) t := by
  unfold layDiscard
  simp only [expectPhase_bind_run, get_bind_run, expectSeat_bind_run, expectTaker_bind_run]
  refine if_congr Iff.rfl ?_ rfl
  cases t.deal.bid.taker with
  | none => rfl
  | some taker =>
    refine ite_congr rfl (fun hs => ?_) fun _ => rfl
    subst hs
    exact expect_run _ _ _ t

theorem showHandle_run (t : Table) (seat : Seat) (handle : Cards) :
    (showHandle seat handle).run t =
      if t.phase = .awaitingHandle then
        if t.current = seat then
          if (t.hand t.current).isHandle handle then .ok () (t.afterHandle handle)
          else .error (.invalidHandle handle) t
        else .error (.wrongSeat t.current seat) t
      else .error (.wrongPhase .awaitingHandle t.phase) t := by
  unfold showHandle
  simp only [expectPhase_bind_run, get_bind_run, expectSeat_bind_run]
  refine if_congr Iff.rfl (ite_congr rfl (fun hs => ?_) fun _ => rfl) rfl
  subst hs
  exact expect_run _ _ _ t

theorem declineHandle_run (t : Table) (seat : Seat) :
    (declineHandle seat).run t =
      if t.phase = .awaitingHandle then
        if t.current = seat then continuePlay.run (t.note t.current .noHandle)
        else .error (.wrongSeat t.current seat) t
      else .error (.wrongPhase .awaitingHandle t.phase) t := by
  unfold declineHandle
  simp only [expectPhase_bind_run, get_bind_run, expectSeat_bind_run]
  refine if_congr Iff.rfl (ite_congr rfl (fun hs => ?_) fun _ => rfl) rfl
  subst hs
  rfl

theorem playCard_run (t : Table) (seat : Seat) (card : Card) :
    (playCard seat card).run t =
      if t.phase = .awaitingCard then
        if t.current = seat then
          if (t.hand t.current).canPlay t.trick card then .ok () (t.afterCard card)
          else .error (.illegalCard card) t
        else .error (.wrongSeat t.current seat) t
      else .error (.wrongPhase .awaitingCard t.phase) t := by
  unfold playCard
  simp only [expectPhase_bind_run, get_bind_run, expectSeat_bind_run]
  refine if_congr Iff.rfl (ite_congr rfl (fun hs => ?_) fun _ => rfl) rfl
  subst hs
  exact expect_run _ _ _ t

/-! ## The course of a deal -/

theorem settleDog_run (t : Table) :
    settleDog.run t =
      match t.deal.bid.contract.dogOwner? with
      | none => .ok ⟨.dogShown, .showDog t.deal.dog⟩ { t with phase := .dogShown }
      | some owner =>
        .ok ⟨.dealStarting, .startDeal t.openingLeader⟩
          (opened { t with deal := t.deal.setDiscard t.deal.dog owner }) := by
  unfold settleDog
  rw [get_bind_run]
  unfold DealState.showsDog DealState.settleDog
  cases t.deal.bid.contract.dogOwner? <;> rfl

/-- The table when the seats of the auction are counted again after a full round. -/
def recounted (t : Table) : Table :=
  { t with position := if t.players ≤ t.position then 0 else t.position }

theorem continueAuction_run (t : Table) :
    continueAuction.run t =
      if t.position < t.players ∧ (t.deal.bid.slam && t.deal.bid.contract.isTaken) = false then
        .ok ⟨.awaitingBid, .turn t.current⟩ { t with phase := .awaitingBid }
      else if t.deal.bid.contract.isTaken = false then
        .ok ⟨.allPassed, .allPassed⟩ { t.recounted with phase := .allPassed }
      else if t.players = 5 then
        let called := { t.recounted with
          phase := .awaitingKingCall, deal := t.deal.setPartner none }
        .ok called.turn called
      else settleDog.run t.recounted := by
  have hcount : (if decide (t.players ≤ t.position) = true then { t with position := 0 } else t)
      = t.recounted := by
    unfold recounted
    by_cases hover : t.players ≤ t.position
    · rw [if_pos hover, if_pos (decide_eq_true hover)]
    · rw [if_neg hover, if_neg (by simpa using hover)]
  unfold continueAuction
  rw [get_bind_run]
  dsimp only
  rw [hcount]
  have hbid : t.recounted.deal = t.deal := rfl
  have hplayers : t.recounted.players = t.players := rfl
  rw [hbid, hplayers]
  unfold Phase.afterBid
  have hcond : (!decide (t.players ≤ t.position)
      && !(t.deal.bid.slam && t.deal.bid.contract.isTaken)) = true ↔
      t.position < t.players ∧ (t.deal.bid.slam && t.deal.bid.contract.isTaken) = false := by
    rw [Bool.and_eq_true, Bool.not_eq_true', Bool.not_eq_true', decide_eq_false_iff_not,
      Nat.not_le]
  by_cases hgo : t.position < t.players ∧ (t.deal.bid.slam && t.deal.bid.contract.isTaken) = false
  · rw [if_pos hgo, if_pos (hcond.mpr hgo)]
    have hsame : t.recounted = t := by
      rw [recounted, if_neg (Nat.not_le.mpr hgo.1)]
    rw [hsame]
    rfl
  · rw [if_neg hgo, if_neg fun h => hgo (hcond.mp h)]
    by_cases ht : t.deal.bid.contract.isTaken = false
    · rw [if_pos ht, if_pos (by simpa using ht)]
      rfl
    · rw [if_neg ht, if_neg (by simpa using ht)]
      by_cases hn : t.players = 5
      · rw [if_pos hn, if_pos hn]
        rfl
      · rw [if_neg hn, if_neg hn, Phase.afterAuction]
        cases t.deal.bid.contract.dogOwner? <;> rfl

theorem continuePlay_run (t : Table) :
    continuePlay.run t =
      if t.players ≤ t.position then
        match t.deal.addTrick t.trick with
        | .error e => .error (.trick e) t.gathered
        | .ok (deal, winner) =>
          .ok ⟨.trickEnded, .trickWon winner (t.tricksDone + 1)⟩ (t.afterTrick deal winner)
      else if t.tricksDone = 0 ∧ t.handleAsked.get t.current = false then
        .ok ⟨.awaitingHandle, .turn t.current⟩
          { t with phase := .awaitingHandle, handleAsked := t.handleAsked.set t.current true }
      else .ok ⟨.awaitingCard, .turn t.current⟩ { t with phase := .awaitingCard } := by
  unfold continuePlay
  rw [get_bind_run]
  dsimp only
  by_cases hfull : t.players ≤ t.position
  · rw [if_pos hfull, Phase.inPlay, if_pos (by simpa using hfull)]
    dsimp only
    rw [set_bind_run]
    cases t.deal.addTrick t.trick <;> rfl
  · rw [if_neg hfull, Phase.inPlay, if_neg (by simpa using hfull)]
    by_cases hask : t.tricksDone = 0 ∧ t.handleAsked.get t.current = false
    · rw [if_pos hask, if_pos (by simp [hask])]
      rfl
    · rw [if_neg hask, if_neg (by simpa using hask)]
      rfl

/-- As long as the trick is not complete, somebody is asked. -/
theorem continuePlay_ok {t : Table} (more : t.position < t.players) :
    ∃ transition t', continuePlay.run t = .ok transition t' := by
  rw [continuePlay_run, if_neg (Nat.not_le.mpr more)]
  split
  · exact ⟨_, _, rfl⟩
  · exact ⟨_, _, rfl⟩

/-! ## Setting up and dealing -/

theorem create_run (t : Table) (n : Nat) :
    (create n).run t =
      if Rules.supported n then
        .ok ⟨.awaitingPlayers, .ready⟩ { t with
          players := n
          deal := .new n
          hands := .empty n
          dealer := (Seat.ofIndex? (t.generator.below n).1).getD .south
          phase := .awaitingPlayers
          generator := (t.generator.below n).2 }
      else .error ⟨n⟩ t := by
  unfold create Rules.checkPlayers
  by_cases h : Rules.supported n
  · rw [if_pos h, if_pos h]
    rfl
  · rw [if_neg h, if_neg h]
    rfl

theorem drawEither_run (requested spare : EStateM DealError Generator Deal)
    (used : Deal → Distribution) (t : Table) :
    (drawEither requested spare used).run t =
      match requested.run t.generator with
      | .ok d generator => .ok (d, used d) { t with generator }
      | .error _ generator =>
        match spare.run generator with
        | .ok d generator => .ok (d, .random) { t with generator }
        | .error e generator => .error e { t with generator } := by
  simp only [drawEither, draw, EStateM.run, tryCatch, tryCatchThe, MonadExceptOf.tryCatch,
    EStateM.tryCatch, bind, EStateM.bind, EStateM.Backtrackable.restore, EStateM.dummyRestore]
  cases requested t.generator with
  | ok d g => rfl
  | error e g =>
    dsimp only
    cases spare g <;> rfl

/-- A deal clears the table, draws, and places what was drawn. -/
theorem newDeal_draw (t : Table) (files : Files) (distribution : Distribution) :
    (newDeal files distribution).run t =
      match (drawEither (distribution.deal files t.players) (Deal.random t.players)
          (usedDistribution distribution)).run (cleared t) with
      | .ok (d, used) t' => .ok used (place t' d)
      | .error e t' => .error e t' := by
  unfold newDeal distribute
  rw [EStateM.run_bind, EStateM.run_modify]
  dsimp only
  rw [EStateM.run_bind, EStateM.run_bind, EStateM.run_get]
  dsimp only
  rw [show (cleared t).players = t.players from rfl]
  generalize (drawEither (distribution.deal files t.players) (Deal.random t.players)
    (usedDistribution distribution)).run (cleared t) = drawn
  cases drawn <;> rfl

/-- The deal is the one that was asked for, or else one at random. -/
theorem newDeal_run (t : Table) (files : Files) (distribution : Distribution) :
    (newDeal files distribution).run t =
      match (distribution.deal files t.players).run t.generator with
      | .ok d generator =>
        .ok (usedDistribution distribution d) (place { cleared t with generator } d)
      | .error _ generator =>
        match (Deal.random t.players).run generator with
        | .ok d generator => .ok .random (place { cleared t with generator } d)
        | .error e generator => .error e { cleared t with generator } := by
  -- The generators get names before anything is computed.
  obtain ⟨requested, hrequested⟩ : ∃ x, distribution.deal files t.players = x := ⟨_, rfl⟩
  obtain ⟨spare, hspare⟩ : ∃ x, Deal.random t.players = x := ⟨_, rfl⟩
  rw [newDeal_draw, hrequested, hspare, drawEither_run,
    show (cleared t).generator = t.generator from rfl]
  cases requested.run t.generator with
  | ok d generator => rfl
  | error e generator =>
    dsimp only
    cases spare.run generator <;> rfl

/-- What was asked for is dealt if it can be had. -/
theorem newDeal_requested {t : Table} {files : Files} {distribution : Distribution} {d : Deal}
    {g : Generator} (hd : (distribution.deal files t.players).run t.generator = .ok d g) :
    (newDeal files distribution).run t =
      .ok (usedDistribution distribution d) (place { cleared t with generator := g } d) := by
  obtain ⟨spare, hspare⟩ : ∃ x, Deal.random t.players = x := ⟨_, rfl⟩
  rw [newDeal_run, hspare, hd]

/-- Otherwise a deal at random takes its place. -/
theorem newDeal_spare {t : Table} {files : Files} {distribution : Distribution} {e : DealError}
    {g : Generator} (he : (distribution.deal files t.players).run t.generator = .error e g) :
    (newDeal files distribution).run t =
      match (Deal.random t.players).run g with
      | .ok d generator => .ok .random (place { cleared t with generator } d)
      | .error e generator => .error e { cleared t with generator } := by
  obtain ⟨spare, hspare⟩ : ∃ x, Deal.random t.players = x := ⟨_, rfl⟩
  rw [newDeal_run, hspare, he]

/-- **Dealing gives a complete deal, unless no shuffle can be played.** -/
theorem newDeal_complete {t : Table} (hn : Rules.supported t.players) (files : Files)
    (distribution : Distribution) :
    (∃ used d generator, (newDeal files distribution).run t =
        .ok used (place { cleared t with generator } d) ∧ d.Complete t.players)
      ∨ ∃ t', (newDeal files distribution).run t = .error .unplayable t' := by
  cases hr : (distribution.deal files t.players).run t.generator with
  | ok d generator =>
    exact Or.inl ⟨_, d, generator, newDeal_requested hr, Distribution.deal_complete hn hr⟩
  | error e generator =>
    rw [newDeal_spare hr]
    rcases Deal.random_run hn generator with ⟨d, generator, hd, hc, _⟩ | ⟨generator, hd⟩
    · rw [hd]
      exact Or.inl ⟨_, d, generator, rfl, hc⟩
    · rw [hd]
      exact Or.inr ⟨_, rfl⟩

/-- A file that holds a deal is dealt as it stands. -/
theorem newDeal_ofFile {t : Table} {files : Files} {path : String} {d : Deal}
    (hd : Distribution.ofFile files t.players path = .ok d) :
    (newDeal files (.custom path)).run t = .ok (.custom path) (place (cleared t) d) := by
  have hdeal : (Distribution.deal files t.players (.custom path)).run t.generator =
      .ok d t.generator := by
    rw [Distribution.deal, hd]
    rfl
  exact newDeal_requested hdeal

end FrenchTarot.Table
