import FrenchTarot.Agent.Judgement
import FrenchTarot.Proofs.Table.Calls

/-!
# The tables that can be reached

A table is reached from a fresh one by calls: any calls in any order, granted or refused, with
files that may change between two calls.  A call that finds no shuffle to play leads nowhere; it
stands for a search that does not come to an end.

Calls make moves (`Call.moves`), so that what every move keeps holds at every table that can be
reached (`Reachable.keep`).  The first such property is soundness (`Reachable.sound`), and the
others may take it for granted.
-/

namespace FrenchTarot

/-- A search for a deal that does not come to an end. -/
def DealError.givesUp : DealError → Bool
  | .unplayable => true
  | _ => false

/-- A call that does not come to an end, because dealing does not. -/
def Refusal.givesUp : Refusal → Bool
  | .deal cause => cause.givesUp
  | _ => false

namespace Table

variable {ε α : Type}

/-! ## Calls make moves -/

/-- A call that is refused changes nothing; any other makes moves. -/
def Plays (t : Table) : EStateM.Result ε Table α → Prop
  | .ok _ t' => Moves t t'
  | .error _ t' => t' = t

/-- A check before a call that makes moves. -/
theorem Plays.check {t : Table} {p : Prop} [Decidable p] {r : EStateM.Result ε Table α} {e : ε}
    (h : p → t.Plays r) : t.Plays (if p then r else .error e t) := by
  by_cases hp : p
  · rw [if_pos hp]
    exact h hp
  · rw [if_neg hp]
    rfl

theorem placeBid_plays (t : Table) (seat : Seat) (contract : Contract) (slam : Bool) :
    t.Plays ((placeBid seat contract slam).run t) := by
  rw [placeBid_run]
  refine .check fun phase => .check fun _ => ?_
  exact .single (.bid phase contract slam)

theorem callCard_plays (t : Table) (seat : Seat) (card : Card) :
    t.Plays ((callCard seat card).run t) := by
  rw [callCard_run]
  refine .check fun phase => ?_
  cases htaker : t.deal.bid.taker with
  | none => rfl
  | some taker =>
    refine .check fun _ => .check fun callable => ?_
    exact .single (.call phase htaker callable)

theorem layDiscard_plays (t : Table) (seat : Seat) (discard : Cards) :
    t.Plays ((layDiscard seat discard).run t) := by
  rw [layDiscard_run]
  refine .check fun phase => ?_
  cases htaker : t.deal.bid.taker with
  | none => rfl
  | some taker =>
    refine .check fun _ => .check fun allowed => ?_
    exact .single (.discard phase htaker allowed)

theorem showHandle_plays (t : Table) (seat : Seat) (handle : Cards) :
    t.Plays ((showHandle seat handle).run t) := by
  rw [showHandle_run]
  refine .check fun phase => .check fun _ => .check fun allowed => ?_
  exact .single (.handle phase allowed)

theorem playCard_plays (t : Table) (seat : Seat) (card : Card) :
    t.Plays ((playCard seat card).run t) := by
  rw [playCard_run]
  refine .check fun phase => .check fun _ => .check fun allowed => ?_
  exact .single (.card phase allowed)

theorem settleDog_plays {t : Table}
    (phase : t.phase = .cardsDealt ∨ t.phase = .bidShown ∨ t.phase = .kingCallShown)
    (taken : t.deal.bid.contract.isTaken) (called : t.players = 5 → t.phase = .kingCallShown) :
    t.Plays (settleDog.run t) := by
  rw [settleDog_run]
  cases hd : t.deal.bid.contract.dogOwner? with
  | none => exact .single (.showDog phase taken hd t.position called)
  | some owner => exact .single (.openUnseen phase taken hd called)

theorem continueAuction_plays {t : Table} (phase : t.phase = .cardsDealt ∨ t.phase = .bidShown) :
    t.Plays (continueAuction.run t) := by
  have hphase : t.phase = .cardsDealt ∨ t.phase = .bidShown ∨ t.phase = .kingCallShown := by
    rcases phase with h | h
    · exact Or.inl h
    · exact Or.inr (Or.inl h)
  rw [continueAuction_run]
  split
  · rename_i more
    exact .single (.askBid phase more.1)
  · rename_i closed
    split
    · rename_i untaken
      -- Nobody plays, and so the auction can only be over because every seat has spoken.
      have ended : t.players ≤ t.position := by
        by_contra hlt
        exact closed ⟨Nat.not_le.mp hlt, by rw [untaken, Bool.and_false]⟩
      have hround : t.recounted = { t with position := 0 } := by
        rw [recounted, if_pos ended]
      rw [hround]
      exact .single (.passOut phase ended untaken)
    · rename_i taken
      rw [Bool.not_eq_false] at taken
      split
      · rename_i five
        exact .single (.askCall phase taken five t.recounted.position)
      · rename_i notFive
        have called : t.players = 5 → t.phase = .kingCallShown := fun five => absurd five notFive
        rw [settleDog_run]
        -- After a whole round the seats are counted from the start again, and nothing else changes.
        cases hdog : t.recounted.deal.bid.contract.dogOwner? with
        | none => exact .single (.showDog hphase taken hdog t.recounted.position called)
        | some owner => exact .single (.openUnseen hphase taken hdog called)

/-- **The trick that everybody has played to is added to the deal.** -/
theorem InPlay.addTrick_ok {t : Table} (h : t.InPlay) (hs : t.Seated)
    (full : t.players ≤ t.position) (unfinished : t.tricksDone < Rules.handSize t.players) :
    ∃ deal winner, t.deal.addTrick t.trick = .ok (deal, winner) := by
  obtain ⟨leader, r⟩ := h.round
  refine ⟨_, _, DealState.addTrick_eq_ok.mpr ⟨?_, ?_, leader, ?_, rfl, rfl⟩⟩
  · rw [h.trick_length, hs.deal_players]
    exact Nat.le_antisymm h.position_le full
  · rw [h.tricks_length, hs.deal_players]
    exact unfinished
  · rw [h.tricks_length]
    exact r.leads

theorem continuePlay_plays {t : Table} (h : t.Sound) (phase : t.phase.goesOn)
    (unfinished : t.phase = .trickEnded → t.tricksDone < Rules.handSize t.players) :
    t.Plays (continuePlay.run t) := by
  have hd := h.during (Phase.duringPlay_of_goesOn phase)
  have hleft : t.tricksDone < Rules.handSize t.players := by
    by_cases hp : t.phase = .trickEnded
    · exact unfinished hp
    · exact hd.unfinished hp (by intro he; rw [he] at phase; cases phase)
  rw [continuePlay_run]
  split
  · rename_i full
    obtain ⟨deal, winner, added⟩ := hd.addTrick_ok h.toSeated full hleft
    rw [added]
    exact .single (.winTrick phase full added)
  · rename_i more
    split
    · rename_i hask
      exact .single (.askHandle phase (Nat.not_le.mp more) hask.1 hask.2)
    · exact .single (.askCard phase (Nat.not_le.mp more) unfinished)

theorem declineHandle_plays {t : Table} (h : t.Sound) (seat : Seat) :
    t.Plays ((declineHandle seat).run t) := by
  rw [declineHandle_run]
  refine .check fun phase => .check fun _ => ?_
  -- The note is a move of its own, and the play goes on from there.
  have hmove := Move.decline phase
  have hphase : (t.note t.current .noHandle).phase = .awaitingHandle := phase
  have hplay := continuePlay_plays (hmove.sound h) (by rw [hphase]; rfl) (by simp [hphase])
  -- Had it been refused, the note would have been kept without being a move of the call.
  have hmore := (h.during (by rw [phase]; rfl)).more (Or.inl phase)
  obtain ⟨transition, t', hrun⟩ := continuePlay_ok (t := t.note t.current .noHandle) hmore
  rw [hrun] at hplay ⊢
  exact .head hmove hplay

/-- Telling what has happened changes nothing. -/
theorem Plays.report {t : Table} {x : TableM α} (h : t.Plays (x.run t)) (event : α → Event) :
    t.Plays ((x >>= fun a => report (event a)).run t) := by
  rw [EStateM.run_bind]
  cases hx : x.run t with
  | ok a t' =>
    rw [hx] at h
    exact h
  | error e t' =>
    rw [hx] at h
    exact h

theorem apply_plays {t : Table} (h : t.Sound) (seat : Seat) (action : Action) :
    t.Plays ((apply seat action).run t) := by
  cases action with
  | bid contract slam =>
    exact (placeBid_plays t seat contract slam).report
      fun accepted => .bid seat accepted (slam && accepted.isTaken)
  | kingCall card => exact (callCard_plays t seat card).report fun _ => .kingCalled card
  | discard cards => exact (layDiscard_plays t seat cards).report fun _ => .discarded
  | handle cards => exact (showHandle_plays t seat cards).report fun _ => .handle seat cards
  | noHandle => exact declineHandle_plays h seat
  | card card => exact (playCard_plays t seat card).report fun _ => .cardPlayed seat card

/-! ## Calls that deal -/

/-- The table that a call leaves; none when the call gives up. -/
def answered (givesUp : ε → Bool) : EStateM.Result ε Table α → Option Table
  | .ok _ t => some t
  | .error e t => if givesUp e then none else some t

/-- A call that answers has made moves. -/
def Answers (t : Table) (givesUp : ε → Bool) (r : EStateM.Result ε Table α) : Prop :=
  ∀ t', answered givesUp r = some t' → Moves t t'

/-- The table after a call that answers is the one that it leads to, or the same as before. -/
theorem Plays.granted_or {t t' : Table} {r : EStateM.Result ε Table α} (h : t.Plays r)
    {givesUp : ε → Bool} (after : answered givesUp r = some t') : (∃ a, r = .ok a t') ∨ t' = t := by
  cases r with
  | ok a t₁ =>
    cases after
    exact .inl ⟨a, rfl⟩
  | error e t₁ =>
    have hsame : t₁ = t := h
    rw [answered] at after
    split at after
    · cases after
    · cases after
      exact .inr hsame

theorem Plays.answers {t : Table} {r : EStateM.Result ε Table α} (h : t.Plays r)
    (givesUp : ε → Bool) : t.Answers givesUp r := by
  intro t' after
  rcases h.granted_or after with ⟨a, rfl⟩ | rfl
  · exact h
  · exact .refl

theorem newDeal_answers {t : Table} (h : t.Sound) (files : Files) (distribution : Distribution) :
    t.Answers DealError.givesUp ((newDeal files distribution).run t) := by
  intro t' ht'
  rcases newDeal_complete h.supported files distribution with ⟨used, d, g, hrun, hd⟩ | ⟨t1, hrun⟩
  · rw [hrun] at ht'
    cases ht'
    exact .single (.deal (fun _ => hd) g)
  · rw [hrun] at ht'
    cases ht'

theorem dealNext_answers {t : Table} (h : t.Sound) (files : Files) :
    t.Answers Refusal.givesUp ((dealNext files).run t) := by
  intro t' ht'
  unfold dealNext at ht'
  rw [get_bind_run] at ht'
  rw [EStateM.run_bind, EStateM.run_adaptExcept] at ht'
  rcases newDeal_complete h.supported files t.distribution with ⟨used, d, g, hrun, hd⟩ | ⟨t1, hrun⟩
  · rw [hrun] at ht'
    cases ht'
    exact (Relation.ReflTransGen.single (.deal (fun _ => hd) g)).tail (.chooseDistribution _)
  · rw [hrun] at ht'
    cases ht'

/-- An acknowledgement that does not deal is refused, or it makes moves. -/
theorem acknowledge_plays {t : Table} (h : t.Sound) (files : Files)
    (ready : t.phase ≠ .awaitingReady) : t.Plays ((acknowledge files).run t) := by
  unfold acknowledge
  rw [get_bind_run]
  cases hp : t.phase with
  | awaitingReady => exact absurd hp ready
  | awaitingPlayers | allPassed | dealEnded => exact .single .getReady
  | cardsDealt => exact continueAuction_plays (Or.inl hp)
  | bidShown => exact continueAuction_plays (Or.inr hp)
  | kingCallShown =>
    have taken := (h.before (by rw [hp]; rfl)).taken (by simp [hp])
    exact settleDog_plays (Or.inr (Or.inr hp)) taken fun _ => hp
  | dogShown => exact .single (.askDiscard hp)
  | dealStarting | handleShown | cardShown =>
    exact continuePlay_plays h (by rw [hp]; rfl) (by simp [hp])
  | awaitingHandle => exact declineHandle_plays h t.current
  | trickEnded =>
    dsimp only
    by_cases hover : Rules.dealOver t.tricksDone t.players
    · rw [if_pos hover]
      exact .single (.finish hp (by simpa [Rules.dealOver] using hover))
    · rw [if_neg hover]
      have hleft : t.tricksDone < Rules.handSize t.players := by
        simpa [Rules.dealOver] using hover
      exact continuePlay_plays h (by rw [hp]; rfl) fun _ => hleft
  | stopped | awaitingBid | awaitingKingCall | awaitingDiscard | awaitingCard => rfl

/-- **An acknowledgement is refused, or it makes moves.** -/
theorem acknowledge_answers {t : Table} (h : t.Sound) (files : Files) :
    t.Answers Refusal.givesUp ((acknowledge files).run t) := by
  by_cases ready : t.phase = .awaitingReady
  · unfold acknowledge
    rw [get_bind_run, ready]
    exact dealNext_answers h files
  · exact (acknowledge_plays h files ready).answers _

theorem Moves.sound {t t' : Table} (h : Moves t t') (ht : t.Sound) : t'.Sound :=
  h.keep (fun _ _ hs hm => hm.sound hs) ht

/-- **What every acknowledgement of a table that does not rest keeps is kept by several.** -/
theorem acknowledgeWithin_keeps {P : Table → Prop} {files : Files}
    (hstep : ∀ t t', P t → t.phase.isResting = false →
      answered Refusal.givesUp ((acknowledge files).run t) = some t' → P t')
    {t t' : Table} (ht : P t) {last : Transition} {limit : Nat}
    (after : answered Refusal.givesUp ((acknowledgeWithin files last limit).run t) = some t') :
    P t' := by
  induction limit generalizing t last with
  | zero =>
    cases after
    exact ht
  | succ limit ih =>
    rw [acknowledgeWithin, get_bind_run] at after
    by_cases hrest : t.phase.isResting
    · rw [if_pos hrest] at after
      cases after
      exact ht
    · rw [if_neg hrest, EStateM.run_bind] at after
      have hfirst := fun t₁ => hstep t t₁ ht (Bool.eq_false_iff.mpr hrest)
      cases hr : (acknowledge files).run t with
      | ok next t₁ =>
        rw [hr] at after hfirst
        exact ih (hfirst t₁ rfl) after
      | error e t₁ =>
        rw [hr] at after hfirst
        exact hfirst t' after

/-- Acknowledging goes on from one sound table to the next. -/
theorem acknowledgeWithin_answers {t : Table} (h : t.Sound) (files : Files) (last : Transition)
    (limit : Nat) : t.Answers Refusal.givesUp ((acknowledgeWithin files last limit).run t) := by
  intro t' after
  refine acknowledgeWithin_keeps (P := Moves t) (fun t₁ t₂ before _ hr => ?_) .refl after
  exact before.trans (acknowledge_answers (before.sound h) files t₂ hr)

/-! ## Calls -/

/-- A call on a table. -/
inductive Call where
  | create (players : Nat)
  | setFirstDealer (dealer : Seat)
  | setDistribution (distribution : Distribution)
  | newGame
  | stop
  | newDeal (distribution : Distribution)
  | placeBid (seat : Seat) (contract : Contract) (slam : Bool)
  | callCard (seat : Seat) (card : Card)
  | layDiscard (seat : Seat) (discard : Cards)
  | showHandle (seat : Seat) (handle : Cards)
  | declineHandle (seat : Seat)
  | playCard (seat : Seat) (card : Card)
  | apply (seat : Seat) (action : Action)
  | acknowledge
  | acknowledgeAll

/-- The table that a call leaves, granted or refused; none when the call gives up. -/
def Call.after? (files : Files) (t : Table) : Call → Option Table
  | create n => answered (fun _ => false) ((Table.create n).run t)
  | setFirstDealer dealer => answered Refusal.givesUp ((Table.setFirstDealer dealer).run t)
  | setDistribution d => answered Refusal.givesUp ((Table.setDistribution d).run t)
  | newGame => answered Refusal.givesUp (Table.newGame.run t)
  | stop => answered Refusal.givesUp (Table.stop.run t)
  | newDeal d => answered DealError.givesUp ((Table.newDeal files d).run t)
  | placeBid seat contract slam =>
    answered Refusal.givesUp ((Table.placeBid seat contract slam).run t)
  | callCard seat card => answered Refusal.givesUp ((Table.callCard seat card).run t)
  | layDiscard seat discard => answered Refusal.givesUp ((Table.layDiscard seat discard).run t)
  | showHandle seat handle => answered Refusal.givesUp ((Table.showHandle seat handle).run t)
  | declineHandle seat => answered Refusal.givesUp ((Table.declineHandle seat).run t)
  | playCard seat card => answered Refusal.givesUp ((Table.playCard seat card).run t)
  | apply seat action => answered Refusal.givesUp ((Table.apply seat action).run t)
  | acknowledge => answered Refusal.givesUp ((Table.acknowledge files).run t)
  | acknowledgeAll => answered Refusal.givesUp ((Table.acknowledgeAll files).run t)

/-- **Every call makes moves.** -/
theorem Call.moves {t t' : Table} (h : t.Sound) {files : Files} {c : Call}
    (hc : c.after? files t = some t') : Moves t t' := by
  cases c with
  | create n =>
    refine Plays.answers (t := t) ?_ _ t' hc
    rw [create_run]
    split
    · rename_i hn
      exact .single (.create hn _ _)
    · rfl
  | setFirstDealer dealer =>
    cases hc
    exact .single (.chooseDealer _)
  | setDistribution d =>
    cases hc
    exact .single (.chooseDistribution d)
  | newGame =>
    cases hc
    exact .single .getReady
  | stop =>
    cases hc
    exact .single .stop
  | newDeal d => exact newDeal_answers h files d t' hc
  | placeBid seat contract slam => exact (placeBid_plays t seat contract slam).answers _ t' hc
  | callCard seat card => exact (callCard_plays t seat card).answers _ t' hc
  | layDiscard seat discard => exact (layDiscard_plays t seat discard).answers _ t' hc
  | showHandle seat handle => exact (showHandle_plays t seat handle).answers _ t' hc
  | declineHandle seat => exact (declineHandle_plays h seat).answers _ t' hc
  | playCard seat card => exact (playCard_plays t seat card).answers _ t' hc
  | apply seat action => exact (apply_plays h seat action).answers _ t' hc
  | acknowledge => exact acknowledge_answers h files t' hc
  | acknowledgeAll => exact acknowledgeWithin_answers h files t.turn longestRun t' hc

/-! ## Reachable tables -/

/-- The tables that calls lead to. -/
inductive Reachable : Table → Prop where
  | start (seed : UInt64) : Reachable (.ofSeed seed)
  | call {t t' : Table} (before : Reachable t) (files : Files) (c : Call)
      (after : c.after? files t = some t') : Reachable t'

theorem sound_ofSeed (seed : UInt64) : (ofSeed seed).Sound :=
  Seated.sound_of_idle ⟨rfl, rfl, rfl⟩ rfl

/-- **Every table that can be reached is sound.** -/
theorem Reachable.sound {t : Table} (h : Reachable t) : t.Sound := by
  induction h with
  | start seed => exact sound_ofSeed seed
  | call _ files c after ih => exact (Call.moves ih after).sound ih

/-- **What holds at the start and is kept by every move holds at every table that can be
reached.** -/
theorem Reachable.keep {P : Table → Prop} (hstart : ∀ seed, P (.ofSeed seed))
    (hstep : ∀ t t', t.Sound → P t → Move t t' → P t') {t : Table} (h : Reachable t) : P t := by
  have hboth : t.Sound ∧ P t := by
    induction h with
    | start seed => exact ⟨sound_ofSeed seed, hstart seed⟩
    | call _ files c after ih =>
      exact Moves.keep (P := fun t => t.Sound ∧ P t)
        (fun _ _ hs hm => ⟨hm.sound hs.1, hstep _ _ hs.1 hs.2 hm⟩) (Call.moves ih.1 after) ih
  exact hboth.2

/-! ## Some tables -/

theorem Reachable.getD {t : Table} (h : Reachable t) (files : Files) (c : Call) :
    Reachable ((c.after? files t).getD t) := by
  cases hc : c.after? files t with
  | none => exact h
  | some t' => exact h.call files c hc

theorem Reachable.newDeal_ofFile {t : Table} (h : Reachable t) {files : Files} {path : String}
    {d : Deal} (hd : Distribution.ofFile files t.players path = .ok d) :
    Reachable (place (cleared t) d) := by
  refine h.call files (.newDeal (.custom path)) ?_
  rw [Call.after?, Table.newDeal_ofFile hd]
  rfl

/-- A table after some calls, without files. -/
def callAll (calls : List Call) (t : Table) : Table :=
  calls.foldl (fun t c => (c.after? (fun _ => none) t).getD t) t

theorem Reachable.callAll {t : Table} (h : Reachable t) (calls : List Call) :
    Reachable (t.callAll calls) := by
  unfold Table.callAll
  induction calls generalizing t with
  | nil => exact h
  | cons c calls ih => exact ih (h.getD _ c)

/-- The call that brings a table on when nobody has a mind of its own. -/
def Call.usual (t : Table) : Call :=
  match t.acting?, t.defaultAction? with
  | some seat, some action => .apply seat action
  | _, _ => .acknowledge

/-- A table after some such calls. -/
def playOut : Nat → Table → Table
  | 0, t => t
  | count + 1, t => playOut count ((Call.after? (fun _ => none) t (.usual t)).getD t)

theorem Reachable.playOut {t : Table} (h : Reachable t) (count : Nat) :
    Reachable (t.playOut count) := by
  induction count generalizing t with
  | zero => exact h
  | succ count ih => exact ih (h.getD _ _)

/-- Whether the deal goes on while a table is brought on. -/
def goesOnFor : Nat → Table → Bool
  | 0, _ => true
  | count + 1, t =>
    !t.phase.endsDeal && goesOnFor count ((Call.after? (fun _ => none) t (.usual t)).getD t)

/-- A table of five with the cards of a numbered deal. -/
def trialDeal : Table := (ofSeed 0).callAll [.create 5, .newDeal (.numbered 1)]

/-- The same table when the first seat is asked for a bid. -/
def trialAuction : Table := trialDeal.playOut 1

/-- The same table when the taker is asked for a card to call. -/
def trialCall : Table := trialAuction.playOut 10

/-- The same table when the deal has been played. -/
def trialEnd : Table := trialAuction.playOut 185

-- The definitions are unfolded by name only, since computing them would shuffle the deck.
theorem trialDeal_reachable : Reachable trialDeal := by
  rw [trialDeal]
  exact (Reachable.start 0).callAll _

theorem trialAuction_reachable : Reachable trialAuction := by
  rw [trialAuction]
  exact trialDeal_reachable.playOut 1

theorem trialCall_reachable : Reachable trialCall := by
  rw [trialCall]
  exact trialAuction_reachable.playOut 10

theorem trialEnd_reachable : Reachable trialEnd := by
  rw [trialEnd]
  exact trialAuction_reachable.playOut 185

/-- The deal is shuffled and played here, once. -/
theorem trial_played : trialDeal.phase = .cardsDealt ∧ trialDeal.goesOnFor 1
    ∧ (trialAuction.phase = .awaitingBid ∧ trialCall.phase = .awaitingKingCall)
    ∧ trialAuction.goesOnFor 185 ∧ trialEnd.phase = .dealEnded := by
  decide +kernel

theorem trial_phases : trialAuction.phase = .awaitingBid ∧ trialEnd.phase = .dealEnded := by
  obtain ⟨_, _, ⟨auction, _⟩, _, ended⟩ := trial_played
  exact ⟨auction, ended⟩

theorem trialCall_phase : trialCall.phase = .awaitingKingCall := by
  obtain ⟨_, _, ⟨_, call⟩, _⟩ := trial_played
  exact call

end Table

end FrenchTarot
