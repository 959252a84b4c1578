import FrenchTarot.Proofs.Table.NewDeal

/-!
# A refusal changes nothing

A call on a table is granted or refused, and a table that refuses a call stays as it was
(`RefusalsHarmless`).  Some of the calls change the table before the last thing that could go wrong:
a trick leaves the table before the deal takes it, and a new deal clears the table before the cards
are there.  At a table that can be reached nothing does go wrong there.  The deal takes every trick
that is complete, a taker is there when one has to decide, and a deal can be had whenever one is
needed (`newDeal_granted`), if the search comes to an end where it has to be drawn at random.

Acknowledging everything is never refused either, and it does what it promises: after a few steps,
which `Phase.distance` counts, the table rests.
-/

namespace FrenchTarot

/-- The causes of a refusal that no player has to answer for. -/
def Refusal.isInternal : Refusal → Bool
  | .noTaker | .deal _ | .trick _ => true
  | _ => false

namespace Phase

/-- No more than this many acknowledgements lead to a table that rests. -/
def distance : Phase → Nat
  | awaitingPlayers => 5
  | awaitingReady => 4
  | cardsDealt | bidShown | kingCallShown => 3
  | dealStarting | handleShown | cardShown => 2
  | dogShown | trickEnded => 1
  | _ => 0

theorem distance_eq_zero {p : Phase} : p.distance = 0 ↔ p.isResting := by
  cases p <;> decide

/-- Only the phase before a game is further from rest than the phases before a deal. -/
theorem eq_awaitingPlayers {p q : Phase} (hq : q = .awaitingPlayers ∨ q = .awaitingReady)
    (h : q.distance < p.distance) : p = .awaitingPlayers := by
  rcases hq with rfl | rfl <;> revert h <;> cases p <;> decide

theorem distance_le (p : Phase) : p.distance ≤ Table.longestRun := by
  cases p <;> decide

end Phase

namespace Table

variable {α : Type}

/-! ## Decisions -/

/-- A call that is refused leaves the table as it was, and a player has to answer for it. -/
def Clean (t : Table) : EStateM.Result Refusal Table α → Prop
  | .ok _ _ => True
  | .error e t' => t' = t ∧ e.isInternal = false

/-- A check before a call that refuses cleanly. -/
theorem Clean.check {t : Table} {p : Prop} [Decidable p] {r : EStateM.Result Refusal Table α}
    {e : Refusal} (ordinary : e.isInternal = false) (h : p → t.Clean r) :
    t.Clean (if p then r else .error e t) := by
  by_cases hp : p
  · rw [if_pos hp]
    exact h hp
  · rw [if_neg hp]
    exact ⟨rfl, ordinary⟩

theorem Clean.of_ok {t : Table} {r : EStateM.Result Refusal Table α}
    (h : ∃ a t', r = .ok a t') : t.Clean r := by
  obtain ⟨a, t', rfl⟩ := h
  trivial

/-- Telling what has happened is not refused. -/
theorem Clean.report {t : Table} {x : TableM α} (h : t.Clean (x.run t)) (event : α → Event) :
    t.Clean ((x >>= fun a => Table.report (event a)).run t) := by
  rw [EStateM.run_bind]
  cases hx : x.run t with
  | ok a t' => trivial
  | error e t' =>
    rw [hx] at h
    exact h

/-- Where the taker has to decide, there is one. -/
theorem Sound.taker {t : Table} (h : t.Sound)
    (phase : t.phase = .awaitingKingCall ∨ t.phase = .awaitingDiscard) :
    ∃ taker, t.deal.bid.taker = some taker := by
  have hb := h.before (by rcases phase with hp | hp <;> rw [hp] <;> rfl)
  obtain ⟨taker, _, htaker, _⟩ := hb.bid.taken
    (hb.taken (by rcases phase with hp | hp <;> simp [hp]))
  exact ⟨taker, htaker⟩

theorem placeBid_clean (t : Table) (seat : Seat) (contract : Contract) (slam : Bool) :
    t.Clean ((placeBid seat contract slam).run t) := by
  rw [placeBid_run]
  exact .check rfl fun _ => .check rfl fun _ => trivial

theorem callCard_clean {t : Table} (h : t.Sound) (seat : Seat) (card : Card) :
    t.Clean ((callCard seat card).run t) := by
  rw [callCard_run]
  refine .check rfl fun phase => ?_
  obtain ⟨taker, htaker⟩ := h.taker (.inl phase)
  rw [htaker]
  exact .check rfl fun _ => .check rfl fun _ => trivial

theorem layDiscard_clean {t : Table} (h : t.Sound) (seat : Seat) (discard : Cards) :
    t.Clean ((layDiscard seat discard).run t) := by
  rw [layDiscard_run]
  refine .check rfl fun phase => ?_
  obtain ⟨taker, htaker⟩ := h.taker (.inr phase)
  rw [htaker]
  exact .check rfl fun _ => .check rfl fun _ => trivial

theorem showHandle_clean (t : Table) (seat : Seat) (handle : Cards) :
    t.Clean ((showHandle seat handle).run t) := by
  rw [showHandle_run]
  exact .check rfl fun _ => .check rfl fun _ => .check rfl fun _ => trivial

theorem playCard_clean (t : Table) (seat : Seat) (card : Card) :
    t.Clean ((playCard seat card).run t) := by
  rw [playCard_run]
  exact .check rfl fun _ => .check rfl fun _ => .check rfl fun _ => trivial

theorem declineHandle_clean {t : Table} (h : t.Sound) (seat : Seat) :
    t.Clean ((declineHandle seat).run t) := by
  rw [declineHandle_run]
  refine .check rfl fun phase => .check rfl fun _ => .of_ok ?_
  -- The note is made by now, but whoever is asked has not played yet, so that the play goes on.
  exact continuePlay_ok ((h.during (by rw [phase]; rfl)).more (.inl phase))

/-- **Every decision that is refused is refused cleanly.** -/
theorem apply_clean {t : Table} (h : t.Sound) (seat : Seat) (action : Action) :
    t.Clean ((apply seat action).run t) := by
  cases action with
  | bid contract slam =>
    exact (placeBid_clean t seat contract slam).report
      fun accepted => .bid seat accepted (slam && accepted.isTaken)
  | kingCall card => exact (callCard_clean h seat card).report fun _ => .kingCalled card
  | discard cards => exact (layDiscard_clean h seat cards).report fun _ => .discarded
  | handle cards => exact (showHandle_clean t seat cards).report fun _ => .handle seat cards
  | noHandle => exact declineHandle_clean h seat
  | card card => exact (playCard_clean t seat card).report fun _ => .cardPlayed seat card

/-! ## Dealing -/

/-- **A new deal is never refused.** -/
theorem newDeal_granted {t : Table} (h : t.Sound) {files : Files} {distribution : Distribution}
    (supplied : t.Supplied files distribution) :
    ∃ used d generator, (newDeal files distribution).run t =
      .ok used (place { cleared t with generator } d) := by
  obtain ⟨used, d, generator, drawn⟩ := exists_drawn h.supported supplied
  exact ⟨used, d, generator, drawn.newDeal⟩

/-! ## Acknowledging -/

/-- The next step of a table that does not rest: it is granted, and the table is closer to rest. -/
def Proceeds (t : Table) (r : EStateM.Result Refusal Table Transition) : Prop :=
  ∃ transition t', r = .ok transition t' ∧ t'.phase.distance < t.phase.distance

theorem settleDog_proceeds {t : Table} (phase : t.phase.distance = 3) :
    t.Proceeds (settleDog.run t) := by
  rw [Proceeds, phase, settleDog_run]
  cases t.deal.bid.contract.dogOwner? with
  | none => exact ⟨_, _, rfl, Nat.lt_of_sub_eq_succ rfl⟩
  | some owner => exact ⟨_, _, rfl, Nat.lt_of_sub_eq_succ rfl⟩

theorem continueAuction_proceeds {t : Table} (phase : t.phase.distance = 3) :
    t.Proceeds (continueAuction.run t) := by
  rw [continueAuction_run]
  split
  · exact ⟨_, _, rfl, by rw [phase]; exact Nat.zero_lt_succ 2⟩
  · split
    · exact ⟨_, _, rfl, by rw [phase]; exact Nat.zero_lt_succ 2⟩
    · split
      · exact ⟨_, _, rfl, by rw [phase]; exact Nat.zero_lt_succ 2⟩
      · exact settleDog_proceeds (t := t.recounted) phase

/-- **The play goes on, from trick to trick and in each of them.** -/
theorem continuePlay_proceeds {t : Table} (h : t.Sound) (phase : t.phase.goesOn)
    (busy : t.phase ≠ .awaitingHandle) : t.Proceeds (continuePlay.run t) := by
  have hd := h.during (Phase.duringPlay_of_goesOn phase)
  have hpos : 0 < t.phase.distance := by
    revert phase busy
    cases t.phase <;> decide
  rw [continuePlay_run]
  split
  · rename_i full
    -- A trick has just been completed, so that the last one was not won just now.
    have hended : t.phase ≠ .trickEnded := fun he => by
      have := hd.between (.inl he)
      have := Rules.players_pos h.supported
      omega
    have hfar : 1 < t.phase.distance := by
      revert phase busy hended
      cases t.phase <;> decide
    obtain ⟨deal, winner, added⟩ := hd.addTrick_ok h.toSeated full
      (hd.unfinished hended (by intro he; rw [he] at phase; cases phase))
    rw [added]
    exact ⟨_, _, rfl, hfar⟩
  · split
    · exact ⟨_, _, rfl, hpos⟩
    · exact ⟨_, _, rfl, hpos⟩

theorem dealNext_proceeds {t : Table} (h : t.Sound) (phase : t.phase = .awaitingReady)
    {files : Files} (supplied : t.Supplied files t.distribution) :
    t.Proceeds ((dealNext files).run t) := by
  obtain ⟨used, d, g, hrun⟩ := newDeal_granted h supplied
  unfold dealNext
  rw [get_bind_run, EStateM.run_bind, EStateM.run_adaptExcept, hrun]
  exact ⟨_, _, rfl, by rw [phase]; exact Nat.lt_succ_self 3⟩

/-- **A table that does not rest can be acknowledged, and comes closer to rest.** -/
theorem acknowledge_proceeds {t : Table} (h : t.Sound) (busy : t.phase.isResting = false)
    {files : Files} (supplied : t.phase = .awaitingReady → t.Supplied files t.distribution) :
    t.Proceeds ((acknowledge files).run t) := by
  unfold acknowledge
  rw [get_bind_run]
  cases hp : t.phase with
  | awaitingPlayers => exact ⟨_, _, rfl, by rw [hp]; exact Nat.lt_succ_self 4⟩
  | awaitingReady => exact dealNext_proceeds h hp (supplied hp)
  | cardsDealt => exact continueAuction_proceeds (by rw [hp]; rfl)
  | bidShown => exact continueAuction_proceeds (by rw [hp]; rfl)
  | kingCallShown => exact settleDog_proceeds (by rw [hp]; rfl)
  | dogShown => exact ⟨_, _, rfl, by rw [hp]; exact Nat.zero_lt_one⟩
  | dealStarting => exact continuePlay_proceeds h (by rw [hp]; rfl) (by simp [hp])
  | handleShown => exact continuePlay_proceeds h (by rw [hp]; rfl) (by simp [hp])
  | cardShown => exact continuePlay_proceeds h (by rw [hp]; rfl) (by simp [hp])
  | trickEnded =>
    dsimp only
    by_cases hover : Rules.dealOver t.tricksDone t.players
    · rw [if_pos hover]
      exact ⟨_, _, rfl, by rw [hp]; exact Nat.zero_lt_one⟩
    · rw [if_neg hover]
      exact continuePlay_proceeds h (by rw [hp]; rfl) (by simp [hp])
  | _ =>
    rw [hp] at busy
    cases busy

theorem acknowledge_clean {t : Table} (h : t.Sound) {files : Files}
    (supplied : t.phase = .awaitingReady → t.Supplied files t.distribution) :
    t.Clean ((acknowledge files).run t) := by
  by_cases busy : t.phase.isResting = false
  · obtain ⟨transition, t', hrun, _⟩ := acknowledge_proceeds h busy supplied
    exact .of_ok ⟨_, _, hrun⟩
  · unfold acknowledge
    rw [get_bind_run]
    cases hp : t.phase with
    | allPassed => exact trivial
    | dealEnded => exact trivial
    | awaitingHandle => exact declineHandle_clean h t.current
    | stopped => exact ⟨rfl, rfl⟩
    | awaitingBid => exact ⟨rfl, rfl⟩
    | awaitingKingCall => exact ⟨rfl, rfl⟩
    | awaitingDiscard => exact ⟨rfl, rfl⟩
    | awaitingCard => exact ⟨rfl, rfl⟩
    | _ =>
      rw [hp] at busy
      exact absurd rfl busy

/-- **Acknowledging goes on until the table rests.** -/
theorem acknowledgeWithin_rests {t : Table} (h : t.Sound) {files : Files}
    (supplied : t.phase = .awaitingPlayers ∨ t.phase = .awaitingReady →
      t.Supplied files t.distribution)
    (last : Transition) {limit : Nat} (far : t.phase.distance ≤ limit) :
    ∃ transition t', (acknowledgeWithin files last limit).run t = .ok transition t'
      ∧ t'.phase.isResting := by
  induction limit generalizing t last with
  | zero => exact ⟨last, t, rfl, Phase.distance_eq_zero.mp (Nat.le_zero.mp far)⟩
  | succ limit ih =>
    rw [acknowledgeWithin, get_bind_run]
    by_cases hrest : t.phase.isResting
    · rw [if_pos hrest]
      exact ⟨last, t, rfl, hrest⟩
    · rw [if_neg hrest, EStateM.run_bind]
      obtain ⟨next, t', hrun, hcloser⟩ := acknowledge_proceeds h (Bool.eq_false_iff.mpr hrest)
        fun hp => supplied (.inr hp)
      have hmoves := acknowledge_answers h files
      rw [hrun] at hmoves
      have hsupplied : t'.phase = .awaitingPlayers ∨ t'.phase = .awaitingReady →
          t'.Supplied files t'.distribution := by
        intro hp
        -- The game has just begun, which changes nothing but the phase.
        have hfirst := Phase.eq_awaitingPlayers hp hcloser
        unfold acknowledge at hrun
        rw [get_bind_run, hfirst] at hrun
        cases hrun
        exact supplied (.inl hfirst)
      rw [hrun]
      exact ih ((hmoves t' rfl).sound h) hsupplied next (by omega)

theorem acknowledgeAll_rests {t : Table} (h : t.Sound) {files : Files}
    (supplied : t.phase = .awaitingPlayers ∨ t.phase = .awaitingReady →
      t.Supplied files t.distribution) :
    ∃ transition t', (acknowledgeAll files).run t = .ok transition t' ∧ t'.phase.isResting :=
  acknowledgeWithin_rests h supplied t.turn t.phase.distance_le

/-! ## All calls -/

/-- What a table does with the calls that it refuses. -/
structure RefusalsHarmless (t : Table) : Prop where
  create : ∀ n e t', (create n).run t = .error e t' → t' = t
  apply : ∀ seat action, t.Clean ((apply seat action).run t)
  placeBid : ∀ seat contract slam, t.Clean ((placeBid seat contract slam).run t)
  callCard : ∀ seat card, t.Clean ((callCard seat card).run t)
  layDiscard : ∀ seat discard, t.Clean ((layDiscard seat discard).run t)
  showHandle : ∀ seat handle, t.Clean ((showHandle seat handle).run t)
  declineHandle : ∀ seat, t.Clean ((declineHandle seat).run t)
  playCard : ∀ seat card, t.Clean ((playCard seat card).run t)
  /-- A deal is drawn only when the table is ready for one. -/
  acknowledge : ∀ files, (t.phase = .awaitingReady → t.Supplied files t.distribution) →
    t.Clean ((acknowledge files).run t)
  /-- A new deal is not refused. -/
  newDeal : ∀ files distribution, t.Supplied files distribution →
    ∃ used t', (newDeal files distribution).run t = .ok used t'
  /-- Acknowledging everything is not refused, and the table rests afterwards. -/
  acknowledgeAll : ∀ files, (t.phase = .awaitingPlayers ∨ t.phase = .awaitingReady →
      t.Supplied files t.distribution) →
    ∃ transition t', (acknowledgeAll files).run t = .ok transition t' ∧ t'.phase.isResting

/-- **At every table that can be reached, a call that is refused has changed nothing, and no call is
refused for a cause inside the table.** -/
theorem Reachable.refusalsHarmless {t : Table} (h : Reachable t) : t.RefusalsHarmless where
  create := by
    intro n e t' hrun
    rw [create_run] at hrun
    split at hrun
    · cases hrun
    · cases hrun
      rfl
  apply := apply_clean h.sound
  placeBid := placeBid_clean t
  callCard := callCard_clean h.sound
  layDiscard := layDiscard_clean h.sound
  showHandle := showHandle_clean t
  declineHandle := declineHandle_clean h.sound
  playCard := playCard_clean t
  acknowledge := fun _ => acknowledge_clean h.sound
  newDeal := fun _ _ supplied => by
    obtain ⟨used, d, g, hrun⟩ := newDeal_granted h.sound supplied
    exact ⟨used, _, hrun⟩
  acknowledgeAll := fun _ => acknowledgeAll_rests h.sound

theorem ofSeed_refusalsHarmless : (ofSeed 0).DealingReturns ∧ (ofSeed 0).RefusalsHarmless :=
  ⟨ofSeed_dealingReturns, Reachable.refusalsHarmless (.start 0)⟩

end Table

end FrenchTarot
