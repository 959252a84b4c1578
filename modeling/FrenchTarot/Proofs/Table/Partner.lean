import FrenchTarot.Proofs.Table.CalledCard
import FrenchTarot.Proofs.Table.Steps

/-!
# The partner

The partner of the attack is named by the call, before the dog is seen, and stays the partner until
something new begins.  `WithinDeal` says what that means: whatever is called on the table, granted
or refused, as long as no table is set up and no deal is dealt.  Only the auction and the call
itself change the bid, and neither of them comes again before the next deal.  A game that is stopped
keeps the bid as well.

`Reachable.callHonoured` puts this together with the way of the called card: the partner that the
call has named by the hands is the seat that the play then shows.
-/

namespace FrenchTarot

/-- The auction goes on, or a card is to be called. -/
def Phase.beforeCall : Phase → Bool
  | cardsDealt | awaitingBid | bidShown | awaitingKingCall => true
  | _ => false

namespace Table

/-! ## Until something new begins -/

/-- The call sets up a table, or it deals. -/
def Call.StartsAnew (t : Table) : Call → Prop
  | create n => Rules.supported n
  | newDeal _ => True
  | acknowledge => t.phase = .awaitingReady
  | acknowledgeAll => t.phase = .awaitingPlayers ∨ t.phase = .awaitingReady
  | _ => False

/-- The tables that calls lead to before the next deal or table. -/
inductive WithinDeal (t : Table) : Table → Prop
  | start : WithinDeal t t
  | call {t' t'' : Table} (before : WithinDeal t t') (files : Files) (c : Call)
      (goesOn : ¬ c.StartsAnew t') (after : c.after? files t' = some t'') : WithinDeal t t''

/-- The call has been made, and the bid and the called card are as it has left them. -/
structure CallStands (bid : Bid) (card : Card) (t : Table) : Prop where
  phase : t.phase.beforeCall = false
  bid : t.deal.bid = bid
  called : t.calledCard = some card

section Standing

variable {t t' : Table} {bid : Bid} {card : Card} {b : Option Announcement} {ε α : Type}

theorem CallStands.continued (h : CallStands bid card t) (hc : Continued t t') :
    CallStands bid card t' := by
  cases hc with
  | won full added =>
    obtain ⟨_, _, leader, _, rfl, _⟩ := DealState.addTrick_eq_ok.mp added
    exact ⟨rfl, h.bid, h.called⟩
  | askHandle => exact ⟨rfl, h.bid, h.called⟩
  | askCard => exact ⟨rfl, h.bid, h.called⟩

theorem CallStands.settled (h : CallStands bid card t) (hs : Settled t t') :
    CallStands bid card t' := by
  cases hs with
  | shown => exact ⟨rfl, h.bid, h.called⟩
  | unseen => exact ⟨rfl, h.bid, h.called⟩

/-- **Once a card has been called, no step changes the bid.** -/
theorem CallStands.step (h : CallStands bid card t) (hstep : Step t b t') :
    CallStands bid card t' := by
  have early : ∀ {p : Phase}, p.beforeCall → t.phase ≠ p := fun {p} hp he => by
    rw [← he, h.phase] at hp
    cases hp
  have auction : ¬ (t.phase = .cardsDealt ∨ t.phase = .bidShown) := fun hp =>
    hp.elim (early rfl) (early rfl)
  cases hstep with
  | askBid phase => exact absurd phase auction
  | bid phase => exact absurd phase (early rfl)
  | passOut phase => exact absurd phase auction
  | askCall phase => exact absurd phase auction
  | call phase => exact absurd phase (early rfl)
  | closeAuction phase => exact absurd phase auction
  | closeCall phase settled => exact h.settled settled
  | askDiscard phase => exact ⟨rfl, h.bid, h.called⟩
  | discard phase taker cards => exact ⟨rfl, h.bid, h.called⟩
  | handle phase cards =>
    obtain ⟨attackHandle, defenseHandle, heq⟩ := t.deal.keepHandle_eq cards t.current
    have hbid : (t.deal.keepHandle cards t.current).bid = t.deal.bid := by rw [heq]; rfl
    exact ⟨rfl, hbid.trans h.bid, h.called⟩
  | decline phase continued =>
    have hnoted : CallStands bid card (t.note t.current .noHandle) := ⟨h.phase, h.bid, h.called⟩
    exact hnoted.continued continued
  | card phase c => exact ⟨rfl, h.bid, h.called⟩
  | goOn phase continued => exact h.continued continued
  | nextTrick phase unfinished continued => exact h.continued continued
  | finish phase => exact ⟨rfl, h.bid, h.called⟩

/-- A call that makes a step when it is granted, and changes nothing when it is refused. -/
theorem CallStands.answered (h : CallStands bid card t) {r : EStateM.Result ε Table α}
    (plays : t.Plays r) (step : ∀ a t', r = .ok a t' → ∃ b, Step t b t') {givesUp : ε → Bool}
    (after : answered givesUp r = some t') : CallStands bid card t' := by
  rcases plays.granted_or after with ⟨a, hr⟩ | rfl
  · obtain ⟨b, hstep⟩ := step a t' hr
    exact h.step hstep
  · exact h

/-- **An acknowledgement that does not deal leaves the bid as it is.** -/
theorem CallStands.acknowledge (h : CallStands bid card t) (hs : t.Sound) {files : Files}
    (ready : t.phase ≠ .awaitingReady)
    (after : Table.answered Refusal.givesUp ((Table.acknowledge files).run t) = some t') :
    CallStands bid card t' := by
  by_cases going : t.phase.inDeal ∧ t.phase.endsDeal = false
  · exact h.answered (acknowledge_plays hs files ready)
      (fun _ _ ok => ⟨none, acknowledge_step going.1 going.2 ok⟩) after
  · -- The table gets ready for the next deal, or the game stays stopped.
    have hnext : CallStands bid card { t with phase := .awaitingReady } := ⟨rfl, h.bid, h.called⟩
    unfold Table.acknowledge at after
    rw [get_bind_run] at after
    cases hp : t.phase with
    | awaitingPlayers | allPassed | dealEnded =>
      rw [hp] at after
      cases after
      exact hnext
    | stopped =>
      rw [hp] at after
      cases after
      exact h
    | awaitingReady => exact absurd hp ready
    | _ =>
      rw [hp] at going
      exact absurd ⟨rfl, rfl⟩ going

/-- Acknowledging everything goes on to the end of the deal at most. -/
theorem CallStands.acknowledgeAll (h : CallStands bid card t) (hs : t.Sound) {files : Files}
    (unready : t.phase ≠ .awaitingPlayers ∧ t.phase ≠ .awaitingReady)
    (after : Table.answered Refusal.givesUp ((Table.acknowledgeAll files).run t) = some t') :
    CallStands bid card t' := by
  let P : Table → Prop := fun t => t.Sound ∧ CallStands bid card t
    ∧ t.phase ≠ .awaitingPlayers ∧ t.phase ≠ .awaitingReady
  have hstep : ∀ t t', P t → t.phase.isResting = false →
      Table.answered Refusal.givesUp ((Table.acknowledge files).run t) = some t' → P t' := by
    intro t t' ⟨hs, h, unready⟩ busy hr
    refine ⟨(acknowledge_answers hs files t' hr).sound hs, h.acknowledge hs unready.2 hr, ?_⟩
    have hgoing : t.phase.inDeal ∧ t.phase.endsDeal = false := by
      revert busy unready
      cases t.phase <;> decide
    rcases (acknowledge_plays hs files unready.2).granted_or hr with ⟨next, hrun⟩ | rfl
    · have hdeal := (acknowledge_step hgoing.1 hgoing.2 hrun).inDeal
      constructor <;> intro hp <;> rw [hp] at hdeal <;> cases hdeal
    · exact unready
  exact (acknowledgeWithin_keeps (P := P) hstep ⟨hs, h, unready⟩ after).2.1

/-- **No call changes the bid before the next deal or table.** -/
theorem CallStands.call (h : CallStands bid card t) (hs : t.Sound) {files : Files} {c : Call}
    (goesOn : ¬ c.StartsAnew t) (after : c.after? files t = some t') : CallStands bid card t' := by
  cases c with
  | create n =>
    have unsupported : ¬ Rules.supported n := goesOn
    have hrun : (Table.create n).run t = .error ⟨n⟩ t := by rw [create_run, if_neg unsupported]
    rw [Call.after?, hrun] at after
    cases after
    exact h
  | setFirstDealer dealer =>
    cases after
    exact ⟨h.phase, h.bid, h.called⟩
  | setDistribution distribution =>
    cases after
    exact ⟨h.phase, h.bid, h.called⟩
  | newGame =>
    cases after
    exact ⟨rfl, h.bid, h.called⟩
  | stop =>
    cases after
    exact ⟨rfl, h.bid, h.called⟩
  | newDeal distribution => exact absurd trivial goesOn
  | placeBid seat contract slam =>
    exact h.answered (placeBid_plays t seat contract slam) (fun _ _ ok => ⟨_, placeBid_step ok⟩)
      after
  | callCard seat card' =>
    exact h.answered (callCard_plays t seat card') (fun _ _ ok => ⟨_, callCard_step ok⟩) after
  | layDiscard seat discard =>
    exact h.answered (layDiscard_plays t seat discard) (fun _ _ ok => ⟨_, layDiscard_step ok⟩) after
  | showHandle seat handle =>
    exact h.answered (showHandle_plays t seat handle) (fun _ _ ok => ⟨_, showHandle_step ok⟩) after
  | declineHandle seat =>
    exact h.answered (declineHandle_plays hs seat) (fun _ _ ok => ⟨_, declineHandle_step ok⟩) after
  | playCard seat c =>
    exact h.answered (playCard_plays t seat c) (fun _ _ ok => ⟨_, playCard_step ok⟩) after
  | apply seat action =>
    exact h.answered (apply_plays hs seat action) (fun _ _ ok => ⟨_, apply_step ok⟩) after
  | acknowledge => exact h.acknowledge hs goesOn after
  | acknowledgeAll => exact h.acknowledgeAll hs (not_or.mp goesOn) after

end Standing

/-- A table of the same deal is reached from a table that is. -/
theorem WithinDeal.reachable {t t' : Table} (h : WithinDeal t t') (ht : Reachable t) :
    Reachable t' := by
  induction h with
  | start => exact ht
  | call before files c goesOn after ih => exact ih.call files c after

theorem WithinDeal.callStands {t t' : Table} (h : WithinDeal t t') (ht : Reachable t) {bid : Bid}
    {card : Card} (hstands : CallStands bid card t) : CallStands bid card t' := by
  induction h with
  | start => exact hstands
  | call before files c goesOn after ih =>
    exact ih.call (before.reachable ht).sound goesOn after

/-! ## What a call comes to -/

/-- What the bid says about the partner. -/
structure CallHonoured (t : Table) : Prop where
  /-- At the smaller tables the taker is the partner as well. -/
  alone : t.players ≠ 5 → t.deal.bid.contract.isTaken →
    ∃ taker, t.deal.bid.taker = some taker ∧ t.deal.bid.partner = some taker
  /-- A call that is granted names the other seat that holds the card, or the taker if there is
  none, and that is the partner for the rest of the deal. -/
  named : ∀ taker card found called, (callCard taker card).run t = .ok found called →
    t.players = 5 ∧ t.deal.bid.taker = some taker ∧ ∃ partner,
      (∀ s, s ≠ taker → (card ∈ t.hand s ↔ s = partner))
        ∧ ∀ t', WithinDeal called t' → t'.deal.bid.taker = some taker
          ∧ t'.deal.bid.partner = some partner ∧ t'.calledCard = some card
  /-- At the end of the deal the partner has played the card, in one trick and in no other.  A taker
  without a partner has played it or set it aside. -/
  confirmed : t.players = 5 → t.phase = .dealEnded → ∃ card taker partner,
    t.calledCard = some card ∧ t.deal.bid.taker = some taker ∧ t.deal.bid.partner = some partner
      ∧ if t.deal.bid.hasPartner then t.deal.PlayedBy card partner
        else t.deal.PlayedBy card taker ∨ card ∈ t.deal.discard.cards

/-- **Where the called card is at the end of a deal.** -/
theorem CallTraced.confirmed {t : Table} (hs : t.Sound) (hk : t.PlaysKept)
    (phase : t.phase = .dealEnded) {card : Card} {taker partner : Seat}
    (h : t.CallTraced card taker partner) :
    t.deal.PlayedBy card partner ∨ partner = taker ∧ card ∈ t.deal.discard.cards := by
  have hduring : t.phase.duringPlay := by rw [phase]; rfl
  have hd := hs.during hduring
  obtain ⟨leader, r⟩ := hd.round
  have hposition : t.position = 0 := hd.between (.inr phase)
  have htrick : t.trick = [] := List.eq_nil_of_length_eq_zero (hd.trick_length.trans hposition)
  -- Everybody has played as many cards as there were tricks.
  have hempty : t.hand partner = [] := by
    by_cases hlt : partner.index < t.players
    · have hlength := r.hand_length partner hlt
      rw [(hd.ended phase).1] at hlength
      exact List.eq_nil_of_length_eq_zero (by omega)
    · exact hd.hand_empty partner (Nat.not_lt.mp hlt)
  have hplays : t.cardsPlayed = t.deal.plays := by
    rw [hk.during hduring, r.playedNow, htrick, List.zip_nil_right, List.append_nil]
  have hnodup := (List.nodup_append.mp hd.nodup_played).1
  rcases h.place with hin | hin | ⟨hsame, hin⟩
  · rw [hempty] at hin
    cases hin
  · exact .inl (DealState.playedBy_of_mem_plays hd.played hnodup (hplays ▸ hin))
  · refine .inr ⟨hsame, ?_⟩
    rw [aside, phase] at hin
    exact hin

/-- **The partner that a call names is the seat that the play shows.** -/
theorem Reachable.callHonoured {t : Table} (h : Reachable t) : t.CallHonoured where
  alone := fun other taken => h.callKept.alone other taken
  named := by
    intro taker card found called ok
    have ok' := ok
    rw [callCard_run, check_eq_ok] at ok
    obtain ⟨phase, ok⟩ := ok
    cases htaker : t.deal.bid.taker with
    | none =>
      rw [htaker] at ok
      cases ok
    | some seat =>
      rw [htaker] at ok
      dsimp only at ok
      rw [check_eq_ok, check_eq_ok] at ok
      obtain ⟨rfl, callable, ok⟩ := ok
      have hb := h.sound.before (by rw [phase]; rfl)
      have hcalled : Reachable called := h.call (fun _ => none) (.callCard seat card) (by
        rw [Call.after?, ok']
        rfl)
      cases ok
      have htraced := CallTraced.afterCall h.sound.toSeated hb htaker callable
      obtain ⟨hspec, _⟩ := hb.calledPartner_spec h.sound.toSeated seat
        (Cards.valid_of_canCall callable)
      refine ⟨h.callKept.five phase, rfl, _, hspec, fun t' within => ?_⟩
      obtain ⟨_, hbid, hcard⟩ := within.callStands hcalled ⟨rfl, rfl, rfl⟩
      rw [hbid]
      exact ⟨htraced.isTaker, htraced.isPartner, hcard⟩
  confirmed := by
    intro five phase
    obtain ⟨card, taker, partner, traced⟩ := h.callKept.traced five (by rw [phase]; rfl)
    have hend := traced.confirmed h.sound h.playsKept phase
    refine ⟨card, taker, partner, traced.called, traced.isTaker, traced.isPartner, ?_⟩
    have hpartner : t.deal.bid.hasPartner = decide (taker ≠ partner) := by
      rw [Bid.hasPartner, traced.isTaker, traced.isPartner]
    split
    · rename_i with_partner
      rw [hpartner, decide_eq_true_eq] at with_partner
      exact hend.resolve_right fun hout => with_partner hout.1.symm
    · rename_i alone
      rw [hpartner, decide_eq_true_eq, ne_eq, not_not] at alone
      subst alone
      exact hend.imp_right And.right

/-- A deal for five that was played to its end. -/
theorem trialEnd_callHonoured : trialEnd.phase = .dealEnded ∧ trialEnd.CallHonoured :=
  ⟨trial_phases.2, Reachable.callHonoured trialEnd_reachable⟩

end Table

end FrenchTarot
