import FrenchTarot.Proofs.Table.Reachable

/-!
# No card is lost

As long as there is a deal on a table, its cards are the deck: what the hands hold, what lies in the
trick in progress, what was won in the tricks before and what was set aside.  Bids, calls, the
exchange with the dog, the play, and any call that comes at the wrong time leave this true.

Besides the cards this module counts them.  A seat has one card less for every trick that is over,
and one less again once it has played to the trick in progress, which is read off the history.
-/

namespace FrenchTarot.Table

/-- The seats that have played to the trick in progress. -/
def playedSeats (t : Table) : List Seat := t.playedNow.map Prod.fst

/-- The cards of the deck and where they are. -/
structure Conserved (t : Table) : Prop where
  /-- All cards together are the deck. -/
  perm : (t.held ++ t.trick ++ t.deal.tricks.flatMap PlayedTrick.cards ++ t.aside).Perm
    Cards.standard
  /-- No card is there twice. -/
  nodup : (t.held ++ t.trick ++ t.deal.tricks.flatMap PlayedTrick.cards ++ t.aside).Nodup
  /-- The deal has the tricks that the table has counted. -/
  tricks_length : t.deal.tricks.length = t.tricksDone
  /-- The discard, once it is made, is as large as the dog. -/
  discard_length : t.phase.duringPlay → t.deal.discard.cards.length = Rules.dogSize t.players
  /-- Seats that do not take part hold nothing. -/
  hand_empty : ∀ s : Seat, t.players ≤ s.index → t.hand s = []
  /-- A seat has played one card in every trick, as far as it had its turn. -/
  hand_length : ∀ s : Seat, s.index < t.players →
    (t.hand s).length + t.tricksDone + (if s ∈ t.playedSeats then 1 else 0)
      = Rules.handSize t.players

theorem conserved_of_beforePlay {t : Table} (h : t.BeforePlay) (phase : t.phase.beforePlay) :
    t.Conserved := by
  have hperm : (t.held ++ t.trick ++ t.deal.tricks.flatMap PlayedTrick.cards ++ t.aside).Perm
      Cards.standard := by
    rw [h.trick, h.tricks, List.flatMap_nil, List.append_nil, List.append_nil, aside, if_pos phase]
    exact h.perm
  exact {
    perm := hperm
    nodup := hperm.nodup_iff.mpr Cards.nodup_standard
    tricks_length := by rw [h.tricks, h.tricksDone]; rfl
    discard_length := fun during => absurd ⟨phase, during⟩ t.phase.not_both
    hand_empty := h.hand_empty
    hand_length := fun s hs => by
      rw [playedSeats, h.playedNow, h.tricksDone, List.map_nil, if_neg List.not_mem_nil]
      exact h.hand_length s hs }

/-- The seats that have played are those of the round. -/
theorem InPlay.playedSeats_eq {t : Table} (h : t.InPlay) {leader : Seat} (r : t.InRound leader) :
    t.playedSeats = leader.round t.position t.players := by
  rw [playedSeats, r.playedNow, List.map_fst_zip]
  rw [Seat.length_round, h.trick_length]

theorem conserved_of_inPlay {t : Table} (h : t.InPlay) (phase : t.phase.duringPlay) :
    t.Conserved := by
  obtain ⟨leader, r⟩ := h.round
  have haside : t.aside = t.deal.discard.cards :=
    if_neg fun before => t.phase.not_both ⟨before, phase⟩
  have hperm : (t.held ++ t.trick ++ t.deal.tricks.flatMap PlayedTrick.cards ++ t.aside).Perm
      Cards.standard := by
    rw [haside]
    exact h.perm
  exact {
    perm := hperm
    nodup := hperm.nodup_iff.mpr Cards.nodup_standard
    tricks_length := h.tricks_length
    discard_length := fun _ => h.discard_length
    hand_empty := h.hand_empty
    hand_length := by
      rw [h.playedSeats_eq r]
      exact r.hand_length }

/-- **With a deal on it, every table that can be reached has the whole deck.** -/
theorem Reachable.conserved {t : Table} (h : Reachable t) (deal : t.phase.inDeal) :
    t.Conserved := by
  rcases Bool.or_eq_true_iff.mp deal with phase | phase
  · exact conserved_of_beforePlay (h.sound.before phase) phase
  · exact conserved_of_inPlay (h.sound.during phase) phase

/-- At the end of a deal that was played. -/
theorem trialEnd_conserved : trialEnd.Conserved :=
  Reachable.conserved trialEnd_reachable (by rw [trial_phases.2]; rfl)

end FrenchTarot.Table
