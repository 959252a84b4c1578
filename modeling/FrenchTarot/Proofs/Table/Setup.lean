import FrenchTarot.Proofs.Table.NewDeal
import FrenchTarot.Proofs.Table.Reachable

/-!
# How a game begins

A configuration that is accepted sets up a table: the table is created for the players, and the
dealer and the distribution are chosen.  These are calls as any others (`Reachable.setup`), so that
all that is known of the tables that calls lead to is known of the table of a game.

From there a game goes from deal to deal: where nothing goes on at a table, it is made ready for the
next one by an acknowledgement (`acknowledge_idle`).
-/

namespace FrenchTarot

/-- The players are checked before anything else. -/
theorem Config.supported_of_check {c : Config} (accepted : c.check = .ok ()) :
    Rules.supported c.players.toNat := by
  unfold check at accepted
  obtain ⟨_, players, _⟩ := bind_eq_ok.mp accepted
  exact Rules.checkPlayers_eq_ok.mp (mapError_eq_ok.mp players)

namespace Table

variable {t t' : Table} {c : Config}

/-- A table is created, then the dealer and the distribution are chosen. -/
theorem setup_run (accepted : c.check = .ok ()) {transition : Transition}
    (created : (create c.players.toNat).run t = .ok transition t') :
    (setup c).run t = .ok transition
      { (c.dealer.elim t' fun dealer => { t' with dealer := dealer.previous t'.players }) with
        distribution := c.distribution } := by
  unfold setup
  rw [accepted]
  show ((create c.players.toNat).adaptExcept ConfigError.players >>= _).run t = _
  rw [EStateM.run_bind, EStateM.run_adaptExcept, created]
  cases c.dealer <;> rfl

/-- **A table is set up by calls, and waits for the players then.** -/
theorem Reachable.setup (h : Reachable t) (accepted : c.check = .ok ()) :
    ∃ transition t', (setup c).run t = .ok transition t' ∧ Reachable t'
      ∧ t'.phase = .awaitingPlayers ∧ t'.distribution = c.distribution := by
  have hcreate := create_run t c.players.toNat
  rw [if_pos (Config.supported_of_check accepted)] at hcreate
  have created := h.call (fun _ => none) (.create c.players.toNat) (congrArg (answered _) hcreate)
  refine ⟨_, _, setup_run accepted hcreate, ?_⟩
  cases c.dealer with
  | none =>
    exact ⟨created.call (fun _ => none) (.setDistribution c.distribution) rfl, rfl, rfl⟩
  | some dealer =>
    have chosen := created.call (fun _ => none) (.setFirstDealer dealer) rfl
    exact ⟨chosen.call (fun _ => none) (.setDistribution c.distribution) rfl, rfl, rfl⟩

/-- A table where nothing goes on gets ready for a deal. -/
theorem acknowledge_idle (files : Files)
    (idle : t.phase = .awaitingPlayers ∨ t.phase = .allPassed ∨ t.phase = .dealEnded) :
    ∃ transition, (acknowledge files).run t =
      .ok transition { t with phase := .awaitingReady } := by
  unfold acknowledge
  rw [get_bind_run]
  rcases idle with idle | idle | idle <;> rw [idle] <;> exact ⟨_, rfl⟩

end Table

end FrenchTarot
