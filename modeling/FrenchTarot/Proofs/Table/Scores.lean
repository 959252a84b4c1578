import FrenchTarot.Proofs.Deal.Shares
import FrenchTarot.Proofs.Table.CalledCard

/-!
# What the seats win at a table

The scores of the seats add up for the bids of the rules, with a taker who sits at the table and a
partner at a table of five only (`Points.settled`).  Scoring does not check the bid.  It need not at
a table: the auction leaves a taker who sits there and has nobody else for the partner, and a card
is called by five players only (`Reachable.seatedAt`).
-/

namespace FrenchTarot.Table

/-- **At the end of a deal the bid is one of the rules.** -/
theorem Reachable.seatedAt {t : Table} (h : t.Reachable) (ended : t.phase = .dealEnded) :
    t.deal.bid.SeatedAt t.players := by
  have hp := h.sound.during (by rw [ended]; rfl)
  obtain ⟨taker, _, htaker, hlt, _⟩ := hp.bid.taken hp.taken
  refine ⟨⟨taker, htaker, hlt⟩, fun hpartner => ?_⟩
  by_contra hother
  obtain ⟨taker, htaker, hsame⟩ := h.callKept.alone hother hp.taken
  simp [Bid.hasPartner, htaker, hsame] at hpartner

/-- **With a bid of the rules the scores of the seats add up to nothing, and on each side to what it
has won; and the bid is one of the rules whenever a deal has been played.** -/
theorem scores_settled :
    (∀ (p : Points) (b : Bid) (n : Nat), Rules.supported n → b.SeatedAt n → p.Settled b n)
      ∧ ∀ t : Table, t.Reachable → t.phase = .dealEnded →
        Rules.supported t.players ∧ t.deal.bid.SeatedAt t.players :=
  ⟨fun p _ _ hn hb => p.settled hn hb,
    fun _ h ended => ⟨h.sound.supported, h.seatedAt ended⟩⟩

/-- The partner of South at a table of five is the fifth seat, and the points of a deal that was
played at a table are shared. -/
theorem trialEnd_settled :
    (∀ p : Points, p.Settled ⟨some .south, some .fifth, .guard, true⟩ 5)
      ∧ trialEnd.deal.result.Settled trialEnd.deal.bid trialEnd.players := by
  obtain ⟨hsettled, hends⟩ := scores_settled
  obtain ⟨hn, hb⟩ := hends trialEnd trialEnd_reachable trial_phases.2
  have hfive : (⟨some .south, some .fifth, .guard, true⟩ : Bid).SeatedAt 5 :=
    ⟨⟨.south, rfl, by decide⟩, fun _ => rfl⟩
  exact ⟨fun p => hsettled p _ 5 (by decide) hfive, hsettled _ _ _ hn hb⟩

end FrenchTarot.Table
