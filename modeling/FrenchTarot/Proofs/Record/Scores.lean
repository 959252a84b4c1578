import FrenchTarot.Proofs.Deal.Shares
import FrenchTarot.Proofs.Record.Replay

/-!
# Which records add up

A replay looks at the cards of a record and not at who played.  It accepts any taker and any partner,
also a taker who does not sit at the table, and a partner at a table of three or four.  The scores of
such a deal do not add up, unless there is nothing to win: `Record.replay_balanced_iff` says which
records that are accepted make a deal that does.
-/

namespace FrenchTarot

/-- A record says who took, who sits at the table, and has another seat for the partner at a table of
five only. -/
def DealInfo.Seated (i : DealInfo) : Prop :=
  (∃ taker, i.taker = some taker ∧ taker.index < i.players.toNat)
    ∧ ∀ partner, i.partner = some partner → i.taker = some partner ∨ i.players = 5

namespace Record

/-- A replay leaves the bid of the record as it is, and the number of players. -/
theorem frame_of_replay {r : Record} {d : DealState} (h : r.replay = .ok d) :
    d.players = r.info.players.toNat ∧ d.bid = (opening r.info).bid := by
  have hopening := opening_of_replay h
  have hplayers := congrArg DealState.players hopening
  have hbid := congrArg DealState.bid hopening
  exact ⟨hplayers.symm, hbid.symm⟩

/-- The bid of a record is one of the rules exactly if the record says so. -/
theorem seatedAt_opening_iff (i : DealInfo) :
    (opening i).bid.SeatedAt i.players.toNat ↔ i.Seated := by
  obtain ⟨players, taker, contract, slam, lead, dog, h1, h2, partner⟩ := i
  have hfive : players.toNat = 5 ↔ players = 5 := UInt8.toNat_inj (b := 5)
  refine and_congr_right fun ⟨t, ht, _⟩ => ?_
  obtain rfl : taker = some t := ht
  -- The partner is the taker where the record has none.
  cases partner with
  | none => simp [opening, Bid.hasPartner]
  | some p =>
    by_cases hp : t = p
    · simp [opening, Bid.hasPartner, hp]
    · simp [opening, Bid.hasPartner, hp, hfive]

/-- **The scores of a deal that was accepted add up exactly if there is nothing to win or the record
has its players at the table.** -/
theorem replay_balanced_iff {r : Record} {d : DealState} (h : r.replay = .ok d) :
    d.result.Balanced d.bid r.info.players.toNat ↔
      d.result.unit d.bid = 0 ∨ r.info.Seated := by
  obtain ⟨hplayers, hbid⟩ := frame_of_replay h
  have hn : Rules.supported r.info.players.toNat := hplayers ▸ (finished_of_replay h).supported
  rw [d.result.balanced_iff d.bid hn, ← seatedAt_opening_iff, hbid]

/-- A deal of three in the order of the deck, where the taker has a partner. -/
def threeWithPartner : Record where
  version := currentVersion
  info :=
    { players := 3
      taker := some .south
      contract := .take
      slam := false
      firstLead := some .south
      dog := []
      attackHandle := []
      defenseHandle := []
      partner := some .east }
  tricks := (List.range 24).map fun k => (Cards.standard.drop (3 * k)).take 3

/-- The taker and the partner win two units and one, and only one seat is left to pay for them. -/
theorem threeWithPartner_scores : ∃ d, threeWithPartner.replay = .ok d
    ∧ d.result.seatScores d.bid 3 = ⟨88, 44, -44, 0, 0⟩ := by
  have h : threeWithPartner.replay.toOption.map (fun d => d.result.seatScores d.bid 3) =
      some ⟨88, 44, -44, 0, 0⟩ := by
    decide +kernel
  exact exists_of_map_toOption h

theorem threeWithPartner_balanced_iff : ∃ d, threeWithPartner.replay = .ok d
    ∧ (d.result.Balanced d.bid 3 ↔
      d.result.unit d.bid = 0 ∨ threeWithPartner.info.Seated) := by
  obtain ⟨d, hr, _⟩ := threeWithPartner_scores
  exact ⟨d, hr, replay_balanced_iff hr⟩

theorem threeWithPartner_unbalanced : ∃ d, threeWithPartner.replay = .ok d
    ∧ ¬ d.result.Balanced d.bid threeWithPartner.info.players.toNat := by
  obtain ⟨d, hr, hscores⟩ := threeWithPartner_scores
  refine ⟨d, hr, fun ⟨hsum, _⟩ => ?_⟩
  rw [show threeWithPartner.info.players.toNat = 3 from rfl, hscores] at hsum
  revert hsum
  decide

end Record

end FrenchTarot
