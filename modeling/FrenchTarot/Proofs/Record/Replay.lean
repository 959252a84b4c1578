import FrenchTarot.Proofs.Cards.Figures
import FrenchTarot.Proofs.Checks
import FrenchTarot.Proofs.Table.Reachable

/-!
# A record replays to the deal that was played

A table and a replay come to a finished deal on different ways.  The table follows the deal card by
card.  A record keeps only what cannot be computed, and the replay plays the tricks again and takes
for the discard what was never played.

What the two have in common is `DealState.Finished`: all tricks were added one after the other, and
tricks and discard are the deck.  Replaying the record of such a deal takes the same steps again
(`played_playTricks`), so that it gives the same deal but for the order of the discard
(`replay_ofState`).  The result does not depend on that order.
-/

namespace FrenchTarot

namespace DealState

/-- A deal of which every card has been played or set aside. -/
structure Finished (d : DealState) : Prop where
  supported : Rules.supported d.players
  played : d.Played
  tricks_length : d.tricks.length = Rules.handSize d.players
  /-- Tricks and discard are the deck. -/
  perm : (d.tricks.flatMap PlayedTrick.cards ++ d.discard.cards).Perm Cards.standard
  /-- The contract says who owns the discard. -/
  discard_owner : d.discard.owner = some (Record.discardOwner d.bid.contract)

/-- What was not played is the discard. -/
theorem Finished.discard_length {d : DealState} (h : d.Finished) :
    d.discard.cards.length = Rules.dogSize d.players := by
  have hall := h.perm.length_eq
  rw [List.length_append, h.played.length_flatMap, h.tricks_length, Cards.length_standard] at hall
  have := Rules.hands_and_dog h.supported
  omega

/-- Tricks and discard have no card twice, and none in common. -/
theorem Finished.distinct {d : DealState} (h : d.Finished) :
    (d.tricks.flatMap PlayedTrick.cards).Nodup ∧ d.discard.cards.Nodup
      ∧ ∀ c ∈ d.tricks.flatMap PlayedTrick.cards, c ∉ d.discard.cards := by
  obtain ⟨htricks, hdiscard, hapart⟩ :=
    List.nodup_append.mp (h.perm.nodup_iff.mpr Cards.nodup_standard)
  exact ⟨htricks, hdiscard, fun c hc hc' => hapart c hc c hc' rfl⟩

/-- The deal without its tricks. -/
def untricked (d : DealState) : DealState := { d with tricks := [], tricksWon := 0, attack := {} }

theorem untricked_eq {d : DealState} (tricks : d.tricks = []) (tricksWon : d.tricksWon = 0)
    (attack : d.attack = {}) : d.untricked = d := by
  obtain ⟨players, bid, dog, discard, h1, h2, ts, won, figures, first⟩ := d
  subst tricks tricksWon attack
  rfl

theorem untricked_addTrick {d d' : DealState} {trick : Cards} {winner : Seat}
    (h : d.addTrick trick = .ok (d', winner)) : d'.untricked = d.untricked := by
  obtain ⟨_, _, _, _, rfl, _⟩ := addTrick_eq_ok.mp h
  rfl

theorem flatMap_withTrick (d : DealState) (leader : Seat) (trick : Cards) :
    (d.withTrick leader trick).tricks.flatMap PlayedTrick.cards =
      d.tricks.flatMap PlayedTrick.cards ++ trick := by
  rw [withTrick_tricks, List.flatMap_append, List.flatMap_singleton]

end DealState

namespace Record

/-! ## Playing tricks again -/

/-- A trick whose cards are left is added, and its cards are taken away. -/
theorem playTricks_cons {d d' : DealState} {remaining trick : Cards} {winner : Seat}
    (hnodup : trick.Nodup) (hmem : ∀ c ∈ trick, c ∈ remaining)
    (hadd : d.addTrick trick = .ok (d', winner)) (number : Nat) (tricks : List Cards) :
    playTricks d remaining number (trick :: tricks) =
      playTricks d' (remaining.takeOut trick).1 (number + 1) tricks := by
  have hall := Cards.takeOut_snd_eq_length.mpr ⟨hnodup, hmem⟩
  have hsize := (DealState.addTrick_eq_ok.mp hadd).1
  rw [playTricks, if_neg (by omega)]
  dsimp only
  rw [if_neg (by omega), hadd]

/-- **A trick that was played had its cards left, and it could be added.** -/
theorem playTricks_cons_eq_ok {d d' : DealState} {remaining remaining' trick : Cards}
    {number : Nat} {tricks : List Cards}
    (h : playTricks d remaining number (trick :: tricks) = .ok (d', remaining')) :
    trick.Nodup ∧ (∀ c ∈ trick, c ∈ remaining) ∧ ∃ d1 winner,
      d.addTrick trick = .ok (d1, winner) ∧
        playTricks d1 (remaining.takeOut trick).1 (number + 1) tricks = .ok (d', remaining') := by
  rw [playTricks] at h
  dsimp only at h
  split at h
  · cases h
  rename_i hsize
  split at h
  · cases h
  rename_i hfound
  have hall : (remaining.takeOut trick).2 = trick.length := by omega
  obtain ⟨hnodup, hmem⟩ := Cards.takeOut_snd_eq_length.mp hall
  split at h
  · cases h
  · rename_i d1 winner hadd
    exact ⟨hnodup, hmem, d1, winner, hadd, h⟩

/-- Playing tricks goes on where the tricks before have ended. -/
theorem playTricks_append {d d' : DealState} {remaining remaining' : Cards} {number : Nat}
    {xs : List Cards} (h : playTricks d remaining number xs = .ok (d', remaining'))
    (ys : List Cards) : playTricks d remaining number (xs ++ ys) =
      playTricks d' remaining' (number + xs.length) ys := by
  induction xs generalizing d remaining number with
  | nil =>
    cases h
    rfl
  | cons trick xs ih =>
    obtain ⟨hnodup, hmem, d1, winner, hadd, h⟩ := playTricks_cons_eq_ok h
    rw [List.cons_append, playTricks_cons hnodup hmem hadd, ih h, List.length_cons,
      show number + (xs.length + 1) = number + 1 + xs.length by omega]

/-- **A played deal comes from its tricks: playing them again from the deck gives the deal and the
cards that are left.** -/
theorem played_playTricks {d : DealState} (h : d.Played) {deck : Cards} (hdeck : deck.Nodup)
    {rest : Cards} (hperm : (d.tricks.flatMap PlayedTrick.cards ++ rest).Perm deck) :
    ∃ remaining, playTricks d.untricked deck 1 (d.tricks.map PlayedTrick.cards) =
      .ok (d, remaining) ∧ remaining.Nodup ∧ remaining.Perm rest := by
  induction h generalizing rest with
  | opening tricks tricksWon attack =>
    rename_i d
    have hsame : d.untricked = d := DealState.untricked_eq tricks tricksWon attack
    rw [tricks, List.flatMap_nil, List.nil_append] at hperm
    rw [hsame, tricks]
    exact ⟨deck, rfl, hdeck, hperm.symm⟩
  | trick before added ih =>
    rename_i d d' trick winner
    have hbase := DealState.untricked_addTrick added
    -- For the tricks before, the last one is part of what is left.
    obtain ⟨_, _, leader, _, hd', _⟩ := DealState.addTrick_eq_ok.mp added
    rw [hd', DealState.flatMap_withTrick, List.append_assoc] at hperm
    obtain ⟨remaining, hplay, hnodup, hrest⟩ := ih hperm
    have htrick : trick.Nodup := by
      have := hperm.nodup_iff.mpr hdeck
      exact (List.nodup_append.mp (List.nodup_append.mp this).2.1).1
    have hmem : ∀ c ∈ trick, c ∈ remaining :=
      fun c hc => hrest.mem_iff.mpr (List.mem_append_left rest hc)
    have htaken := Cards.perm_append_takeOut hnodup htrick hmem
    refine ⟨(remaining.takeOut trick).1, ?_, ?_, ?_⟩
    · have hcards : d'.tricks.map PlayedTrick.cards =
          d.tricks.map PlayedTrick.cards ++ [trick] := by
        rw [hd', DealState.withTrick_cards]
      rw [hbase, hcards, playTricks_append hplay]
      exact playTricks_cons htrick hmem added _ []
    · rw [Cards.takeOut_fst]
      exact hnodup.filter _
    · exact (List.perm_append_left_iff trick).mp (htaken.trans hrest)

/-! ## What a replay comes to -/

/-- **What replaying asks for, and what it gives.** -/
theorem replay_eq_ok {r : Record} {d : DealState} :
    r.replay = .ok d ↔ Rules.supported r.info.players.toNat
      ∧ r.tricks.length = Rules.handSize r.info.players.toNat
      ∧ ∃ d0 remaining, playTricks (opening r.info) Cards.standard 1 r.tricks = .ok (d0, remaining)
        ∧ remaining.length = Rules.dogSize r.info.players.toNat
        ∧ d = d0.setDiscard remaining (discardOwner r.info.contract) := by
  unfold replay
  constructor
  · intro h
    obtain ⟨_, hplayers, h⟩ := bind_eq_ok.mp h
    split at h
    · cases h
    rename_i hcount
    obtain ⟨⟨d0, remaining⟩, hplay, h⟩ := bind_eq_ok.mp h
    dsimp only at h
    split at h
    · cases h
    rename_i hdiscard
    rw [pure_eq_ok] at h
    exact ⟨Rules.checkPlayers_eq_ok.mp (mapError_eq_ok.mp hplayers),
      Classical.not_not.mp hcount, d0, remaining, hplay, Classical.not_not.mp hdiscard, h.symm⟩
  · rintro ⟨hn, hcount, d0, remaining, hplay, hdiscard, rfl⟩
    refine bind_eq_ok.mpr ⟨(), mapError_eq_ok.mpr (Rules.checkPlayers_eq_ok.mpr hn), ?_⟩
    rw [if_neg (fun h => h hcount)]
    refine bind_eq_ok.mpr ⟨(d0, remaining), hplay, ?_⟩
    dsimp only
    rw [if_neg (fun h => h hdiscard)]
    rfl

/-- Playing tricks of distinct cards moves them from the cards that are left into the deal. -/
theorem playTricks_played {d d' : DealState} {remaining remaining' : Cards} {number : Nat}
    {tricks : List Cards} (hd : d.Played) (hnodup : remaining.Nodup)
    (h : playTricks d remaining number tricks = .ok (d', remaining')) :
    d'.Played ∧ d'.untricked = d.untricked ∧ d'.tricks.length = d.tricks.length + tricks.length
      ∧ (d'.tricks.flatMap PlayedTrick.cards ++ remaining').Perm
        (d.tricks.flatMap PlayedTrick.cards ++ remaining) := by
  induction tricks generalizing d remaining number with
  | nil =>
    cases h
    exact ⟨hd, rfl, rfl, List.Perm.refl _⟩
  | cons trick tricks ih =>
    obtain ⟨htrick, hmem, d1, winner, hadd, h⟩ := playTricks_cons_eq_ok h
    have hrest : (remaining.takeOut trick).1.Nodup := by
      rw [Cards.takeOut_fst]
      exact hnodup.filter _
    obtain ⟨hplayed, hbase, hlength, hperm⟩ := ih (hd.trick hadd) hrest h
    obtain ⟨_, _, leader, _, rfl, _⟩ := DealState.addTrick_eq_ok.mp hadd
    refine ⟨hplayed, hbase.trans (DealState.untricked_addTrick hadd), ?_, hperm.trans ?_⟩
    · rw [hlength, DealState.withTrick_tricks]
      simp only [List.length_append, List.length_cons, List.length_nil]
      omega
    · rw [DealState.flatMap_withTrick, List.append_assoc]
      exact (Cards.perm_append_takeOut hnodup htrick hmem).append_left _

/-- Without its tricks and its discard, a replayed deal is what the record says about it. -/
theorem opening_of_replay {r : Record} {d : DealState} (h : r.replay = .ok d) :
    opening r.info = (d.reset d.dog .empty d.attackHandle d.defenseHandle).untricked := by
  obtain ⟨_, _, d0, remaining, hplay, _, rfl⟩ := replay_eq_ok.mp h
  obtain ⟨_, hbase, _⟩ := playTricks_played (.opening rfl rfl rfl) Cards.nodup_standard hplay
  have hdiscard : d0.discard = .empty := congrArg DealState.discard hbase
  rw [show opening r.info = (opening r.info).untricked from rfl, ← hbase]
  obtain ⟨players, bid, dog, discard⟩ := d0
  subst hdiscard
  rfl

/-- **A deal that a replay gives is finished.** -/
theorem finished_of_replay {r : Record} {d : DealState} (h : r.replay = .ok d) : d.Finished := by
  obtain ⟨hn, hcount, d0, remaining, hplay, hdiscard, rfl⟩ := replay_eq_ok.mp h
  obtain ⟨hplayed, hbase, hlength, hperm⟩ :=
    playTricks_played (.opening rfl rfl rfl) Cards.nodup_standard hplay
  have hplayers : d0.players = r.info.players.toNat := congrArg DealState.players hbase
  have hbid : d0.bid.contract = r.info.contract :=
    congrArg (fun d => d.bid.contract) hbase
  exact {
    supported := hplayers ▸ hn
    played := hplayed.setDiscard _ _
    tricks_length := by
      show d0.tricks.length = Rules.handSize d0.players
      rw [hlength, hcount, hplayers]
      exact Nat.zero_add _
    perm := hperm
    discard_owner := by
      show some (discardOwner r.info.contract) = some (discardOwner d0.bid.contract)
      rw [hbid] }

end Record

/-! ## Tables and their records -/

/-- **At the end of a deal, the deal of the table is finished.** -/
theorem Table.Reachable.finished {t : Table} (h : t.Reachable) (ended : t.phase = .dealEnded) :
    t.deal.Finished := by
  have hs := h.sound.toSeated
  have hp := h.sound.during (by rw [ended]; rfl)
  obtain ⟨leader, r⟩ := hp.round
  have hend := (hp.ended ended).1
  have htrick : t.trick = [] := by
    rw [← List.length_eq_zero_iff, hp.trick_length]
    exact hp.between (Or.inr ended)
  -- Every seat has played as many cards as it had.
  have hheld : t.held = [] := by
    refine List.flatMap_eq_nil_iff.mpr fun s hs => ?_
    have := r.hand_length s (Seat.mem_taken.mp hs)
    exact List.length_eq_zero_iff.mp (by omega)
  exact {
    supported := hs.deal_players ▸ hs.supported
    played := hp.played
    tricks_length := by rw [hp.tricks_length, hend, hs.deal_players]
    perm := by
      have := hp.perm
      rw [hheld, htrick] at this
      exact this
    discard_owner := hp.discard_owner }

/-- A deal that is over, at a table or in a replay. -/
inductive DealState.Over : DealState → Prop where
  | table {t : Table} (reachable : t.Reachable) (ended : t.phase = .dealEnded) : Over t.deal
  | replay {r : Record} {d : DealState} (replayed : r.replay = .ok d) : Over d

theorem DealState.Over.finished {d : DealState} (h : d.Over) : d.Finished := by
  cases h with
  | table reachable ended => exact reachable.finished ended
  | replay replayed => exact Record.finished_of_replay replayed

namespace DealState

/-- The same deal, but for the order of the discard. -/
structure Same (d d' : DealState) : Prop where
  players : d.players = d'.players
  /-- Taker, partner, contract and slam. -/
  bid : d.bid = d'.bid
  dog : d.dog = d'.dog
  attackHandle : d.attackHandle = d'.attackHandle
  defenseHandle : d.defenseHandle = d'.defenseHandle
  firstPlayer : d.firstPlayer = d'.firstPlayer
  /-- The tricks with their winners and owners. -/
  tricks : d.tricks = d'.tricks
  tricksWon : d.tricksWon = d'.tricksWon
  attack : d.attack = d'.attack
  discard_owner : d.discard.owner = d'.discard.owner
  discard_perm : d.discard.cards.Perm d'.discard.cards

/-- The order of the discard does not count. -/
theorem Same.result {d d' : DealState} (h : d.Same d') : d.result = d'.result := by
  have htotal : d.attackTotal = d'.attackTotal := by
    rw [attackTotal, attackTotal, h.discard_owner, h.attack,
      Statistics.addTrumps_perm _ h.discard_perm]
  have hslam : d.slamTeam = d'.slamTeam := by
    rw [slamTeam, slamTeam, h.tricksWon, h.players]
  have hbonus : d.littleTrumpOwner = d'.littleTrumpOwner := by
    rw [littleTrumpOwner, littleTrumpOwner, bonusTrick?, bonusTrick?, h.tricks, hslam]
  rw [DealState.result, DealState.result, htotal, hslam, hbonus, h.attackHandle, h.defenseHandle,
    h.players]

end DealState

namespace Record

/-- A record keeps the partner: the taker when there is no other one. -/
theorem bid_opening {d : DealState} {taker partner : Seat} (htaker : d.bid.taker = some taker)
    (hpartner : d.bid.partner = some partner) : (opening (ofState d).info).bid = d.bid := by
  -- The record has no partner when the taker plays alone, and the replay puts the taker back.
  obtain ⟨players, ⟨bidTaker, bidPartner, contract, slam⟩⟩ := d
  dsimp only at htaker hpartner
  subst htaker hpartner
  by_cases hsame : taker = partner
  · simp [opening, ofState, Bid.hasPartner, hsame]
  · simp [opening, ofState, Bid.hasPartner, hsame]

/-- A replay begins with the deal before its first trick. -/
theorem opening_ofState {d : DealState} (hn : Rules.supported d.players) {taker partner : Seat}
    (htaker : d.bid.taker = some taker) (hpartner : d.bid.partner = some partner) :
    opening (ofState d).info =
      (d.reset d.dog .empty d.attackHandle d.defenseHandle).untricked := by
  have hplayers : (ofState d).info.players.toNat = d.players := by
    -- The record keeps the number in a byte, which is enough for the sizes of a table.
    rcases Rules.supported_iff.mp hn with h | h | h <;> simp [ofState, h]
  have hbid := bid_opening htaker hpartner
  show { opening (ofState d).info with
    players := (ofState d).info.players.toNat, bid := (opening (ofState d).info).bid } = _
  rw [hplayers, hbid]
  rfl

/-- **The record of a finished deal replays to the deal.** -/
theorem replay_of_finished {d : DealState} (h : d.Finished) {taker partner : Seat}
    (htaker : d.bid.taker = some taker) (hpartner : d.bid.partner = some partner) :
    ∃ d', (ofState d).replay = .ok d' ∧ d.Same d' := by
  have hopening := opening_ofState h.supported htaker hpartner
  have hplayers : (ofState d).info.players.toNat = d.players := congrArg DealState.players hopening
  -- The replay plays the tricks before it knows the discard.
  obtain ⟨remaining, hplay, _, hrest⟩ :=
    played_playTricks (h.played.frame d.dog .empty d.attackHandle d.defenseHandle)
      Cards.nodup_standard h.perm
  have hlength := hrest.length_eq.trans h.discard_length
  refine ⟨_, replay_eq_ok.mpr ⟨?_, ?_, d.reset d.dog .empty d.attackHandle d.defenseHandle,
    remaining, ?_, ?_, rfl⟩, ?_⟩
  · rw [hplayers]
    exact h.supported
  · rw [hplayers]
    exact (List.length_map _).trans h.tricks_length
  · rw [hopening]
    exact hplay
  · rw [hplayers]
    exact hlength
  · exact ⟨rfl, rfl, rfl, rfl, rfl, rfl, rfl, rfl, rfl, h.discard_owner, hrest.symm⟩

/-- **The record of a deal replays to the deal that was played.** -/
theorem replay_ofState {t : Table} (h : t.Reachable) (ended : t.phase = .dealEnded) :
    ∃ d, (ofState t.deal).replay = .ok d ∧ t.deal.Same d ∧ t.points = some d.result := by
  have hp := h.sound.during (by rw [ended]; rfl)
  obtain ⟨taker, partner, htaker, _, hpartner, _⟩ := hp.bid.taken hp.taken
  obtain ⟨d, hreplay, hsame⟩ := replay_of_finished (h.finished ended) htaker hpartner
  exact ⟨d, hreplay, hsame, by rw [(hp.ended ended).2, hsame.result]⟩

/-- A deal that was played to its end, and its record. -/
theorem replay_trialEnd : ∃ d, (ofState Table.trialEnd.deal).replay = .ok d
    ∧ Table.trialEnd.deal.Same d ∧ Table.trialEnd.points = some d.result :=
  replay_ofState Table.trialEnd_reachable Table.trial_phases.2

end Record

end FrenchTarot
