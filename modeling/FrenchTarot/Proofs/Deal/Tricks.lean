import FrenchTarot.DealState
import FrenchTarot.Proofs.Seat.Round

/-!
# Adding tricks to a deal

`DealState.addTrick` is the one way in which the play changes a deal, at a table and in a replay
alike.  This module says what it does when it succeeds (`addTrick_eq_ok`), and introduces `Played`:
a deal whose tricks, won tricks and figures have come about by adding tricks one after the other,
and in no other way.  Everything that is known about the figures of a deal is proved by induction on
`Played`.

Adding a trick looks at the bid, the lead and the tricks before, and at nothing else.  That is why
the dog, the discard and the handles may be set before or after the tricks (`Played.frame`).
-/

namespace FrenchTarot

/-! ## Bids of an auction -/

/-- Above a contract that is played there are only such contracts. -/
theorem Contract.isTaken_of_outbids {c best : Contract} (h : c.outbids best)
    (hb : best.isTaken) : c.isTaken := by
  revert h hb
  cases c <;> cases best <;> decide

/-- The best bid of an auction between the seats of a table of `n` players. -/
structure Bid.Seated (b : Bid) (n : Nat) : Prop where
  /-- A contract that is played has a taker at the table, and the partner is known. -/
  taken : b.contract.isTaken → ∃ taker partner, b.taker = some taker ∧ taker.index < n
    ∧ b.partner = some partner ∧ partner.index < n
  /-- Otherwise nobody is the taker, and no slam is announced. -/
  untaken : b.contract.isTaken = false → b.taker = .none ∧ b.partner = .none ∧ b.slam = false

theorem Bid.seated_none (n : Nat) : Bid.none.Seated n where
  taken := fun h => nomatch h
  untaken := fun _ => ⟨rfl, rfl, rfl⟩

namespace DealState

/-- **A bid of a seat of the table leaves the best bid to a seat of the table.** -/
theorem recordBid_seated {d : DealState} {n : Nat} (h : d.bid.Seated n) {seat : Seat}
    (hs : seat.index < n) (contract : Contract) (slam : Bool) :
    (d.recordBid contract slam seat).1.bid.Seated n := by
  unfold recordBid
  split
  · rename_i hout
    dsimp only
    constructor
    · intro ht
      exact ⟨seat, seat, if_pos ht, hs, if_pos ht, hs⟩
    · intro ht
      -- Nothing below a contract that is played can outbid one.
      have hbest : d.bid.contract.isTaken = false := by
        refine Bool.eq_false_iff.mpr fun hb => ?_
        rw [Contract.isTaken_of_outbids hout hb] at ht
        cases ht
      obtain ⟨htaker, hpartner, _⟩ := h.untaken hbest
      have ht' : ¬ contract.isTaken := by simpa using ht
      refine ⟨(if_neg ht').trans htaker, (if_neg ht').trans hpartner, ?_⟩
      rw [show contract.isTaken = false from ht, Bool.and_false]
  · exact h

/-- A bid changes nothing but the best bid. -/
theorem recordBid_eq (d : DealState) (contract : Contract) (slam : Bool) (seat : Seat) :
    (d.recordBid contract slam seat).1 =
      { d with bid := (d.recordBid contract slam seat).1.bid } := by
  unfold recordBid
  split <;> rfl

theorem setPartner_seated {d : DealState} {n : Nat} (h : d.bid.Seated n) {partner : Option Seat}
    (hp : ∀ s, partner = some s → s.index < n) (ht : d.bid.contract.isTaken) :
    (d.setPartner partner).bid.Seated n where
  taken := by
    intro _
    obtain ⟨taker, _, htaker, htn, _, _⟩ := h.taken ht
    cases partner with
    | none => exact ⟨taker, taker, htaker, htn, htaker, htn⟩
    | some s => exact ⟨taker, s, htaker, htn, rfl, hp s rfl⟩
  untaken := fun hf => by
    rw [show (d.setPartner partner).bid.contract = d.bid.contract from rfl, ht] at hf
    cases hf

/-! ## What adding a trick does -/

/-- The deal with a trick that `leader` led. -/
def withTrick (d : DealState) (leader : Seat) (trick : Cards) : DealState :=
  let (winner, swap) := d.resolve leader trick
  let owner := d.bid.teamOf winner
  { d with
    tricks := d.tricks ++ [⟨trick, winner, owner⟩]
    tricksWon := d.tricksWon + (if owner = .attack then 1 else 0)
    attack := countTrick d.attack trick owner swap }

/-- **A trick is added when it is complete, the deal is not over and the leader is known.** -/
theorem addTrick_eq_ok {d d' : DealState} {trick : Cards} {winner : Seat} :
    d.addTrick trick = .ok (d', winner) ↔
      trick.length = d.players ∧ d.tricks.length < Rules.handSize d.players ∧
        ∃ leader, d.leader? d.tricks.length = some leader ∧ d' = d.withTrick leader trick
          ∧ winner = (d.resolve leader trick).1 := by
  unfold addTrick
  dsimp only
  constructor
  · intro h
    split at h
    · cases h
    rename_i hsize
    split at h
    · cases h
    rename_i hover
    split at h
    · cases h
    · rename_i leader hleader
      cases h
      exact ⟨Classical.not_not.mp hsize, Nat.not_le.mp hover, leader, hleader, rfl, rfl⟩
  · rintro ⟨hsize, hover, leader, hleader, rfl, rfl⟩
    rw [if_neg (fun h => h hsize), if_neg (Nat.not_le.mpr hover), hleader]
    rfl

@[simp] theorem withTrick_players (d : DealState) (leader : Seat) (trick : Cards) :
    (d.withTrick leader trick).players = d.players := rfl

@[simp] theorem withTrick_bid (d : DealState) (leader : Seat) (trick : Cards) :
    (d.withTrick leader trick).bid = d.bid := rfl

@[simp] theorem withTrick_dog (d : DealState) (leader : Seat) (trick : Cards) :
    (d.withTrick leader trick).dog = d.dog := rfl

@[simp] theorem withTrick_discard (d : DealState) (leader : Seat) (trick : Cards) :
    (d.withTrick leader trick).discard = d.discard := rfl

@[simp] theorem withTrick_firstPlayer (d : DealState) (leader : Seat) (trick : Cards) :
    (d.withTrick leader trick).firstPlayer = d.firstPlayer := rfl

theorem withTrick_tricks (d : DealState) (leader : Seat) (trick : Cards) :
    (d.withTrick leader trick).tricks = d.tricks ++ [⟨trick, (d.resolve leader trick).1,
      d.bid.teamOf (d.resolve leader trick).1⟩] := rfl

/-- The trick that was added is the last one. -/
theorem getElem?_withTrick (d : DealState) (leader : Seat) (trick : Cards) :
    (d.withTrick leader trick).tricks[d.tricks.length]? = some ⟨trick, (d.resolve leader trick).1,
      d.bid.teamOf (d.resolve leader trick).1⟩ := by
  rw [withTrick_tricks, List.getElem?_append_right (Nat.le_refl _), Nat.sub_self]
  rfl

/-- The tricks are those before, and the trick that was added. -/
theorem getElem?_withTrick_eq_some {d : DealState} {leader : Seat} {trick : Cards} {turn : Nat}
    {p : PlayedTrick} (h : (d.withTrick leader trick).tricks[turn]? = some p) :
    (turn < d.tricks.length ∧ d.tricks[turn]? = some p)
      ∨ (turn = d.tricks.length ∧ p = ⟨trick, (d.resolve leader trick).1,
        d.bid.teamOf (d.resolve leader trick).1⟩) := by
  obtain ⟨hlt, _⟩ := List.getElem?_eq_some_iff.mp h
  rw [withTrick_tricks, List.length_append, List.length_singleton] at hlt
  rcases Nat.lt_succ_iff_lt_or_eq.mp hlt with hlt | rfl
  · rw [withTrick_tricks, List.getElem?_append_left hlt] at h
    exact .inl ⟨hlt, h⟩
  · rw [getElem?_withTrick, Option.some.injEq] at h
    exact .inr ⟨rfl, h.symm⟩

theorem withTrick_tricksWon (d : DealState) (leader : Seat) (trick : Cards) :
    (d.withTrick leader trick).tricksWon = d.tricksWon +
      if d.bid.teamOf (d.resolve leader trick).1 = .attack then 1 else 0 := rfl

/-- Where the tricks of the attack are counted, the number tells whether it has won all of them. -/
theorem tricksWon_eq_length {d : DealState}
    (hwon : d.tricksWon = d.tricks.countP fun p => p.owner = .attack) :
    d.tricksWon = d.tricks.length ↔ ∀ p ∈ d.tricks, p.owner = .attack := by
  rw [hwon, List.countP_eq_length]
  simp

theorem withTrick_attack (d : DealState) (leader : Seat) (trick : Cards) :
    (d.withTrick leader trick).attack = countTrick d.attack trick
      (d.bid.teamOf (d.resolve leader trick).1) (d.resolve leader trick).2 := rfl

theorem withTrick_cards (d : DealState) (leader : Seat) (trick : Cards) :
    (d.withTrick leader trick).tricks.map PlayedTrick.cards =
      d.tricks.map PlayedTrick.cards ++ [trick] := by
  rw [withTrick_tricks, List.map_append]
  rfl

/-! ## Who leads and who wins -/

/-- The winner of the last trick leads the next one. -/
theorem leader?_withTrick (d : DealState) (leader : Seat) (trick : Cards) :
    (d.withTrick leader trick).leader? (d.tricks.length + 1) =
      some (d.resolve leader trick).1 := by
  simp [leader?, withTrick_tricks]

/-- The leader of the next trick is unknown only before the first trick. -/
theorem leader?_length_eq_none {d : DealState} :
    d.leader? d.tricks.length = none ↔ d.tricks.length = 0 ∧ d.firstPlayer = none := by
  cases hk : d.tricks.length with
  | zero => simp [leader?]
  | succ k =>
    have hlt : k < d.tricks.length := by omega
    simp [leader?, hlt]

/-- Who led the tricks before stays known. -/
theorem leader?_withTrick_of_le (d : DealState) (leader : Seat) (trick : Cards) {turn : Nat}
    (h : turn ≤ d.tricks.length) :
    (d.withTrick leader trick).leader? turn = d.leader? turn := by
  cases turn with
  | zero => rfl
  | succ k => rw [leader?, leader?, withTrick_tricks, List.getElem?_append_left h]

theorem seatOf_lt {n : Nat} (hn : Rules.supported n) {leader : Seat} (hl : leader.index < n)
    (trick : Cards) (c : Card) : (seatOf leader trick c n).index < n := by
  unfold seatOf
  split
  · exact Seat.advance_lt hn leader _
  · exact hl

/-- A trick is won by a seat of the table. -/
theorem resolve_fst_lt {d : DealState} (hn : Rules.supported d.players) {leader : Seat}
    (hl : leader.index < d.players) (trick : Cards) :
    (d.resolve leader trick).1.index < d.players := by
  have h := seatOf_lt hn hl trick
  unfold resolve
  dsimp only
  split
  · split
    · split
      · exact h _
      · exact h _
    · exact h _
  · exact h _

/-! ## Deals in which tricks were added -/

/-- A deal whose tricks were added one after the other. -/
inductive Played : DealState → Prop where
  /-- Before the first trick. -/
  | opening {d : DealState} (tricks : d.tricks = []) (tricksWon : d.tricksWon = 0)
      (attack : d.attack = {}) : Played d
  | trick {d d' : DealState} {cards : Cards} {winner : Seat} (before : Played d)
      (added : d.addTrick cards = .ok (d', winner)) : Played d'

/-- The deal with its dog, discard and handles replaced: what adding a trick does not look at. -/
def reset (d : DealState) (dog : Cards) (discard : Pile) (attackHandle defenseHandle : Cards) :
    DealState :=
  { d with dog, discard, attackHandle, defenseHandle }

/-- **Adding a trick does not look at the dog, the discard and the handles.** -/
theorem addTrick_reset {d d' : DealState} {trick : Cards} {winner : Seat}
    (h : d.addTrick trick = .ok (d', winner)) (dog : Cards) (discard : Pile)
    (attackHandle defenseHandle : Cards) :
    (d.reset dog discard attackHandle defenseHandle).addTrick trick =
      .ok (d'.reset dog discard attackHandle defenseHandle, winner) := by
  obtain ⟨hsize, hover, leader, hleader, rfl, rfl⟩ := addTrick_eq_ok.mp h
  refine addTrick_eq_ok.mpr ⟨hsize, hover, leader, ?_, rfl, rfl⟩
  -- The first lead is kept apart from the winners of the tricks.
  rw [← hleader]
  cases hk : d.tricks.length with
  | zero =>
    rw [show (d.reset dog discard attackHandle defenseHandle).tricks.length = 0 from hk]
    rfl
  | succ k =>
    rw [show (d.reset dog discard attackHandle defenseHandle).tricks.length = k + 1 from hk]
    rfl

theorem Played.frame {d : DealState} (h : d.Played) (dog : Cards) (discard : Pile)
    (attackHandle defenseHandle : Cards) :
    (d.reset dog discard attackHandle defenseHandle).Played := by
  induction h with
  | opening tricks tricksWon attack => exact .opening tricks tricksWon attack
  | trick _ added ih => exact ih.trick (addTrick_reset added _ _ _ _)

theorem Played.setDiscard {d : DealState} (h : d.Played) (cards : Cards) (owner : Team) :
    (d.setDiscard cards owner).Played := h.frame d.dog ⟨cards, some owner⟩ _ _

/-- A handle changes nothing but the handles. -/
theorem keepHandle_eq (d : DealState) (handle : Cards) (seat : Seat) :
    ∃ attackHandle defenseHandle,
      d.keepHandle handle seat = d.reset d.dog d.discard attackHandle defenseHandle := by
  unfold keepHandle
  split
  · exact ⟨handle, d.defenseHandle, rfl⟩
  · exact ⟨d.attackHandle, handle, rfl⟩

/-- No more tricks are added than a hand has cards. -/
theorem Played.length_le {d : DealState} (h : d.Played) :
    d.tricks.length ≤ Rules.handSize d.players := by
  cases h with
  | opening tricks => simp [tricks]
  | trick before added =>
    obtain ⟨_, hover, leader, _, rfl, _⟩ := addTrick_eq_ok.mp added
    rw [withTrick_tricks, List.length_append, withTrick_players]
    exact hover

/-- Every trick has one card of each player. -/
theorem Played.length_cards {d : DealState} (h : d.Played) :
    ∀ p ∈ d.tricks, p.cards.length = d.players := by
  induction h with
  | opening tricks => simp [tricks]
  | trick before added ih =>
    obtain ⟨hsize, _, leader, _, rfl, _⟩ := addTrick_eq_ok.mp added
    intro p hp
    rw [withTrick_tricks] at hp
    rcases List.mem_append.mp hp with hp | hp
    · exact ih p hp
    · rw [List.mem_singleton.mp hp]
      exact hsize

theorem Played.length_flatMap {d : DealState} (h : d.Played) :
    (d.tricks.flatMap PlayedTrick.cards).length = d.tricks.length * d.players := by
  rw [List.length_flatMap, List.map_congr_left h.length_cards, List.map_const',
    List.sum_replicate_nat]

end DealState

end FrenchTarot
