import FrenchTarot.Proofs.Deal.Tricks

/-!
# Who played which card

A deal does not store who played a card.  It knows who led each trick, and the seat of a card is the
leader moved on by the place of the card in the trick.  `plays` lists all cards of the tricks with
their seats, in the order in which they were played, and `ownerOf?` gives the seat that this list
has (`ownerOf?_eq`).

At a table of three, four or five players a trick has one card of each of its seats, because the
seats of a full round are those of the table (`map_ownerOf?_perm`).
-/

namespace FrenchTarot

/-- Of pieces that are equally long, one after the other: the element `i` of piece `k`. -/
theorem getElem?_flatMap_range {α : Type} {f : Nat → List α} {n m k i : Nat}
    (hlen : ∀ j < m, (f j).length = n) (hk : k < m) (hi : i < n) :
    ((List.range m).flatMap f)[k * n + i]? = (f k)[i]? := by
  induction m with
  | zero => omega
  | succ m ih =>
    have hbefore : ((List.range m).flatMap f).length = m * n := by
      rw [List.length_flatMap, List.map_congr_left fun j hj => hlen j (by simp at hj; omega)]
      simp
    rw [List.range_succ, List.flatMap_append, List.flatMap_singleton]
    rcases Nat.lt_succ_iff_lt_or_eq.mp hk with hlt | rfl
    · have hpiece : (k + 1) * n ≤ m * n := Nat.mul_le_mul_right n hlt
      rw [Nat.add_mul, Nat.one_mul] at hpiece
      rw [List.getElem?_append_left (by omega)]
      exact ih (fun j hj => hlen j (by omega)) hlt
    · rw [List.getElem?_append_right (by omega), hbefore, Nat.add_sub_cancel_left]

namespace Seat

theorem nodup_round {n k : Nat} (h : Rules.supported n) (hk : k ≤ n) (leader : Seat) :
    (leader.round k n).Nodup := by
  refine List.nodup_range.map_on fun i hi j hj he => ?_
  rw [List.mem_range] at hi hj
  exact advance_inj h (by omega) (by omega) he

/-- A full round is the table, from the leader on. -/
theorem round_perm_taken {n : Nat} (h : Rules.supported n) (leader : Seat) :
    (leader.round n n).Perm (taken n) := by
  refine (List.perm_ext_iff_of_nodup (nodup_round h (Nat.le_refl n) leader) (nodup_taken n)).mpr ?_
  intro s
  rw [mem_round_self h, mem_taken]

theorem getElem?_round {n k i : Nat} (hi : i < k) (leader : Seat) :
    (leader.round k n)[i]? = some (leader.advance i n) := by
  simp [round, hi]

end Seat

/-- In a list without repetitions a card stands where it is found. -/
theorem Cards.position?_eq {cards : Cards} (hn : cards.Nodup) {i : Nat} {c : Card}
    (h : cards[i]? = some c) : cards.position? c = some i := by
  obtain ⟨hi, hc⟩ := List.getElem?_eq_some_iff.mp h
  refine List.findIdx?_eq_some_iff_getElem.mpr ⟨hi, by simpa using hc, fun j hj => ?_⟩
  rw [Bool.not_eq_true, decide_eq_false_iff_not]
  intro he
  have hsame : j = i := hn.getElem_inj_iff.mp (he.trans hc.symm)
  omega

namespace DealState

/-- The cards of a trick with the seats that played them. -/
def playsOf (d : DealState) (turn : Nat) : List (Seat × Card) :=
  match d.leader? turn, d.tricks[turn]? with
  | some leader, some p => (leader.round d.players d.players).zip p.cards
  | _, _ => []

/-- The cards of all tricks with the seats that played them. -/
def plays (d : DealState) : List (Seat × Card) := (List.range d.tricks.length).flatMap d.playsOf

theorem plays_nil {d : DealState} (h : d.tricks = []) : d.plays = [] := by
  rw [plays, h]
  rfl

theorem playsOf_eq {d : DealState} {turn : Nat} {leader : Seat} {p : PlayedTrick}
    (hl : d.leader? turn = some leader) (hp : d.tricks[turn]? = some p) :
    d.playsOf turn = (leader.round d.players d.players).zip p.cards := by
  rw [playsOf, hl, hp]

/-- **A trick adds its cards, with the seats of the round that its leader began.** -/
theorem plays_withTrick {d : DealState} {leader : Seat} (trick : Cards)
    (hl : d.leader? d.tricks.length = some leader) :
    (d.withTrick leader trick).plays =
      d.plays ++ (leader.round d.players d.players).zip trick := by
  have hlength : (d.withTrick leader trick).tricks.length = d.tricks.length + 1 := by
    rw [withTrick_tricks, List.length_append]
    rfl
  rw [plays, hlength, List.range_succ, List.flatMap_append, List.flatMap_singleton, plays]
  congr 1
  · -- The tricks before keep their cards and their leaders.
    refine List.flatMap_congr fun turn hturn => ?_
    have hlt : turn < d.tricks.length := List.mem_range.mp hturn
    rw [playsOf, playsOf, leader?_withTrick_of_le d leader trick (Nat.le_of_lt hlt),
      withTrick_tricks, List.getElem?_append_left hlt, withTrick_players]
  · have hlead := (leader?_withTrick_of_le d leader trick (Nat.le_refl _)).trans hl
    exact playsOf_eq hlead (getElem?_withTrick d leader trick)

theorem plays_keepHandle (d : DealState) (handle : Cards) (seat : Seat) :
    (d.keepHandle handle seat).plays = d.plays := by
  obtain ⟨attackHandle, defenseHandle, heq⟩ := d.keepHandle_eq handle seat
  rw [heq]
  refine List.flatMap_congr fun turn _ => ?_
  cases turn <;> rfl

/-- Every trick that was played was led by somebody. -/
theorem Played.exists_leader {d : DealState} (h : d.Played) {turn : Nat}
    (hturn : turn < d.tricks.length) : ∃ leader, d.leader? turn = some leader := by
  induction h with
  | opening tricks =>
    rw [tricks] at hturn
    cases hturn
  | trick before added ih =>
    rename_i d d' trick winner
    obtain ⟨_, _, leader, hl, rfl, _⟩ := addTrick_eq_ok.mp added
    rw [withTrick_tricks, List.length_append] at hturn
    rcases Nat.lt_succ_iff_lt_or_eq.mp hturn with hlt | rfl
    · obtain ⟨first, hfirst⟩ := ih hlt
      exact ⟨first, (leader?_withTrick_of_le d leader trick (Nat.le_of_lt hlt)).trans hfirst⟩
    · exact ⟨leader, (leader?_withTrick_of_le d leader trick (Nat.le_refl _)).trans hl⟩

theorem Played.length_playsOf {d : DealState} (h : d.Played) {turn : Nat}
    (hturn : turn < d.tricks.length) : (d.playsOf turn).length = d.players := by
  obtain ⟨leader, hl⟩ := h.exists_leader hturn
  rw [playsOf_eq hl (List.getElem?_eq_getElem hturn), List.length_zip, Seat.length_round,
    h.length_cards _ (List.getElem_mem hturn), Nat.min_self]

theorem Played.length_plays {d : DealState} (h : d.Played) :
    d.plays.length = d.tricks.length * d.players := by
  rw [plays, List.length_flatMap, List.map_congr_left fun turn hturn =>
    h.length_playsOf (List.mem_range.mp hturn)]
  simp

/-- **The list of plays has the cards of the tricks, in order.** -/
theorem Played.map_snd_plays {d : DealState} (h : d.Played) :
    d.plays.map Prod.snd = d.tricks.flatMap PlayedTrick.cards := by
  induction h with
  | opening tricks =>
    rw [plays_nil tricks, tricks]
    rfl
  | trick before added ih =>
    rename_i d d' trick winner
    obtain ⟨hsize, _, leader, hl, rfl, _⟩ := addTrick_eq_ok.mp added
    rw [plays_withTrick trick hl, List.map_append, ih, withTrick_tricks, List.flatMap_append,
      List.flatMap_singleton, List.map_snd_zip (by rw [hsize, Seat.length_round])]

/-- **The card in place `i` of a trick came from the seat `i` places after the leader.** -/
theorem Played.getElem?_plays {d : DealState} (h : d.Played) {turn i : Nat} {leader : Seat}
    {p : PlayedTrick} {c : Card} (hl : d.leader? turn = some leader)
    (hp : d.tricks[turn]? = some p) (hc : p.cards[i]? = some c) :
    d.plays[turn * d.players + i]? = some (leader.advance i d.players, c) := by
  obtain ⟨hturn, _⟩ := List.getElem?_eq_some_iff.mp hp
  obtain ⟨hi, _⟩ := List.getElem?_eq_some_iff.mp hc
  rw [h.length_cards p (List.mem_of_getElem? hp)] at hi
  rw [plays, getElem?_flatMap_range (fun j hj => h.length_playsOf hj) hturn hi, playsOf_eq hl hp]
  exact List.getElem?_zip_eq_some.mpr ⟨Seat.getElem?_round hi leader, hc⟩

/-! ## The seat of a card -/

/-- **The seat of a card is the leader moved on by the place of the card.** -/
theorem ownerOf?_eq {d : DealState} {turn i : Nat} {leader : Seat} {p : PlayedTrick} {c : Card}
    (hl : d.leader? turn = some leader) (hp : d.tricks[turn]? = some p) (hn : p.cards.Nodup)
    (hc : p.cards[i]? = some c) : d.ownerOf? c turn = some (leader.advance i d.players) := by
  simp [ownerOf?, hl, hp, Cards.position?_eq hn hc]

/-- **A trick has one card of each seat of the table.** -/
theorem map_ownerOf?_perm {d : DealState} (hs : Rules.supported d.players) (h : d.Played)
    {turn : Nat} {p : PlayedTrick} (hp : d.tricks[turn]? = some p) (hn : p.cards.Nodup) :
    (p.cards.map fun c => d.ownerOf? c turn).Perm ((Seat.taken d.players).map some) := by
  have hlength := h.length_cards p (List.mem_of_getElem? hp)
  obtain ⟨leader, hl⟩ := h.exists_leader (List.getElem?_eq_some_iff.mp hp).1
  have hround : p.cards.map (fun c => d.ownerOf? c turn) =
      (leader.round d.players d.players).map some := by
    refine List.ext_getElem (by simp [hlength]) fun i hi _ => ?_
    rw [List.length_map] at hi
    rw [List.getElem_map, ownerOf?_eq hl hp hn (List.getElem?_eq_getElem hi)]
    simp [Seat.round]
  rw [hround]
  exact (Seat.round_perm_taken hs leader).map some

end DealState

end FrenchTarot
