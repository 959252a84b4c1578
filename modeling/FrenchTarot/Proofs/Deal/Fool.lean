import FrenchTarot.Proofs.Record.Replay

/-!
# Where the points of the Fool go

The figures of a side are those of its cards, but for the Fool.  The Fool counts for the side of the
seat that played it, whoever won the trick; in the last trick it counts for the other side, unless
the taker plays it there and completes a slam.  When the Fool lies among the cards of one side and
counts for the other, that other side pays for it with a card of half a point.

A deal keeps its figures by adding whole tricks and moving the value of the Fool from one side to
the other, trick by trick.  `Played.accounted` is the invariant that ties the running figures to the
cards of the tricks, and `attack_accounts` is what it says about a deal that is over: the figures
are exact, and those of both sides make up the deck.
-/

namespace FrenchTarot

theorem Cards.hasFool_iff {cards : Cards} : cards.hasFool ↔ Card.fool ∈ cards := by
  simp [Cards.hasFool]

theorem Cards.hasFool_eq_false {cards : Cards} :
    cards.hasFool = false ↔ Card.fool ∉ cards := by
  simp [Cards.hasFool]

namespace DealState

open Cards (hasFool_iff hasFool_eq_false)

/-! ## The Fool of a deal -/

/-- How the Fool was played. -/
structure FoolPlay where
  /-- The number of the trick. -/
  turn : Nat
  /-- Who played it. -/
  seat : Seat
  /-- The side that won the trick. -/
  owner : Team

/-- How the Fool was played in a deal, if it was. -/
def foolPlay? (d : DealState) : Option FoolPlay := do
  let turn ← d.tricks.findIdx? fun p => p.cards.hasFool
  let seat ← d.ownerOf? Card.fool turn
  let trick ← d.tricks[turn]?
  return ⟨turn, seat, trick.owner⟩

/-- Whether the taker plays the Fool in the last trick and has won every trick before. -/
def FoolPlay.completesSlam (p : FoolPlay) (d : DealState) : Bool :=
  d.bid.taker = some p.seat && (d.tricks.take p.turn).all fun q => q.owner = .attack

/-- The side that a Fool counts for that was played. -/
def FoolPlay.side (p : FoolPlay) (d : DealState) : Team :=
  let own := d.bid.teamOf p.seat
  if p.turn + 1 < Rules.handSize d.players then own
  else if p.completesSlam d then own
  else own.opponent

/-- The side that the Fool counts for: the owner of the discard when it lies there. -/
def foolSide? (d : DealState) : Option Team :=
  if d.discard.cards.hasFool then d.discard.owner else d.foolPlay?.map fun p => p.side d

/-- The side that won the trick with the Fool. -/
def foolTrickOwner? (d : DealState) : Option Team := d.foolPlay?.map FoolPlay.owner

/-! ## What a side has -/

/-- The cards of the tricks that a side has won. -/
def tricksOf (d : DealState) (team : Team) : Cards :=
  (d.tricks.filter fun p => p.owner = team).flatMap PlayedTrick.cards

/-- The cards that a side owns, with the discard if it is its own. -/
def cardsOf (d : DealState) (team : Team) : Cards :=
  d.tricksOf team ++ if d.discard.owner = some team then d.discard.cards else []

/-- What the Fool adds to the half points of a team, by its side and the side of its trick. -/
def foolCredit (side trickOwner : Option Team) (team : Team) : Int :=
  (if side = some team then 9 else 0)
    - (if side = some team ∧ trickOwner = some team.opponent then 1 else 0)
    + (if side = some team.opponent ∧ trickOwner = some team then 1 else 0)

/-- Half points of a side, counted from its cards. -/
def accountedHalfPoints (d : DealState) (team : Team) : Int :=
  ((d.cardsOf team).remove Card.fool).halfPoints + foolCredit d.foolSide? d.foolTrickOwner? team

/-- Oudlers of a side, counted from its cards. -/
def accountedOudlers (d : DealState) (team : Team) : Nat :=
  (d.cardsOf team).countP (fun c => c = Card.little || c = Card.big)
    + if d.foolSide? = some team then 1 else 0

/-! ## One more trick -/

theorem ownerOf?_withTrick (d : DealState) (leader : Seat) (trick : Cards) (c : Card) {turn : Nat}
    (h : turn < d.tricks.length) :
    (d.withTrick leader trick).ownerOf? c turn = d.ownerOf? c turn := by
  unfold ownerOf?
  rw [leader?_withTrick_of_le d leader trick (Nat.le_of_lt h), withTrick_tricks,
    List.getElem?_append_left h, withTrick_players]

/-- A card of the trick that was added came from its seat after the leader. -/
theorem ownerOf?_withTrick_last {d : DealState} {leader : Seat} {trick : Cards} {c : Card}
    (hl : d.leader? d.tricks.length = some leader) (hc : c ∈ trick) :
    (d.withTrick leader trick).ownerOf? c d.tricks.length =
      some (seatOf leader trick c d.players) := by
  obtain ⟨position, hposition⟩ : ∃ k, trick.position? c = some k := by
    rw [← Option.isSome_iff_exists, Cards.position?, List.findIdx?_isSome, List.any_eq_true]
    exact ⟨c, hc, by simp⟩
  unfold ownerOf? seatOf
  rw [leader?_withTrick_of_le d leader trick (Nat.le_refl _), hl, getElem?_withTrick, hposition]
  show (trick.position? c).bind _ = _
  rw [hposition]
  rfl

/-- A trick without the Fool leaves the Fool where it is. -/
theorem foolPlay?_withTrick (d : DealState) (leader : Seat) {trick : Cards}
    (h : trick.hasFool = false) : (d.withTrick leader trick).foolPlay? = d.foolPlay? := by
  have hturn : (d.withTrick leader trick).tricks.findIdx? (fun p => p.cards.hasFool) =
      d.tricks.findIdx? fun p => p.cards.hasFool := by
    rw [withTrick_tricks, List.findIdx?_append, List.findIdx?_singleton, h]
    simp
  unfold foolPlay?
  rw [hturn]
  cases hf : d.tricks.findIdx? fun p => p.cards.hasFool with
  | none => rfl
  | some turn =>
    have hlt : turn < d.tricks.length := (List.findIdx?_eq_some_iff_getElem.mp hf).1
    show ((d.withTrick leader trick).ownerOf? Card.fool turn).bind _ = _
    rw [ownerOf?_withTrick d leader trick Card.fool hlt, withTrick_tricks,
      List.getElem?_append_left hlt]
    rfl

/-- A trick with the Fool says who has played it. -/
theorem foolPlay?_withTrick_fool {d : DealState} {leader : Seat} {trick : Cards}
    (hl : d.leader? d.tricks.length = some leader) (h : trick.hasFool)
    (hbefore : ∀ p ∈ d.tricks, p.cards.hasFool = false) :
    (d.withTrick leader trick).foolPlay? = some ⟨d.tricks.length,
      seatOf leader trick Card.fool d.players,
      d.bid.teamOf (d.resolve leader trick).1⟩ := by
  have hturn : (d.withTrick leader trick).tricks.findIdx? (fun p => p.cards.hasFool) =
      some d.tricks.length := by
    rw [withTrick_tricks, List.findIdx?_append, List.findIdx?_singleton, h,
      List.findIdx?_eq_none_iff.mpr hbefore]
    simp
  unfold foolPlay?
  rw [hturn]
  show ((d.withTrick leader trick).ownerOf? Card.fool d.tricks.length).bind _ = _
  rw [ownerOf?_withTrick_last hl (hasFool_iff.mp h), getElem?_withTrick]
  rfl

/-- The side of a Fool that was played is settled with its trick. -/
theorem side_withTrick (d : DealState) (leader : Seat) (trick : Cards) {p : FoolPlay}
    (h : p.turn ≤ d.tricks.length) : p.side (d.withTrick leader trick) = p.side d := by
  unfold FoolPlay.side FoolPlay.completesSlam
  rw [withTrick_tricks, List.take_append_of_le_length h, withTrick_bid, withTrick_players]

theorem tricksOf_withTrick (d : DealState) (leader : Seat) (trick : Cards) (team : Team) :
    (d.withTrick leader trick).tricksOf team = d.tricksOf team ++
      if d.bid.teamOf (d.resolve leader trick).1 = team then trick else [] := by
  unfold tricksOf
  rw [withTrick_tricks, List.filter_append, List.flatMap_append]
  by_cases h : d.bid.teamOf (d.resolve leader trick).1 = team <;> simp [h]

/-! ## Who gets the Fool -/

/-- In the last trick, the attack has won every trick before when it lacks one trick of all. -/
theorem completesSlam_last {d : DealState} {p : FoolPlay} (hturn : p.turn = d.tricks.length)
    (hlast : d.tricks.length + 1 = Rules.handSize d.players)
    (hwon : d.tricksWon = d.tricks.countP fun q => q.owner = .attack) :
    p.completesSlam d =
      (d.tricksWon + 1 = Rules.handSize d.players && d.bid.taker = some p.seat) := by
  have hall : (d.tricks.take p.turn).all (fun q => q.owner = .attack) =
      decide (d.tricksWon + 1 = Rules.handSize d.players) := by
    rw [hturn, List.take_length, ← hlast, Bool.eq_iff_iff, decide_eq_true_eq,
      Nat.add_right_cancel_iff, tricksWon_eq_length hwon]
    simp
  rw [FoolPlay.completesSlam, hall, Bool.and_comm]

/-- **The Fool changes sides exactly when the winner of its trick is not its side.** -/
theorem resolve_swap {d : DealState} {leader : Seat} {trick : Cards} {p : FoolPlay}
    (hfool : trick.hasFool) (hturn : p.turn = d.tricks.length)
    (hseat : p.seat = seatOf leader trick Card.fool d.players)
    (hmore : d.tricks.length < Rules.handSize d.players)
    (hwon : d.tricksWon = d.tricks.countP fun q => q.owner = .attack) :
    (d.resolve leader trick).2 =
      decide (d.bid.teamOf (d.resolve leader trick).1 ≠ p.side d) := by
  unfold resolve FoolPlay.side
  dsimp only
  rw [if_pos hfool, hturn, Rules.dealOver, ← hseat]
  by_cases hlast : d.tricks.length + 1 < Rules.handSize d.players
  · rw [if_neg (by simpa using hlast), if_pos hlast]
    simp
  · -- In the last trick the deal looks at the tricks won so far, the account at their owners.
    rw [if_pos (by simpa using hlast), if_neg hlast,
      completesSlam_last hturn (by omega) hwon]
    by_cases hslam : (d.tricksWon + 1 = Rules.handSize d.players && d.bid.taker = some p.seat)
        = true
    · rw [if_pos hslam, if_pos hslam]
      simp
    · rw [if_neg hslam, if_neg hslam]
      dsimp only
      cases d.bid.teamOf p.seat <;>
        cases d.bid.teamOf (seatOf leader trick (leadingCard trick) d.players) <;> rfl

theorem resolve_no_swap (d : DealState) (leader : Seat) {trick : Cards}
    (h : trick.hasFool = false) : (d.resolve leader trick).2 = false := by
  unfold resolve
  dsimp only
  rw [if_neg (by simp [h])]

/-! ## The running figures -/

/-- The figures of the attack tell its cards. -/
structure Accounted (d : DealState) : Prop where
  tricksWon : d.tricksWon = d.tricks.countP fun p => p.owner = .attack
  halfPoints : (d.attack.halfPoints : Int) = ((d.tricksOf .attack).remove Card.fool).halfPoints
    + foolCredit (d.foolPlay?.map fun p => p.side d) d.foolTrickOwner? .attack
  oudlers : d.attack.oudlers = (d.tricksOf .attack).countP Cards.isLittleOrBig
    + if (d.foolPlay?.map fun p => p.side d) = some .attack then 1 else 0

theorem accounted_opening {d : DealState} (tricks : d.tricks = []) (tricksWon : d.tricksWon = 0)
    (attack : d.attack = {}) : d.Accounted := by
  have hplay : d.foolPlay? = none := by
    rw [foolPlay?, tricks]
    rfl
  refine ⟨?_, ?_, ?_⟩
  · rw [tricks, tricksWon]
    rfl
  · rw [attack, foolTrickOwner?, hplay, tricksOf, tricks]
    rfl
  · rw [attack, hplay, tricksOf, tricks]
    rfl

theorem foolPlay?_turn_lt {d : DealState} {p : FoolPlay} (h : d.foolPlay? = some p) :
    p.turn < d.tricks.length := by
  obtain ⟨turn, hturn, h⟩ := Option.bind_eq_some_iff.mp h
  obtain ⟨seat, _, h⟩ := Option.bind_eq_some_iff.mp h
  obtain ⟨trick, _, h⟩ := Option.bind_eq_some_iff.mp h
  cases h
  exact (List.findIdx?_eq_some_iff_getElem.mp hturn).1

/-- Figures of the attack after a trick without the Fool. -/
theorem countTrick_no_fool (s : Statistics) {trick : Cards} (hn : trick.Nodup)
    (hfool : Card.fool ∉ trick) (owner : Team) :
    (countTrick s trick owner false).halfPoints =
        s.halfPoints + ((if owner = .attack then trick else []).remove Card.fool).halfPoints
      ∧ (countTrick s trick owner false).oudlers =
        s.oudlers + (if owner = .attack then trick else []).countP Cards.isLittleOrBig := by
  cases owner with
  | attack =>
    rw [if_pos rfl, Cards.remove_of_not_mem hfool]
    refine ⟨rfl, ?_⟩
    rw [show countTrick s trick .attack false = s.addTrumps trick from rfl,
      Statistics.addTrumps_oudlers, Cards.countP_isOudler hn, if_neg hfool, Nat.add_zero]
  | defense =>
    rw [if_neg (by decide)]
    exact ⟨rfl, rfl⟩

/-- **Figures of the attack after the trick with the Fool, which counts for `side`.** -/
theorem countTrick_fool (s : Statistics) {trick : Cards} (hn : trick.Nodup)
    (hfool : Card.fool ∈ trick) (owner side : Team) :
    ((countTrick s trick owner (decide (owner ≠ side))).halfPoints : Int) =
        s.halfPoints + ((if owner = .attack then trick else []).remove Card.fool).halfPoints
          + foolCredit (some side) (some owner) .attack
      ∧ (countTrick s trick owner (decide (owner ≠ side))).oudlers =
        s.oudlers + (if owner = .attack then trick else []).countP Cards.isLittleOrBig
          + if some side = some Team.attack then 1 else 0 := by
  have hpoints := Cards.halfPoints_eq_remove hn Card.fool
  have houdlers := Cards.countP_isOudler hn
  have hcount := Statistics.addTrumps_oudlers s trick
  have hsum := Statistics.addTrumps_halfPoints s trick
  rw [if_pos hfool, show Card.fool.halfPoints = 9 from rfl] at hpoints
  rw [if_pos hfool] at houdlers
  -- Who won the trick and whose Fool it is: the value changes sides in two of the four cases.
  cases owner <;> cases side <;>
    simp [countTrick, foolCredit, foolSwap, Team.opponent, Cards.remove] at * <;> omega

/-- The figures stay exact when a trick adds its own. -/
theorem Accounted.withTrick {d : DealState} (h : d.Accounted) (leader : Seat) {trick : Cards}
    (hpoints : ((d.withTrick leader trick).attack.halfPoints : Int) =
      ((d.tricksOf .attack).remove Card.fool).halfPoints
        + ((if d.bid.teamOf (d.resolve leader trick).1 = .attack then trick else []).remove
            Card.fool).halfPoints
        + foolCredit ((d.withTrick leader trick).foolPlay?.map fun p => p.side d)
            (d.withTrick leader trick).foolTrickOwner? .attack)
    (houdlers : (d.withTrick leader trick).attack.oudlers =
      (d.tricksOf .attack).countP Cards.isLittleOrBig
        + (if d.bid.teamOf (d.resolve leader trick).1 = .attack then trick else []).countP
            Cards.isLittleOrBig
        + if ((d.withTrick leader trick).foolPlay?.map fun p => p.side d) = some .attack then 1
          else 0) : (d.withTrick leader trick).Accounted := by
  have hside : ((d.withTrick leader trick).foolPlay?.map fun p => p.side (d.withTrick leader trick))
      = (d.withTrick leader trick).foolPlay?.map fun p => p.side d := by
    refine Option.map_congr fun p hp => side_withTrick d leader trick ?_
    have hlt := foolPlay?_turn_lt hp
    rw [withTrick_tricks, List.length_append, List.length_singleton] at hlt
    omega
  refine ⟨?_, ?_, ?_⟩
  · rw [withTrick_tricksWon, withTrick_tricks, List.countP_append, ← h.tricksWon,
      List.countP_singleton]
    simp only [decide_eq_true_eq]
  · rw [hside, tricksOf_withTrick, Cards.remove_append, Cards.halfPoints_append]
    exact_mod_cast hpoints
  · rw [hside, tricksOf_withTrick, List.countP_append]
    exact houdlers

/-- **The figures stay exact when a trick without the Fool is added.** -/
theorem Accounted.withTrick_no_fool {d : DealState} (h : d.Accounted) (leader : Seat)
    {trick : Cards} (hn : trick.Nodup) (hfool : trick.hasFool = false) :
    (d.withTrick leader trick).Accounted := by
  have hmem := hasFool_eq_false.mp hfool
  have hplay := foolPlay?_withTrick d leader hfool
  obtain ⟨hpoints, houdlers⟩ := countTrick_no_fool d.attack hn hmem
    (d.bid.teamOf (d.resolve leader trick).1)
  refine h.withTrick leader ?_ ?_
  · rw [foolTrickOwner?, hplay, withTrick_attack, resolve_no_swap d leader hfool, hpoints]
    have := h.halfPoints
    rw [foolTrickOwner?] at this
    push_cast
    omega
  · rw [hplay, withTrick_attack, resolve_no_swap d leader hfool, houdlers, h.oudlers]
    omega

/-- **The figures stay exact when the trick with the Fool is added.** -/
theorem Accounted.withTrick_fool {d : DealState} (h : d.Accounted) {leader : Seat}
    {trick : Cards} (hn : trick.Nodup) (hfool : trick.hasFool)
    (hl : d.leader? d.tricks.length = some leader)
    (hmore : d.tricks.length < Rules.handSize d.players)
    (hbefore : ∀ p ∈ d.tricks, p.cards.hasFool = false) :
    (d.withTrick leader trick).Accounted := by
  have hmem := hasFool_iff.mp hfool
  have hplay := foolPlay?_withTrick_fool hl hfool hbefore
  have hnone : d.foolPlay? = none := by
    rw [foolPlay?, List.findIdx?_eq_none_iff.mpr hbefore]
    rfl
  have hpoints_before := h.halfPoints
  have houdlers_before := h.oudlers
  rw [foolTrickOwner?, hnone] at hpoints_before
  rw [hnone] at houdlers_before
  -- The trick is not over yet, but its Fool is known: it counts for the side that `resolve` says.
  have hswap := resolve_swap (p := ⟨d.tricks.length, seatOf leader trick Card.fool d.players,
    d.bid.teamOf (d.resolve leader trick).1⟩) hfool rfl rfl hmore h.tricksWon
  obtain ⟨hpoints, houdlers⟩ := countTrick_fool d.attack hn hmem
    (d.bid.teamOf (d.resolve leader trick).1) (FoolPlay.side ⟨d.tricks.length,
      seatOf leader trick Card.fool d.players, d.bid.teamOf (d.resolve leader trick).1⟩ d)
  refine h.withTrick leader ?_ ?_
  · rw [foolTrickOwner?, hplay, withTrick_attack, hswap, hpoints, hpoints_before]
    rfl
  · rw [hplay, withTrick_attack, hswap, houdlers, houdlers_before]
    rfl

/-- Distinct cards with one more trick: the Fool is in that trick or in those before. -/
theorem nodup_withTrick {d : DealState} {leader : Seat} {trick : Cards}
    (h : ((d.withTrick leader trick).tricks.flatMap PlayedTrick.cards).Nodup) :
    (d.tricks.flatMap PlayedTrick.cards).Nodup ∧ trick.Nodup
      ∧ (trick.hasFool → ∀ p ∈ d.tricks, p.cards.hasFool = false) := by
  rw [flatMap_withTrick] at h
  obtain ⟨hbefore, htrick, hdisj⟩ := List.nodup_append.mp h
  refine ⟨hbefore, htrick, fun hfool p hp => hasFool_eq_false.mpr fun hin => ?_⟩
  exact hdisj Card.fool (List.mem_flatMap.mpr ⟨p, hp, hin⟩) Card.fool (hasFool_iff.mp hfool) rfl

/-- **The figures of a deal that was played are exact.** -/
theorem Played.accounted {d : DealState} (h : d.Played)
    (hn : (d.tricks.flatMap PlayedTrick.cards).Nodup) : d.Accounted := by
  induction h with
  | opening tricks tricksWon attack => exact accounted_opening tricks tricksWon attack
  | trick before added ih =>
    rename_i d d' trick winner
    obtain ⟨_, hmore, leader, hl, rfl, _⟩ := addTrick_eq_ok.mp added
    obtain ⟨hbefore, htrick, honly⟩ := nodup_withTrick hn
    -- The Fool is played once, so that at most one trick moves its value.
    by_cases hfool : trick.hasFool
    · exact (ih hbefore).withTrick_fool htrick hfool hl hmore (honly hfool)
    · exact (ih hbefore).withTrick_no_fool leader htrick (Bool.eq_false_iff.mpr hfool)

/-- A Fool among the tricks was played by somebody. -/
theorem Played.foolPlay?_isSome {d : DealState} (h : d.Played)
    (hn : (d.tricks.flatMap PlayedTrick.cards).Nodup)
    (hfool : Card.fool ∈ d.tricks.flatMap PlayedTrick.cards) : d.foolPlay?.isSome := by
  induction h with
  | opening tricks =>
    rw [tricks] at hfool
    cases hfool
  | trick before added ih =>
    rename_i d d' trick winner
    obtain ⟨_, _, leader, hl, rfl, _⟩ := addTrick_eq_ok.mp added
    obtain ⟨hbefore, _, honly⟩ := nodup_withTrick hn
    by_cases hin : trick.hasFool
    · rw [foolPlay?_withTrick_fool hl hin (honly hin)]
      rfl
    · rw [foolPlay?_withTrick d leader (Bool.eq_false_iff.mpr hin)]
      refine ih hbefore ?_
      rw [flatMap_withTrick] at hfool
      exact (List.mem_append.mp hfool).resolve_right fun hm => hin (hasFool_iff.mpr hm)

/-! ## Both sides -/

theorem foolCredit_sum (side : Team) (trickOwner : Option Team) :
    foolCredit (some side) trickOwner .attack + foolCredit (some side) trickOwner .defense = 9 := by
  cases side <;> rcases trickOwner with _ | (_ | _) <;> rfl

theorem tricksOf_perm (d : DealState) :
    (d.tricksOf .attack ++ d.tricksOf .defense).Perm (d.tricks.flatMap PlayedTrick.cards) := by
  have hdefense : (d.tricks.filter fun p => p.owner = .defense) =
      d.tricks.filter fun p => !decide (p.owner = .attack) := by
    refine List.filter_congr fun p _ => ?_
    cases p.owner <;> rfl
  rw [tricksOf, tricksOf, hdefense, ← List.flatMap_append]
  exact (List.filter_append_perm _ d.tricks).flatMap_right _

/-- Every card belongs to a side. -/
theorem Finished.cardsOf_perm {d : DealState} (h : d.Finished) :
    (d.cardsOf .attack ++ d.cardsOf .defense).Perm Cards.standard := by
  refine List.Perm.trans (List.perm_iff_count.mpr fun c => ?_) h.perm
  have htricks := d.tricksOf_perm.count_eq c
  rw [List.count_append] at htricks
  rw [cardsOf, cardsOf, h.discard_owner]
  simp only [List.count_append]
  cases Record.discardOwner d.bid.contract <;> simp <;> omega

/-- The Fool counts for one of the sides. -/
theorem Finished.foolSide_isSome {d : DealState} (h : d.Finished) :
    ∃ side, d.foolSide? = some side := by
  unfold foolSide?
  by_cases hin : d.discard.cards.hasFool
  · rw [if_pos hin]
    exact ⟨_, h.discard_owner⟩
  · rw [if_neg hin]
    have hfool : Card.fool ∈ d.tricks.flatMap PlayedTrick.cards := by
      have hdeck : Card.fool ∈ Cards.standard := Cards.mem_standard.mpr rfl
      exact (List.mem_append.mp (h.perm.mem_iff.mpr hdeck)).resolve_right
        fun hm => hin (hasFool_iff.mpr hm)
    obtain ⟨p, hp⟩ := Option.isSome_iff_exists.mp
      (h.played.foolPlay?_isSome h.distinct.1 hfool)
    exact ⟨p.side d, by rw [hp]; rfl⟩

/-- The half points of both sides are those of the deck. -/
theorem Finished.accountedHalfPoints_sum {d : DealState} (h : d.Finished) :
    d.accountedHalfPoints .attack + d.accountedHalfPoints .defense = 182 := by
  obtain ⟨side, hside⟩ := h.foolSide_isSome
  have hcards : ((d.cardsOf .attack).remove Card.fool).halfPoints
      + ((d.cardsOf .defense).remove Card.fool).halfPoints = 173 := by
    rw [← Cards.halfPoints_append, ← Cards.remove_append]
    -- The deck has 182 half points, nine of them for the Fool.
    exact (Cards.halfPoints_perm (h.cardsOf_perm.filter _)).trans (by decide +kernel)
  have hcredit := foolCredit_sum side d.foolTrickOwner?
  rw [accountedHalfPoints, accountedHalfPoints, hside]
  omega

/-- The oudlers of both sides are the three of the deck. -/
theorem Finished.accountedOudlers_sum {d : DealState} (h : d.Finished) :
    d.accountedOudlers .attack + d.accountedOudlers .defense = 3 := by
  obtain ⟨side, hside⟩ := h.foolSide_isSome
  have hcards : (d.cardsOf .attack).countP Cards.isLittleOrBig
      + (d.cardsOf .defense).countP Cards.isLittleOrBig = 2 := by
    rw [← List.countP_append, h.cardsOf_perm.countP_eq]
    decide +kernel
  rw [accountedOudlers, accountedOudlers, hside]
  show (d.cardsOf .attack).countP Cards.isLittleOrBig + _
    + ((d.cardsOf .defense).countP Cards.isLittleOrBig + _) = 3
  cases side <;> simp <;> omega

/-! ## The result -/

/-- A Fool in the discard was not played. -/
theorem Finished.foolPlay?_eq_none {d : DealState} (h : d.Finished)
    (hin : Card.fool ∈ d.discard.cards) : d.foolPlay? = none := by
  obtain ⟨_, _, hapart⟩ := h.distinct
  have hbefore : ∀ p ∈ d.tricks, p.cards.hasFool = false := by
    intro p hp
    refine hasFool_eq_false.mpr fun hfool => ?_
    exact hapart _ (List.mem_flatMap.mpr ⟨p, hp, hfool⟩) hin
  rw [foolPlay?, List.findIdx?_eq_none_iff.mpr hbefore]
  rfl

/-- **What the attack has in tricks and discard is what its cards and the Fool come to.** -/
theorem Finished.attackTotal_eq {d : DealState} (h : d.Finished) :
    (d.attackTotal.halfPoints : Int) = d.accountedHalfPoints .attack
      ∧ d.attackTotal.oudlers = d.accountedOudlers .attack := by
  obtain ⟨htricks, hdiscard, _⟩ := h.distinct
  have hrunning := h.played.accounted htricks
  have hpoints := hrunning.halfPoints
  have houdlers := hrunning.oudlers
  have hsplit := Cards.halfPoints_eq_remove hdiscard Card.fool
  have hsplit' := Cards.countP_isOudler hdiscard
  rw [show Card.fool.halfPoints = 9 from rfl] at hsplit
  rw [accountedOudlers, show (fun c => decide (c = Card.little) || decide (c = Card.big)) =
    Cards.isLittleOrBig from rfl]
  rw [attackTotal, accountedHalfPoints, cardsOf, Cards.remove_append, Cards.halfPoints_append,
    List.countP_append, foolSide?, h.discard_owner]
  by_cases hin : Card.fool ∈ d.discard.cards
  · -- The tricks give nothing for the Fool; the owner of the discard has it whole.
    have hnone := h.foolPlay?_eq_none hin
    rw [foolTrickOwner?, hnone, Option.map_none, Option.map_none,
      show foolCredit none none .attack = 0 from rfl] at hpoints
    rw [hnone, Option.map_none, if_neg (by decide)] at houdlers
    rw [if_pos hin] at hsplit hsplit'
    rw [if_pos (hasFool_iff.mpr hin), foolTrickOwner?, hnone, Option.map_none]
    cases Record.discardOwner d.bid.contract with
    | attack =>
      rw [if_pos rfl, if_pos rfl, if_pos rfl, Statistics.addTrumps_halfPoints,
        Statistics.addTrumps_oudlers, show foolCredit (some .attack) none .attack = 9 from rfl]
      omega
    | defense =>
      rw [if_neg (by decide), if_neg (by decide), if_neg (by decide),
        show foolCredit (some .defense) none .attack = 0 from rfl]
      exact ⟨by simpa [Cards.remove] using hpoints, by simpa using houdlers⟩
  · -- The discard is counted as it is, and the tricks have settled the Fool.
    rw [if_neg hin] at hsplit hsplit'
    rw [if_neg (fun hf => hin (hasFool_iff.mp hf))]
    cases Record.discardOwner d.bid.contract with
    | attack =>
      rw [if_pos rfl, if_pos rfl, Statistics.addTrumps_halfPoints, Statistics.addTrumps_oudlers]
      omega
    | defense =>
      rw [if_neg (by decide), if_neg (by decide)]
      exact ⟨by simpa [Cards.remove] using hpoints, by simpa using houdlers⟩

/-- **The figures of a deal that is over are exact: the half points and the oudlers of the attack
are those of its cards and of its Fool, and with those of the defense they make up the deck.** -/
theorem attack_accounts {d : DealState} (h : d.Over) :
    (d.result.cardHalfPoints : Int) = d.accountedHalfPoints .attack
      ∧ d.result.oudlers = d.accountedOudlers .attack
      ∧ d.accountedHalfPoints .attack + d.accountedHalfPoints .defense = 182
      ∧ d.accountedOudlers .attack + d.accountedOudlers .defense = 3 :=
  ⟨h.finished.attackTotal_eq.1, h.finished.attackTotal_eq.2, h.finished.accountedHalfPoints_sum,
    h.finished.accountedOudlers_sum⟩

/-- A deal that was played at a table. -/
theorem trialEnd_accounts :
    (Table.trialEnd.deal.result.cardHalfPoints : Int) =
        Table.trialEnd.deal.accountedHalfPoints .attack
      ∧ Table.trialEnd.deal.result.oudlers = Table.trialEnd.deal.accountedOudlers .attack
      ∧ Table.trialEnd.deal.accountedHalfPoints .attack
        + Table.trialEnd.deal.accountedHalfPoints .defense = 182
      ∧ Table.trialEnd.deal.accountedOudlers .attack
        + Table.trialEnd.deal.accountedOudlers .defense = 3 :=
  attack_accounts (.table Table.trialEnd_reachable Table.trial_phases.2)

end DealState

end FrenchTarot
