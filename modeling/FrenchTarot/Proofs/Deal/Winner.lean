import FrenchTarot.Proofs.Cards.Duties
import FrenchTarot.Proofs.Deal.Fool
import FrenchTarot.Proofs.Deal.Plays

/-!
# Who wins a trick

Players follow a trick card by card and keep the best card in mind.  A deal looks at the complete
trick instead: its highest trump wins, and without a trump the highest card of the suit led.  The
two agree because one more card changes the card that wins exactly when it beats it
(`leadingCard_concat`).

The best card wins the trick for its seat, unless the taker completes a slam with the Fool.  Whether
the attack has won every trick before is something a deal reads off a number that it keeps.
`Built` are the deals that come about by the operations on deals, in any order and with any
arguments; in all of them the number is right (`Built.tallied`), and so every trick is won by the
rule (`WonByRule`).
-/

namespace FrenchTarot

theorem Bid.teamOf_eq_attack {b : Bid} {s : Seat} :
    b.teamOf s = .attack ↔ b.taker = some s ∨ b.partner = some s := by
  unfold teamOf isAttacker
  split
  · rename_i h
    simpa using h
  · rename_i h
    simpa using h

/-! ## The best card of a trick -/

/-- Whether a card beats the best one so far.  The Fool beats nothing, and everything else beats
the Fool. -/
def Card.beats (c best : Card) : Bool :=
  !c.isFool && (best.isFool
    || (c.isTrump && (!best.isTrump || best.rank < c.rank))
    || (!c.isTrump && !best.isTrump && c.suit = best.suit && best.rank < c.rank))

/-- The Fool is a trump. -/
theorem Card.isFool_of_plain {c : Card} (h : c.isTrump = false) : c.isFool = false := by
  refine Bool.eq_false_iff.mpr fun hf => ?_
  have hc : c = fool := by simpa [isFool] using hf
  rw [hc] at h
  cases h

namespace Cards

/-- The best card after one more card. -/
def better (best c : Card) : Card := if c.beats best then c else best

/-- The best card of a trick, followed card by card. -/
def best? : Cards → Option Card
  | [] => none
  | first :: others => some (others.foldl better first)

theorem better_fool (c : Card) : better Card.fool c = c := by
  by_cases h : c = Card.fool
  · rw [h]
    rfl
  · have hf : c.isFool = false := by simpa [Card.isFool] using h
    have : Card.fool.isFool = true := rfl
    simp [better, Card.beats, hf, this]

theorem mem_of_foldl_better (others : Cards) (first : Card) :
    others.foldl better first ∈ first :: others := by
  induction others generalizing first with
  | nil => simp
  | cons c others ih =>
    rw [List.foldl_cons]
    rcases List.mem_cons.mp (ih (better first c)) with h | h
    · rw [h, better]
      split <;> simp
    · exact List.mem_cons_of_mem first (List.mem_cons_of_mem c h)

/-! ## One more card -/

theorem properTrumps_concat (cards : Cards) (c : Card) :
    (cards ++ [c]).properTrumps =
      cards.properTrumps ++ if c.isTrump && !c.isFool then [c] else [] := by
  unfold properTrumps
  rw [List.filter_append, List.filter_singleton]
  cases c.isTrump && !c.isFool <;> rfl

theorem highestTrump?_concat (cards : Cards) (c : Card) :
    (cards ++ [c]).highestTrump? =
      if c.isTrump && !c.isFool then
        some (cards.highestTrump?.elim c fun b => if b.rank ≤ c.rank then c else b)
      else cards.highestTrump? := by
  change highest? (cards ++ [c]).properTrumps = _
  rw [properTrumps_concat]
  split
  · rw [highest?_concat]
    rfl
  · rw [List.append_nil]
    rfl

/-- Without a suit led there are trumps only. -/
theorem highestOfSuitLed?_eq_none {cards : Cards} :
    cards.highestOfSuitLed? = none ↔ ∀ c ∈ cards, c.isTrump := by
  unfold highestOfSuitLed?
  cases hlead : cards.find? fun c => !c.isTrump with
  | none =>
    simpa using hlead
  | some lead =>
    have hmem := List.mem_of_find?_eq_some hlead
    have hplain := List.find?_some hlead
    constructor
    · intro h
      have : lead ∈ cards.filter fun c => c.suit = lead.suit := by simp [hmem]
      rw [highest?_eq_none.mp h] at this
      cases this
    · intro h
      rw [h lead hmem] at hplain
      cases hplain

/-- The first ordinary card says which suit is led. -/
theorem highestOfSuitLed?_eq_some {cards : Cards} {b : Card}
    (h : cards.highestOfSuitLed? = some b) :
    ∃ lead, cards.find? (fun c => !c.isTrump) = some lead ∧ b.suit = lead.suit
      ∧ b.isTrump = false := by
  unfold highestOfSuitLed? at h
  cases hlead : cards.find? fun c => !c.isTrump with
  | none =>
    rw [hlead] at h
    cases h
  | some lead =>
    rw [hlead] at h
    have hsuit : b.suit = lead.suit := by
      simpa using (List.mem_filter.mp (highest?_eq_some h).1).2
    have hplain := List.find?_some hlead
    refine ⟨lead, rfl, hsuit, ?_⟩
    simpa [Card.isTrump, hsuit] using hplain

theorem highestOfSuitLed?_concat (cards : Cards) (c : Card) :
    (cards ++ [c]).highestOfSuitLed? =
      match cards.highestOfSuitLed? with
      | none => if c.isTrump then none else some c
      | some b => some (if c.suit = b.suit ∧ b.rank ≤ c.rank then c else b) := by
  cases hb : cards.highestOfSuitLed? with
  | none =>
    have htrumps := highestOfSuitLed?_eq_none.mp hb
    have hnone : cards.find? (fun c => !c.isTrump) = none := by simpa using htrumps
    cases hc : c.isTrump with
    | true =>
      dsimp only
      rw [if_pos rfl, highestOfSuitLed?_eq_none]
      simpa [or_imp, forall_and, hc] using htrumps
    | false =>
      -- The card leads a suit of which nothing has been played.
      have hsuit : cards.filter (fun x => x.suit = c.suit) = [] := by
        refine List.filter_eq_nil_iff.mpr fun x hx he => ?_
        have := htrumps x hx
        simp [Card.isTrump] at this he hc
        exact hc (he ▸ this)
      simp [highestOfSuitLed?, List.find?_append, hnone, hc, List.filter_append, hsuit, highest?]
  | some b =>
    obtain ⟨lead, hlead, hsuit, _⟩ := highestOfSuitLed?_eq_some hb
    have hb' : highest? (cards.filter fun x => x.suit = lead.suit) = some b := by
      rw [highestOfSuitLed?, hlead] at hb
      exact hb
    unfold highestOfSuitLed?
    rw [List.find?_append, hlead, Option.some_or]
    dsimp only
    rw [List.filter_append, hsuit]
    by_cases hc : c.suit = lead.suit
    · rw [List.filter_cons_of_pos (by simpa using hc), List.filter_nil, highest?_concat, hb']
      simp [hc]
    · rw [List.filter_cons_of_neg (by simpa using hc), List.filter_nil, List.append_nil, hb']
      simp [hc]

end Cards

namespace DealState

open Cards

/-- A card of the same rank and suit is the same card, so that ranks decide. -/
theorem better_of_suit {b c : Card} (hsuit : c.suit = b.suit) (hb : b.isFool = false)
    (hc : c.isFool = false) : better b c = if b.rank ≤ c.rank then c else b := by
  have hbeats : c.beats b = decide (b.rank < c.rank) := by
    cases ht : b.isTrump <;> simp [Card.beats, Card.isTrump, hsuit, hb, hc] at ht ⊢ <;> simp [ht]
  rw [better, hbeats]
  rcases Nat.lt_trichotomy b.rank c.rank with hlt | heq | hlt
  · simp [hlt, Nat.le_of_lt hlt]
  · obtain ⟨rank, suit⟩ := c
    obtain ⟨rank', suit'⟩ := b
    dsimp only at hsuit heq
    simp [hsuit, heq]
  · simp [Nat.not_le.mpr hlt, Nat.lt_asymm hlt]

/-- **One more card wins the trick exactly when it beats the card that won it.** -/
theorem leadingCard_concat (trick : Cards) (c : Card) :
    leadingCard (trick ++ [c]) = better (leadingCard trick) c := by
  unfold leadingCard
  rw [highestTrump?_concat, highestOfSuitLed?_concat]
  by_cases hproper : c.isTrump && !c.isFool
  · obtain ⟨htrump, hfool⟩ : c.isTrump = true ∧ c.isFool = false := by simpa using hproper
    rw [if_pos hproper]
    cases hb : trick.highestTrump? with
    | some b =>
      obtain ⟨_, hbt, hbf⟩ := mem_properTrumps.mp (highestTrump?_eq_some hb).1
      have hsuit : c.suit = b.suit := by simp_all [Card.isTrump]
      simp [better_of_suit hsuit hbf hfool]
    | none =>
      -- The first trump beats every other card.
      cases hl : trick.highestOfSuitLed? with
      | none => simp [better_fool]
      | some l =>
        obtain ⟨_, _, _, hlt⟩ := highestOfSuitLed?_eq_some hl
        simp [better, Card.beats, htrump, hfool, hlt]
  · rw [if_neg hproper]
    cases hb : trick.highestTrump? with
    | some b =>
      obtain ⟨_, hbt, hbf⟩ := mem_properTrumps.mp (highestTrump?_eq_some hb).1
      have hbeats : c.beats b = false := by
        cases hfool : c.isFool <;> simp_all [Card.beats]
      simp [better, hbeats]
    | none =>
      cases hl : trick.highestOfSuitLed? with
      | none =>
        cases htrump : c.isTrump <;> simp_all [better_fool, Card.isFool]
      | some l =>
        obtain ⟨_, _, _, hlt⟩ := highestOfSuitLed?_eq_some hl
        have hlf := Card.isFool_of_plain hlt
        by_cases hsuit : c.suit = l.suit
        · have hfool : c.isFool = false := by
            refine Card.isFool_of_plain ?_
            simpa [Card.isTrump, hsuit] using hlt
          simp [hsuit, better_of_suit hsuit hlf hfool]
        · have hbeats : c.beats l = false := by
            cases hfool : c.isFool <;> simp_all [Card.beats]
          simp [hsuit, better, hbeats]

theorem foldl_better_leadingCard (others trick : Cards) :
    others.foldl better (leadingCard trick) = leadingCard (trick ++ others) := by
  induction others generalizing trick with
  | nil => simp
  | cons c others ih =>
    rw [List.foldl_cons, ← leadingCard_concat, ih, List.append_assoc]
    rfl

/-- **Following a trick card by card leads to the card that wins it.** -/
theorem best?_eq {trick : Cards} (h : trick ≠ []) : trick.best? = some (leadingCard trick) := by
  cases trick with
  | nil => exact absurd rfl h
  | cons first others =>
    have hfirst : leadingCard [first] = first :=
      (leadingCard_concat [] first).trans (better_fool first)
    have hfold := foldl_better_leadingCard others [first]
    rw [hfirst] at hfold
    exact congrArg some hfold

theorem mem_of_best? {trick : Cards} {best : Card} (h : trick.best? = some best) :
    best ∈ trick := by
  cases trick with
  | nil => cases h
  | cons first others =>
    rw [← Option.some.inj h]
    exact mem_of_foldl_better others first

/-! ## The winner -/

/-- The taker plays the Fool in the last trick, and the attack has won all the others. -/
structure SlamWithFool (d : DealState) (leader : Seat) (trick : Cards) : Prop where
  last : d.tricks.length + 1 = Rules.handSize d.players
  others : ∀ p ∈ d.tricks, p.owner = .attack
  fool : ∃ place, trick[place]? = some Card.fool
    ∧ d.bid.taker = some (leader.advance place d.players)

/-- What a trick comes to by the rules. -/
structure WonByRule (d : DealState) (trick : Cards) (d' : DealState) (winner : Seat) : Prop where
  /-- The seat of the best card wins, or else the taker who completes a slam with the Fool. -/
  seat : ∃ leader best place, d.leader? d.tricks.length = some leader
    ∧ trick.best? = some best ∧ (∀ i, trick[i]? = some best ↔ i = place)
    ∧ (d.SlamWithFool leader trick → d.bid.taker = some winner)
    ∧ (¬ d.SlamWithFool leader trick → winner = leader.advance place d.players)
  /-- The trick comes after the others, for the side of its winner. -/
  added : ∃ owner, d'.tricks = d.tricks ++ [⟨trick, winner, owner⟩]
    ∧ (owner = .attack ↔ d.bid.taker = some winner ∨ d.bid.partner = some winner)
  /-- The tricks of the attack are counted. -/
  counted : d'.tricksWon = d.tricksWon +
    if d.bid.taker = some winner ∨ d.bid.partner = some winner then 1 else 0

/-- In a trick without repetitions a card has one place. -/
theorem getElem?_eq_some_iff_place {trick : Cards} (hn : trick.Nodup) {place : Nat} {c : Card}
    (hc : trick[place]? = some c) (i : Nat) : trick[i]? = some c ↔ i = place := by
  constructor
  · intro hi
    obtain ⟨hlt, _⟩ := List.getElem?_eq_some_iff.mp hi
    exact (List.getElem?_inj hlt hn).mp (hi.trans hc.symm)
  · rintro rfl
    exact hc

/-- The seat of a card is the leader moved on by its place. -/
theorem seatOf_eq {trick : Cards} (hn : trick.Nodup) {place : Nat} {c : Card}
    (hc : trick[place]? = some c) (leader : Seat) (n : Nat) :
    seatOf leader trick c n = leader.advance place n := by
  rw [seatOf, Cards.position?_eq hn hc]

/-- A deal knows a slam by the number of tricks that the attack has won. -/
theorem slamWithFool_iff {d : DealState} {leader : Seat} {trick : Cards} (hn : trick.Nodup)
    (hmore : d.tricks.length < Rules.handSize d.players)
    (hwon : d.tricksWon = d.tricks.countP fun p => p.owner = .attack) :
    d.SlamWithFool leader trick ↔ trick.hasFool ∧ Rules.dealOver (d.tricks.length + 1) d.players
      ∧ d.tricksWon + 1 = Rules.handSize d.players
      ∧ d.bid.taker = some (seatOf leader trick Card.fool d.players) := by
  have hlast : Rules.dealOver (d.tricks.length + 1) d.players ↔
      d.tricks.length + 1 = Rules.handSize d.players := by
    simp only [Rules.dealOver, decide_eq_true_eq]
    omega
  have hothers := tricksWon_eq_length hwon
  rw [hlast]
  constructor
  · rintro ⟨hend, hall, place, hplace, htaker⟩
    refine ⟨?_, hend, ?_, ?_⟩
    · exact hasFool_iff.mpr (List.mem_of_getElem? hplace)
    · rw [hothers.mpr hall, hend]
    · rw [seatOf_eq hn hplace, htaker]
  · rintro ⟨hfool, hend, hall, htaker⟩
    obtain ⟨place, hplace⟩ := List.mem_iff_getElem?.mp (hasFool_iff.mp hfool)
    rw [seatOf_eq hn hplace] at htaker
    exact ⟨hend, hothers.mp (by omega), place, hplace, htaker⟩

/-- **The winner of a trick is the taker who completes a slam with the Fool, or else the seat of
the best card.** -/
theorem resolve_fst {d : DealState} (leader : Seat) {trick : Cards} (hn : trick.Nodup)
    (hmore : d.tricks.length < Rules.handSize d.players)
    (hwon : d.tricksWon = d.tricks.countP fun p => p.owner = .attack) :
    (d.SlamWithFool leader trick → d.bid.taker = some (d.resolve leader trick).1)
      ∧ (¬ d.SlamWithFool leader trick →
        (d.resolve leader trick).1 = seatOf leader trick (leadingCard trick) d.players) := by
  rw [slamWithFool_iff hn hmore hwon]
  unfold resolve
  dsimp only
  by_cases hfool : trick.hasFool
  · rw [if_pos hfool]
    by_cases hend : Rules.dealOver (d.tricks.length + 1) d.players
    · rw [if_pos hend]
      by_cases hslam : d.tricksWon + 1 = Rules.handSize d.players
          ∧ d.bid.taker = some (seatOf leader trick Card.fool d.players)
      · rw [if_pos (by simpa using hslam)]
        exact ⟨fun _ => hslam.2, fun h => absurd ⟨hfool, hend, hslam⟩ h⟩
      · rw [if_neg (by simpa using hslam)]
        exact ⟨fun h => absurd h.2.2 hslam, fun _ => rfl⟩
    · rw [if_neg hend]
      exact ⟨fun h => absurd h.2.1 hend, fun _ => rfl⟩
  · rw [if_neg hfool]
    exact ⟨fun h => absurd h.1 hfool, fun _ => rfl⟩

/-! ## Deals that the operations build -/

/-- The deals of `n` players that come about by the operations on deals, in any order, and with any
bid. -/
inductive Built (n : Nat) : DealState → Prop where
  | new : Built n (.new n)
  /-- The deal at the beginning of a replay. -/
  | opening (info : DealInfo) (players : info.players.toNat = n) : Built n (Record.opening info)
  | bid {d : DealState} (before : Built n d) (contract : Contract) (slam : Bool) (seat : Seat) :
      Built n (d.recordBid contract slam seat).1
  /-- A bid that was made elsewhere, such as that of a record. -/
  | entered {d : DealState} (before : Built n d) (bid : Bid) : Built n { d with bid }
  | partner {d : DealState} (before : Built n d) (partner : Option Seat) :
      Built n (d.setPartner partner)
  | dog {d : DealState} (before : Built n d) (dog : Cards) : Built n (d.setDog dog)
  | discard {d : DealState} (before : Built n d) (discard : Cards) (owner : Team) :
      Built n (d.setDiscard discard owner)
  | settled {d : DealState} (before : Built n d) : Built n d.settleDog
  | handle {d : DealState} (before : Built n d) (handle : Cards) (seat : Seat) :
      Built n (d.keepHandle handle seat)
  | firstPlayer {d : DealState} (before : Built n d) (seat : Seat) :
      Built n (d.setFirstPlayer seat)
  | trick {d d' : DealState} {cards : Cards} {winner : Seat} (before : Built n d)
      (added : d.addTrick cards = .ok (d', winner)) : Built n d'

/-- The tricks of the attack are counted right. -/
structure Tallied (d : DealState) (n : Nat) : Prop where
  players : d.players = n
  tricksWon : d.tricksWon = d.tricks.countP fun p => p.owner = .attack

theorem Tallied.frame {d d' : DealState} {n : Nat} (h : d.Tallied n)
    (players : d'.players = d.players) (tricks : d'.tricks = d.tricks)
    (tricksWon : d'.tricksWon = d.tricksWon) : d'.Tallied n where
  players := players.trans h.players
  tricksWon := by rw [tricksWon, tricks, h.tricksWon]

theorem Tallied.withTrick {d : DealState} {n : Nat} (h : d.Tallied n) (leader : Seat)
    (trick : Cards) : (d.withTrick leader trick).Tallied n where
  players := h.players
  tricksWon := by
    rw [withTrick_tricksWon, withTrick_tricks, List.countP_append, List.countP_singleton,
      h.tricksWon]
    simp only [decide_eq_true_eq]

/-- **No operation but a trick changes the tricks, and a trick is counted.** -/
theorem Built.tallied {d : DealState} {n : Nat} (h : d.Built n) : d.Tallied n := by
  induction h with
  | new => exact ⟨rfl, rfl⟩
  | opening info players => exact ⟨players, rfl⟩
  | bid _ contract slam seat ih =>
    rw [recordBid_eq]
    exact ih.frame rfl rfl rfl
  | entered _ bid ih => exact ih.frame rfl rfl rfl
  | partner _ partner ih => exact ih.frame rfl rfl rfl
  | dog _ dog ih => exact ih.frame rfl rfl rfl
  | discard _ discard owner ih => exact ih.frame rfl rfl rfl
  | settled _ ih =>
    unfold settleDog
    split
    · exact ih.frame rfl rfl rfl
    · exact ih
  | handle _ handle seat ih =>
    obtain ⟨attackHandle, defenseHandle, heq⟩ := keepHandle_eq _ handle seat
    rw [heq]
    exact ih.frame rfl rfl rfl
  | firstPlayer _ seat ih => exact ih.frame rfl rfl rfl
  | trick _ added ih =>
    obtain ⟨_, _, leader, _, rfl, _⟩ := addTrick_eq_ok.mp added
    exact ih.withTrick leader _

/-- **Every trick that is added is won by the rule.** -/
theorem Built.addTrick_wonByRule {n : Nat} (hn : Rules.supported n) {d d' : DealState}
    (h : d.Built n) {trick : Cards} (hnodup : trick.Nodup) {winner : Seat}
    (added : d.addTrick trick = .ok (d', winner)) : d.WonByRule trick d' winner := by
  have ht := h.tallied
  obtain ⟨hsize, hmore, leader, hleader, rfl, rfl⟩ := addTrick_eq_ok.mp added
  have hne : trick ≠ [] := by
    have := Rules.players_pos hn
    rw [← ht.players, ← hsize] at this
    exact List.ne_nil_of_length_pos this
  have hbest := best?_eq hne
  obtain ⟨place, hplace⟩ := List.mem_iff_getElem?.mp (mem_of_best? hbest)
  have hseat := seatOf_eq hnodup hplace leader d.players
  obtain ⟨hslam, hrule⟩ := resolve_fst leader hnodup hmore ht.tricksWon
  refine ⟨⟨leader, leadingCard trick, place, hleader, hbest,
    getElem?_eq_some_iff_place hnodup hplace, hslam, ?_⟩, ⟨_, withTrick_tricks d leader trick,
    Bid.teamOf_eq_attack⟩, ?_⟩
  · intro hnot
    rw [hrule hnot, hseat]
  · rw [withTrick_tricksWon]
    simp only [Bid.teamOf_eq_attack]

/-- A replay builds its deal by adding tricks. -/
theorem Built.playTricks {d d' : DealState} {n number : Nat} {remaining remaining' : Cards}
    {tricks : List Cards} (h : d.Built n)
    (played : Record.playTricks d remaining number tricks = .ok (d', remaining')) :
    d'.Built n := by
  induction tricks generalizing d remaining number with
  | nil =>
    cases played
    exact h
  | cons trick tricks ih =>
    obtain ⟨_, _, d1, winner, hadd, hrest⟩ := Record.playTricks_cons_eq_ok played
    exact ih (h.trick hadd) hrest

/-- South plays alone and has announced a slam. -/
def slamInfo : DealInfo where
  players := 4
  taker := some .south
  contract := .guard
  slam := true
  firstLead := some .south
  dog := []
  attackHandle := []
  defenseHandle := []
  partner := none

/-- Seventeen tricks in which South leads a high trump. -/
def slamTricks : List Cards := (List.range 17).map fun k =>
  ⟨Rank.bigTrump - k, .trumps⟩ :: (Cards.standard.drop (3 * k)).take 3

/-- South leads the Fool to the last trick, in which West has the best card. -/
def slamFool : Cards := Card.fool :: (Cards.standard.drop 51).take 3

theorem slamFool_wonByRule : ∃ d d' : DealState, Rules.supported 4 ∧ d.Built 4 ∧ slamFool.Nodup
    ∧ d.addTrick slamFool = .ok (d', .south) ∧ d.WonByRule slamFool d' .south
    ∧ slamFool.best? = some ⟨12, .clubs⟩ := by
  have hplay : (Record.playTricks (Record.opening slamInfo) Cards.standard 1
      slamTricks).toOption.map (fun p => (p.1.addTrick slamFool).toOption.map Prod.snd) =
        some (some .south) := by
    decide +kernel
  obtain ⟨⟨d, _⟩, hd, hwinner⟩ := exists_of_map_toOption hplay
  obtain ⟨⟨d', _⟩, hadd, rfl⟩ := exists_of_map_toOption hwinner
  have hbuilt : d.Built 4 := (Built.opening slamInfo rfl).playTricks hd
  have hnodup : slamFool.Nodup := by decide
  exact ⟨d, d', by decide, hbuilt, hnodup, hadd,
    hbuilt.addTrick_wonByRule (by decide) hnodup hadd, by decide⟩

end DealState

end FrenchTarot
