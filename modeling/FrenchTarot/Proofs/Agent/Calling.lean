import FrenchTarot.Proofs.Agent.Fallback
import FrenchTarot.Proofs.Table.CalledCard

/-!
# Which card is called

Whether a card may be called is told from the figures of a hand, and these only count the honours.
A hand without repetition has each card once or not at all, so that four honours of a rank are
counted exactly if all four are there (`four_le_countHeld_iff`).  The figures of the four ranks are
gone through from the kings down, and a rank is reached when all ranks before it are complete
(`callableRank_iff`).

A player without a mind of its own looks for the first honour that may be called and is not in the
hand.  Of the ranks that are not complete, only the highest one has such honours, so it is there
that the search ends.  It fails only in a hand with all sixteen honours, which is more cards than
anybody has at a table of five.
-/

namespace FrenchTarot

theorem Suit.mem_ordinary {s : Suit} : s ∈ ordinary ↔ s ≠ .trumps := by
  cases s <;> decide

namespace Cards

/-- The hand has the card of this rank in every ordinary suit. -/
def HasAll (hand : Cards) (rank : Nat) : Prop := ∀ s ∈ Suit.ordinary, ⟨rank, s⟩ ∈ hand

instance (hand : Cards) (rank : Nat) : Decidable (hand.HasAll rank) :=
  inferInstanceAs (Decidable (∀ s ∈ Suit.ordinary, _))

/-- An honour of an ordinary suit, where the hand has all honours of the ranks above. -/
structure Callable (hand : Cards) (card : Card) : Prop where
  ordinary : card.suit ≠ .trumps
  honour : card.rank ∈ Rank.honours
  above : ∀ higher ∈ Rank.honours, card.rank < higher → hand.HasAll higher

/-- The highest rank of which the hand does not have all honours. -/
structure HighestOpen (hand : Cards) (rank : Nat) : Prop where
  honour : rank ∈ Rank.honours
  lacking : ¬ hand.HasAll rank
  above : ∀ higher ∈ Rank.honours, rank < higher → hand.HasAll higher

variable {hand : Cards}

/-! ## Counting the honours -/

/-- How many cards of a rank a hand has in the ordinary suits. -/
def countHeld (hand : Cards) (rank : Nat) : Nat :=
  (Suit.ordinary.map fun s => hand.count ⟨rank, s⟩).sum

theorem countRank_ofSuit (hand : Cards) (s : Suit) (rank : Nat) :
    (hand.ofSuit s).countRank rank = hand.count ⟨rank, s⟩ := by
  unfold countRank ofSuit List.count
  rw [List.countP_filter]
  refine List.countP_congr fun c _ => ?_
  obtain ⟨r, t⟩ := c
  simp

/-- The figures have the number of honours of each rank. -/
theorem statistics_honours (hand : Cards) :
    [(Rank.king, hand.statistics.kings), (Rank.queen, hand.statistics.queens),
      (Rank.knight, hand.statistics.knights), (Rank.jack, hand.statistics.jacks)] =
      Rank.honours.map fun rank => (rank, hand.countHeld rank) := by
  simp only [statistics, Statistics.addSuits, Statistics.addSuit, Statistics.addTrumps,
    Suit.ordinary, List.foldl_cons, List.foldl_nil, countRank_ofSuit]
  simp [Rank.honours, countHeld, Suit.ordinary, Nat.add_assoc]

/-- **Four cards of a rank are counted exactly if they are all there.** -/
theorem four_le_countHeld_iff (distinct : hand.Nodup) {rank : Nat} :
    4 ≤ hand.countHeld rank ↔ hand.HasAll rank := by
  have hsum : hand.countHeld rank = hand.count ⟨rank, .spades⟩ + (hand.count ⟨rank, .hearts⟩
      + (hand.count ⟨rank, .diamonds⟩ + hand.count ⟨rank, .clubs⟩)) := by
    simp [countHeld, Suit.ordinary]
  have hall : hand.HasAll rank ↔ 0 < hand.count ⟨rank, .spades⟩ ∧ 0 < hand.count ⟨rank, .hearts⟩
      ∧ 0 < hand.count ⟨rank, .diamonds⟩ ∧ 0 < hand.count ⟨rank, .clubs⟩ := by
    simp [HasAll, Suit.ordinary, List.count_pos_iff]
  have hspades := List.nodup_iff_count_le_one.mp distinct ⟨rank, .spades⟩
  have hhearts := List.nodup_iff_count_le_one.mp distinct ⟨rank, .hearts⟩
  have hdiamonds := List.nodup_iff_count_le_one.mp distinct ⟨rank, .diamonds⟩
  have hclubs := List.nodup_iff_count_le_one.mp distinct ⟨rank, .clubs⟩
  rw [hsum, hall]
  omega

/-! ## Cards that may be called -/

/-- **From high to low, a rank is reached when all ranks above it are held.** -/
theorem callableRank_iff {held : Nat → Nat} {ranks : List Nat} (desc : ranks.Pairwise (· > ·))
    {rank : Nat} : callableRank rank (ranks.map fun r => (r, held r)) ↔
      rank ∈ ranks ∧ ∀ r ∈ ranks, rank < r → 4 ≤ held r := by
  induction ranks with
  | nil => simp [callableRank]
  | cons first ranks ih =>
    obtain ⟨hfirst, desc⟩ := List.pairwise_cons.mp desc
    rw [List.map_cons, callableRank, Bool.or_eq_true, Bool.and_eq_true, decide_eq_true_eq,
      decide_eq_true_eq, ih desc, List.forall_mem_cons, List.mem_cons]
    constructor
    · rintro (rfl | ⟨hheld, hmem, habove⟩)
      · refine ⟨Or.inl rfl, fun hlt => absurd hlt (Nat.lt_irrefl _), ?_⟩
        intro r hr hlt
        have := hfirst r hr
        omega
      · exact ⟨Or.inr hmem, fun _ => hheld, habove⟩
    · rintro ⟨rfl | hmem, hheld, habove⟩
      · exact Or.inl rfl
      · exact Or.inr ⟨hheld (hfirst rank hmem), hmem, habove⟩

/-- **The figures of a hand tell which cards may be called.** -/
theorem canCall_iff (distinct : hand.Nodup) {card : Card} :
    canCall hand.statistics card ↔ Callable hand card := by
  unfold canCall
  rw [statistics_honours, Bool.and_eq_true, callableRank_iff (by decide), decide_eq_true_eq]
  simp only [four_le_countHeld_iff distinct]
  constructor
  · rintro ⟨hordinary, hhonour, habove⟩
    exact ⟨hordinary, hhonour, habove⟩
  · rintro ⟨hordinary, hhonour, habove⟩
    exact ⟨hordinary, hhonour, habove⟩

/-! ## The card that is found -/

theorem mem_honours {card : Card} :
    card ∈ honours ↔ card.rank ∈ Rank.honours ∧ card.suit ≠ .trumps := by
  obtain ⟨rank, suit⟩ := card
  rw [honours, List.mem_flatMap]
  constructor
  · rintro ⟨r, hr, hcard⟩
    obtain ⟨s, hs, heq⟩ := List.mem_map.mp hcard
    cases heq
    exact ⟨hr, Suit.mem_ordinary.mp hs⟩
  · rintro ⟨hrank, hsuit⟩
    exact ⟨rank, hrank, List.mem_map.mpr ⟨suit, Suit.mem_ordinary.mpr hsuit, rfl⟩⟩

theorem Callable.mem_honours {card : Card} (h : Callable hand card) : card ∈ honours :=
  Cards.mem_honours.mpr ⟨h.honour, h.ordinary⟩

/-- A callable card that is not there is of the highest rank that is not complete. -/
theorem Callable.highestOpen {card : Card} (h : Callable hand card) (lacking : card ∉ hand) :
    HighestOpen hand card.rank where
  honour := h.honour
  lacking := fun hall => lacking (hall card.suit (Suit.mem_ordinary.mpr h.ordinary))
  above := h.above

/-- From high to low, there is a first rank without a property. -/
theorem exists_highest {P : Nat → Prop} {ranks : List Nat} (desc : ranks.Pairwise (· > ·))
    (h : ∃ r ∈ ranks, ¬ P r) : ∃ r ∈ ranks, ¬ P r ∧ ∀ higher ∈ ranks, r < higher → P higher := by
  induction ranks with
  | nil =>
    obtain ⟨r, hr, _⟩ := h
    cases hr
  | cons first ranks ih =>
    obtain ⟨hfirst, desc⟩ := List.pairwise_cons.mp desc
    by_cases hp : P first
    · have hrest : ∃ r ∈ ranks, ¬ P r := by
        obtain ⟨r, hr, hnot⟩ := h
        rcases List.mem_cons.mp hr with rfl | hr
        · exact absurd hp hnot
        · exact ⟨r, hr, hnot⟩
      obtain ⟨r, hr, hnot, habove⟩ := ih desc hrest
      refine ⟨r, List.mem_cons_of_mem _ hr, hnot, ?_⟩
      exact List.forall_mem_cons.mpr ⟨fun _ => hp, habove⟩
    · refine ⟨first, List.mem_cons_self, hp, ?_⟩
      refine List.forall_mem_cons.mpr ⟨fun hlt => absurd hlt (Nat.lt_irrefl _), ?_⟩
      intro r hr hlt
      have := hfirst r hr
      omega

/-- Where an honour is missing, there is one that may be called. -/
theorem exists_callable (missing : ∃ c ∈ honours, c ∉ hand) :
    ∃ card, Callable hand card ∧ card ∉ hand := by
  obtain ⟨c, hc, hnot⟩ := missing
  obtain ⟨hrank, hsuit⟩ := mem_honours.mp hc
  have hopen : ∃ r ∈ Rank.honours, ¬ hand.HasAll r :=
    ⟨c.rank, hrank, fun hall => hnot (hall c.suit (Suit.mem_ordinary.mpr hsuit))⟩
  obtain ⟨rank, hhonour, hlacking, habove⟩ := exists_highest (by decide) hopen
  unfold HasAll at hlacking
  push Not at hlacking
  obtain ⟨s, hs, hmissing⟩ := hlacking
  exact ⟨⟨rank, s⟩, ⟨Suit.mem_ordinary.mp hs, hhonour, habove⟩, hmissing⟩

/-- **The card that is found is not in the hand if an honour is missing.** -/
theorem firstCall_not_mem_iff (distinct : hand.Nodup) :
    hand.firstCall ∉ hand ↔ ∃ c ∈ honours, c ∉ hand := by
  constructor
  · intro hnot
    have hcallable := (canCall_iff distinct).mp (canCall_firstCall hand)
    exact ⟨hand.firstCall, hcallable.mem_honours, hnot⟩
  · intro missing
    obtain ⟨card, hcallable, hnot⟩ := exists_callable missing
    unfold firstCall
    dsimp only
    cases hfound : honours.find? fun c => c ∉ hand && canCall hand.statistics c with
    | none =>
      have hno := List.find?_eq_none.mp hfound card hcallable.mem_honours
      rw [Bool.and_eq_true, decide_eq_true_eq] at hno
      exact absurd ⟨hnot, (canCall_iff distinct).mpr hcallable⟩ hno
    | some c =>
      have hc := List.find?_some hfound
      rw [Bool.and_eq_true, decide_eq_true_eq] at hc
      exact hc.1

/-- Fifteen cards are not all honours. -/
theorem exists_missing (few : hand.length ≤ 15) : ∃ c ∈ honours, c ∉ hand := by
  by_contra hnone
  push Not at hnone
  have hsixteen : honours.length = 16 := by decide
  have hle := (List.Nodup.subperm (by decide) hnone).length_le
  omega

end Cards

namespace Table

/-- **At a table that waits for a call, every bot calls a card that the taker does not have.** -/
theorem Reachable.bot_calls {t : Table} (h : Reachable t) (phase : t.phase = .awaitingKingCall) :
    ∃ taker, t.acting? = some taker ∧ (t.hand taker).length = 15
      ∧ ∀ b : Bot, ∃ card, (b.decide t taker).2 = some (.kingCall card)
        ∧ card ∉ t.hand taker ∧ t.Accepts taker (.kingCall card) := by
  have hb := h.sound.before (by rw [phase]; rfl)
  obtain ⟨taker, _, htaker, hlt, _⟩ := hb.bid.taken (hb.taken (by simp [phase]))
  have hacting : t.acting? = some taker := by rw [acting?, phase, htaker]
  have hlength : (t.hand taker).length = 15 := by
    rw [hb.hand_length taker hlt, h.callKept.five phase]
    rfl
  have distinct : (t.hand taker).Nodup := (List.nodup_append.mp (hb.nodup_hand_dog hlt)).1
  refine ⟨taker, hacting, hlength, fun b => ⟨(t.hand taker).firstCall, ?_, ?_, ?_⟩⟩
  · unfold Bot.decide
    rw [if_pos (by rw [phase]; decide), defaultAction?, hacting, phase]
    rfl
  · exact (Cards.firstCall_not_mem_iff distinct).mpr (Cards.exists_missing hlength.le)
  · exact accepts_kingCall phase htaker (Cards.canCall_firstCall _)

end Table

namespace Cards

/-- **A card may be called if it is an honour of an ordinary suit and the hand has all honours above
it.  The card that is found may always be called; unless the hand has all sixteen honours, it is one
that is missing, of the highest rank that is not complete.  No bot calls a card of its own hand.** -/
theorem calls_exact :
    (∀ hand : Cards, hand.Nodup →
      (∀ card, canCall hand.statistics card ↔ Callable hand card)
        ∧ canCall hand.statistics hand.firstCall
        ∧ ((∃ c ∈ honours, c ∉ hand) →
          hand.firstCall ∉ hand ∧ HighestOpen hand hand.firstCall.rank)
        ∧ (hand.length ≤ 15 → hand.firstCall ∉ hand))
    ∧ ∀ t : Table, Table.Reachable t → t.phase = .awaitingKingCall →
      ∃ taker, t.acting? = some taker ∧ (t.hand taker).length = 15
        ∧ ∀ b : Bot, ∃ card, (b.decide t taker).2 = some (.kingCall card)
          ∧ card ∉ t.hand taker ∧ t.Accepts taker (.kingCall card) := by
  refine ⟨fun hand distinct => ?_, fun t h phase => h.bot_calls phase⟩
  have hcall := canCall_firstCall hand
  refine ⟨fun card => canCall_iff distinct, hcall, ?_, ?_⟩
  · intro missing
    have hnot := (firstCall_not_mem_iff distinct).mpr missing
    exact ⟨hnot, ((canCall_iff distinct).mp hcall).highestOpen hnot⟩
  · intro few
    exact (firstCall_not_mem_iff distinct).mpr (exists_missing few)

/-- The four kings and a queen, with the trump of the kings' rank. -/
def fourKings : Cards :=
  ⟨Rank.queen, .spades⟩ :: ⟨Rank.king, .trumps⟩ :: Suit.ordinary.map fun s => ⟨Rank.king, s⟩

/-- With the four kings, the queens may be called. -/
theorem fourKings_calls :
    fourKings.Nodup ∧ canCall fourKings.statistics ⟨Rank.queen, .clubs⟩
      ∧ ¬ canCall fourKings.statistics ⟨Rank.knight, .clubs⟩
      ∧ fourKings.firstCall = ⟨Rank.queen, .hearts⟩ ∧ fourKings.firstCall ∉ fourKings
      ∧ HighestOpen fourKings fourKings.firstCall.rank
      ∧ ∃ taker, Table.trialCall.acting? = some taker ∧ (Table.trialCall.hand taker).length = 15
        ∧ ∀ b : Bot, ∃ card, (b.decide Table.trialCall taker).2 = some (.kingCall card)
          ∧ card ∉ Table.trialCall.hand taker ∧ Table.trialCall.Accepts taker (.kingCall card) := by
  have distinct : fourKings.Nodup := by decide
  obtain ⟨callable_iff, _, lacking, few⟩ := calls_exact.1 fourKings distinct
  have missing : ∃ c ∈ honours, c ∉ fourKings := ⟨⟨Rank.queen, .hearts⟩, by decide, by decide⟩
  refine ⟨distinct, (callable_iff _).mpr ⟨by decide, by decide, by decide⟩, ?_, by decide,
    few (by decide), (lacking missing).2,
    calls_exact.2 Table.trialCall Table.trialCall_reachable Table.trialCall_phase⟩
  intro callable
  exact absurd (((callable_iff _).mp callable).above Rank.queen (by decide) (by decide)) (by decide)

end Cards

end FrenchTarot
