import FrenchTarot.Proofs.Cards.Figures
import Mathlib.Algebra.BigOperators.Group.List.Basic
import Mathlib.Algebra.GroupWithZero.Nat
import Mathlib.Algebra.Order.BigOperators.Group.List
import Mathlib.Algebra.Order.Group.Nat
import Mathlib.Data.List.Induction

/-!
# Collecting the figures of several lists

Several lists of cards may be added into one record of figures, such as the tricks of a side.  All
figures add up over the lists but one: the numbers of cards per suit are those of the last list.

Adding a list to a record has the effect of its own figures, whatever the record was
(`add_eq_followedBy`).  So a list at the end changes the record and the sum over the lists in the
same way, except for the suits, which agree with the sum exactly where the lists before the last one
have nothing to add (`collect_adds_up`).

A counter is kept in eight bits, so that the lists must not be too many.  It never goes down: where
there is room for the sum, no counter overflows on the way (`inRange_collect`).  A list needs no more
than one for each of its cards, or eight for what is counted once a suit (`count_statistics_le`),
and there is room for the tricks of a deal (`inRange_of_few`).
-/

namespace FrenchTarot.Statistics

/-- The figures of a list are added to a record. -/
def add (s : Statistics) (cards : Cards) : Statistics := (s.addTrumps cards).addSuits cards

/-- The figures of several lists in one record. -/
def collect (lists : List Cards) : Statistics := lists.foldl add {}

/-- Field by field, the sum of the counts, and what is there in one of the records at least. -/
def total (records : List Statistics) : Statistics where
  cards := (records.map cards).sum
  trumps := (records.map trumps).sum
  oudlers := (records.map oudlers).sum
  majorTrumps := (records.map majorTrumps).sum
  kings := (records.map kings).sum
  queens := (records.map queens).sum
  knights := (records.map knights).sum
  jacks := (records.map jacks).sum
  weddings := (records.map weddings).sum
  longSuits := (records.map longSuits).sum
  cuts := (records.map cuts).sum
  singletons := (records.map singletons).sum
  sequences := (records.map sequences).sum
  suits := .ofFn fun i => (records.map fun s => s.suits[i]).sum
  littleTrump := records.any littleTrump
  bigTrump := records.any bigTrump
  fool := records.any fool
  halfPoints := (records.map halfPoints).sum

/-! ## One more list -/

/-- What a record becomes when other figures are added, with the suits of the latter. -/
def followedBy (s t : Statistics) : Statistics where
  cards := s.cards + t.cards
  trumps := s.trumps + t.trumps
  oudlers := s.oudlers + t.oudlers
  majorTrumps := s.majorTrumps + t.majorTrumps
  kings := s.kings + t.kings
  queens := s.queens + t.queens
  knights := s.knights + t.knights
  jacks := s.jacks + t.jacks
  weddings := s.weddings + t.weddings
  longSuits := s.longSuits + t.longSuits
  cuts := s.cuts + t.cuts
  singletons := s.singletons + t.singletons
  sequences := s.sequences + t.sequences
  suits := t.suits
  littleTrump := s.littleTrump || t.littleTrump
  bigTrump := s.bigTrump || t.bigTrump
  fool := s.fool || t.fool
  halfPoints := s.halfPoints + t.halfPoints

/-- The four suits are set one after the other, and nothing is left of the numbers before. -/
theorem suits_addSuits (s : Statistics) (cards : Cards) :
    (s.addSuits cards).suits = .ofFn fun i : Fin 4 => (cards.ofSuit Suit.ordinary[i]).length := by
  ext i hi
  simp only [addSuits, Suit.ordinary, List.foldl_cons, List.foldl_nil, addSuit, Suit.index]
  rcases i with _ | _ | _ | _ | i
  · simp
  · simp
  · simp
  · simp
  · omega

/-- **A list is added by its own figures, whatever is there already.** -/
theorem add_eq_followedBy (s : Statistics) (cards : Cards) :
    s.add cards = s.followedBy cards.statistics := by
  have hsuits : (s.add cards).suits = cards.statistics.suits := by
    rw [add, Cards.statistics, suits_addSuits, suits_addSuits]
  have hadd : s.add cards = { s.add cards with suits := cards.statistics.suits } := by
    rw [← hsuits]
  rw [hadd]
  simp [add, followedBy, Cards.statistics, addSuits, Suit.ordinary, addSuit, addTrumps,
    Nat.add_assoc]

theorem collect_concat (lists : List Cards) (cards : Cards) :
    collect (lists ++ [cards]) = (collect lists).followedBy cards.statistics := by
  rw [collect, List.foldl_append, List.foldl_cons, List.foldl_nil, add_eq_followedBy]
  rfl

theorem total_concat (records : List Statistics) (s : Statistics) :
    total (records ++ [s]) =
      { (total records).followedBy s with suits := (total (records ++ [s])).suits } := by
  simp [total, followedBy]

/-! ## All lists -/

/-- The figures other than the suits add up. -/
theorem collect_eq_total (lists : List Cards) :
    collect lists =
      { total (lists.map Cards.statistics) with suits := (collect lists).suits } := by
  induction lists using List.reverseRecOn with
  | nil => rfl
  | append_singleton lists cards ih =>
    rw [List.map_append, List.map_singleton, total_concat, collect_concat]
    -- The suits of the lists before are in neither of the two records.
    rw [ih]
    rfl

/-- A suit is counted in the last list only. -/
theorem suits_collect_concat (lists : List Cards) (cards : Cards) (i : Fin 4) :
    (collect (lists ++ [cards])).suits[i] = (cards.ofSuit Suit.ordinary[i]).length := by
  rw [collect_concat, show ((collect lists).followedBy cards.statistics).suits =
    cards.statistics.suits from rfl, Cards.statistics, suits_addSuits]
  simp

theorem suits_total (lists : List Cards) (i : Fin 4) :
    (total (lists.map Cards.statistics)).suits[i] =
      (lists.map fun cards => (cards.ofSuit Suit.ordinary[i]).length).sum := by
  have hsuit : ∀ cards ∈ lists,
      cards.statistics.suits[i] = (cards.ofSuit Suit.ordinary[i]).length := by
    intro cards _
    rw [Cards.statistics, suits_addSuits]
    simp
  rw [total, ← List.map_congr_left hsuit]
  simp [Function.comp_def]

/-! ## Room for the figures -/

/-- The counters other than those of the suits. -/
def counters : List (Statistics → Nat) :=
  [trumps, oudlers, majorTrumps, kings, queens, knights, jacks, weddings, longSuits, cuts,
    singletons, sequences]

/-- Every counter has room in eight bits, and the half points have it in 32. -/
structure InRange (s : Statistics) : Prop where
  counters : ∀ count ∈ counters, count s < 2 ^ 8
  suits : ∀ i : Fin 4, s.suits[i] < 2 ^ 8
  halfPoints : s.halfPoints < 2 ^ 32
  cards : s.cards < 2 ^ 64

theorem count_total (records : List Statistics) :
    ∀ count ∈ counters, count (total records) = (records.map count).sum := by
  simp [counters, total]

theorem count_collect (lists : List Cards) :
    ∀ count ∈ counters,
      count (collect lists) = ((lists.map Cards.statistics).map count).sum := by
  intro count hcount
  rw [← count_total _ count hcount, collect_eq_total]
  revert count
  simp [counters]

theorem sum_map_le_of_prefix {α : Type} {before l : List α} (h : before <+: l) (f : α → Nat) :
    (before.map f).sum ≤ (l.map f).sum :=
  (h.map f).sublist.sum_le_sum fun _ _ => Nat.zero_le _

/-- **Where there is room for the sum, there is room for the record at any time.** -/
theorem inRange_collect {lists : List Cards} (room : (total (lists.map Cards.statistics)).InRange)
    {before : List Cards} (hbefore : before <+: lists) : (collect before).InRange where
  counters := by
    intro count hcount
    have hlt := room.counters count hcount
    have hle := sum_map_le_of_prefix (hbefore.map Cards.statistics) count
    rw [count_total _ count hcount] at hlt
    rw [count_collect before count hcount]
    omega
  suits := by
    intro i
    have hlt := room.suits i
    have hle := sum_map_le_of_prefix hbefore fun cards => (cards.ofSuit Suit.ordinary[i]).length
    rw [suits_total] at hlt
    rcases List.eq_nil_or_concat' before with rfl | ⟨before, cards, rfl⟩
    · simp [collect]
    · -- The last list is one of those that are added up.
      rw [List.map_append, List.sum_append, List.map_singleton, List.sum_singleton] at hle
      rw [suits_collect_concat]
      omega
  halfPoints := by
    have hlt := room.halfPoints
    have hle := sum_map_le_of_prefix (hbefore.map Cards.statistics) halfPoints
    rw [collect_eq_total]
    exact hle.trans_lt hlt
  cards := by
    have hlt := room.cards
    have hle := sum_map_le_of_prefix (hbefore.map Cards.statistics) cards
    rw [collect_eq_total]
    exact hle.trans_lt hlt

/-! ## Short lists -/

theorem tally_le (b : Bool) : tally b ≤ 1 := by
  cases b <;> decide

/-- Five times the runs that were found, and the current run until it counts, are ranks that were
gone through. -/
theorem foldl_runs_le (cards : Cards) (ranks : List Nat) {run found past : Nat}
    (hfound : 5 * found ≤ past) (hrun : run < 5 → 5 * found + run ≤ past) :
    5 * (ranks.foldl (fun (state : Nat × Nat) rank =>
      if cards.hasRank rank then
        (state.1 + 1, if state.1 + 1 = 5 then state.2 + 1 else state.2)
      else (0, state.2)) (run, found)).2 ≤ past + ranks.length := by
  induction ranks generalizing run found past with
  | nil => exact hfound
  | cons rank ranks ih =>
    rw [List.foldl_cons, List.length_cons, Nat.add_comm ranks.length, ← Nat.add_assoc]
    by_cases held : cards.hasRank rank
    · rw [if_pos held]
      by_cases fifth : run + 1 = 5
      · rw [if_pos fifth]
        exact ih (by omega) (by omega)
      · rw [if_neg fifth]
        exact ih (by omega) (by omega)
    · rw [if_neg held]
      exact ih (by omega) (by omega)

/-- There is room for two runs in the fourteen ranks of a suit. -/
theorem countRuns_le (cards : Cards) : cards.countRuns ≤ 2 := by
  have hruns : 5 * cards.countRuns ≤ 0 + 14 :=
    foldl_runs_le cards (List.range' Rank.ace Rank.king) (Nat.le_refl 0) fun _ => Nat.le_refl 0
  omega

/-- The cards of the four suits are among all cards. -/
theorem sum_ofSuit_le (cards : Cards) :
    (Suit.ordinary.map fun s => (cards.ofSuit s).length).sum ≤ cards.length := by
  induction cards with
  | nil => decide
  | cons c cards ih =>
    simp only [Suit.ordinary, List.map_cons, List.map_nil, List.sum_cons, List.sum_nil,
      Cards.ofSuit, List.filter_cons, List.length_cons] at ih ⊢
    cases c.suit <;> simp <;> omega

/-- What each suit adds to a figure at most, all four suits add at most. -/
theorem foldl_addSuit_le {cards : Cards} {count : Statistics → Nat} {most : Suit → Nat}
    (step : ∀ s suit, count (addSuit cards s suit) ≤ count s + most suit) (suits : List Suit)
    (s : Statistics) : count (suits.foldl (addSuit cards) s) ≤ count s + (suits.map most).sum := by
  induction suits generalizing s with
  | nil => exact Nat.le_refl _
  | cons suit suits ih =>
    have hfirst := step s suit
    have hrest := ih (addSuit cards s suit)
    rw [List.foldl_cons, List.map_cons, List.sum_cons]
    omega

variable {cards : Cards} {count : Statistics → Nat}

/-- A counter that counts cards of the suits. -/
theorem count_le_length (fresh : count (addTrumps {} cards) = 0)
    (step : ∀ s suit, count (addSuit cards s suit) ≤ count s + (cards.ofSuit suit).length) :
    count cards.statistics ≤ cards.length := by
  have hadded : count cards.statistics ≤ _ :=
    foldl_addSuit_le step Suit.ordinary (addTrumps {} cards)
  have hall := sum_ofSuit_le cards
  omega

/-- A counter that counts no more than two shapes in a suit. -/
theorem count_le_eight (fresh : count (addTrumps {} cards) = 0)
    (step : ∀ s suit, count (addSuit cards s suit) ≤ count s + 2) :
    count cards.statistics ≤ 8 := by
  have hadded := foldl_addSuit_le step Suit.ordinary (addTrumps {} cards)
  rw [fresh] at hadded
  exact hadded

/-- **A counter counts cards, or no more than two shapes in each of the four suits.** -/
theorem count_statistics_le (cards : Cards) :
    ∀ count ∈ counters, count cards.statistics ≤ max cards.length 8 := by
  have trumps {k : Nat} (h : k ≤ (cards.filter Card.isTrump).length) :
      0 + k ≤ max cards.length 8 := by
    have hle : (cards.filter Card.isTrump).length ≤ cards.length := List.length_filter_le _ _
    omega
  have honour (k rank : Nat) (suit : Suit) :
      k + (cards.ofSuit suit).countRank rank ≤ k + (cards.ofSuit suit).length :=
    Nat.add_le_add_left List.countP_le_length k
  have shape (k : Nat) (b : Bool) : k + tally b ≤ k + 2 :=
    Nat.add_le_add_left ((tally_le b).trans (by decide)) k
  have run (k : Nat) (held : Cards) : k + held.countRuns ≤ k + 2 :=
    Nat.add_le_add_left (countRuns_le held) k
  simp only [counters, List.forall_mem_cons]
  refine ⟨trumps (Nat.le_refl _), trumps List.countP_le_length, trumps List.countP_le_length,
    ?kings, ?queens, ?knights, ?jacks, ?weddings, ?longSuits, ?cuts, ?singletons, ?sequences,
    List.forall_mem_nil _⟩
  case kings | queens | knights | jacks =>
    exact le_max_of_le_left (count_le_length rfl fun _ _ => honour _ _ _)
  case weddings | longSuits | cuts | singletons =>
    exact le_max_of_le_right (count_le_eight rfl fun _ _ => shape _ _)
  case sequences =>
    exact le_max_of_le_right (count_le_eight rfl fun _ _ => run _ _)

/-- A figure that grows no faster than the room that the lists take. -/
theorem sum_map_lt {lists : List Cards}
    (few : (lists.map fun cards => max cards.length 8).sum < 2 ^ 8) {figure : Cards → Nat} {k : Nat}
    (hk : 0 < k) (h : ∀ cards, figure cards ≤ k * max cards.length 8) :
    (lists.map figure).sum < k * 2 ^ 8 := by
  refine Nat.lt_of_le_of_lt ?_ (Nat.mul_lt_mul_of_pos_left few hk)
  clear few
  induction lists with
  | nil => exact Nat.zero_le _
  | cons cards lists ih =>
    have hfirst := h cards
    rw [List.map_cons, List.map_cons, List.sum_cons, List.sum_cons, Nat.mul_add]
    omega

/-- **Lists that are not too many and not too long have room for their figures.** -/
theorem inRange_of_few {lists : List Cards}
    (few : (lists.map fun cards => max cards.length 8).sum < 2 ^ 8) :
    (total (lists.map Cards.statistics)).InRange where
  counters := by
    intro count hcount
    rw [count_total _ count hcount, List.map_map]
    refine sum_map_lt few Nat.one_pos fun cards => ?_
    rw [Nat.one_mul]
    exact count_statistics_le cards count hcount
  suits := by
    intro i
    rw [suits_total]
    refine sum_map_lt few Nat.one_pos fun cards => ?_
    rw [Nat.one_mul]
    exact le_max_of_le_left (List.length_filter_le _ _)
  halfPoints := by
    have hsum : ((lists.map Cards.statistics).map halfPoints).sum < 9 * 2 ^ 8 := by
      rw [List.map_map]
      refine sum_map_lt few (by decide) fun cards => ?_
      have hle := Cards.halfPoints_le cards
      show 0 + cards.halfPoints ≤ _
      omega
    exact hsum.trans (by decide)
  cards := by
    have hsum : ((lists.map Cards.statistics).map Statistics.cards).sum < 1 * 2 ^ 8 := by
      rw [List.map_map]
      refine sum_map_lt few Nat.one_pos fun cards => ?_
      show 0 + cards.length ≤ _
      omega
    exact hsum.trans (by decide)

/-! ## What is collected -/

/-- **All figures add up over the lists but the suits, and a suit exactly if no list before the last
one has a card of it; no counter leaves its range on the way.** -/
theorem collect_adds_up {lists : List Cards}
    (room : (total (lists.map Cards.statistics)).InRange) :
    (∀ before, before <+: lists → (collect before).InRange)
      ∧ collect lists =
        { total (lists.map Cards.statistics) with suits := (collect lists).suits }
      ∧ ∀ i : Fin 4,
        (collect lists).suits[i] = (total (lists.map Cards.statistics)).suits[i] ↔
          ∀ cards ∈ lists.dropLast, ∀ c ∈ cards, c.suit ≠ Suit.ordinary[i] := by
  refine ⟨fun _ => inRange_collect room, collect_eq_total lists, fun i => ?_⟩
  rcases List.eq_nil_or_concat' lists with rfl | ⟨lists, cards, rfl⟩
  · simp [collect, total]
  · rw [suits_collect_concat, suits_total, List.map_append, List.sum_append, List.map_singleton,
      List.sum_singleton, List.dropLast_concat, Nat.right_eq_add,
      List.sum_eq_zero_iff_forall_eq_nat]
    simp [Cards.ofSuit]

/-- King and queen of spades in one list, and the two in the next. -/
def twoSpades : List Cards := [[⟨14, .spades⟩, ⟨13, .spades⟩], [⟨2, .spades⟩]]

/-- Everything but the spades adds up. -/
theorem twoSpades_add_up :
    (total (twoSpades.map Cards.statistics)).InRange
      ∧ (∀ before, before <+: twoSpades → (collect before).InRange)
      ∧ collect twoSpades =
        { total (twoSpades.map Cards.statistics) with suits := (collect twoSpades).suits }
      ∧ ∀ i : Fin 4,
        (collect twoSpades).suits[i] = (total (twoSpades.map Cards.statistics)).suits[i] ↔
          ∀ cards ∈ twoSpades.dropLast, ∀ c ∈ cards, c.suit ≠ Suit.ordinary[i] := by
  have room : (total (twoSpades.map Cards.statistics)).InRange := inRange_of_few (by decide)
  exact ⟨room, collect_adds_up room⟩

/-- A single spade is counted. -/
theorem twoSpades_lost :
    (collect twoSpades).suits[0] ≠ (total (twoSpades.map Cards.statistics)).suits[0] := by
  decide

end FrenchTarot.Statistics
