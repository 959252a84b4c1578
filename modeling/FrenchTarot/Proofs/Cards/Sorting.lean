import FrenchTarot.Pile
import FrenchTarot.Proofs.Cards.Text

/-!
# Sorted cards

Cards are sorted by suit first and by rank within a suit, but what is compared is a single number.
The weights of the suits are a hundred apart and no card of the deck has so high a rank, so that the
weights of two suits never mix (`weight_le_iff`).  Two different cards of the deck are then never
level, and there is only one way to sort them: what comes out depends on the cards and on the order
of the suits, and on nothing that was done to the cards before.

The order of the suits comes from a text.  `NamesSuits` says which texts name one, without reading
them, and `suitOrder?_eq_some` that these are the texts that are read.
-/

namespace FrenchTarot

namespace Cards

/-! ## Orders of the suits -/

/-- The text has one letter for every suit, capital or small, in this order. -/
structure NamesSuits (order : String) (suits : List Suit) : Prop where
  letters : List.Forall₂ (fun x s => x = s.letter ∨ x = s.letter.toLower) order.toList suits
  perm : suits.Perm Suit.all

/-- The order of the suits that a text stands for: the one that it names, or the usual one. -/
inductive StandsFor (order : String) : List Suit → Prop where
  | named {suits : List Suit} (names : NamesSuits order suits) : StandsFor order suits
  | usual (nameless : ∀ suits, ¬ NamesSuits order suits) : StandsFor order usualOrder

/-- Five suits that leave none out are all suits, each of them once. -/
theorem perm_all_iff {suits : List Suit} :
    suits.Perm Suit.all ↔ suits.length = 5 ∧ ∀ s ∈ Suit.all, s ∈ suits := by
  constructor
  · exact fun hp => ⟨hp.length_eq, fun s hs => hp.mem_iff.mpr hs⟩
  · rintro ⟨hlength, hall⟩
    have hsub : List.Subperm Suit.all suits := List.Nodup.subperm (by decide) hall
    exact (hsub.perm_of_length_le hlength.le).symm

/-- The letters of a text are read one by one. -/
theorem mapM_ofLetter?_eq_some {cs : List Char} {suits : List Suit} :
    cs.mapM Suit.ofLetter? = some suits ↔
      List.Forall₂ (fun x s => x = s.letter ∨ x = s.letter.toLower) cs suits := by
  induction cs generalizing suits with
  | nil =>
    rw [List.mapM_nil, Option.pure_def, Option.some.injEq, List.forall₂_nil_left_iff, eq_comm]
  | cons x cs ih =>
    simp only [List.mapM_cons, Option.bind_eq_bind, Option.bind_eq_some_iff, Option.pure_def,
      Option.some.injEq, Suit.ofLetter?_eq_some, ih, List.forall₂_cons_left_iff]
    constructor
    · rintro ⟨s, hs, rest, hrest, rfl⟩
      exact ⟨s, rest, hs, hrest, rfl⟩
    · rintro ⟨s, rest, hs, hrest, rfl⟩
      exact ⟨s, hs, rest, hrest, rfl⟩

/-- **An order is read from the texts that name one.** -/
theorem suitOrder?_eq_some {order : String} {suits : List Suit} :
    suitOrder? order.toList = some suits ↔ NamesSuits order suits := by
  have hchecked : ∀ read : List Suit,
      (if read.length = 5 && Suit.all.all (· ∈ read) then some read else none) = some suits
        ↔ read = suits ∧ suits.Perm Suit.all := fun read => by
    rw [Option.ite_none_right_eq_some, Option.some.injEq, Bool.and_eq_true, decide_eq_true_eq,
      List.all_eq_true]
    simp only [decide_eq_true_eq]
    rw [← perm_all_iff]
    constructor
    · rintro ⟨hperm, rfl⟩
      exact ⟨rfl, hperm⟩
    · rintro ⟨rfl, hperm⟩
      exact ⟨hperm, rfl⟩
  unfold suitOrder?
  cases hread : order.toList.mapM Suit.ofLetter? with
  | none =>
    refine ⟨nofun, fun names => ?_⟩
    rw [mapM_ofLetter?_eq_some.mpr names.letters] at hread
    cases hread
  | some read =>
    dsimp only
    rw [hchecked]
    constructor
    · rintro ⟨rfl, hperm⟩
      exact ⟨mapM_ofLetter?_eq_some.mp hread, hperm⟩
    · rintro ⟨letters, hperm⟩
      rw [mapM_ofLetter?_eq_some.mpr letters] at hread
      exact ⟨(Option.some.inj hread).symm, hperm⟩

/-- **Every text stands for one order of the suits, by which it sorts.** -/
theorem standsFor_iff {order : String} {suits : List Suit} :
    StandsFor order suits ↔ suits = (suitOrder? order.toList).getD usualOrder := by
  cases hread : suitOrder? order.toList with
  | none =>
    have nameless : ∀ others, ¬ NamesSuits order others := fun others names => by
      rw [suitOrder?_eq_some.mpr names] at hread
      cases hread
    constructor
    · rintro (names | _)
      · exact absurd names (nameless _)
      · rfl
    · rintro rfl
      exact .usual nameless
  | some named =>
    have names := suitOrder?_eq_some.mp hread
    constructor
    · rintro (others | nameless)
      · rw [suitOrder?_eq_some.mpr others] at hread
        exact Option.some.inj hread
      · exact absurd names (nameless _)
    · rintro rfl
      exact .named names

theorem StandsFor.perm {order : String} {suits : List Suit} (h : StandsFor order suits) :
    suits.Perm Suit.all := by
  cases h with
  | named names => exact names.perm
  | usual => decide

/-! ## Weights -/

/-- The first card stands before the second, or level with it: its suit comes earlier, or it is in
the same suit and not lower. -/
def Precedes (suits : List Suit) (a b : Card) : Prop :=
  suits.idxOf a.suit < suits.idxOf b.suit ∨ a.suit = b.suit ∧ b.rank ≤ a.rank

instance (suits : List Suit) (a b : Card) : Decidable (Precedes suits a b) :=
  inferInstanceAs (Decidable (_ ∨ _))

/-- Places in an order of the suits are counted from the other end. -/
theorem idxOf_reverse {suits : List Suit} (hp : suits.Perm Suit.all) (s : Suit) :
    suits.reverse.idxOf s + suits.idxOf s + 1 = 5 := by
  have hlength : suits.length = 5 := hp.length_eq
  have hnodup : suits.Nodup := hp.nodup_iff.mpr (by decide)
  have hlt : suits.idxOf s < suits.length :=
    List.idxOf_lt_length_of_mem (hp.mem_iff.mpr (by cases s <;> decide))
  have hback : suits.length - 1 - suits.idxOf s < suits.reverse.length := by
    rw [List.length_reverse]
    omega
  have hget : suits.reverse[suits.length - 1 - suits.idxOf s] = s := by
    have hsame : suits.length - 1 - (suits.length - 1 - suits.idxOf s) = suits.idxOf s := by omega
    simp only [List.getElem_reverse, hsame, List.getElem_idxOf]
  have hidx := (List.nodup_reverse.mpr hnodup).idxOf_getElem _ hback
  rw [hget] at hidx
  omega

theorem rank_lt_hundred {c : Card} (h : c.valid) : c.rank < 100 := by
  obtain ⟨rank, suit⟩ := c
  cases suit <;> simp [Card.valid, Rank.king, Rank.ace, Rank.bigTrump] at h ⊢ <;> omega

/-- **The suit decides before the rank.** -/
theorem weight_le_iff {suits : List Suit} (hp : suits.Perm Suit.all) {a b : Card} (ha : a.valid)
    (hb : b.valid) : weight suits b ≤ weight suits a ↔ Precedes suits a b := by
  have harank := rank_lt_hundred ha
  have hbrank := rank_lt_hundred hb
  have haplace := idxOf_reverse hp a.suit
  have hbplace := idxOf_reverse hp b.suit
  unfold weight Precedes
  by_cases hsuit : a.suit = b.suit
  · rw [hsuit]
    simp
  · have hplace : suits.idxOf a.suit ≠ suits.idxOf b.suit := fun he =>
      hsuit ((List.idxOf_inj (hp.mem_iff.mpr (by cases a.suit <;> decide))).mp he)
    simp only [hsuit, false_and, or_false]
    omega

/-- Two cards that stand before each other are the same. -/
theorem Precedes.antisymm {suits : List Suit} {a b : Card} (hab : Precedes suits a b)
    (hba : Precedes suits b a) : a = b := by
  obtain ⟨ranka, suita⟩ := a
  obtain ⟨rankb, suitb⟩ := b
  rcases hab with hlt | ⟨hsuit, hle⟩
  · rcases hba with hgt | ⟨hsame, _⟩
    · exact absurd hgt (Nat.lt_asymm hlt)
    · rw [hsame] at hlt
      exact absurd hlt (Nat.lt_irrefl _)
  · rcases hba with hgt | ⟨_, hge⟩
    · rw [hsuit] at hgt
      exact absurd hgt (Nat.lt_irrefl _)
    · cases hsuit
      cases Nat.le_antisymm hge hle
      rfl

/-! ## Sorting -/

theorem sortBySuits_perm (suits : List Suit) (cards : Cards) :
    (cards.sortBySuits suits).Perm cards := List.mergeSort_perm _ _

theorem sortBySuits_pairwise {suits : List Suit} (hp : suits.Perm Suit.all) {cards : Cards}
    (valid : ∀ c ∈ cards, c.valid) : (cards.sortBySuits suits).Pairwise (Precedes suits) := by
  have hsorted : (cards.sortBySuits suits).Pairwise
      fun a b => decide (weight suits b ≤ weight suits a) = true :=
    List.pairwise_mergeSort
      (fun a b c hab hbc => decide_eq_true
        ((of_decide_eq_true hbc).trans (of_decide_eq_true hab)))
      (fun a b => by simpa using Nat.le_total _ _) cards
  have hvalid : ∀ c ∈ cards.sortBySuits suits, c.valid := fun c hc =>
    valid c ((sortBySuits_perm suits cards).mem_iff.mp hc)
  exact hsorted.imp_of_mem fun ha hb hle =>
    (weight_le_iff hp (hvalid _ ha) (hvalid _ hb)).mp (of_decide_eq_true hle)

/-- **There is one way to sort the same cards.** -/
theorem sortBySuits_unique {suits : List Suit} (hp : suits.Perm Suit.all) {cards sorted : Cards}
    (valid : ∀ c ∈ cards, c.valid) (perm : sorted.Perm cards)
    (ordered : sorted.Pairwise (Precedes suits)) : cards.sortBySuits suits = sorted :=
  List.Perm.eq_of_pairwise (fun _ _ _ _ => Precedes.antisymm) (sortBySuits_pairwise hp valid)
    ordered ((sortBySuits_perm suits cards).trans perm.symm)

theorem sortBySuits_congr {suits : List Suit} (hp : suits.Perm Suit.all) {cards others : Cards}
    (valid : ∀ c ∈ cards, c.valid) (same : others.Perm cards) :
    others.sortBySuits suits = cards.sortBySuits suits := by
  have ordered := sortBySuits_pairwise hp fun c hc => valid c (same.mem_iff.mp hc)
  exact (sortBySuits_unique hp valid ((sortBySuits_perm suits others).trans same) ordered).symm

end Cards

namespace Pile

/-- What is known of a pile after it has been sorted. -/
structure SortedFrom (p : Pile) (suits : List Suit) (sorted : Pile) : Prop where
  owner : sorted.owner = p.owner
  perm : sorted.cards.Perm p.cards
  ordered : sorted.cards.Pairwise (Cards.Precedes suits)

/-- **A pile is sorted by the order that the text stands for, and the result depends on its cards
alone: not on their order, and not on how they were sorted before.** -/
theorem sort_canonical (order : String) (p : Pile) (valid : ∀ c ∈ p.cards, c.valid) :
    (∃ suits, (∀ others, Cards.StandsFor order others ↔ others = suits)
        ∧ p.SortedFrom suits (p.sort order))
      ∧ (∀ q : Pile, q.cards.Perm p.cards → (q.sort order).cards = (p.sort order).cards)
      ∧ ∀ before : String, (p.sort before).sort order = p.sort order := by
  have stands : Cards.StandsFor order ((Cards.suitOrder? order.toList).getD Cards.usualOrder) :=
    Cards.standsFor_iff.mpr rfl
  refine ⟨⟨_, fun _ => Cards.standsFor_iff, rfl, Cards.sortBySuits_perm _ _,
    Cards.sortBySuits_pairwise stands.perm valid⟩,
    fun _ => Cards.sortBySuits_congr stands.perm valid, fun before => ?_⟩
  have hcards := Cards.sortBySuits_congr stands.perm valid (Cards.sortBySuits_perm
    ((Cards.suitOrder? before.toList).getD Cards.usualOrder) p.cards)
  exact congrArg (Pile.mk · p.owner) hcards

/-- Cards of the attack, one of them twice. -/
def looseTrick : Pile :=
  ⟨[⟨1, .hearts⟩, Card.fool, ⟨14, .spades⟩, ⟨1, .hearts⟩, Card.big], some .attack⟩

/-- Small letters name an order, and a text with a letter too often stands for the usual one. -/
theorem looseTrick_canonical :
    (∃ suits, (∀ others, Cards.StandsFor "hstcd" others ↔ others = suits)
        ∧ looseTrick.SortedFrom suits (looseTrick.sort "hstcd"))
      ∧ (looseTrick.sort "hstcd").cards =
        [⟨1, .hearts⟩, ⟨1, .hearts⟩, ⟨14, .spades⟩, Card.big, Card.fool]
      ∧ (looseTrick.sort "TTCSDH").cards =
        [Card.big, Card.fool, ⟨14, .spades⟩, ⟨1, .hearts⟩, ⟨1, .hearts⟩]
      ∧ (looseTrick.sort "TTCSDH").sort "hstcd" = looseTrick.sort "hstcd" := by
  obtain ⟨hsorted, _, hagain⟩ := sort_canonical "hstcd" looseTrick (by decide)
  refine ⟨hsorted, ?_, ?_, hagain "TTCSDH"⟩
  · have hearts : (Cards.suitOrder? "hstcd".toList).getD Cards.usualOrder =
        [.hearts, .spades, .trumps, .clubs, .diamonds] := by decide
    exact Cards.sortBySuits_unique (by decide) (by decide) (by decide) (by rw [hearts]; decide)
  · have usual : (Cards.suitOrder? "TTCSDH".toList).getD Cards.usualOrder = Cards.usualOrder := by
      decide
    exact Cards.sortBySuits_unique (by decide) (by decide) (by decide) (by rw [usual]; decide)

end Pile

end FrenchTarot
