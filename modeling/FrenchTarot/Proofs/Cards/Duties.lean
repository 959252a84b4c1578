import FrenchTarot.Cards.Legality
import Mathlib.Data.List.Basic
import Mathlib.Data.List.Induction

/-!
# The cards that a player has to play from

What a player has to do on a trick comes in an order: follow the suit led, play a trump above those
of the trick, play a trump, play any card.  Each of these duties is a class of cards of the hand,
and the first class with a card in it is the one to play from.  The Fool is free of all duties: it
may be played at any time, and it is in no class but that of all cards.

`Cards.canPlay` looks at one card, and answers as soon as a rule decides.  `legal_byDuty` puts the
two together: the cards that pass the test are the Fool and the cards of the class to play from.
-/

namespace FrenchTarot.Cards

/-! ## The highest card -/

/-- A further card is the highest unless one before it has a greater rank. -/
theorem highest?_concat (cards : Cards) (c : Card) :
    highest? (cards ++ [c]) =
      some ((highest? cards).elim c fun b => if b.rank ≤ c.rank then c else b) := by
  unfold highest?
  rw [List.foldl_append, List.foldl_cons, List.foldl_nil]
  generalize List.foldl _ none cards = best
  cases best with
  | none => rfl
  | some b =>
    dsimp only [Option.elim_some]
    split <;> rfl

theorem highest?_eq_none {cards : Cards} : highest? cards = none ↔ cards = [] := by
  cases cards using List.reverseRecOn with
  | nil => exact ⟨fun _ => rfl, fun _ => rfl⟩
  | append_singleton cards c => simp [highest?_concat]

/-- The highest card of a list is one of its cards, and none has a greater rank. -/
theorem highest?_eq_some {cards : Cards} {m : Card} (h : highest? cards = some m) :
    m ∈ cards ∧ ∀ c ∈ cards, c.rank ≤ m.rank := by
  induction cards using List.reverseRecOn generalizing m with
  | nil => cases h
  | append_singleton cards x ih =>
    rw [highest?_concat, Option.some.injEq] at h
    subst h
    simp only [List.mem_append, List.mem_singleton]
    cases hb : highest? cards with
    | none => simp [highest?_eq_none.mp hb]
    | some b =>
      obtain ⟨hmem, hmax⟩ := ih hb
      dsimp only [Option.elim_some]
      split
      · rename_i hle
        refine ⟨Or.inr rfl, ?_⟩
        rintro c (hc | rfl)
        · exact Nat.le_trans (hmax c hc) hle
        · exact Nat.le_refl _
      · rename_i hlt
        refine ⟨Or.inl hmem, ?_⟩
        rintro c (hc | rfl)
        · exact hmax c hc
        · omega

/-! ## The classes -/

/-- The trumps other than the Fool. -/
def properTrumps (cards : Cards) : Cards := cards.filter fun c => c.isTrump && !c.isFool

/-- The trumps of a hand that are as high as every trump of the trick. -/
def highTrumps (hand trick : Cards) : Cards :=
  hand.properTrumps.filter fun c => trick.properTrumps.all fun t => t.rank ≤ c.rank

/-- The classes of a player who has no suit to follow, the most pressing one first. -/
def trumpDuties (hand trick : Cards) : List Cards :=
  [hand.highTrumps trick, hand.properTrumps, hand]

/-- The classes of a player, the most pressing one first. -/
def duties (hand trick : Cards) : List Cards :=
  match trick.find? fun c => !c.isFool with
  | none => [hand]
  | some lead =>
    if lead.isTrump then hand.trumpDuties trick
    else (hand.filter fun c => c.suit = lead.suit) :: hand.trumpDuties trick

/-- The first class with a card in it. -/
def firstHeld (classes : List Cards) : Cards := (classes.find? fun cards => cards ≠ []).getD []

theorem firstHeld_cons (cards : Cards) (classes : List Cards) :
    firstHeld (cards :: classes) = if cards = [] then firstHeld classes else cards := by
  by_cases h : cards = []
  · simp [firstHeld, h]
  · simp [firstHeld, h]

/-- If some class has a card, the first one with a card is found. -/
theorem firstHeld_mem {classes : List Cards} (h : ∃ cards ∈ classes, cards ≠ []) :
    firstHeld classes ∈ classes ∧ firstHeld classes ≠ [] := by
  obtain ⟨cards, hcards, hne⟩ := h
  unfold firstHeld
  cases hfind : classes.find? fun cards => cards ≠ [] with
  | none =>
    have := List.find?_eq_none.mp hfind cards hcards
    simp [hne] at this
  | some found =>
    exact ⟨List.mem_of_find?_eq_some hfind, by simpa using List.find?_some hfind⟩

theorem hand_mem_duties (hand trick : Cards) : hand ∈ hand.duties trick := by
  unfold duties
  split
  · simp
  · split <;> simp [trumpDuties]

theorem duties_subset {hand trick : Cards} : ∀ cards ∈ hand.duties trick, cards ⊆ hand := by
  have htrumps : hand.properTrumps ⊆ hand := List.filter_subset_self ..
  have hhigh : hand.highTrumps trick ⊆ hand :=
    List.Subset.trans (List.filter_subset_self ..) htrumps
  unfold duties
  split
  · simp
  · split
    · simp [trumpDuties, htrumps, hhigh]
    · simp [trumpDuties, htrumps, hhigh, List.filter_subset_self]

theorem mem_properTrumps {cards : Cards} {c : Card} :
    c ∈ cards.properTrumps ↔ c ∈ cards ∧ c.isTrump ∧ c.isFool = false := by
  simp [properTrumps]

theorem mem_highTrumps {hand trick : Cards} {c : Card} :
    c ∈ hand.highTrumps trick ↔
      c ∈ hand.properTrumps ∧ ∀ t ∈ trick.properTrumps, t.rank ≤ c.rank := by
  simp [highTrumps]

/-! ## The highest trump -/

theorem highestTrump?_eq_none {cards : Cards} :
    cards.highestTrump? = none ↔ cards.properTrumps = [] := highest?_eq_none

/-- The highest trump is a trump, and no trump is above it. -/
theorem highestTrump?_eq_some {cards : Cards} {m : Card} (h : cards.highestTrump? = some m) :
    m ∈ cards.properTrumps ∧ ∀ c ∈ cards.properTrumps, c.rank ≤ m.rank := highest?_eq_some h

/-! ## The duty to trump -/

/-- A card that is no trump may be played by a hand without trumps. -/
theorem meetsTrumpDuty_plain {hand : Cards} (trick : Cards) {c : Card} (h : c.isTrump = false) :
    hand.meetsTrumpDuty trick c ↔ hand.properTrumps = [] := by
  rw [← highestTrump?_eq_none]
  simp [meetsTrumpDuty, h]

/-- **A trump has to be high enough, unless no trump of the hand is.** -/
theorem meetsTrumpDuty_trump {hand trick : Cards} {c : Card} (h : c ∈ hand.properTrumps) :
    hand.meetsTrumpDuty trick c ↔ c ∈ hand.highTrumps trick ∨ hand.highTrumps trick = [] := by
  have htrump : c.isTrump = true := (mem_properTrumps.mp h).2.1
  cases hbest : trick.highestTrump? with
  | none =>
    have hnone := highestTrump?_eq_none.mp hbest
    have hhigh : c ∈ hand.highTrumps trick := mem_highTrumps.mpr ⟨h, by simp [hnone]⟩
    simp [meetsTrumpDuty, htrump, hbest, hhigh]
  | some best =>
    obtain ⟨hbestMem, hbestMax⟩ := highestTrump?_eq_some hbest
    obtain ⟨held, hheld⟩ : ∃ m, hand.highestTrump? = some m := by
      refine Option.ne_none_iff_exists'.mp fun hnone => ?_
      rw [highestTrump?_eq_none.mp hnone] at h
      cases h
    obtain ⟨hheldMem, hheldMax⟩ := highestTrump?_eq_some hheld
    -- A trump is high enough when it is as high as the best one of the trick.
    have hhigh : ∀ x ∈ hand.properTrumps, x ∈ hand.highTrumps trick ↔ best.rank ≤ x.rank := by
      intro x hx
      rw [mem_highTrumps]
      constructor
      · rintro ⟨_, hall⟩
        exact hall best hbestMem
      · intro hle
        exact ⟨hx, fun t ht => Nat.le_trans (hbestMax t ht) hle⟩
    have hempty : hand.highTrumps trick = [] ↔ held.rank < best.rank := by
      constructor
      · intro he
        by_contra hle
        have := (hhigh held hheldMem).mpr (by omega)
        rw [he] at this
        cases this
      · intro hlt
        refine List.eq_nil_iff_forall_not_mem.mpr fun x hx => ?_
        have hxMem := (mem_highTrumps.mp hx).1
        have hle := (hhigh x hxMem).mp hx
        have := hheldMax x hxMem
        omega
    rw [hhigh c h, hempty]
    simp [meetsTrumpDuty, htrump, hbest, hheld]

/-- **The duty to trump is to play from the first class of trumps that the hand has.** -/
theorem meetsTrumpDuty_iff {hand : Cards} (trick : Cards) {c : Card} (hc : c ∈ hand)
    (hf : c.isFool = false) :
    hand.meetsTrumpDuty trick c ↔ c ∈ firstHeld (hand.trumpDuties trick) := by
  have hne : hand ≠ [] := List.ne_nil_of_mem hc
  rw [trumpDuties, firstHeld_cons, firstHeld_cons, firstHeld_cons, if_neg hne]
  have hhigh : hand.properTrumps = [] → hand.highTrumps trick = [] := by
    intro h
    simp [highTrumps, h]
  by_cases htrump : c.isTrump
  · have hmem : c ∈ hand.properTrumps := mem_properTrumps.mpr ⟨hc, htrump, hf⟩
    rw [meetsTrumpDuty_trump hmem, if_neg (List.ne_nil_of_mem hmem)]
    by_cases he : hand.highTrumps trick = []
    · simp [he, hmem]
    · simp [he]
  · rw [meetsTrumpDuty_plain trick (by simpa using htrump)]
    have hnot : c ∉ hand.properTrumps := fun h => htrump (mem_properTrumps.mp h).2.1
    by_cases hp : hand.properTrumps = []
    · simp [hp, hhigh hp, hc]
    · by_cases he : hand.highTrumps trick = []
      · simp [hp, he, hnot]
      · have : c ∉ hand.highTrumps trick := fun h => hnot (mem_highTrumps.mp h).1
        simp [hp, he, this]

/-! ## All duties -/

/-- On an ordinary suit a player follows, or has no card of the suit and the duty to trump. -/
theorem canPlay_ordinary {hand trick : Cards} {suit : Suit} {c : Card}
    (hlead : trick.requiredSuit? = some suit) (hsuit : suit ≠ .trumps) (hc : c ∈ hand)
    (hf : c.isFool = false) : hand.canPlay trick c ↔
      c.suit = suit ∨ (∀ x ∈ hand, x.suit ≠ suit) ∧ hand.meetsTrumpDuty trick c := by
  unfold canPlay
  rw [hlead]
  cases suit with
  | trumps => exact absurd rfl hsuit
  | _ => simp [hc, hf]

/-- **A card of the hand other than the Fool is legal exactly when it is in the first class that
the hand has a card of.** -/
theorem canPlay_iff {hand : Cards} (trick : Cards) {c : Card} (hc : c ∈ hand)
    (hf : c.isFool = false) :
    hand.canPlay trick c ↔ c ∈ firstHeld (hand.duties trick) := by
  have hduty := meetsTrumpDuty_iff trick hc hf
  unfold duties
  cases hlead : trick.find? fun c => !c.isFool with
  | none =>
    have hopen : trick.requiredSuit? = none := by simp [requiredSuit?, hlead]
    simp [canPlay, hopen, firstHeld, hc, List.ne_nil_of_mem hc]
  | some lead =>
    have hrequired : trick.requiredSuit? = some lead.suit := by simp [requiredSuit?, hlead]
    dsimp only
    by_cases htrump : lead.suit = .trumps
    · rw [if_pos (by simpa [Card.isTrump] using htrump), ← hduty]
      simp [canPlay, hrequired, htrump, hc, hf]
    · rw [if_neg (by simpa [Card.isTrump] using htrump), firstHeld_cons,
        canPlay_ordinary hrequired htrump hc hf]
      by_cases hfollow : hand.filter (fun c => c.suit = lead.suit) = []
      · -- Without a card of the suit the other classes are left.
        have hnone : ∀ x ∈ hand, x.suit ≠ lead.suit := by
          simpa [List.filter_eq_nil_iff] using hfollow
        rw [if_pos hfollow, ← hduty]
        exact ⟨fun h => (h.resolve_left (hnone c hc)).2, fun h => Or.inr ⟨hnone, h⟩⟩
      · have hsome : ¬ ∀ x ∈ hand, x.suit ≠ lead.suit := by
          simpa [List.filter_eq_nil_iff] using hfollow
        rw [if_neg hfollow]
        simp [hsome, hc]

/-! ## Legal cards -/

theorem mem_of_canPlay {hand trick : Cards} {c : Card} (h : hand.canPlay trick c) : c ∈ hand := by
  unfold canPlay at h
  rw [Bool.and_eq_true, decide_eq_true_eq] at h
  exact h.1

theorem mem_legal {hand trick : Cards} {c : Card} :
    c ∈ hand.legal trick ↔ hand.canPlay trick c := by
  rw [legal, List.mem_filter]
  exact ⟨fun h => h.2, fun h => ⟨mem_of_canPlay h, h⟩⟩

/-- **A hand with cards has a legal card on every trick.** -/
theorem legal_ne_nil {hand : Cards} (trick : Cards) (h : hand ≠ []) : hand.legal trick ≠ [] := by
  -- The last class is the hand itself, so that some class has a card.
  obtain ⟨hclass, hne⟩ := firstHeld_mem ⟨hand, hand_mem_duties hand trick, h⟩
  obtain ⟨c, rest, hcons⟩ := List.exists_cons_of_ne_nil hne
  have hc : c ∈ firstHeld (hand.duties trick) := hcons ▸ List.mem_cons_self
  have hhand : c ∈ hand := duties_subset _ hclass hc
  refine List.ne_nil_of_mem (a := c) (mem_legal.mpr ?_)
  cases hf : c.isFool with
  | true => simp [canPlay, hhand, hf]
  | false => exact (canPlay_iff trick hhand hf).mpr hc

/-- **The legal cards are the Fool and the cards of the first class that the hand has a card of, in
the order of the hand; a hand with cards has one, and no other cards can be played.** -/
theorem legal_byDuty (hand trick : Cards) :
    hand.legal trick =
        hand.filter (fun c => c.isFool || c ∈ firstHeld (hand.duties trick))
      ∧ (hand ≠ [] → hand.legal trick ≠ [])
      ∧ ∀ c, c ∉ hand → hand.canPlay trick c = false := by
  refine ⟨List.filter_congr fun c hc => ?_, legal_ne_nil trick, fun c hc => ?_⟩
  · cases hf : c.isFool with
    | true => simp [canPlay, hc, hf]
    | false =>
      rw [Bool.eq_iff_iff, canPlay_iff trick hc hf]
      simp
  · exact Bool.eq_false_iff.mpr fun h => hc (mem_of_canPlay h)

/-- Hearts were led after the Fool, and trumped; the hand has no hearts. -/
def trumpedHearts : Cards := [Card.fool, ⟨10, .hearts⟩, ⟨8, .trumps⟩]

def handWithoutHearts : Cards :=
  [⟨3, .trumps⟩, ⟨5, .spades⟩, ⟨12, .trumps⟩, Card.fool, ⟨9, .trumps⟩]

theorem trumpedHearts_byDuty :
    handWithoutHearts.legal trumpedHearts = [⟨12, .trumps⟩, Card.fool, ⟨9, .trumps⟩]
      ∧ handWithoutHearts ≠ [] ∧ handWithoutHearts.legal trumpedHearts ≠ []
      ∧ Card.big ∉ handWithoutHearts
      ∧ handWithoutHearts.canPlay trumpedHearts Card.big = false := by
  obtain ⟨hlegal, hsome, hnone⟩ := legal_byDuty handWithoutHearts trumpedHearts
  have hhand : handWithoutHearts ≠ [] := by decide
  have hbig : Card.big ∉ handWithoutHearts := by decide
  exact ⟨hlegal.trans (by decide), hhand, hsome hhand, hbig, hnone Card.big hbig⟩

end FrenchTarot.Cards
