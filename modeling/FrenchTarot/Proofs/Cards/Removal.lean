import FrenchTarot.Cards.Basic
import FrenchTarot.Rules
import Mathlib.Data.List.Nodup
import Mathlib.Data.List.Perm.Subperm
import Mathlib.Tactic.IntervalCases

/-!
# Taking cards out, and the whole deck

`Cards.remove` and `Cards.takeOut` drop every copy of a card.  On a list without repetition this
moves cards from one place to another and loses none: what was taken out and what is left are a
permutation of what was there.  `Cards.takeOut` counts the cards that it finds, and finds all of
them exactly when they are distinct and were all there.

The deck is known by its size alone: 78 distinct cards of the deck are a permutation of it.
-/

namespace FrenchTarot.Cards

/-! ## Removing one card -/

theorem mem_remove {cards : Cards} {c x : Card} : x ∈ cards.remove c ↔ x ∈ cards ∧ x ≠ c := by
  simp [remove]

theorem remove_of_not_mem {cards : Cards} {c : Card} (h : c ∉ cards) : cards.remove c = cards := by
  refine List.filter_eq_self.mpr ?_
  intro x hx
  exact decide_eq_true (fun he => h (he ▸ hx))

theorem remove_eq_erase {cards : Cards} {c : Card} (hn : cards.Nodup) :
    cards.remove c = cards.erase c := by
  rw [hn.erase_eq_filter c, remove]
  refine List.filter_congr ?_
  intro x _
  by_cases hx : x = c <;> simp [hx]

/-- A card and the rest are the whole list. -/
theorem perm_cons_remove {cards : Cards} {c : Card} (hn : cards.Nodup) (h : c ∈ cards) :
    (c :: cards.remove c).Perm cards := by
  rw [remove_eq_erase hn]
  exact (List.perm_cons_erase h).symm

/-! ## Removing several cards -/

theorem takeOut_cons (cards others : Cards) (c : Card) :
    cards.takeOut (c :: others) = (((cards.remove c).takeOut others).1,
      (if c ∈ cards then 1 else 0) + ((cards.remove c).takeOut others).2) := rfl

theorem takeOut_fst (cards others : Cards) :
    (cards.takeOut others).1 = cards.filter fun x => x ∉ others := by
  induction others generalizing cards with
  | nil => simp [takeOut]
  | cons c others ih =>
    rw [takeOut_cons, ih, remove, List.filter_filter]
    refine List.filter_congr ?_
    intro x _
    simp [Bool.and_comm]

theorem mem_takeOut {cards others : Cards} {x : Card} :
    x ∈ (cards.takeOut others).1 ↔ x ∈ cards ∧ x ∉ others := by
  rw [takeOut_fst]
  simp

theorem takeOut_snd_le (cards others : Cards) : (cards.takeOut others).2 ≤ others.length := by
  induction others generalizing cards with
  | nil => exact Nat.le_refl _
  | cons c others ih =>
    have := ih (cards.remove c)
    rw [takeOut_cons, List.length_cons]
    dsimp only
    split <;> omega

/-- **All cards are found exactly when they are distinct and there.** -/
theorem takeOut_snd_eq_length {cards others : Cards} :
    (cards.takeOut others).2 = others.length ↔ others.Nodup ∧ ∀ x ∈ others, x ∈ cards := by
  induction others generalizing cards with
  | nil => simp [takeOut]
  | cons c others ih =>
    have hle := takeOut_snd_le (cards.remove c) others
    rw [takeOut_cons, List.length_cons, List.nodup_cons]
    dsimp only
    by_cases hc : c ∈ cards
    · rw [if_pos hc, Nat.add_comm, Nat.succ_inj, ih]
      constructor
      · rintro ⟨hn, hall⟩
        refine ⟨⟨fun hm => (mem_remove.mp (hall c hm)).2 rfl, hn⟩, ?_⟩
        intro x hx
        rcases List.mem_cons.mp hx with rfl | hx
        · exact hc
        · exact (mem_remove.mp (hall x hx)).1
      · rintro ⟨⟨hnot, hn⟩, hall⟩
        refine ⟨hn, fun x hx => mem_remove.mpr ⟨hall x (List.mem_cons_of_mem c hx), ?_⟩⟩
        exact fun he => hnot (he ▸ hx)
    · rw [if_neg hc]
      constructor
      · intro h
        omega
      · exact fun h => absurd (h.2 c List.mem_cons_self) hc

/-- What was taken out and what is left are the whole list. -/
theorem perm_append_takeOut {cards others : Cards} (hn : cards.Nodup) (ho : others.Nodup)
    (h : ∀ x ∈ others, x ∈ cards) : (others ++ (cards.takeOut others).1).Perm cards := by
  have hdisj : ∀ a ∈ others, ∀ b ∈ (cards.takeOut others).1, a ≠ b :=
    fun a ha b hb he => (mem_takeOut.mp hb).2 (he ▸ ha)
  refine (List.perm_ext_iff_of_nodup ?_ hn).mpr ?_
  · refine List.nodup_append.mpr ⟨ho, ?_, hdisj⟩
    rw [takeOut_fst]
    exact hn.filter _
  · intro x
    rw [List.mem_append, mem_takeOut]
    constructor
    · rintro (hx | hx)
      · exact h x hx
      · exact hx.1
    · intro hx
      by_cases hxo : x ∈ others
      · exact Or.inl hxo
      · exact Or.inr ⟨hx, hxo⟩

/-! ## The deck -/

theorem length_standard : standard.length = Rules.deckSize := by decide

theorem nodup_standard : standard.Nodup := by decide +kernel

theorem mem_standard {c : Card} : c ∈ standard ↔ c.valid := by
  constructor
  · intro h
    have hall : ∀ x ∈ standard, x.valid := by decide +kernel
    exact hall c h
  · obtain ⟨rank, suit⟩ := c
    intro h
    have hrank : rank ≤ 21 := by
      cases suit <;> simp [Card.valid, Rank.king, Rank.ace, Rank.bigTrump] at h <;> omega
    cases suit <;> interval_cases rank <;> revert h <;> decide +kernel

/-- **The deck is known by its size.** -/
theorem perm_standard {cards : Cards} (hn : cards.Nodup) (hv : ∀ c ∈ cards, c.valid)
    (hl : cards.length = Rules.deckSize) : cards.Perm standard := by
  have hsub : List.Subperm cards standard := hn.subperm (fun c hc => mem_standard.mpr (hv c hc))
  exact hsub.perm_of_length_le (by rw [hl, length_standard])

end FrenchTarot.Cards
