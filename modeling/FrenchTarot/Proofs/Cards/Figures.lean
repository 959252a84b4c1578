import FrenchTarot.Cards.Statistics
import FrenchTarot.Proofs.Cards.Removal

/-!
# Figures of several lists

The figures of a list do not depend on the order of its cards, and card points add up over lists
that are put together.
-/

namespace FrenchTarot

namespace Cards

/-! ## Card points -/

@[simp] theorem halfPoints_nil : halfPoints [] = 0 := rfl

@[simp] theorem halfPoints_cons (c : Card) (cards : Cards) :
    halfPoints (c :: cards) = c.halfPoints + halfPoints cards := rfl

theorem halfPoints_append (xs ys : Cards) :
    halfPoints (xs ++ ys) = halfPoints xs + halfPoints ys := by
  induction xs with
  | nil => simp
  | cons c xs ih =>
    rw [List.cons_append, halfPoints_cons, halfPoints_cons, ih, Nat.add_assoc]

theorem halfPoints_perm {xs ys : Cards} (h : xs.Perm ys) : halfPoints xs = halfPoints ys := by
  induction h with
  | nil => rfl
  | cons c _ ih => rw [halfPoints_cons, halfPoints_cons, ih]
  | swap a b cards =>
    simp only [halfPoints_cons]
    omega
  | trans _ _ ih1 ih2 => exact ih1.trans ih2

/-- No card counts more than nine. -/
theorem halfPoints_le (cards : Cards) : halfPoints cards ≤ 9 * cards.length := by
  have hcard (c : Card) : c.halfPoints ≤ 9 := by
    unfold Card.halfPoints
    repeat' split
    all_goals decide
  induction cards with
  | nil => exact Nat.le_refl 0
  | cons c cards ih =>
    have hc := hcard c
    rw [halfPoints_cons, List.length_cons]
    omega

/-- A card and the others make up the points of a list without repetition. -/
theorem halfPoints_eq_remove {cards : Cards} (hn : cards.Nodup) (c : Card) :
    halfPoints cards = halfPoints (cards.remove c) + if c ∈ cards then c.halfPoints else 0 := by
  by_cases hc : c ∈ cards
  · rw [if_pos hc, ← halfPoints_perm (perm_cons_remove hn hc), halfPoints_cons, Nat.add_comm]
  · rw [if_neg hc, remove_of_not_mem hc, Nat.add_zero]

theorem remove_append (xs ys : Cards) (c : Card) :
    remove (xs ++ ys) c = xs.remove c ++ ys.remove c := List.filter_append ..

/-! ## Oudlers -/

/-- The oudlers other than the Fool. -/
def isLittleOrBig (c : Card) : Bool := c = Card.little || c = Card.big

/-- The Fool and the others make up the oudlers of a list without repetition. -/
theorem countP_isOudler {cards : Cards} (hn : cards.Nodup) :
    cards.countP Card.isOudler =
      cards.countP isLittleOrBig + if Card.fool ∈ cards then 1 else 0 := by
  have hsplit : ∀ c : Card, c.isOudler = (c.isFool || isLittleOrBig c) := fun c => by
    simp [Card.isOudler, Card.isFool, isLittleOrBig, Bool.or_assoc]
  induction cards with
  | nil => rfl
  | cons c cards ih =>
    obtain ⟨hnot, hn⟩ := List.nodup_cons.mp hn
    rw [List.countP_cons, List.countP_cons, ih hn, hsplit]
    by_cases hc : c = Card.fool
    · -- The Fool is not among the other cards, so it is counted here only.
      subst hc
      rw [if_neg hnot]
      simp [Card.isFool, isLittleOrBig, Card.fool, Card.little, Card.big]
    · have hf : c.isFool = false := by simpa [Card.isFool] using hc
      have hmem : Card.fool ∈ c :: cards ↔ Card.fool ∈ cards := by
        simp [Ne.symm hc]
      simp only [hf, Bool.false_or, hmem]
      omega

end Cards

namespace Statistics

theorem addTrumps_halfPoints (s : Statistics) (cards : Cards) :
    (s.addTrumps cards).halfPoints = s.halfPoints + cards.halfPoints := rfl

/-- All oudlers are trumps. -/
theorem addTrumps_oudlers (s : Statistics) (cards : Cards) :
    (s.addTrumps cards).oudlers = s.oudlers + cards.countP Card.isOudler := by
  show s.oudlers + (cards.filter Card.isTrump).countP Card.isOudler = _
  rw [List.countP_filter]
  refine congrArg (s.oudlers + ·) (List.countP_congr fun c _ => ?_)
  have htrump : c.isOudler → c.isTrump := by
    intro h
    simp only [Card.isOudler, Bool.or_eq_true, decide_eq_true_eq] at h
    rcases h with (rfl | rfl) | rfl <;> rfl
  rw [Bool.and_eq_true]
  exact ⟨fun h => h.1, fun h => ⟨h, htrump h⟩⟩

/-- **The trump figures do not depend on the order of the cards.** -/
theorem addTrumps_perm (s : Statistics) {xs ys : Cards} (h : xs.Perm ys) :
    s.addTrumps xs = s.addTrumps ys := by
  have htrumps := h.filter Card.isTrump
  unfold addTrumps
  dsimp only
  rw [h.length_eq, htrumps.length_eq, htrumps.countP_eq, htrumps.countP_eq,
    Cards.halfPoints_perm h]
  simp only [h.mem_iff]

end Statistics

end FrenchTarot
