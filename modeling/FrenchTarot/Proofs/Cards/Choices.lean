import FrenchTarot.Cards.Declaration
import FrenchTarot.Proofs.Cards.Removal

/-!
# Declarations that are always possible

There is always a card to call.  There is a discard as long as hand and dog have enough cards that
may be discarded; with fewer of them no discard is allowed at all.
-/

namespace FrenchTarot.Cards

/-! ## Discards -/

theorem copies_eq_count (cards : Cards) (c : Card) : cards.copies c = cards.count c := by
  unfold copies List.count
  refine List.countP_congr fun x _ => ?_
  simp

theorem nodup_iff_copies {cards : Cards} : cards.Nodup ↔ ∀ c ∈ cards, cards.copies c = 1 := by
  rw [List.nodup_iff_count_eq_one]
  simp only [copies_eq_count]

/-- **A discard has as many cards as the dog, all different, all of them there and none of them a
trump or a king.** -/
theorem isDiscard_iff {hand dog discard : Cards} {n : Nat} :
    hand.isDiscard dog discard n ↔ discard.length = Rules.dogSize n ∧ discard.Nodup
      ∧ (∀ c ∈ discard, c ∈ hand ++ dog) ∧ ∀ c ∈ discard, discardable c := by
  unfold isDiscard
  rw [nodup_iff_copies]
  simp only [Bool.and_eq_true, decide_eq_true_eq, List.all_eq_true, Bool.or_eq_true,
    List.mem_append]
  constructor
  · rintro ⟨hlen, hall⟩
    exact ⟨hlen, fun c hc => (hall c hc).2, fun c hc => (hall c hc).1.1,
      fun c hc => (hall c hc).1.2⟩
  · rintro ⟨hlen, hcopies, hmem, hok⟩
    exact ⟨hlen, fun c hc => ⟨⟨hmem c hc, hok c hc⟩, hcopies c hc⟩⟩

/-- With enough cards that may be discarded, the first of them are a discard. -/
theorem isDiscard_firstDiscard {hand dog : Cards} {n : Nat} (hn : (hand ++ dog).Nodup)
    (h : Rules.dogSize n ≤ ((hand ++ dog).filter discardable).length) :
    hand.isDiscard dog (hand.firstDiscard dog n) n := by
  refine isDiscard_iff.mpr ⟨?_, ?_, ?_, ?_⟩
  · rw [firstDiscard, List.length_take]
    omega
  · exact List.Nodup.sublist (List.take_sublist _ _) (hn.filter _)
  · exact fun c hc => List.mem_of_mem_filter (List.mem_of_mem_take hc)
  · exact fun c hc => (List.mem_filter.mp (List.mem_of_mem_take hc)).2

/-- Only so many cards can be discarded as may be discarded. -/
theorem dogSize_le_of_isDiscard {hand dog discard : Cards} {n : Nat}
    (h : hand.isDiscard dog discard n) :
    Rules.dogSize n ≤ ((hand ++ dog).filter discardable).length := by
  obtain ⟨hlen, hnodup, hmem, hok⟩ := isDiscard_iff.mp h
  rw [← hlen]
  refine (hnodup.subperm fun c hc => ?_).length_le
  exact List.mem_filter.mpr ⟨hmem c hc, hok c hc⟩

/-! ## Calling a card -/

/-- Every hand may call a king. -/
theorem canCall_king (stats : Statistics) {suit : Suit} (h : suit ≠ .trumps) :
    canCall stats ⟨Rank.king, suit⟩ := by
  simp [canCall, callableRank, h]

/-- **There is always a card to call.** -/
theorem canCall_firstCall (hand : Cards) : canCall hand.statistics hand.firstCall := by
  unfold firstCall
  dsimp only
  cases hf : honours.find? fun c => c ∉ hand && canCall hand.statistics c with
  | none => exact canCall_king _ (by decide)
  | some c =>
    have := List.find?_some hf
    rw [Bool.and_eq_true] at this
    exact this.2

end FrenchTarot.Cards
