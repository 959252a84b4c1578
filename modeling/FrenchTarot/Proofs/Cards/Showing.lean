import FrenchTarot.Proofs.Cards.Choices

/-!
# Which handles a hand can show

A handle is ten, thirteen or fifteen trumps of the hand, each of them once, and it has the Fool only
if it has all trumps.  The last condition is tested by counting: the hand has no more trumps than
are shown.  For trumps that are all different and all there, this says that none is left out
(`countP_isTrump_le_iff`).

So it can be told from the trumps of a hand which handles there are.  Without the Fool there is one
of every size up to the number of the other trumps; with the Fool, only the whole of the trumps can
be one.
-/

namespace FrenchTarot

theorem Handle.isSome_ofSize? (size : Nat) :
    (Handle.ofSize? size).isSome ↔ size = 10 ∨ size = 13 ∨ size = 15 := by
  unfold Handle.ofSize?
  split <;> simp_all

namespace Cards

/-- A handle of a hand. -/
structure ShownFrom (hand handle : Cards) : Prop where
  size : handle.length = 10 ∨ handle.length = 13 ∨ handle.length = 15
  distinct : handle.Nodup
  trumps : ∀ c ∈ handle, c ∈ hand ∧ c.suit = .trumps
  /-- Showing the Fool says that there is no other trump. -/
  fool : Card.fool ∈ handle → ∀ c ∈ hand, c.suit = .trumps → c ∈ handle

variable {hand handle : Cards}

theorem mem_filter_isTrump {c : Card} :
    c ∈ hand.filter Card.isTrump ↔ c ∈ hand ∧ c.suit = .trumps := by
  rw [List.mem_filter, Card.isTrump, decide_eq_true_eq]

/-- **Different trumps of a hand are all of them exactly if there are no more.** -/
theorem countP_isTrump_le_iff (distinct : hand.Nodup) (hnodup : handle.Nodup)
    (htrumps : ∀ c ∈ handle, c ∈ hand ∧ c.suit = .trumps) :
    hand.countP Card.isTrump ≤ handle.length ↔ ∀ c ∈ hand, c.suit = .trumps → c ∈ handle := by
  have hsub : handle.Subperm (hand.filter Card.isTrump) :=
    hnodup.subperm fun c hc => mem_filter_isTrump.mpr (htrumps c hc)
  rw [List.countP_eq_length_filter]
  constructor
  · intro hle c hc htrump
    have hperm := hsub.perm_of_length_le hle
    exact hperm.mem_iff.mpr (mem_filter_isTrump.mpr ⟨hc, htrump⟩)
  · intro hall
    refine ((distinct.filter _).subperm fun c hc => ?_).length_le
    obtain ⟨hmem, htrump⟩ := mem_filter_isTrump.mp hc
    exact hall c hmem htrump

/-- **The test of a handle finds the handles.** -/
theorem isHandle_iff (distinct : hand.Nodup) : hand.isHandle handle ↔ ShownFrom hand handle := by
  have hfool : (!(handle.hasFool && handle.length < hand.countP Card.isTrump)) = true ↔
      (Card.fool ∈ handle → hand.countP Card.isTrump ≤ handle.length) := by
    by_cases h : Card.fool ∈ handle <;> simp [hasFool, h]
  unfold isHandle
  rw [Bool.and_eq_true, Bool.and_eq_true, Bool.and_eq_true, hfool, Handle.isSome_ofSize?]
  simp only [List.all_eq_true, Bool.and_eq_true, decide_eq_true_eq]
  rw [← nodup_iff_copies]
  constructor
  · rintro ⟨⟨⟨hsize, hall⟩, hnodup⟩, hcount⟩
    have htrumps : ∀ c ∈ handle, c ∈ hand ∧ c.suit = .trumps := by
      intro c hc
      obtain ⟨htrump, hmem⟩ := hall c hc
      exact mem_filter_isTrump.mp (List.mem_filter.mpr ⟨hmem, htrump⟩)
    refine ⟨hsize, hnodup, htrumps, ?_⟩
    intro hshown
    exact (countP_isTrump_le_iff distinct hnodup htrumps).mp (hcount hshown)
  · rintro ⟨hsize, hnodup, htrumps, hfool⟩
    refine ⟨⟨⟨hsize, ?_⟩, hnodup⟩, ?_⟩
    · intro c hc
      obtain ⟨hmem, htrump⟩ := List.mem_filter.mp (mem_filter_isTrump.mpr (htrumps c hc))
      exact ⟨htrump, hmem⟩
    · intro hshown
      exact (countP_isTrump_le_iff distinct hnodup htrumps).mpr (hfool hshown)

/-! ## Which handles there are -/

/-- The trumps of a hand other than the Fool. -/
def besidesFool (hand : Cards) : Cards := hand.filter fun c => c.suit = .trumps ∧ c ≠ Card.fool

theorem mem_besidesFool {c : Card} :
    c ∈ hand.besidesFool ↔ c ∈ hand ∧ c.suit = .trumps ∧ c ≠ Card.fool := by
  rw [besidesFool, List.mem_filter, decide_eq_true_eq]

/-- **Without the Fool, there is a handle of a size exactly if there are so many trumps.** -/
theorem exists_handle_without_fool (distinct : hand.Nodup) {size : Nat}
    (hsize : size = 10 ∨ size = 13 ∨ size = 15) :
    (∃ handle, ShownFrom hand handle ∧ handle.length = size ∧ Card.fool ∉ handle) ↔
      size ≤ hand.besidesFool.length := by
  constructor
  · rintro ⟨handle, h, rfl, hfool⟩
    refine (h.distinct.subperm fun c hc => ?_).length_le
    obtain ⟨hmem, htrump⟩ := h.trumps c hc
    exact mem_besidesFool.mpr ⟨hmem, htrump, fun he => hfool (he ▸ hc)⟩
  · intro hle
    have hmem : ∀ c ∈ hand.besidesFool.take size, c ∈ hand ∧ c.suit = .trumps ∧ c ≠ Card.fool :=
      fun c hc => mem_besidesFool.mp (List.mem_of_mem_take hc)
    have hlength : (hand.besidesFool.take size).length = size := by
      rw [List.length_take]
      omega
    have hfool : Card.fool ∉ hand.besidesFool.take size := fun hc => (hmem _ hc).2.2 rfl
    refine ⟨hand.besidesFool.take size, ⟨?_, ?_, ?_, ?_⟩, hlength, hfool⟩
    · rw [hlength]
      exact hsize
    · exact (distinct.filter _).sublist (List.take_sublist _ _)
    · intro c hc
      obtain ⟨hc, htrump, _⟩ := hmem c hc
      exact ⟨hc, htrump⟩
    · intro hc
      exact absurd hc hfool

/-- **With the Fool, a handle has all trumps.** -/
theorem exists_handle_with_fool (distinct : hand.Nodup) {size : Nat}
    (hsize : size = 10 ∨ size = 13 ∨ size = 15) :
    (∃ handle, ShownFrom hand handle ∧ handle.length = size ∧ Card.fool ∈ handle) ↔
      Card.fool ∈ hand ∧ hand.countP (fun c => c.suit = .trumps) = size := by
  have hcount : hand.countP (fun c => c.suit = .trumps) = (hand.filter Card.isTrump).length :=
    List.countP_eq_length_filter ..
  have htrumps : (hand.filter Card.isTrump).Nodup := distinct.filter _
  rw [hcount]
  constructor
  · rintro ⟨handle, h, rfl, hfool⟩
    refine ⟨(h.trumps _ hfool).1, ?_⟩
    have hperm : (hand.filter Card.isTrump).Perm handle := by
      refine (List.perm_ext_iff_of_nodup htrumps h.distinct).mpr fun c => ?_
      rw [mem_filter_isTrump]
      exact ⟨fun hc => h.fool hfool c hc.1 hc.2, h.trumps c⟩
    exact hperm.length_eq
  · rintro ⟨hfool, rfl⟩
    have hmem : Card.fool ∈ hand.filter Card.isTrump := mem_filter_isTrump.mpr ⟨hfool, rfl⟩
    refine ⟨hand.filter Card.isTrump, ⟨hsize, htrumps, ?_, ?_⟩, rfl, hmem⟩
    · intro c hc
      exact mem_filter_isTrump.mp hc
    · intro _ c hc htrump
      exact mem_filter_isTrump.mpr ⟨hc, htrump⟩

/-- **A hand shows ten, thirteen or fifteen of its trumps, each once, and the Fool only with all of
them.  So it has a handle of such a size without the Fool exactly if it has so many other trumps,
and one with the Fool exactly if it has the Fool and just so many trumps in all.** -/
theorem handles_exact (distinct : hand.Nodup) :
    (∀ handle, hand.isHandle handle ↔ ShownFrom hand handle)
      ∧ ∀ size, size = 10 ∨ size = 13 ∨ size = 15 →
        ((∃ handle : Cards, hand.isHandle handle ∧ handle.length = size ∧ Card.fool ∉ handle) ↔
            size ≤ hand.countP fun c => c.suit = .trumps ∧ c ≠ Card.fool)
          ∧ ((∃ handle : Cards, hand.isHandle handle ∧ handle.length = size ∧ Card.fool ∈ handle) ↔
            Card.fool ∈ hand ∧ hand.countP (fun c => c.suit = .trumps) = size) := by
  refine ⟨fun handle => isHandle_iff distinct, ?_⟩
  intro size hsize
  simp only [isHandle_iff distinct]
  refine ⟨?_, exists_handle_with_fool distinct hsize⟩
  rw [exists_handle_without_fool distinct hsize, besidesFool, List.countP_eq_length_filter]

/-- The Fool and the first ten trumps, with a card of spades. -/
def elevenTrumps : Cards :=
  ⟨2, .spades⟩ :: (List.range 11).map fun rank => ⟨rank, .trumps⟩

/-- Eleven trumps are one too many to show the Fool among ten of them. -/
theorem elevenTrumps_handles :
    elevenTrumps.Nodup
      ∧ elevenTrumps.isHandle ((List.range' 1 10).map fun rank => ⟨rank, .trumps⟩)
      ∧ ¬ elevenTrumps.isHandle ((List.range 10).map fun rank => ⟨rank, .trumps⟩)
      ∧ (∃ handle : Cards, elevenTrumps.isHandle handle ∧ handle.length = 10
        ∧ Card.fool ∉ handle)
      ∧ ¬ ∃ handle : Cards, elevenTrumps.isHandle handle ∧ handle.length = 10
        ∧ Card.fool ∈ handle := by
  have distinct : elevenTrumps.Nodup := by decide
  obtain ⟨handle_iff, sizes⟩ := handles_exact distinct
  obtain ⟨without, withFool⟩ := sizes 10 (Or.inl rfl)
  refine ⟨distinct, ?_, ?_, without.mpr (by decide), ?_⟩
  · exact (handle_iff _).mpr ⟨Or.inl rfl, by decide, by decide, by decide⟩
  · intro shown
    have all := ((handle_iff _).mp shown).fool (by decide)
    exact absurd (all ⟨10, .trumps⟩ (by decide) rfl) (by decide)
  · intro shown
    exact absurd (withFool.mp shown).2 (by decide)

end Cards

end FrenchTarot
