import FrenchTarot.Proofs.Cards.Duties
import FrenchTarot.Proofs.Deal.Generated

/-!
# The numbers that are dealt

Every number stands for a shuffled deck, but not every number is dealt.  It is `Usable` for a table
when no hand of its deal has the Little as the only trump, and a number that is not gives way to the
next one.  So the deal that is found is the one of the first number that is usable
(`numberedWithin_eq_ok`), and it carries that number and not the one that was asked for.

Numbers are counted around: after the greatest of them comes zero.  That is why a number is given by
how far it is from where the search begins.
-/

namespace FrenchTarot

/-- A hand that is found to have the Little alone has no other trump. -/
theorem Cards.trumps_of_isLoneLittle {hand : Cards} (nodup : hand.Nodup) (h : hand.isLoneLittle) :
    hand.filter Card.isTrump = [Card.little] := by
  obtain ⟨highest, hfool⟩ : hand.highestTrump? = some Card.little ∧ Card.fool ∉ hand := by
    simpa [isLoneLittle, hasFool] using h
  obtain ⟨hlittle, htop⟩ := highestTrump?_eq_some highest
  have hall : ∀ c ∈ hand.filter Card.isTrump, c = Card.little := by
    intro c hc
    obtain ⟨hc, htrump⟩ := List.mem_filter.mp hc
    have hproper : c.isFool = false := by
      simpa [Card.isFool] using fun heq : c = Card.fool => hfool (heq ▸ hc)
    -- Only the Fool has a lower rank than the Little.
    have hle : c.rank ≤ 1 := htop c (mem_properTrumps.mpr ⟨hc, htrump, hproper⟩)
    obtain ⟨rank, suit⟩ := c
    have hsuit : suit = .trumps := by simpa [Card.isTrump] using htrump
    have hpos : rank ≠ 0 := by simpa [Card.isFool, Card.fool, hsuit] using hproper
    have hle : rank ≤ 1 := hle
    rw [hsuit, show rank = 1 by omega]
    rfl
  -- There is a card like that, and there are no two of them.
  have hmem : Card.little ∈ hand.filter Card.isTrump :=
    List.mem_filter.mpr ⟨(mem_properTrumps.mp hlittle).1, rfl⟩
  have hrep := List.eq_replicate_of_mem hall
  have hle : (hand.filter Card.isTrump).length ≤ 1 := by
    have hnodup := nodup.filter Card.isTrump
    rwa [hrep, List.nodup_replicate] at hnodup
  have hpos := List.length_pos_of_mem hmem
  rw [hrep, show (hand.filter Card.isTrump).length = 1 by omega]
  rfl

namespace Deal

variable {n : Nat} {number seed : UInt64} {d : Deal}

/-- A deal of its number to `n` players, in which nobody holds the Little as the only trump. -/
structure Dealt (n : Nat) (number : UInt64) (d : Deal) : Prop where
  shuffled : ofDeck n (numberedDeck number) = .ok d
  -- The Fool counts as a trump here.
  trumps : ∀ s : Seat, s.index < n → (d.hands.get s).filter Card.isTrump ≠ [Card.little]

/-- The number can be dealt to `n` players. -/
def Usable (n : Nat) (number : UInt64) : Prop := ∃ d, Dealt n number d

/-- The deck of a number is dealt completely. -/
theorem complete_of_numberedDeck (h : ofDeck n (numberedDeck number) = .ok d) : d.Complete n := by
  obtain ⟨d', hd, hc⟩ := ofDeck_complete (supported_of_ofDeck h) (numberedDeck_perm number)
  cases h.symm.trans hd
  exact hc

/-- What is looked for in a deal is a hand with the Little and no other trump. -/
theorem dealt_iff : Dealt n number d ↔
    ofDeck n (numberedDeck number) = .ok d ∧ d.hasLoneLittle = false := by
  constructor
  · rintro ⟨hd, htrumps⟩
    refine ⟨hd, List.any_eq_false.mpr fun s hs hlone => ?_⟩
    have hc := complete_of_numberedDeck hd
    have hseat : s ∈ Seat.taken n := hc.players ▸ hs
    have hnodup := (List.nodup_append.mp (hc.perm.nodup_iff.mpr Cards.nodup_standard)).1
    have hhand := (List.nodup_flatMap.mp hnodup).1 s hseat
    exact htrumps s (Seat.mem_taken.mp hseat) (Cards.trumps_of_isLoneLittle hhand hlone)
  · rintro ⟨hd, hlone⟩
    exact ⟨hd, fun s hs => trumps_ne_little hlone (complete_of_numberedDeck hd).players hs⟩

theorem playable_iff : playable n number = true ↔ Usable n number := by
  unfold playable Usable
  simp only [dealt_iff]
  cases ofDeck n (numberedDeck number) <;> simp

instance (n : Nat) : DecidablePred (Usable n) := fun _ => decidable_of_iff _ playable_iff

/-- The number that is so many steps further on. -/
def ahead (seed : UInt64) (steps : Nat) : UInt64 := seed + UInt64.ofNat steps

@[simp] theorem ahead_zero (seed : UInt64) : ahead seed 0 = seed := UInt64.add_zero seed

theorem ahead_ahead (seed : UInt64) (i j : Nat) : ahead (ahead seed i) j = ahead seed (i + j) := by
  rw [ahead, ahead, ahead, UInt64.ofNat_add, UInt64.add_assoc]

theorem ahead_succ (seed : UInt64) (steps : Nat) : ahead seed steps + 1 = ahead seed (steps + 1) :=
  ahead_ahead seed steps 1

theorem next_ahead (seed : UInt64) (steps : Nat) :
    ahead (seed + 1) steps = ahead seed (steps + 1) := by
  rw [Nat.add_comm]
  exact ahead_ahead seed 1 steps

/-- It takes a whole turn to come back to a number. -/
theorem ahead_injOn {i j : Nat} (hi : i < UInt64.size) (hj : j < UInt64.size)
    (h : ahead seed i = ahead seed j) : i = j := by
  have hofNat : UInt64.ofNat i = UInt64.ofNat j := (UInt64.add_right_inj seed).mp h
  rw [← UInt64.toNat_ofNat_of_lt' hi, hofNat, UInt64.toNat_ofNat_of_lt' hj]

/-- **What is dealt for a number is the deal of the first usable number from there on.** -/
theorem numberedWithin_eq_ok {limit : Nat} (h : numberedWithin n limit seed = .ok d) :
    ∃ skipped dealt, (∀ i < skipped, ¬ Usable n (ahead seed i))
      ∧ Dealt n (ahead seed skipped) dealt
      ∧ d = { dealt with seed := some (ahead seed skipped) } := by
  induction limit generalizing seed with
  | zero => cases h
  | succ limit ih =>
    rw [numberedWithin] at h
    cases hd : ofDeck n (numberedDeck seed) with
    | error e =>
      rw [hd] at h
      cases h
    | ok first =>
      rw [hd] at h
      dsimp only at h
      by_cases hlone : first.hasLoneLittle
      · rw [if_pos hlone] at h
        obtain ⟨skipped, dealt, hskipped, hdealt, heq⟩ := ih h
        rw [next_ahead] at hdealt heq
        refine ⟨skipped + 1, dealt, fun i hi => ?_, hdealt, heq⟩
        cases i with
        | zero =>
          rintro ⟨d, hused⟩
          rw [ahead_zero] at hused
          obtain ⟨hshuffled, hplayed⟩ := dealt_iff.mp hused
          cases hd.symm.trans hshuffled
          rw [hlone] at hplayed
          cases hplayed
        | succ i =>
          rw [← next_ahead]
          exact hskipped i (Nat.lt_of_succ_lt_succ hi)
      · rw [if_neg hlone] at h
        cases h
        refine ⟨0, first, fun i hi => absurd hi (Nat.not_lt_zero i), ?_, by rw [ahead_zero]⟩
        rw [ahead_zero]
        exact dealt_iff.mpr ⟨hd, by simpa using hlone⟩

end Deal

end FrenchTarot
