import FrenchTarot.Proofs.Deal.Complete

/-!
# Where deals come from

A deal is shuffled, has a number, or is read from a text.  This module says what each of the three
sources may give, for every table size, every state of the generator, every number and every text.

The first part is about completeness.  A source is asked for a number of players, or finds it in the
text, and nothing makes sure beforehand that the game is defined for that number: it is the dealing
itself that refuses the others, so that a deal that is given also says that its table is supported.
From there on `Deal.Complete` has the argument.  A shuffle is repeated while somebody holds the
Little as the only trump, and a number is replaced by the next one, so that no such hand is left.

The second part is about the numbers.  A search that starts at any number goes around all of them,
and for every table size there is one that can be played: a numbered deal is never given up.
-/

namespace FrenchTarot

/-! ## Hands that are not played -/

/-- A hand with the Little and no other trump, the Fool included, is found. -/
theorem Cards.isLoneLittle_of_trumps {hand : Cards}
    (h : hand.filter Card.isTrump = [Card.little]) : hand.isLoneLittle = true := by
  have hhighest : hand.highestTrump? = some Card.little := by
    have hfilter : (hand.filter fun c => c.isTrump && !c.isFool) = [Card.little] := by
      simp only [Bool.and_comm (Card.isTrump _), ← List.filter_filter, h]
      rfl
    rw [highestTrump?, hfilter]
    rfl
  have hfool : Card.fool ∉ hand := fun hmem => by
    have hmem : Card.fool ∈ hand.filter Card.isTrump := List.mem_filter.mpr ⟨hmem, rfl⟩
    rw [h] at hmem
    cases List.mem_singleton.mp hmem
  simp [isLoneLittle, hhighest, hasFool, hfool]

namespace Deal

variable {n : Nat} {d : Deal}

/-- No hand of a deal that is played has the Little as its only trump. -/
theorem trumps_ne_little (h : d.hasLoneLittle = false) (players : d.hands.players = n) {s : Seat}
    (hs : s.index < n) : (d.hands.get s).filter Card.isTrump ≠ [Card.little] := by
  intro htrumps
  have hseat : s ∈ d.hands.seats := Seat.mem_taken.mpr (players ▸ hs)
  have hnone : ∀ t ∈ d.hands.seats, ¬ (d.hands.get t).isLoneLittle := List.any_eq_false.mp h
  exact hnone s hseat (Cards.isLoneLittle_of_trumps htrumps)

/-! ## What a source gives -/

/-- Where a deal may come from. -/
inductive Source where
  /-- The deck is shuffled and dealt to that many players. -/
  | shuffle (n : Nat) (g : Generator)
  /-- The deck of a number, or of the next one, is dealt to that many players. -/
  | number (n : Nat) (seed : UInt64)
  /-- The deal is read from the text of a file. -/
  | file (text : String)

namespace Source

/-- The deal comes from the source.  Shuffles and numbers are tried as often as it takes, of which
the limit that `Deal.random` and `Deal.numbered` have is a case. -/
def Gives (d : Deal) : Source → Prop
  | shuffle n g => ∃ limit g', (randomWithin Cards.standard n limit).run g = .ok d g'
  | number n seed => ∃ limit, numberedWithin n limit seed = .ok d
  | file text => ofText text = .ok d

/-- The players that a deal of the source is for; a file does not name them, but their hands. -/
def players (d : Deal) : Source → Nat
  | shuffle n _ | number n _ => n
  | file _ => d.hands.players

/-- What a source promises on top of a complete deal. -/
def Keeps (d : Deal) : Source → Prop
  -- The Fool counts as a trump here.
  | shuffle n _ | number n _ =>
    ∀ s : Seat, s.index < n → (d.hands.get s).filter Card.isTrump ≠ [Card.little]
  | file _ => ∃ first, d.firstPlayer = some first ∧ first.index < d.hands.players

end Source

/-- A deal that shares out the deck among `n` players and the dog. -/
structure Partition (n : Nat) (d : Deal) : Prop extends d.Complete n where
  three_le : 3 ≤ n
  le_five : n ≤ 5
  dog_length : d.dog.length = Rules.dogSize n
  nodup : ((Seat.taken n).flatMap d.hands.get ++ d.dog).Nodup

/-- What hands of a full deal leave is a dog of the right size. -/
theorem Complete.partition (h : d.Complete n) (hn : Rules.supported n) : Partition n d := by
  obtain ⟨hthree, hfive⟩ : 3 ≤ n ∧ n ≤ 5 := by
    rcases Rules.supported_iff.mp hn with rfl | rfl | rfl <;> decide
  have hdog : d.dog.length = Rules.dogSize n := by
    have hlength := h.perm.length_eq
    rw [Cards.length_standard, List.length_append, Hands.length_flatMap_taken hn
      fun s hs => h.hand_length s (Seat.mem_taken.mp hs)] at hlength
    have hsum := Rules.hands_and_dog hn
    omega
  exact ⟨h, hthree, hfive, hdog, h.perm.nodup_iff.mpr Cards.nodup_standard⟩

/-- Only a supported number of players is dealt to. -/
theorem supported_of_ofDeck {deck : Cards} (h : ofDeck n deck = .ok d) : Rules.supported n := by
  unfold ofDeck at h
  obtain ⟨_, hplayers, _⟩ := bind_eq_ok.mp h
  exact Rules.checkPlayers_eq_ok.mp (mapError_eq_ok.mp hplayers)

theorem supported_of_randomWithin {deck : Cards} {limit : Nat} {g g' : Generator}
    (h : (randomWithin deck n limit).run g = .ok d g') : Rules.supported n := by
  cases limit with
  | zero => cases h
  | succ limit =>
    rw [randomWithin, EStateM.run_bind, EStateM.run_modifyGet] at h
    dsimp only at h
    cases hdeal : ofDeck n (g.shuffle deck).1 with
    | error e =>
      rw [hdeal] at h
      cases h
    | ok first => exact supported_of_ofDeck hdeal

theorem supported_of_numberedWithin {limit : Nat} {seed : UInt64}
    (h : numberedWithin n limit seed = .ok d) : Rules.supported n := by
  cases limit with
  | zero => cases h
  | succ limit =>
    rw [numberedWithin] at h
    cases hdeal : ofDeck n (numberedDeck seed) with
    | error e =>
      rw [hdeal] at h
      cases h
    | ok first => exact supported_of_ofDeck hdeal

/-- A file that is read names a first player. -/
theorem firstPlayer_of_ofText {text : String} (h : ofText text = .ok d) :
    ∃ first, d.firstPlayer = some first := by
  obtain ⟨_, _, h⟩ := ofText_eq_ok h
  obtain ⟨_, _, first, _, _, _, rfl⟩ := ofContents_eq_ok.mp h
  exact ⟨first, rfl⟩

/-- **Whatever a source gives is a partition of the deck that can be played.** -/
theorem Source.Gives.partitioned {source : Source} (h : source.Gives d) :
    Partition (source.players d) d ∧ source.Keeps d := by
  cases source with
  | shuffle n g =>
    obtain ⟨limit, g', hrun⟩ := h
    have hn := supported_of_randomWithin hrun
    rcases randomWithin_run hn (List.Perm.refl _) limit g with
      ⟨_, _, hgiven, hc, hlone⟩ | ⟨_, hfail⟩
    · cases hgiven.symm.trans hrun
      exact ⟨hc.partition hn, fun s hs => trumps_ne_little hlone hc.players hs⟩
    · cases hfail.symm.trans hrun
  | number n seed =>
    obtain ⟨limit, hrun⟩ := h
    have hn := supported_of_numberedWithin hrun
    obtain ⟨hc, hlone⟩ := numberedWithin_complete hn hrun
    exact ⟨hc.partition hn, fun s hs => trumps_ne_little hlone hc.players hs⟩
  | file text =>
    obtain ⟨hc, hn⟩ := ofText_complete h
    obtain ⟨first, hfirst⟩ := firstPlayer_of_ofText h
    exact ⟨hc.partition hn, first, hfirst, hc.first_lt first hfirst⟩

/-! ## Going on to the next number -/

/-- The deck of a number can be played. -/
def playable (n : Nat) (seed : UInt64) : Bool :=
  match ofDeck n (numberedDeck seed) with
  | .ok d => !d.hasLoneLittle
  | .error _ => false

/-- A search that reaches a number that can be played finds a deal. -/
theorem numberedWithin_returns (hn : Rules.supported n) {limit ahead : Nat} {seed : UInt64}
    (hplayable : playable n (seed + UInt64.ofNat ahead)) (hlt : ahead < limit) :
    ∃ d, numberedWithin n limit seed = .ok d := by
  induction limit generalizing ahead seed with
  | zero => exact absurd hlt (Nat.not_lt_zero _)
  | succ limit ih =>
    obtain ⟨d, hd, _⟩ := ofDeck_complete hn (numberedDeck_perm seed)
    rw [numberedWithin, hd]
    dsimp only
    by_cases hl : d.hasLoneLittle
    · rw [if_pos hl]
      cases ahead with
      | zero =>
        -- The search is there, and this deal would have been taken.
        have hseed : seed + UInt64.ofNat 0 = seed := UInt64.add_zero seed
        rw [hseed, playable, hd] at hplayable
        simp [hl] at hplayable
      | succ ahead =>
        have hseed : seed + UInt64.ofNat (ahead + 1) = seed + 1 + UInt64.ofNat ahead := by
          rw [UInt64.ofNat_add, UInt64.add_comm (UInt64.ofNat ahead), UInt64.add_assoc]
          rfl
        exact ih (hseed ▸ hplayable) (by omega)
    · rw [if_neg hl]
      exact ⟨_, rfl⟩

/-- For every table size there is a number that can be played. -/
theorem playable_one (hn : Rules.supported n) : playable n 1 := by
  have hall : playable 3 1 ∧ playable 4 1 ∧ playable 5 1 := by decide +kernel
  obtain ⟨hthree, hfour, hfive⟩ := hall
  rcases Rules.supported_iff.mp hn with rfl | rfl | rfl
  · exact hthree
  · exact hfour
  · exact hfive

/-- **A numbered deal is never given up: the numbers come around to one that can be played.** -/
theorem numbered_returns (hn : Rules.supported n) (seed : UInt64) :
    ∃ d, numbered n seed = .ok d := by
  rw [numbered]
  -- One is that many numbers ahead, counted around.
  have hone : playable n (seed + UInt64.ofNat (1 - seed).toNat) := by
    rw [UInt64.ofNat_toNat, UInt64.add_comm, UInt64.sub_add_cancel]
    exact playable_one hn
  exact numberedWithin_returns hn hone (1 - seed).toNat_lt_size

/-- A numbered deal for five. -/
theorem Source.partition_of_five :
    ∃ d, (number 5 1).Gives d ∧ Partition 5 d ∧ (number 5 1).Keeps d := by
  obtain ⟨d, hd⟩ := numbered_returns (n := 5) rfl 1
  have hgives : (number 5 1).Gives d := ⟨attempts, hd⟩
  exact ⟨d, hgives, Source.Gives.partitioned hgives⟩

end Deal

end FrenchTarot
