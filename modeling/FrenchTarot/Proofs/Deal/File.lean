import FrenchTarot.Proofs.Deal.Generated
import FrenchTarot.Proofs.Json.Decode
import FrenchTarot.Proofs.Json.RoundTrip

/-!
# Deals that are written to a file and read

A file can hold the deals that a table of three, four or five could be dealt: a checked distribution
of cards of the deck, with a first player who sits at the table and without a number.  Such a deal
is read back from its text as it was, and whatever text a deal is read from, it is such a deal.

The text does not say how many players there are.  A reader counts the hands with cards, which are
those of the table, since a full hand has cards and the other seats have none (`players_contents`).
-/

namespace FrenchTarot.Deal

open Json

/-- A deal that a file can hold. -/
structure Storable (d : Deal) : Prop where
  supported : Rules.supported d.hands.players
  distribution : d.hands.checkDistribution d.dog = .ok ()
  /-- The hands have cards of the deck only, as the dog has. -/
  hands_valid : ∀ s, ∀ c ∈ d.hands.get s, c.valid
  dog_valid : ∀ c ∈ d.dog, c.valid
  hand_empty : ∀ s : Seat, d.hands.players ≤ s.index → d.hands.get s = []
  first : ∃ s, d.firstPlayer = some s ∧ s.index < d.hands.players
  seed : d.seed = none

/-! ## Writing, then reading -/

/-- What the file of a deal says. -/
def contents (d : Deal) : FileContents :=
  ⟨fileVersion, Seat.nameOf d.firstPlayer, d.dog, d.hands.cards⟩

/-- The draft that the file of a deal fills. -/
def drafted (d : Deal) : FileDraft where
  version := some fileVersion
  firstPlayer := some (Seat.nameOf d.firstPlayer)
  dog := some d.dog
  south := some (d.hands.get .south)
  east := some (d.hands.get .east)
  north := some (d.hands.get .north)
  west := some (d.hands.get .west)
  fifth := some (d.hands.get .fifth)

/-- The fields of a file are taken one after the other. -/
theorem Storable.takes_drafted {d : Deal} (h : d.Storable) :
    ∃ entry entries, d.toJson = .object (entry :: entries)
      ∧ Takes (takeEntry fileFields) (.pretty 0) (entry :: entries) {} d.drafted := by
  have text (t : String) : asText (.string t) = .ok t := rfl
  have hand (s : Seat) := asCards_text (h.hands_valid s)
  refine ⟨_, _, rfl, ?_⟩
  refine .cons (fun _ => takeEntry_quote rfl rfl (text fileVersion)) ?_
  refine .cons (fun _ => takeEntry_quote rfl rfl (text (Seat.nameOf d.firstPlayer))) ?_
  refine .cons (fun _ => takeEntry_quote rfl rfl (asCards_text h.dog_valid)) ?_
  refine .cons (fun _ => takeEntry_quote rfl rfl (hand .south)) ?_
  refine .cons (fun _ => takeEntry_quote rfl rfl (hand .east)) ?_
  refine .cons (fun _ => takeEntry_quote rfl rfl (hand .north)) ?_
  refine .cons (fun _ => takeEntry_quote rfl rfl (hand .west)) ?_
  refine .cons (fun _ => takeEntry_quote rfl rfl (hand .fifth)) ?_
  exact .nil

/-- The hands with cards are those of the table. -/
theorem players_contents {d : Deal} (h : d.Storable) : d.contents.players = d.hands.players := by
  obtain ⟨hsizes, _, _⟩ := Hands.checkDistribution_eq_ok.mp h.distribution
  have hfull : ∀ s ∈ Seat.all, (!(d.hands.get s).isEmpty) = decide (s.index < d.hands.players) := by
    intro s _
    by_cases hs : s.index < d.hands.players
    · have hlength := hsizes s (Seat.mem_taken.mpr hs)
      have hpos := Rules.handSize_pos h.supported
      rw [decide_eq_true hs, List.isEmpty_eq_false_iff.mpr]
      · rfl
      · exact List.ne_nil_of_length_pos (by omega)
    · rw [decide_eq_false hs, h.hand_empty s (Nat.not_lt.mp hs)]
      rfl
  calc d.contents.players
    _ = (Seat.all.map d.hands.get).countP (fun cards => !cards.isEmpty) := rfl
    _ = Seat.all.countP (fun s => s.index < d.hands.players) := by
      rw [List.countP_map]
      exact List.countP_congr fun s hs => by simp [hfull s hs]
    _ = d.hands.players := by
      rcases Rules.supported_iff.mp h.supported with hn | hn | hn <;> rw [hn] <;> rfl

/-- The contents of its file give the deal. -/
theorem ofContents_contents {d : Deal} (h : d.Storable) : ofContents d.contents = .ok d := by
  obtain ⟨first, hfirst, hseated⟩ := h.first
  have hplayers := players_contents h
  refine ofContents_eq_ok.mpr ⟨rfl, hplayers ▸ h.supported, first, ?_, hplayers ▸ hseated, ?_, ?_⟩
  · rw [← hfirst]
    exact Seat.ofTextOrNowhere_nameOf d.firstPlayer
  · rw [hplayers]
    exact h.distribution
  · obtain ⟨hands, dog, firstPlayer, seed⟩ := d
    obtain rfl : firstPlayer = some first := hfirst
    obtain rfl : seed = none := h.seed
    rw [hplayers]
    rfl

/-- **A deal is read from its text.** -/
theorem Storable.ofText_toText {d : Deal} (h : d.Storable) : ofText d.toText = .ok d := by
  obtain ⟨entry, entries, hjson, htakes⟩ := h.takes_drafted
  have hread : readAll (recordFrom fileFields {} FileDraft.finish) d.toText = .ok d.contents := by
    rw [toText, hjson]
    exact recordFrom_printed (prettyChars_object 0 entry entries) htakes rfl
  unfold ofText
  rw [hread]
  exact ofContents_contents h

/-! ## What was read -/

/-- **A deal that was read can be held by a file.** -/
theorem storable_of_ofText {text : String} {d : Deal} (h : ofText text = .ok d) : d.Storable := by
  obtain ⟨hc, hn⟩ := ofText_complete h
  obtain ⟨contents, hgenuine, h⟩ := ofText_eq_ok h
  obtain ⟨_, _, first, _, hfirst, hcheck, rfl⟩ := ofContents_eq_ok.mp h
  exact {
    supported := hn
    distribution := hcheck
    hands_valid := hgenuine.hands
    dog_valid := hgenuine.dog
    hand_empty := hc.hand_empty
    first := ⟨first, rfl, hfirst⟩
    seed := rfl }

/-- **A file holds just the deals that it can hold, and each as it was.** -/
theorem file_roundTrip :
    (∀ d : Deal, d.Storable → ofText d.toText = .ok d)
      ∧ ∀ (text : String) (d : Deal), ofText text = .ok d → d.Storable :=
  ⟨fun _ h => h.ofText_toText, fun _ _ h => storable_of_ofText h⟩

/-- The deck in order, dealt to four, of whom West plays first. -/
def orderedDeal : Deal where
  hands := ⟨4, .ofFn fun s => ((Cards.standard.take 72).drop (s.index * 18)).take 18⟩
  dog := Cards.standard.drop 72
  firstPlayer := some .west
  seed := none

theorem orderedDeal_roundTrip :
    orderedDeal.Storable ∧ ofText orderedDeal.toText = .ok orderedDeal := by
  have hstorable : orderedDeal.Storable := {
    supported := rfl
    distribution := by decide +kernel
    hands_valid := by
      intro s
      cases s <;> decide +kernel
    dog_valid := by decide +kernel
    hand_empty := by
      intro s
      cases s <;> decide +kernel
    first := ⟨.west, rfl, by decide⟩
    seed := rfl }
  have hread := file_roundTrip.1 orderedDeal hstorable
  exact ⟨file_roundTrip.2 orderedDeal.toText orderedDeal hread, hread⟩

end FrenchTarot.Deal
