import FrenchTarot.Proofs.Cards.Removal
import FrenchTarot.Proofs.Checks
import FrenchTarot.Proofs.Text.Pieces

/-!
# Which texts are read as cards

The text of a card may be spelled in several ways: its rank has two digits and is followed by the
dash at once, but there may be blanks around the card and around the letter, and the letter may be
small.  A card list has such parts with `;` between them, or it is blank.  `Card.Spells` and
`Cards.Spells` say this without reading, and `ofText_spelled` says that reading accepts these texts
and no others.

What is read from the pieces of a text is what the text spells (`Card.ofChars_eq_ok`).  Since no
spelling of a card holds a `;`, the pieces of a list are its cards.  The text that is written is one
of the spellings, and so it is read back (`ofText_text`).
-/

namespace FrenchTarot

/-! ## Spellings -/

/-- A text of a card: two digits, a dash and the letter of the suit, capital or small.  Blanks may
stand at both ends and before the letter. -/
inductive Card.Spells : List Char → Card → Prop where
  | spelling {front inner back : List Char} {tens units rank : Nat} {suit : Suit} {letter : Char}
      (front_blank : Text.AllBlank front) (inner_blank : Text.AllBlank inner)
      (back_blank : Text.AllBlank back) (tens_lt : tens < 10) (units_lt : units < 10)
      (rank_eq : rank = 10 * tens + units)
      (cased : letter = suit.letter ∨ letter = suit.letter.toLower)
      (held : if suit = .trumps then rank ≤ 21 else 1 ≤ rank ∧ rank ≤ 14) :
      Spells (front ++ Nat.digitChar tens :: Nat.digitChar units :: '-' :: inner
        ++ letter :: back) ⟨rank, suit⟩

/-- A text of a card list: nothing but blanks, or texts of its cards with `;` between them. -/
inductive Cards.Spells : List Char → Cards → Prop where
  | blank {cs : List Char} (blank : Text.AllBlank cs) : Spells cs []
  | listed {parts : List (List Char)} {cards : Cards} (some : cards ≠ [])
      (each : List.Forall₂ Card.Spells parts cards) : Spells ([';'].intercalate parts) cards

namespace Suit

theorem ofLetter?_eq_some {x : Char} {s : Suit} :
    ofLetter? x = some s ↔ x = s.letter ∨ x = s.letter.toLower := by
  constructor
  · intro h
    unfold ofLetter? at h
    split at h <;> cases h <;> exact Text.eq_or_eq_toLower_of_toUpper ‹_›
  · rintro (rfl | rfl) <;> cases s <;> rfl

/-- The letter of a suit is neither a blank nor a separator. -/
theorem letter_spec {x : Char} {s : Suit} (h : x = s.letter ∨ x = s.letter.toLower) :
    Text.isBlank x = false ∧ x ≠ ';' := by
  rcases h with rfl | rfl <;> cases s <;> decide

/-- A suit is read from its letter, with blanks around it. -/
theorem ofChars_eq_ok {cs : List Char} {s : Suit} :
    ofChars cs = .ok s ↔ ∃ front x back, Text.AllBlank front ∧ Text.AllBlank back
      ∧ cs = front ++ x :: back ∧ (x = s.letter ∨ x = s.letter.toLower) := by
  constructor
  · intro h
    unfold ofChars at h
    split at h
    · rename_i x hx
      obtain ⟨front, back, hf, hb, hcs⟩ := Text.exists_trim cs
      rw [hx, List.append_assoc, List.singleton_append] at hcs
      refine ⟨front, x, back, hf, hb, hcs, ofLetter?_eq_some.mp ?_⟩
      unfold ofLetter at h
      split at h
      · cases h
        assumption
      · cases h
    · cases h
  · rintro ⟨front, x, back, hf, hb, rfl, hx⟩
    have hblank := (letter_spec hx).1
    have htrim : Text.trim (front ++ x :: back) = [x] := by
      rw [← List.singleton_append, ← List.append_assoc, Text.trim_append hf hb]
      exact Text.trim_eq_self (by simpa using hblank) (by simpa using hblank)
    rw [ofChars, htrim]
    show ofLetter x = .ok s
    rw [ofLetter, ofLetter?_eq_some.mpr hx]

end Suit

/-! ## Cards -/

namespace Card

theorem valid_iff {rank : Nat} {suit : Suit} :
    (⟨rank, suit⟩ : Card).valid ↔
      if suit = .trumps then rank ≤ 21 else 1 ≤ rank ∧ rank ≤ 14 := by
  cases suit <;> simp [valid]

/-- The blanks around a card are dropped. -/
theorem trim_pieces {front inner back : List Char} {a b x : Char} (hfront : Text.AllBlank front)
    (hback : Text.AllBlank back) (ha : Text.isBlank a = false) (hx : Text.isBlank x = false) :
    Text.trim (front ++ a :: b :: '-' :: inner ++ x :: back) = a :: b :: '-' :: (inner ++ [x]) := by
  have hsplit : front ++ a :: b :: '-' :: inner ++ x :: back =
      front ++ (a :: b :: '-' :: (inner ++ [x])) ++ back := by
    simp
  rw [hsplit, Text.trim_append hfront hback]
  refine Text.trim_eq_self (by simpa using ha) ?_
  rw [← List.cons_append, ← List.cons_append, ← List.cons_append, List.getLast?_concat]
  simpa using hx

/-- The digits stand before the dash. -/
theorem cutAt_pieces {a b : Char} (ha : a ≠ '-') (hb : b ≠ '-') (suitText : List Char) :
    Text.cutAt '-' (a :: b :: '-' :: suitText) = some ([a, b], suitText) :=
  Text.cutAt_eq_some.mpr ⟨rfl, by simp [ha.symm, hb.symm]⟩

/-- What is read of a card: the digits before the first dash, and the suit after it. -/
theorem ofChars_cut {cs : List Char} {c : Card} :
    ofChars cs = .ok c ↔ ∃ rankText suitText,
      Text.cutAt '-' (Text.trim cs) = some (rankText, suitText)
        ∧ Text.ofTwoDigits? rankText = some c.rank ∧ Suit.ofChars suitText = .ok c.suit
        ∧ c.valid := by
  unfold ofChars
  dsimp only
  constructor
  · intro h
    split at h
    · cases h
    · rename_i rankText suitText hcut
      split at h
      · cases h
      · rename_i rank hrank
        split at h
        · cases h
        · rename_i suit hsuit
          split at h
          · rename_i hvalid
            cases h
            exact ⟨rankText, suitText, hcut, hrank, hsuit, hvalid⟩
          · cases h
  · rintro ⟨rankText, suitText, hcut, hrank, hsuit, hvalid⟩
    rw [hcut]
    dsimp only
    rw [hrank]
    dsimp only
    rw [hsuit]
    exact if_pos hvalid

/-- **A card is read from its spellings, and from nothing else.** -/
theorem ofChars_eq_ok {cs : List Char} {c : Card} : ofChars cs = .ok c ↔ Spells cs c := by
  rw [ofChars_cut]
  constructor
  · rintro ⟨rankText, suitText, hcut, hrank, hsuit, hvalid⟩
    -- Each piece that was read is spelled, and the pieces make up the text.
    obtain ⟨front, back, hfront, hback, hcs⟩ := Text.exists_trim cs
    obtain ⟨hcore, _⟩ := Text.cutAt_eq_some.mp hcut
    obtain ⟨tens, htens, units, hunits, rfl, hnumber⟩ := Text.ofTwoDigits?_eq_some.mp hrank
    obtain ⟨inner, letter, rest, hinner, hrest, rfl, hletter⟩ := Suit.ofChars_eq_ok.mp hsuit
    have hspelled := Spells.spelling hfront hinner (hrest.append hback) htens hunits
      hnumber hletter (valid_iff.mp hvalid)
    rw [hcs, hcore]
    simpa using hspelled
  · rintro ⟨hfront, hinner, hback, htens, hunits, hrank, hletter, hheld⟩
    rename_i front inner back tens units rank suit letter
    obtain ⟨hblank, htensDash, _⟩ := Text.digitChar_spec htens
    obtain ⟨_, hunitsDash, _⟩ := Text.digitChar_spec hunits
    refine ⟨[Nat.digitChar tens, Nat.digitChar units], inner ++ [letter], ?_, ?_, ?_,
      valid_iff.mpr hheld⟩
    · rw [trim_pieces hfront hback hblank (Suit.letter_spec hletter).1]
      exact cutAt_pieces htensDash hunitsDash _
    · exact Text.ofTwoDigits?_eq_some.mpr ⟨tens, htens, units, hunits, rfl, hrank⟩
    · exact Suit.ofChars_eq_ok.mpr ⟨inner, letter, [], hinner, Text.allBlank_nil, rfl, hletter⟩

theorem Spells.valid {cs : List Char} {c : Card} (h : Spells cs c) : c.valid := by
  obtain ⟨_, _, _, _, _, _, _, hheld⟩ := h
  exact valid_iff.mpr hheld

/-- **The text that is written for a card is one of its spellings.** -/
theorem spells_chars {c : Card} (h : c.valid) : Spells c.chars c := by
  obtain ⟨rank, suit⟩ := c
  have hheld := valid_iff.mp h
  have hrank : rank < 22 := by
    split at hheld <;> omega
  have hdigits : ∀ n < 22,
      Text.twoDigits n = [Nat.digitChar (n / 10), Nat.digitChar (n % 10)] := by decide
  rw [chars, hdigits rank hrank]
  exact .spelling Text.allBlank_nil Text.allBlank_nil Text.allBlank_nil (by omega) (by omega)
    (Nat.div_add_mod rank 10).symm (.inl rfl) hheld

/-- A spelling of a card has a dash. -/
theorem Spells.not_blank {cs : List Char} {c : Card} (h : Spells cs c) : ¬ Text.AllBlank cs := by
  intro hblank
  have hdash : '-' ∈ cs := by
    cases h
    simp
  cases hblank _ hdash

/-- A spelling of a card is one part of a list. -/
theorem Spells.separator_notMem {cs : List Char} {c : Card} (h : Spells cs c) : ';' ∉ cs := by
  have hblank : ∀ {part : List Char}, Text.AllBlank part → ';' ∉ part := by
    intro part hpart hmem
    cases hpart _ hmem
  cases h with
  | spelling hfront hinner hback htens hunits _ hletter =>
    have htens := (Text.digitChar_spec htens).2.2.symm
    have hunits := (Text.digitChar_spec hunits).2.2.symm
    have hletter := (Suit.letter_spec hletter).2.symm
    simp [hblank hfront, hblank hinner, hblank hback, htens, hunits, hletter]

end Card

/-! ## Card lists -/

namespace Cards

/-- A list with cards is not blank. -/
theorem not_blank_intercalate {parts : List (List Char)} {cards : Cards} (hsome : cards ≠ [])
    (h : List.Forall₂ Card.Spells parts cards) : ¬ Text.AllBlank ([';'].intercalate parts) := by
  cases h with
  | nil => exact absurd rfl hsome
  | cons hfirst hrest =>
    refine fun hblank => hfirst.not_blank fun x hx => hblank x ?_
    cases hrest with
    | nil => rwa [List.intercalate_singleton]
    | cons _ _ =>
      rw [List.intercalate_cons_cons, List.append_assoc]
      exact List.mem_append_left _ hx

/-- The parts of a list are the spellings of its cards. -/
theorem segments_of_spells {parts : List (List Char)} {cards : Cards} (hsome : cards ≠ [])
    (h : List.Forall₂ Card.Spells parts cards) :
    Text.segments ';' ([';'].intercalate parts) = parts := by
  have hparts : parts ≠ [] := by
    rintro rfl
    exact hsome (List.forall₂_nil_left_iff.mp h)
  have hapart := (List.forall₂_and_left parts cards).mp
    (h.imp fun part c hc => ⟨hc.separator_notMem, hc⟩)
  exact Text.segments_intercalate hparts hapart.1

theorem Spells.valid {cs : List Char} {cards : Cards} (h : Spells cs cards) :
    ∀ c ∈ cards, c.valid := by
  cases h with
  | blank => simp
  | @listed parts _ _ each =>
    have hflip : List.Forall₂ (fun c part => c.valid ∧ Card.Spells part c) cards parts :=
      .flip (each.imp fun part c hc => ⟨hc.valid, hc⟩)
    exact ((List.forall₂_and_left cards parts).mp hflip).1

/-- **A card list is read from its spellings, and from nothing else.** -/
theorem ofChars_eq_ok {cs : List Char} {cards : Cards} :
    ofChars cs = .ok cards ↔ Spells cs cards := by
  have hread : (Text.segments ';' cs).mapM Card.ofChars = .ok cards ↔
      List.Forall₂ Card.Spells (Text.segments ';' cs) cards := by
    rw [mapM_eq_ok]
    simp only [Card.ofChars_eq_ok]
  unfold ofChars
  split
  · rename_i htrim
    have hblank := Text.trim_eq_nil.mp htrim
    constructor
    · intro h
      cases h
      exact .blank hblank
    · intro h
      cases h with
      | blank => rfl
      | listed hsome each => exact absurd hblank (not_blank_intercalate hsome each)
  · rename_i htrim
    rw [hread]
    constructor
    · intro h
      have hsome : cards ≠ [] := by
        rintro rfl
        exact Text.segments_ne_nil ';' cs (List.forall₂_nil_right_iff.mp h)
      have hspelled := Spells.listed hsome h
      rwa [Text.intercalate_segments] at hspelled
    · intro h
      cases h with
      | blank hblank => exact absurd (Text.trim_eq_nil.mpr hblank) htrim
      | listed hsome each =>
        rw [segments_of_spells hsome each]
        exact each

/-- The text that is written for cards of the deck is one of their spellings. -/
theorem spells_chars {cards : Cards} (h : ∀ c ∈ cards, c.valid) : Spells (chars cards) cards := by
  by_cases hnone : cards = []
  · subst hnone
    exact .blank Text.allBlank_nil
  · exact .listed hnone
      (List.forall₂_map_left_iff.mpr (List.forall₂_same.mpr fun c hc => Card.spells_chars (h c hc)))

/-- **A card list is read from its text.** -/
theorem ofText_text {cards : Cards} (h : ∀ c ∈ cards, c.valid) :
    Cards.ofText (Cards.text cards) = .ok cards := by
  unfold Cards.ofText Cards.text
  rw [String.toList_ofList]
  exact ofChars_eq_ok.mpr (spells_chars h)

/-- What can be read has cards of the deck only. -/
theorem valid_of_ofText {t : String} {cards : Cards} (h : ofText t = .ok cards) :
    ∀ c ∈ cards, c.valid := (ofChars_eq_ok.mp h).valid

/-! ## The written form -/

/-- The text of some cards stands for all texts of these cards: it is read as the cards, and the
texts that come to it when they are read and written again are the texts of the cards. -/
structure NormalText (cards : Cards) : Prop where
  readBack : ofText (text cards) = .ok cards
  common : ∀ t, (ofText t).map text = .ok (text cards) ↔ ofText t = .ok cards

/-- Cards of the deck have a normal text. -/
theorem normalText_of_valid {cards : Cards} (h : ∀ c ∈ cards, c.valid) : NormalText cards := by
  have hback := ofText_text h
  refine ⟨hback, fun t => ⟨fun ht => ?_, fun ht => by rw [ht]; rfl⟩⟩
  cases hread : ofText t with
  | error e =>
    rw [hread] at ht
    cases ht
  | ok other =>
    rw [hread] at ht
    have hsame : text other = text cards := Except.ok.inj ht
    -- Both lists are read from the one text.
    rw [← hback, ← hsame, ofText_text (valid_of_ofText hread)]

/-- **The texts that are read as a card list are its spellings; and one of them, which is written
for cards of the deck and for all cards that were read, is the normal form of the others.** -/
theorem ofText_spelled :
    (∀ (t : String) (cards : Cards), ofText t = .ok cards ↔ Spells t.toList cards)
      ∧ (∀ cards : Cards, (∀ c ∈ cards, c.valid) → NormalText cards)
      ∧ ∀ (t : String) (cards : Cards), ofText t = .ok cards → NormalText cards :=
  ⟨fun _ _ => ofChars_eq_ok, fun _ => normalText_of_valid,
    fun _ _ h => normalText_of_valid (valid_of_ofText h)⟩

/-- A list with blanks of several kinds and small letters. -/
def looseList : String := "\t14-s ;00- T\u00a0;\u200307-h\n"

def looseCards : Cards := [⟨14, .spades⟩, ⟨0, .trumps⟩, ⟨7, .hearts⟩]

theorem looseList_spelled : Spells looseList.toList looseCards ∧ NormalText looseCards
    ∧ ofText "14-S;00-T;07-H" = .ok looseCards := by
  obtain ⟨hread, hnormal, hnormal'⟩ := ofText_spelled
  have hloose : ofText looseList = .ok looseCards := by decide +kernel
  have hwritten : text looseCards = "14-S;00-T;07-H" := by decide +kernel
  have hvalid := (hnormal looseCards (by decide)).readBack
  rw [hwritten] at hvalid
  exact ⟨(hread _ _).mp hloose, hnormal' _ _ hloose, hvalid⟩

end Cards

end FrenchTarot
