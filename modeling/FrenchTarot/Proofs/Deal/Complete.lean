import FrenchTarot.Deal.Distribution
import FrenchTarot.Proofs.Cards.Text
import FrenchTarot.Proofs.Json.Draft
import FrenchTarot.Proofs.Seat.Round

/-!
# Every deal is complete

A deal is complete for a table of `n` players when hands and dog hold the deck, every card once, the
hands have equal size, and nothing lies at a seat that does not take part.

There are two sources of deals.  A shuffle is a permutation of the deck, and cutting it into hands
loses nothing.  A file may hold any card lists, but they are read as cards of the deck and checked
for their sizes and for repetitions; 78 distinct cards of the deck are the deck.  The number of
players of a file is the number of hands with cards in them, so the check of the hand sizes also
says that the hands with cards are those of the first seats.
-/

namespace FrenchTarot

/-- A deal that `n` players can play. -/
structure Deal.Complete (n : Nat) (d : Deal) : Prop where
  players : d.hands.players = n
  /-- Every seat of the table has a full hand. -/
  hand_length : ∀ s : Seat, s.index < n → (d.hands.get s).length = Rules.handSize n
  /-- The other seats have no card. -/
  hand_empty : ∀ s : Seat, n ≤ s.index → d.hands.get s = []
  /-- Hands and dog are the deck. -/
  perm : ((Seat.taken n).flatMap d.hands.get ++ d.dog).Perm Cards.standard
  /-- Whoever plays first sits at the table. -/
  first_lt : ∀ s, d.firstPlayer = some s → s.index < n

/-! ## Distributions -/

theorem Hands.firstRepeat?_eq_none {seen cards : Cards} :
    Hands.firstRepeat? seen cards = none ↔ cards.Nodup ∧ ∀ c ∈ cards, c ∉ seen := by
  induction cards generalizing seen with
  | nil => simp [Hands.firstRepeat?]
  | cons c cards ih =>
    rw [Hands.firstRepeat?, List.nodup_cons]
    by_cases hc : c ∈ seen
    · simp [hc]
    · rw [if_neg hc, ih]
      constructor
      · rintro ⟨hn, hall⟩
        refine ⟨⟨fun hm => hall c hm List.mem_cons_self, hn⟩, ?_⟩
        intro x hx
        rcases List.mem_cons.mp hx with rfl | hx
        · exact hc
        · exact fun hs => hall x hx (List.mem_cons_of_mem c hs)
      · rintro ⟨⟨hnot, hn⟩, hall⟩
        refine ⟨hn, fun x hx hs => ?_⟩
        rcases List.mem_cons.mp hs with rfl | hs
        · exact hnot hx
        · exact hall x (List.mem_cons_of_mem c hx) hs

/-- What the check of a distribution asks for. -/
theorem Hands.checkDistribution_eq_ok {h : Hands} {dog : Cards} {u : Unit} :
    h.checkDistribution dog = .ok u ↔
      (∀ s ∈ h.seats, (h.get s).length = Rules.handSize h.players)
        ∧ dog.length = Rules.dogSize h.players
        ∧ (h.seats.flatMap h.get ++ dog).Nodup := by
  have hnodup : (h.seats.flatMap h.get ++ dog).Nodup ↔
      Hands.firstRepeat? [] (h.seats.flatMap h.get ++ dog) = none := by
    simp [Hands.firstRepeat?_eq_none]
  rw [hnodup]
  unfold Hands.checkDistribution
  dsimp only
  split
  · rename_i s hs
    have hmem := List.mem_of_find?_eq_some hs
    have hbad : (h.get s).length ≠ Rules.handSize h.players := by
      simpa using List.find?_some hs
    refine ⟨fun he => ?_, fun he => absurd (he.1 s hmem) hbad⟩
    cases he
  · rename_i hnone
    have hsizes : ∀ s ∈ h.seats, (h.get s).length = Rules.handSize h.players := by
      simpa using hnone
    by_cases hdog : dog.length = Rules.dogSize h.players
    · rw [if_neg (by simp [hdog])]
      cases hr : Hands.firstRepeat? [] (h.seats.flatMap h.get ++ dog) with
      | none => exact ⟨fun _ => ⟨hsizes, hdog, rfl⟩, fun _ => rfl⟩
      | some c => simp
    · rw [if_pos (by simp [hdog])]
      simp [hdog]

theorem Hands.length_flatMap_taken {n size : Nat} (hn : Rules.supported n) {f : Seat → Cards}
    (hf : ∀ s ∈ Seat.taken n, (f s).length = size) :
    ((Seat.taken n).flatMap f).length = size * n := by
  rw [List.length_flatMap, List.map_congr_left hf, List.map_const', List.sum_replicate_nat,
    Seat.length_taken hn, Nat.mul_comm]

/-- Equal hands and the dog have as many cards as the deck. -/
theorem Hands.length_flatMap_append {n : Nat} (hn : Rules.supported n) {f : Seat → Cards}
    {dog : Cards} (hf : ∀ s ∈ Seat.taken n, (f s).length = Rules.handSize n)
    (hdog : dog.length = Rules.dogSize n) :
    ((Seat.taken n).flatMap f ++ dog).length = Rules.deckSize := by
  rw [List.length_append, Hands.length_flatMap_taken hn hf, hdog]
  exact Rules.hands_and_dog hn

/-- **A checked distribution of cards of the deck is the deck.** -/
theorem Hands.perm_of_checkDistribution {h : Hands} {dog : Cards} {u : Unit}
    (hn : Rules.supported h.players) (hc : h.checkDistribution dog = .ok u)
    (hv : ∀ c ∈ h.seats.flatMap h.get ++ dog, c.valid) :
    (h.seats.flatMap h.get ++ dog).Perm Cards.standard := by
  obtain ⟨hsizes, hdog, hnodup⟩ := Hands.checkDistribution_eq_ok.mp hc
  exact Cards.perm_standard hnodup hv (Hands.length_flatMap_append hn hsizes hdog)

namespace Deal

/-! ## Dealing a deck -/

/-- Equal pieces of a list and what is left after them are the list. -/
theorem flatMap_pieces {α : Type} (xs : List α) (size count : Nat) :
    ((List.range count).flatMap fun i => (xs.drop (i * size)).take size)
      ++ xs.drop (size * count) = xs := by
  induction count with
  | zero => simp
  | succ count ih =>
    rw [List.range_succ, List.flatMap_append, List.flatMap_singleton, List.append_assoc]
    rw [show size * (count + 1) = count * size + size by rw [Nat.mul_comm, Nat.succ_mul],
      ← List.drop_drop, List.take_append_drop, Nat.mul_comm]
    exact ih

theorem map_index_taken {n : Nat} (hn : Rules.supported n) :
    (Seat.taken n).map Seat.index = List.range n := by
  rcases Rules.supported_iff.mp hn with rfl | rfl | rfl <;> rfl

/-- **A permutation of the deck can be dealt, and the deal is complete.** -/
theorem ofDeck_complete {n : Nat} (hn : Rules.supported n) {deck : Cards}
    (hp : deck.Perm Cards.standard) : ∃ d, ofDeck n deck = .ok d ∧ d.Complete n := by
  let hands : Hands := ⟨n, .ofFn fun s =>
    if s.index < n then (deck.drop (s.index * Rules.handSize n)).take (Rules.handSize n)
    else []⟩
  let dog := deck.drop (Rules.handSize n * n)
  have hlen : deck.length = Rules.deckSize := by rw [hp.length_eq, Cards.length_standard]
  have hsum := Rules.hands_and_dog hn
  have hget : ∀ s : Seat, s.index < n →
      hands.get s = (deck.drop (s.index * Rules.handSize n)).take (Rules.handSize n) := by
    intro s hs
    simp [hands, Hands.get, hs]
  -- Hands and dog are the deck again, since the hands are cut off it one after the other.
  have hall : hands.seats.flatMap hands.get ++ dog = deck := by
    have hpieces : hands.seats.flatMap hands.get
        = (List.range n).flatMap fun i =>
          (deck.drop (i * Rules.handSize n)).take (Rules.handSize n) := by
      rw [← map_index_taken hn, List.flatMap_map]
      exact List.flatMap_congr fun s hs => hget s (Seat.mem_taken.mp hs)
    rw [hpieces]
    exact flatMap_pieces deck _ n
  have hsizes : ∀ s, s.index < n → (hands.get s).length = Rules.handSize n := by
    intro s hs
    -- The piece of the last seat ends before the dog begins, so none is cut short.
    have hfit : (s.index + 1) * Rules.handSize n ≤ Rules.handSize n * n := by
      rw [Nat.mul_comm]
      exact Nat.mul_le_mul_left _ hs
    rw [Nat.succ_mul] at hfit
    rw [hget s hs, List.length_take, List.length_drop]
    omega
  have hdog : dog.length = Rules.dogSize n := by
    rw [List.length_drop, hlen, Rules.dogSize]
  have hcheck : hands.checkDistribution dog = .ok () := by
    refine Hands.checkDistribution_eq_ok.mpr ⟨?_, hdog, ?_⟩
    · exact fun s hs => hsizes s (Seat.mem_taken.mp hs)
    · rw [hall]
      exact hp.nodup_iff.mpr Cards.nodup_standard
  refine ⟨⟨hands, dog, none, none⟩, ?_, ⟨rfl, hsizes, ?_, ?_, ?_⟩⟩
  · have hplayers : Rules.checkPlayers n = .ok () := Rules.checkPlayers_eq_ok.mpr hn
    show (do
      (Rules.checkPlayers n).mapError DealError.players
      (hands.checkDistribution dog).mapError DealError.distribution
      return (⟨hands, dog, none, none⟩ : Deal)) = _
    rw [hplayers, hcheck]
    rfl
  · intro s hs
    simp [hands, Hands.get, Nat.not_lt.mpr hs]
  · exact hall ▸ hp
  · intro s hs
    cases hs

end Deal

/-! ## Shuffling -/

theorem Generator.swapIfInBounds_perm {α : Type} (xs : Array α) (i j : Nat) :
    (xs.swapIfInBounds i j).Perm xs := by
  rw [Array.swapIfInBounds_def]
  split
  · split
    · exact Array.swap_perm _ _
    · exact Array.Perm.refl _
  · exact Array.Perm.refl _

theorem Generator.shuffleFrom_perm {α : Type} (xs : Array α) (i : Nat) (p : PositionSource)
    (g : Generator) (steps : Nat) : (shuffleFrom xs i p g steps).1.toList.Perm xs.toList := by
  induction steps generalizing xs i p g with
  | zero => exact List.Perm.refl _
  | succ steps ih =>
    exact (ih _ _ _ _).trans (Array.perm_iff_toList_perm.mp (swapIfInBounds_perm xs i _))

/-- **A shuffled list is a permutation of the list.** -/
theorem Generator.shuffle_perm {α : Type} (xs : List α) (g : Generator) :
    (shuffle xs g).1.Perm xs := shuffleFrom_perm xs.toArray 0 .start g xs.length

theorem Generator.shuffled_perm {α : Type} (xs : List α) (g : Generator) :
    (shuffled xs g).Perm xs := shuffle_perm xs g

namespace Deal

theorem numberedDeck_perm (seed : UInt64) : (numberedDeck seed).Perm Cards.standard :=
  Generator.shuffled_perm Cards.standard (Generator.ofSeed seed)

/-! ## Generated deals -/

/-- **A deal at random is complete, and the only way to fail is to run out of shuffles.** -/
theorem randomWithin_run {n : Nat} (hn : Rules.supported n) {deck : Cards}
    (hdeck : deck.Perm Cards.standard) (limit : Nat) (g : Generator) :
    (∃ d g', (randomWithin deck n limit).run g = .ok d g' ∧ d.Complete n
        ∧ d.hasLoneLittle = false)
      ∨ ∃ g', (randomWithin deck n limit).run g = .error .unplayable g' := by
  induction limit generalizing g with
  | zero => exact Or.inr ⟨g, rfl⟩
  | succ limit ih =>
    obtain ⟨d, hd, hc⟩ := ofDeck_complete hn ((Generator.shuffle_perm deck g).trans hdeck)
    rw [randomWithin, EStateM.run_bind, EStateM.run_modifyGet]
    dsimp only
    rw [hd]
    dsimp only
    by_cases hl : d.hasLoneLittle
    · rw [if_pos hl]
      exact ih _
    · rw [if_neg hl]
      exact Or.inl ⟨d, _, rfl, hc, by simpa using hl⟩

theorem random_run {n : Nat} (hn : Rules.supported n) (g : Generator) :
    (∃ d g', (random n).run g = .ok d g' ∧ d.Complete n ∧ d.hasLoneLittle = false)
      ∨ ∃ g', (random n).run g = .error .unplayable g' := by
  rw [random]
  exact randomWithin_run hn (List.Perm.refl _) attempts g

/-- The number of a deal is no part of its cards. -/
theorem Complete.withSeed {n : Nat} {d : Deal} (h : d.Complete n) (seed : Option UInt64) :
    ({ d with seed } : Deal).Complete n :=
  ⟨h.players, h.hand_length, h.hand_empty, h.perm, h.first_lt⟩

theorem numberedWithin_complete {n : Nat} (hn : Rules.supported n) {limit : Nat} {seed : UInt64}
    {d : Deal} (h : numberedWithin n limit seed = .ok d) :
    d.Complete n ∧ d.hasLoneLittle = false := by
  induction limit generalizing seed with
  | zero => cases h
  | succ limit ih =>
    obtain ⟨d0, hd, hc⟩ := ofDeck_complete hn (numberedDeck_perm seed)
    rw [numberedWithin, hd] at h
    dsimp only at h
    by_cases hl : d0.hasLoneLittle
    · rw [if_pos hl] at h
      exact ih h
    · rw [if_neg hl] at h
      cases h
      refine ⟨hc.withSeed _, ?_⟩
      show d0.hasLoneLittle = false
      simpa using hl

theorem numbered_complete {n : Nat} (hn : Rules.supported n) {seed : UInt64} {d : Deal}
    (h : numbered n seed = .ok d) : d.Complete n ∧ d.hasLoneLittle = false := by
  rw [numbered] at h
  exact numberedWithin_complete hn h

/-! ## Deals from files -/

/-- Only the hands of the table have cards when as many hands have cards as there are players. -/
theorem hand_empty_of_count {n : Nat} (hn : Rules.supported n) {hands : PerSeat Cards}
    (hcount : (hands.toList.countP fun cards => !cards.isEmpty) = n)
    (hsizes : ∀ s ∈ Seat.taken n, (hands.get s).length = Rules.handSize n) :
    ∀ s : Seat, n ≤ s.index → hands.get s = [] := by
  have hfull : ∀ s ∈ Seat.taken n, (hands.get s).isEmpty = false := by
    intro s hs
    have hlen := hsizes s hs
    cases hc : hands.get s with
    | nil =>
      rw [hc] at hlen
      rcases Rules.supported_iff.mp hn with rfl | rfl | rfl <;> simp [Rules.handSize] at hlen
    | cons c cards => rfl
  -- The hands of the table use up the count, which leaves nothing for the other seats.
  rcases Rules.supported_iff.mp hn with rfl | rfl | rfl <;>
    simp [Seat.taken, Seat.all, PerSeat.get] at hfull <;>
    simp [PerSeat.toList, List.countP_cons, hfull] at hcount <;>
    intro s hs <;> cases s <;> simp_all [Seat.index, PerSeat.get]

end Deal

theorem Json.valid_of_asCards {j : Json} {cards : Cards} (h : Json.asCards j = .ok cards) :
    ∀ c ∈ cards, c.valid := by
  unfold Json.asCards at h
  rw [bind_eq_ok] at h
  obtain ⟨text, _, h⟩ := h
  exact Cards.valid_of_ofText (mapError_eq_ok.mp h)

namespace Deal

/-- Cards of the deck, as far as there are any. -/
def Genuine (cards : Option Cards) : Prop := ∀ l, cards = some l → ∀ c ∈ l, c.valid

/-- A draft of a deal file that has cards of the deck only. -/
structure FileDraft.Genuine (d : FileDraft) : Prop where
  dog : Deal.Genuine d.dog
  south : Deal.Genuine d.south
  east : Deal.Genuine d.east
  north : Deal.Genuine d.north
  west : Deal.Genuine d.west
  fifth : Deal.Genuine d.fifth

theorem genuine_some {j : Json} {cards : Cards} (h : Json.asCards j = .ok cards) :
    Genuine (some cards) := by
  intro l hl
  cases hl
  exact Json.valid_of_asCards h

theorem fileFields_keep : ∀ f ∈ fileFields, f.Keeps FileDraft.Genuine := by
  have hcards : ∀ {cs rest : List Char} {cards : Cards},
      Json.plainFrom Json.asCards cs = .ok (cards, rest) → Genuine (some cards) := by
    intro cs rest cards h
    obtain ⟨j, hj⟩ := Json.plainFrom_eq_ok h
    exact genuine_some hj
  intro f hf
  simp only [fileFields, List.mem_cons, List.not_mem_nil, or_false] at hf
  rcases hf with rfl | rfl | rfl | rfl | rfl | rfl | rfl | rfl <;> refine Json.keeps_stored ?_
  · exact fun d _ _ _ h _ => ⟨h.dog, h.south, h.east, h.north, h.west, h.fifth⟩
  · exact fun d _ _ _ h _ => ⟨h.dog, h.south, h.east, h.north, h.west, h.fifth⟩
  · exact fun d _ _ _ h hr => { h with dog := hcards hr }
  · exact fun d _ _ _ h hr => { h with south := hcards hr }
  · exact fun d _ _ _ h hr => { h with east := hcards hr }
  · exact fun d _ _ _ h hr => { h with north := hcards hr }
  · exact fun d _ _ _ h hr => { h with west := hcards hr }
  · exact fun d _ _ _ h hr => { h with fifth := hcards hr }

theorem required_eq_ok {α : Type} {x : Option α} {a : α} (h : Json.required x = .ok a) :
    x = some a := by
  cases x with
  | none => cases h
  | some b =>
    cases h
    rfl

/-- The contents of a deal file are cards of the deck. -/
structure FileContents.Genuine (c : FileContents) : Prop where
  dog : ∀ x ∈ c.dog, x.valid
  hands : ∀ s, ∀ x ∈ c.hands.get s, x.valid

theorem FileDraft.genuine_finish {d : FileDraft} (hd : d.Genuine) {c : FileContents}
    (h : d.finish = .ok c) : c.Genuine := by
  unfold FileDraft.finish at h
  obtain ⟨version, _, h⟩ := bind_eq_ok.mp h
  obtain ⟨firstPlayer, _, h⟩ := bind_eq_ok.mp h
  obtain ⟨dog, hdog, h⟩ := bind_eq_ok.mp h
  obtain ⟨south, hsouth, h⟩ := bind_eq_ok.mp h
  obtain ⟨east, heast, h⟩ := bind_eq_ok.mp h
  obtain ⟨north, hnorth, h⟩ := bind_eq_ok.mp h
  obtain ⟨west, hwest, h⟩ := bind_eq_ok.mp h
  obtain ⟨fifth, hfifth, h⟩ := bind_eq_ok.mp h
  rw [pure_eq_ok] at h
  subst h
  refine ⟨hd.dog dog (required_eq_ok hdog), fun s => ?_⟩
  cases s with
  | south => exact hd.south south (required_eq_ok hsouth)
  | east => exact hd.east east (required_eq_ok heast)
  | north => exact hd.north north (required_eq_ok hnorth)
  | west => exact hd.west west (required_eq_ok hwest)
  | fifth => exact hd.fifth fifth (required_eq_ok hfifth)

/-- The number of players of a file: as many as there are hands with cards. -/
def FileContents.players (c : FileContents) : Nat :=
  c.hands.toList.countP fun cards => !cards.isEmpty

/-- **What a file has to hold, and the deal that it gives.** -/
theorem ofContents_eq_ok {c : FileContents} {d : Deal} :
    ofContents c = .ok d ↔ c.version = fileVersion ∧ Rules.supported c.players ∧
      ∃ first, Seat.ofTextOrNowhere c.firstPlayer = .ok (some first) ∧ first.index < c.players
        ∧ (⟨c.players, c.hands⟩ : Hands).checkDistribution c.dog = .ok ()
        ∧ d = ⟨⟨c.players, c.hands⟩, c.dog, some first, none⟩ := by
  unfold ofContents
  dsimp only
  constructor
  · intro h
    split at h
    · cases h
    rename_i hversion
    split at h
    · rename_i s hname
      obtain ⟨first, hfirst, h⟩ := bind_eq_ok.mp h
      obtain rfl := pure_eq_ok.mp hfirst
      obtain ⟨_, hplayers, h⟩ := bind_eq_ok.mp h
      split at h
      · cases h
      rename_i hseated
      obtain ⟨_, hcheck, h⟩ := bind_eq_ok.mp h
      rw [pure_eq_ok] at h
      exact ⟨Classical.not_not.mp hversion,
        Rules.checkPlayers_eq_ok.mp (mapError_eq_ok.mp hplayers), s, hname,
        Nat.not_le.mp hseated, mapError_eq_ok.mp hcheck, h.symm⟩
    · obtain ⟨_, hthrow, _⟩ := bind_eq_ok.mp h
      exact absurd hthrow throw_ne_ok
  · rintro ⟨hversion, hn, first, hname, hseated, hcheck, rfl⟩
    have hplayers : Rules.checkPlayers c.players = .ok () := Rules.checkPlayers_eq_ok.mpr hn
    rw [if_neg (fun hne => hne hversion), hname]
    show ((Rules.checkPlayers c.players).mapError DealError.players >>= _) = _
    rw [hplayers]
    show (if c.players ≤ first.index then _ else _) = _
    rw [if_neg (Nat.not_le.mpr hseated)]
    show ((Hands.checkDistribution ⟨c.players, c.hands⟩ c.dog).mapError DealError.distribution
      >>= _) = _
    rw [hcheck]
    rfl

theorem ofContents_complete {c : FileContents} (hc : c.Genuine) {d : Deal}
    (h : ofContents c = .ok d) : d.Complete d.hands.players ∧ Rules.supported d.hands.players := by
  obtain ⟨_, hn, first, _, hfirst, hcheck, rfl⟩ := ofContents_eq_ok.mp h
  obtain ⟨hsizes, _, _⟩ := Hands.checkDistribution_eq_ok.mp hcheck
  -- The number of players is the number of hands with cards, whatever it comes to.
  refine ⟨⟨rfl, ?_, hand_empty_of_count hn rfl hsizes, ?_, ?_⟩, hn⟩
  · exact fun s hs => hsizes s (Seat.mem_taken.mpr hs)
  · refine Hands.perm_of_checkDistribution hn hcheck ?_
    intro x hx
    rcases List.mem_append.mp hx with hx | hx
    · obtain ⟨s, _, hx⟩ := List.mem_flatMap.mp hx
      exact hc.hands s x hx
    · exact hc.dog x hx
  · intro s hs
    cases hs
    exact hfirst

/-- A file is read as its contents, which have cards of the deck only. -/
theorem ofText_eq_ok {text : String} {d : Deal} (h : ofText text = .ok d) :
    ∃ c : FileContents, c.Genuine ∧ ofContents c = .ok d := by
  unfold ofText at h
  obtain ⟨contents, hread, h⟩ := bind_eq_ok.mp h
  obtain ⟨rest, hread⟩ := Json.readAll_eq_ok (mapError_eq_ok.mp hread)
  have hblank : FileDraft.Genuine {} := by
    constructor <;> intro l hl <;> cases hl
  obtain ⟨draft, hdraft, hfinish⟩ := Json.recordFrom_keeps fileFields_keep hblank hread
  exact ⟨contents, FileDraft.genuine_finish hdraft hfinish, h⟩

/-- **A deal that a file holds is complete for its number of players.** -/
theorem ofText_complete {text : String} {d : Deal} (h : ofText text = .ok d) :
    d.Complete d.hands.players ∧ Rules.supported d.hands.players := by
  obtain ⟨contents, hgenuine, h⟩ := ofText_eq_ok h
  exact ofContents_complete hgenuine h

end Deal

namespace Distribution

/-- A file that holds a deal for the right number of players is used. -/
theorem ofFile_eq_ok {files : Files} {n : Nat} {path text : String} {d : Deal}
    (hfile : files path = some text) (hd : Deal.ofText text = .ok d) (hn : d.hands.players = n) :
    ofFile files n path = .ok d := by
  subst hn
  simp [ofFile, hfile, hd, bind, Except.bind, pure, Except.pure]

theorem ofFile_complete {files : Files} {n : Nat} {path : String} {d : Deal}
    (h : ofFile files n path = .ok d) : d.Complete n := by
  unfold ofFile at h
  split at h
  · cases h
  · obtain ⟨d', hd, h⟩ := bind_eq_ok.mp h
    split at h
    · cases h
    · rename_i hn
      rw [pure_eq_ok] at h
      subst h
      exact Classical.not_not.mp hn ▸ (Deal.ofText_complete hd).1

/-- **Whatever the distribution, the deal is complete.** -/
theorem deal_complete {files : Files} {n : Nat} (hn : Rules.supported n)
    {distribution : Distribution} {g g' : Generator} {d : Deal}
    (h : (distribution.deal files n).run g = .ok d g') : d.Complete n := by
  have hpure : ∀ {x : Except DealError Deal},
      (MonadExcept.ofExcept x : EStateM DealError Generator Deal).run g = .ok d g' → x = .ok d := by
    intro x hx
    cases x with
    | error e => cases hx
    | ok a =>
      cases hx
      rfl
  cases distribution with
  | random =>
    rcases Deal.random_run hn g with ⟨d', g1, hr, hc, _⟩ | ⟨g1, hr⟩
    · have heq := hr.symm.trans h
      cases heq
      exact hc
    · have heq := hr.symm.trans h
      cases heq
  | numbered seed => exact (Deal.numbered_complete hn (hpure h)).1
  | custom path => exact ofFile_complete (hpure h)

end Distribution

end FrenchTarot
