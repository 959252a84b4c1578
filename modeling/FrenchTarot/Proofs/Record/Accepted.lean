import FrenchTarot.Proofs.Deal.Plays
import FrenchTarot.Proofs.Record.Scores

/-!
# Which records replay

A replay takes the cards of each trick out of a deck that has fewer cards with every trick, and
counts how many it finds.  That is how it notices a card that was played before, that is played
twice in the trick, or that does not exist.  `conditions` says what a record has to satisfy without
such a deck, in the order in which a replay comes to it.  What links the two is `Midway`: between
two tricks the deck has the cards of no trick so far.  Hence a trick goes well exactly if its
conditions hold (`Midway.trick_fails`, `Midway.trick_goesOn`), the first condition that fails gives
the error, and no other error is possible (`replay_judged`).

A record that replays is given back by the deal, when it is of the current version and does not name
a partner without need (`ofState_of_replay`).
-/

namespace FrenchTarot

namespace Record

/-! ## What a record has to satisfy -/

/-- A record of a complete deal. -/
structure WellFormed (r : Record) : Prop where
  players : Rules.supported r.info.players.toNat
  count : r.tricks.length = Rules.handSize r.info.players.toNat
  sizes : ∀ trick ∈ r.tricks, trick.length = r.info.players.toNat
  /-- No card is played twice. -/
  nodup : r.tricks.flatten.Nodup
  genuine : ∀ c ∈ r.tricks.flatten, c ∈ Cards.standard
  lead : r.info.firstLead.isSome

/-- A condition with the error of a record that does not meet it. -/
abbrev Condition := Bool × RecordError

/-- What a trick after `k` others has to satisfy. -/
def trickConditions (r : Record) (trick : Cards) (k : Nat) : List Condition :=
  let n := r.info.players.toNat
  (trick.length = n, .trickSize (k + 1) n trick.length)
    :: (trick.Nodup ∧ ∀ c ∈ trick, c ∈ Cards.standard ∧ c ∉ (r.tricks.take k).flatten,
      .duplicate (k + 1))
    :: if k = 0 then [(r.info.firstLead.isSome, .trick .noLeader)] else []

/-- What a record has to satisfy, in the order in which a replay comes to it. -/
def conditions (r : Record) : List Condition :=
  let n := r.info.players.toNat
  (Rules.supported n, .players ⟨n⟩)
    :: (r.tricks.length = Rules.handSize n, .trickCount (Rules.handSize n) r.tricks.length)
    :: r.tricks.zipIdx.flatMap fun (trick, k) => r.trickConditions trick k

/-- The error of the first condition that fails. -/
def firstFault? (conditions : List Condition) : Option RecordError :=
  conditions.findSome? fun (holds, error) => if holds then none else some error

@[simp] theorem firstFault?_cons (holds : Bool) (error : RecordError) (rest : List Condition) :
    firstFault? ((holds, error) :: rest) = if holds then firstFault? rest else some error := by
  cases holds <;> rfl

theorem firstFault?_append (xs ys : List Condition) :
    firstFault? (xs ++ ys) = (firstFault? xs).or (firstFault? ys) := List.findSome?_append

theorem firstFault?_eq_none {conditions : List Condition} :
    firstFault? conditions = none ↔ ∀ q ∈ conditions, q.1 = true := by
  simp [firstFault?, List.findSome?_eq_none_iff]

theorem mem_of_firstFault? {conditions : List Condition} {error : RecordError}
    (h : firstFault? conditions = some error) : (false, error) ∈ conditions := by
  obtain ⟨⟨holds, error'⟩, hmem, hfault⟩ := List.exists_of_findSome?_eq_some h
  cases holds with
  | true => cases hfault
  | false =>
    obtain rfl : error' = error := Option.some.inj hfault
    exact hmem

theorem firstFault?_trickConditions {r : Record} {trick : Cards} {k : Nat} :
    firstFault? (r.trickConditions trick k) = none ↔ trick.length = r.info.players.toNat
      ∧ (trick.Nodup ∧ ∀ c ∈ trick, c ∈ Cards.standard ∧ c ∉ (r.tricks.take k).flatten)
      ∧ (k = 0 → r.info.firstLead.isSome) := by
  rw [firstFault?_eq_none]
  by_cases hk : k = 0 <;> simp [trickConditions, hk]

theorem firstFault?_conditions {r : Record} :
    firstFault? r.conditions = none ↔ Rules.supported r.info.players.toNat
      ∧ r.tricks.length = Rules.handSize r.info.players.toNat
      ∧ firstFault? (r.tricks.zipIdx.flatMap fun q => r.trickConditions q.1 q.2) = none := by
  rw [firstFault?_eq_none, firstFault?_eq_none, conditions]
  simp

/-- A trick of a record without repetitions has no card of the tricks before it. -/
theorem WellFormed.fresh {r : Record} (h : r.WellFormed) {trick : Cards} {k : Nat}
    (hk : r.tricks[k]? = some trick) :
    trick.Nodup ∧ ∀ c ∈ trick, c ∈ Cards.standard ∧ c ∉ (r.tricks.take k).flatten := by
  obtain ⟨hlt, rfl⟩ := List.getElem?_eq_some_iff.mp hk
  have hsplit : r.tricks.flatten =
      (r.tricks.take k).flatten ++ (r.tricks[k] ++ (r.tricks.drop (k + 1)).flatten) := by
    rw [← List.flatten_cons, ← List.flatten_append, ← List.drop_eq_getElem_cons hlt,
      List.take_append_drop]
  have hnodup := h.nodup
  rw [hsplit] at hnodup
  obtain ⟨_, hrest, hdisj⟩ := List.nodup_append.mp hnodup
  refine ⟨(List.nodup_append.mp hrest).1, fun c hc => ⟨h.genuine c ?_, fun hbefore => ?_⟩⟩
  · exact List.mem_flatten.mpr ⟨r.tricks[k], List.getElem_mem hlt, hc⟩
  · exact hdisj c hbefore c (List.mem_append_left _ hc) rfl

/-- **A record of a complete deal meets all conditions.** -/
theorem WellFormed.firstFault? {r : Record} (h : r.WellFormed) :
    firstFault? r.conditions = none := by
  refine firstFault?_conditions.mpr ⟨h.players, h.count, firstFault?_eq_none.mpr fun q hq => ?_⟩
  obtain ⟨⟨trick, k⟩, htrick, hq⟩ := List.mem_flatMap.mp hq
  have hk : r.tricks[k]? = some trick := List.mem_zipIdx_iff_getElem?.mp htrick
  have hsize := h.sizes trick (List.mem_of_getElem? hk)
  exact firstFault?_eq_none.mp
    (firstFault?_trickConditions.mpr ⟨hsize, h.fresh hk, fun _ => h.lead⟩) q hq

/-! ## One trick -/

theorem playTricks_size {d : DealState} {trick : Cards} (h : trick.length ≠ d.players)
    (remaining : Cards) (number : Nat) (tricks : List Cards) :
    playTricks d remaining number (trick :: tricks) =
      .error (.trickSize number d.players trick.length) := by
  rw [playTricks, if_pos h]

/-- A trick has as many cards as are found, unless a card is repeated or not left. -/
theorem playTricks_duplicate {d : DealState} {remaining trick : Cards}
    (hsize : trick.length = d.players) (h : ¬ (trick.Nodup ∧ ∀ c ∈ trick, c ∈ remaining))
    (number : Nat) (tricks : List Cards) :
    playTricks d remaining number (trick :: tricks) = .error (.duplicate number) := by
  have hfound : (remaining.takeOut trick).2 ≠ d.players := by
    rw [← hsize]
    exact mt Cards.takeOut_snd_eq_length.mp h
  rw [playTricks, if_neg (not_not.mpr hsize)]
  dsimp only
  rw [if_pos hfound]

theorem playTricks_noLeader {d : DealState} {remaining trick : Cards}
    (hsize : trick.length = d.players) (hfresh : trick.Nodup ∧ ∀ c ∈ trick, c ∈ remaining)
    (hmore : d.tricks.length < Rules.handSize d.players)
    (hleader : d.leader? d.tricks.length = none) (number : Nat) (tricks : List Cards) :
    playTricks d remaining number (trick :: tricks) = .error (.trick .noLeader) := by
  have hfound : (remaining.takeOut trick).2 = d.players := by
    rw [← hsize]
    exact Cards.takeOut_snd_eq_length.mpr hfresh
  have hadd : d.addTrick trick = .error .noLeader := by
    unfold DealState.addTrick
    dsimp only
    rw [if_neg (not_not.mpr hsize), if_neg (Nat.not_le.mpr hmore), hleader]
  rw [playTricks, if_neg (not_not.mpr hsize)]
  dsimp only
  rw [if_neg (not_not.mpr hfound), hadd]

/-- Between two tricks of a replay: `before` has been played, and the other cards are left. -/
structure Midway (r : Record) (before : List Cards) (d : DealState) (remaining : Cards) :
    Prop where
  players : d.players = r.info.players.toNat
  lead : d.firstPlayer = r.info.firstLead
  count : d.tricks.length = before.length
  left : remaining = Cards.standard.filter fun c => c ∉ before.flatten

theorem midway_opening (r : Record) : r.Midway [] (opening r.info) Cards.standard where
  players := rfl
  lead := rfl
  count := rfl
  left := by simp

/-- A trick that was played leaves the cards that are in no trick so far. -/
theorem Midway.withTrick {r : Record} {before : List Cards} {d : DealState} {remaining : Cards}
    (h : r.Midway before d remaining) (leader : Seat) (trick : Cards) :
    r.Midway (before ++ [trick]) (d.withTrick leader trick) (remaining.takeOut trick).1 where
  players := h.players
  lead := h.lead
  count := by simp [DealState.withTrick_tricks, h.count]
  left := by
    rw [Cards.takeOut_fst, h.left, List.filter_filter]
    refine List.filter_congr fun c _ => ?_
    simp [Bool.and_comm]

section OneTrick

variable {r : Record} {before rest : List Cards} {trick : Cards} {d : DealState}
  {remaining : Cards}

/-- The cards of a trick are left if they are cards of the deck and in no trick before. -/
theorem Midway.fresh_iff (h : r.Midway before d remaining)
    (hr : r.tricks = before ++ trick :: rest) :
    (trick.Nodup ∧ ∀ c ∈ trick, c ∈ remaining) ↔ trick.Nodup
      ∧ ∀ c ∈ trick, c ∈ Cards.standard ∧ c ∉ (r.tricks.take before.length).flatten := by
  rw [h.left, hr, List.take_left]
  simp

theorem Midway.length_lt (h : r.Midway before d remaining) (hr : r.tricks = before ++ trick :: rest)
    (hcount : r.tricks.length = Rules.handSize r.info.players.toNat) :
    d.tricks.length < Rules.handSize d.players := by
  rw [h.players, ← hcount, h.count, hr]
  simp

/-- Only the first trick may have nobody to lead it. -/
theorem Midway.leader?_eq_none (h : r.Midway before d remaining) :
    d.leader? d.tricks.length = none ↔ before.length = 0 ∧ ¬ r.info.firstLead.isSome := by
  rw [DealState.leader?_length_eq_none, h.count, h.lead]
  simp

/-- **A trick fails with the first of its conditions that fails.** -/
theorem Midway.trick_fails (h : r.Midway before d remaining)
    (hr : r.tricks = before ++ trick :: rest)
    (hcount : r.tricks.length = Rules.handSize r.info.players.toNat) {e : RecordError}
    (hfault : firstFault? (r.trickConditions trick before.length) = some e) :
    playTricks d remaining (before.length + 1) (trick :: rest) = .error e := by
  unfold trickConditions at hfault
  dsimp only at hfault
  rw [firstFault?_cons, firstFault?_cons, ← h.players] at hfault
  simp only [decide_eq_true_eq] at hfault
  split at hfault
  · rename_i hsize
    split at hfault
    · rename_i hfresh
      split at hfault
      · rename_i hfirst
        rw [firstFault?_cons] at hfault
        split at hfault
        · cases hfault
        · rename_i hlead
          obtain rfl := Option.some.inj hfault
          exact playTricks_noLeader hsize ((h.fresh_iff hr).mpr hfresh) (h.length_lt hr hcount)
            (h.leader?_eq_none.mpr ⟨hfirst, hlead⟩) _ rest
      · cases hfault
    · rename_i hfresh
      obtain rfl := Option.some.inj hfault
      exact playTricks_duplicate hsize (mt (h.fresh_iff hr).mp hfresh) _ rest
  · rename_i hsize
    obtain rfl := Option.some.inj hfault
    exact playTricks_size hsize remaining _ rest

/-- **A trick that meets its conditions is played.** -/
theorem Midway.trick_goesOn (h : r.Midway before d remaining)
    (hr : r.tricks = before ++ trick :: rest)
    (hcount : r.tricks.length = Rules.handSize r.info.players.toNat)
    (hfault : firstFault? (r.trickConditions trick before.length) = none) :
    ∃ d' remaining', r.Midway (before ++ [trick]) d' remaining'
      ∧ playTricks d remaining (before.length + 1) (trick :: rest) =
        playTricks d' remaining' (before.length + 2) rest := by
  obtain ⟨hsize, hfresh, hlead⟩ := firstFault?_trickConditions.mp hfault
  obtain ⟨hnodup, hmem⟩ := (h.fresh_iff hr).mpr hfresh
  cases hleader : d.leader? d.tricks.length with
  | none =>
    obtain ⟨hfirst, hnot⟩ := h.leader?_eq_none.mp hleader
    exact absurd (hlead hfirst) hnot
  | some leader =>
    have hadd := DealState.addTrick_eq_ok.mpr
      ⟨hsize.trans h.players.symm, h.length_lt hr hcount, leader, hleader, rfl, rfl⟩
    exact ⟨_, _, h.withTrick leader trick, playTricks_cons hnodup hmem hadd _ rest⟩

end OneTrick

/-! ## All tricks -/

/-- **A replay fails with the first condition of the tricks that fails, and leaves the cards that
are in no trick if there is none.** -/
theorem Midway.judged {r : Record} {before rest : List Cards} {d : DealState} {remaining : Cards}
    (h : r.Midway before d remaining) (hr : r.tricks = before ++ rest)
    (hcount : r.tricks.length = Rules.handSize r.info.players.toNat) :
    match firstFault? ((rest.zipIdx before.length).flatMap fun q => r.trickConditions q.1 q.2) with
    | some e => playTricks d remaining (before.length + 1) rest = .error e
    | none => ∃ d', playTricks d remaining (before.length + 1) rest =
        .ok (d', Cards.standard.filter fun c => c ∉ r.tricks.flatten) := by
  induction rest generalizing before d remaining with
  | nil =>
    rw [List.append_nil] at hr
    exact ⟨d, by rw [playTricks, h.left, hr]⟩
  | cons trick rest ih =>
    rw [List.zipIdx_cons, List.flatMap_cons, firstFault?_append]
    cases hfault : firstFault? (r.trickConditions trick before.length) with
    | some e => exact h.trick_fails hr hcount hfault
    | none =>
      obtain ⟨d', remaining', hmid, heq⟩ := h.trick_goesOn hr hcount hfault
      have := ih hmid (by rw [hr, List.append_assoc]; rfl)
      rw [List.length_append, List.length_singleton] at this
      rw [heq]
      exact this

/-- The tricks of a replay are those that it was given. -/
theorem playTricks_cards {d d' : DealState} {remaining remaining' : Cards} {number : Nat}
    {tricks : List Cards}
    (h : playTricks d remaining number tricks = .ok (d', remaining')) :
    d'.tricks.map PlayedTrick.cards = d.tricks.map PlayedTrick.cards ++ tricks := by
  induction tricks generalizing d remaining number with
  | nil =>
    cases h
    simp
  | cons trick tricks ih =>
    obtain ⟨_, _, d1, winner, hadd, h⟩ := playTricks_cons_eq_ok h
    obtain ⟨_, _, leader, _, rfl, _⟩ := DealState.addTrick_eq_ok.mp hadd
    rw [ih h, DealState.withTrick_cards, List.append_assoc]
    rfl

/-- The tricks of a deal that a replay gives are those of the record. -/
theorem cards_of_replay {r : Record} {d : DealState} (h : r.replay = .ok d) :
    d.tricks.map PlayedTrick.cards = r.tricks := by
  obtain ⟨_, _, d0, remaining, hplay, _, rfl⟩ := replay_eq_ok.mp h
  exact playTricks_cards hplay

/-- **Only a record of a complete deal replays.** -/
theorem wellFormed_of_replay {r : Record} {d : DealState} (h : r.replay = .ok d) :
    r.WellFormed := by
  have hf := finished_of_replay h
  have hcards := cards_of_replay h
  obtain ⟨hplayers, _⟩ := frame_of_replay h
  have hlead : r.info.firstLead = d.firstPlayer :=
    congrArg DealState.firstPlayer (opening_of_replay h)
  have hperm := hf.perm
  rw [List.flatMap_def, hcards] at hperm
  have hnodup := hperm.nodup_iff.mpr Cards.nodup_standard
  refine ⟨?_, ?_, ?_, (List.nodup_append.mp hnodup).1, ?_, ?_⟩
  · exact hplayers ▸ hf.supported
  · rw [← hplayers, ← hf.tricks_length, ← hcards, List.length_map]
  · intro trick htrick
    rw [← hcards] at htrick
    obtain ⟨p, hp, rfl⟩ := List.mem_map.mp htrick
    rw [hf.played.length_cards p hp, hplayers]
  · exact fun c hc => hperm.mem_iff.mp (List.mem_append_left _ hc)
  · -- Somebody has led the first trick.
    have hsome : 0 < d.tricks.length := by
      rw [hf.tricks_length]
      exact Rules.handSize_pos hf.supported
    obtain ⟨leader, hl⟩ := hf.played.exists_leader hsome
    rw [hlead, show d.firstPlayer = some leader from hl]
    rfl

/-- The cards that are left are as many as a dog has. -/
theorem playTricks_left_length {r : Record} {d : DealState} {remaining : Cards}
    (hn : Rules.supported r.info.players.toNat)
    (hcount : r.tricks.length = Rules.handSize r.info.players.toNat)
    (h : playTricks (opening r.info) Cards.standard 1 r.tricks = .ok (d, remaining)) :
    remaining.length = Rules.dogSize r.info.players.toNat := by
  obtain ⟨hplayed, hbase, hlength, hperm⟩ :=
    playTricks_played (.opening rfl rfl rfl) Cards.nodup_standard h
  have hplayers : d.players = r.info.players.toNat := congrArg DealState.players hbase
  have htricks : d.tricks.length = Rules.handSize r.info.players.toNat := by
    rw [hlength, hcount]
    exact Nat.zero_add _
  have hall := hperm.length_eq
  rw [List.length_append, hplayed.length_flatMap, htricks, hplayers] at hall
  have hdeck : ((opening r.info).tricks.flatMap PlayedTrick.cards ++ Cards.standard).length =
      Rules.deckSize := Cards.length_standard
  have := Rules.hands_and_dog hn
  omega

/-! ## The judgement -/

theorem replay_players {r : Record} (hn : ¬ Rules.supported r.info.players.toNat) :
    r.replay = .error (.players ⟨r.info.players.toNat⟩) := by
  unfold replay Rules.checkPlayers
  dsimp only
  rw [if_neg hn]
  rfl

theorem replay_trickCount {r : Record} (hn : Rules.supported r.info.players.toNat)
    (hcount : r.tricks.length ≠ Rules.handSize r.info.players.toNat) :
    r.replay =
      .error (.trickCount (Rules.handSize r.info.players.toNat) r.tricks.length) := by
  unfold replay Rules.checkPlayers
  dsimp only
  rw [if_pos hn, if_pos hcount]
  rfl

theorem replay_tricks {r : Record} (hn : Rules.supported r.info.players.toNat)
    (hcount : r.tricks.length = Rules.handSize r.info.players.toNat) {e : RecordError}
    (h : playTricks (opening r.info) Cards.standard 1 r.tricks = .error e) :
    r.replay = .error e := by
  unfold replay Rules.checkPlayers
  dsimp only
  rw [if_pos hn, if_neg (not_not.mpr hcount), h]
  rfl

/-- **A record that meets all conditions replays, and its discard are the cards that are in no
trick; any other record fails with the first condition that it does not meet.** -/
theorem replay_firstFault (r : Record) :
    match firstFault? r.conditions with
    | some e => r.replay = .error e
    | none => ∃ d, r.replay = .ok d
        ∧ d.discard.cards = Cards.standard.filter fun c => c ∉ r.tricks.flatten := by
  unfold conditions
  dsimp only
  rw [firstFault?_cons, firstFault?_cons]
  simp only [decide_eq_true_eq]
  by_cases hn : Rules.supported r.info.players.toNat
  · rw [if_pos hn]
    by_cases hcount : r.tricks.length = Rules.handSize r.info.players.toNat
    · rw [if_pos hcount]
      have hjudged := r.midway_opening.judged (List.nil_append r.tricks).symm hcount
      rw [List.length_nil] at hjudged
      cases hfault : firstFault? (r.tricks.zipIdx.flatMap fun q => r.trickConditions q.1 q.2) with
      | some e =>
        rw [hfault] at hjudged
        exact replay_tricks hn hcount hjudged
      | none =>
        rw [hfault] at hjudged
        obtain ⟨d, hplay⟩ := hjudged
        exact ⟨_, replay_eq_ok.mpr ⟨hn, hcount, d, _, hplay,
          playTricks_left_length hn hcount hplay, rfl⟩, rfl⟩
    · rw [if_neg hcount]
      exact replay_trickCount hn hcount
  · rw [if_neg hn]
    exact replay_players hn

/-- No condition is about the discard, and of the errors of a trick one only can come up. -/
theorem error_of_mem_conditions {r : Record} {holds : Bool} {e : RecordError}
    (h : (holds, e) ∈ r.conditions) :
    (∀ expected found, e ≠ .discard expected found)
      ∧ ∀ cause, e = .trick cause → cause = .noLeader := by
  simp only [conditions, List.mem_cons, List.mem_flatMap, Prod.mk.injEq] at h
  rcases h with ⟨_, rfl⟩ | ⟨_, rfl⟩ | ⟨⟨trick, k⟩, _, h⟩
  · simp
  · simp
  · simp only [trickConditions, List.mem_cons, Prod.mk.injEq] at h
    rcases h with ⟨_, rfl⟩ | ⟨_, rfl⟩ | h
    · simp
    · simp
    · split at h
      · obtain ⟨_, rfl⟩ : holds = _ ∧ e = .trick .noLeader := by simpa using h
        simp
      · cases h

/-- **Exactly the records of complete deals replay, the discard being the cards that are in no
trick.  Any other record fails with the first condition that it does not meet; it never fails for
its discard, nor for a trick other than one that nobody leads.** -/
theorem replay_judged (r : Record) :
    ((∃ d, r.replay = .ok d) ↔ r.WellFormed)
      ∧ (∀ d, r.replay = .ok d →
        d.discard.cards = Cards.standard.filter fun c => c ∉ r.tricks.flatten)
      ∧ (∀ e, r.replay = .error e ↔ firstFault? r.conditions = some e)
      ∧ (∀ expected found, r.replay ≠ .error (.discard expected found))
      ∧ ∀ cause, r.replay = .error (.trick cause) → cause = .noLeader := by
  have hjudged := r.replay_firstFault
  have herror : ∀ e, r.replay = .error e ↔ firstFault? r.conditions = some e := by
    intro e
    cases hfault : firstFault? r.conditions with
    | some e' =>
      rw [hfault] at hjudged
      simp [hjudged]
    | none =>
      rw [hfault] at hjudged
      obtain ⟨d, hok, _⟩ := hjudged
      simp [hok]
  have hkind : ∀ e, r.replay = .error e → (∀ expected found, e ≠ .discard expected found)
      ∧ ∀ cause, e = .trick cause → cause = .noLeader :=
    fun e he => error_of_mem_conditions (mem_of_firstFault? ((herror e).mp he))
  refine ⟨⟨fun ⟨d, hok⟩ => wellFormed_of_replay hok, fun hr => ?_⟩, fun d hok => ?_, herror,
    fun expected found he => (hkind _ he).1 expected found rfl,
    fun cause he => (hkind _ he).2 cause rfl⟩
  · rw [hr.firstFault?] at hjudged
    obtain ⟨d, hok, _⟩ := hjudged
    exact ⟨d, hok⟩
  · rw [(wellFormed_of_replay hok).firstFault?] at hjudged
    obtain ⟨d', hok', hdiscard⟩ := hjudged
    rw [hok] at hok'
    cases hok'
    exact hdiscard

/-- A deal of three with two faults: nobody leads it, and the second trick repeats the first. -/
def leaderless : Record :=
  { threeWithPartner with
    info := { threeWithPartner.info with firstLead := none }
    tricks := threeWithPartner.tricks.set 1 (Cards.standard.take 3) }

/-- Nobody leads the first trick, which comes before the second one. -/
theorem leaderless_judged :
    leaderless.replay = .error (.trick .noLeader) ∧ ¬ leaderless.WellFormed := by
  obtain ⟨_, _, herror, _⟩ := replay_judged leaderless
  exact ⟨(herror _).mpr (by decide +kernel), fun h => Bool.false_ne_true h.lead⟩

end Record

/-! ## The record of a replay -/

/-- A record names a partner only beside a taker who is another seat. -/
def DealInfo.NamesPartner (i : DealInfo) : Prop :=
  ∀ partner, i.partner = some partner → ∃ taker, i.taker = some taker ∧ taker ≠ partner

namespace Record

/-- A deal leaves the partner out of its record where the taker plays alone. -/
theorem partner_opening (i : DealInfo) :
    (if (opening i).bid.hasPartner then (opening i).bid.partner else none) = i.partner ↔
      i.NamesPartner := by
  obtain ⟨players, taker, contract, slam, lead, dog, h1, h2, partner⟩ := i
  cases taker with
  | none => cases partner <;> simp [opening, Bid.hasPartner, DealInfo.NamesPartner]
  | some t =>
    cases partner with
    | none => simp [opening, Bid.hasPartner, DealInfo.NamesPartner]
    | some p =>
      by_cases hp : t = p <;> simp [opening, Bid.hasPartner, DealInfo.NamesPartner, hp]

/-- The record of a replayed deal differs from the record that was replayed in the version and in
the partner only. -/
theorem ofState_replayed {r : Record} {d : DealState} (h : r.replay = .ok d) :
    ofState d =
      { version := currentVersion
        info :=
          { r.info with
            partner := if (opening r.info).bid.hasPartner then (opening r.info).bid.partner
              else none }
        tricks := r.tricks } := by
  have hopening := opening_of_replay h
  obtain ⟨hplayers, hbid⟩ := frame_of_replay h
  have hlead : r.info.firstLead = d.firstPlayer := congrArg DealState.firstPlayer hopening
  have hdog : r.info.dog = d.dog := congrArg DealState.dog hopening
  have hattack : r.info.attackHandle = d.attackHandle :=
    congrArg DealState.attackHandle hopening
  have hdefense : r.info.defenseHandle = d.defenseHandle :=
    congrArg DealState.defenseHandle hopening
  rw [ofState, hplayers, UInt8.ofNat_toNat, hbid, ← hlead, ← hdog, ← hattack, ← hdefense,
    cards_of_replay h]
  rfl

/-- **A record is the record of its replay exactly if it is of the current version and names no
partner without need.** -/
theorem ofState_of_replay {r : Record} {d : DealState} (h : r.replay = .ok d) :
    ofState d = r ↔ r.version = currentVersion ∧ r.info.NamesPartner := by
  rw [ofState_replayed h, ← partner_opening]
  obtain ⟨version, ⟨players, taker, contract, slam, lead, dog, h1, h2, partner⟩, tricks⟩ := r
  simp only [Record.mk.injEq, DealInfo.mk.injEq, true_and, and_true]
  exact and_congr_left' eq_comm

/-- A deal of five in the order of the deck, where the taker has a partner. -/
def fiveWithPartner : Record where
  version := currentVersion
  info :=
    { players := 5
      taker := some .south
      contract := .guardAgainst
      slam := true
      firstLead := some .fifth
      dog := Cards.standard.drop 75
      attackHandle := (Cards.standard.drop 57).take 10
      defenseHandle := []
      partner := some .west }
  tricks := (List.range 15).map fun k => (Cards.standard.drop (5 * k)).take 5

theorem fiveWithPartner_givenBack : ∃ d, fiveWithPartner.replay = .ok d
    ∧ fiveWithPartner.version = currentVersion ∧ fiveWithPartner.info.NamesPartner
    ∧ ofState d = fiveWithPartner := by
  have hpartner : fiveWithPartner.info.NamesPartner := by
    intro partner hp
    obtain rfl : Seat.west = partner := Option.some.inj hp
    exact ⟨.south, rfl, by decide⟩
  have hplay : fiveWithPartner.replay.toOption.map DealState.players = some 5 := by
    decide +kernel
  obtain ⟨d, hok, _⟩ := exists_of_map_toOption hplay
  exact ⟨d, hok, rfl, hpartner, (ofState_of_replay hok).mpr ⟨rfl, hpartner⟩⟩

end Record

end FrenchTarot
