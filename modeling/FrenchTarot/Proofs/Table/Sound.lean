import FrenchTarot.Proofs.Cards.Choices
import FrenchTarot.Proofs.Cards.Duties
import FrenchTarot.Proofs.Deal.Tricks
import FrenchTarot.Proofs.Table.Moves
import FrenchTarot.Record.Basic

/-!
# What holds at every table

A table is sound when its parts agree on the number of players and, as long as there is a deal on
it, the cards and the course of the deal are in order.  Before the play, hands and dog are the deck.
During the play the hands, the trick in progress, the tricks that were won and the discard are the
deck; the seats that have acted in the trick are a round that starts at the leader of the trick; and
the seats of that round are short of one card.

Between deals nothing is said about the cards: a game may be stopped or begun anew at any time, and
what is then left on the table is cleared away by the next deal.

`Move.sound` goes through the moves once.  The cases differ in what they touch, so there is one
lemma for each move that changes cards.
-/

namespace FrenchTarot

/-! ## Cards that change places -/

theorem Hands.get_set (h : Hands) (s t : Seat) (cards : Cards) :
    (h.set s cards).get t = if t = s then cards else h.get t := PerSeat.get_set _ _ _ _

@[simp] theorem Hands.get_set_self (h : Hands) (s : Seat) (cards : Cards) :
    (h.set s cards).get s = cards := by
  rw [Hands.get_set, if_pos rfl]

theorem Hands.get_set_of_ne (h : Hands) {s t : Seat} (hne : t ≠ s) (cards : Cards) :
    (h.set s cards).get t = h.get t := by
  rw [Hands.get_set, if_neg hne]

/-- **A new hand in place of an old one: the other hands stay.** -/
theorem Hands.perm_set (h : Hands) {s : Seat} {n : Nat} (hs : s.index < n) (cards : Cards) :
    ((Seat.taken n).flatMap (h.set s cards).get ++ h.get s).Perm
      ((Seat.taken n).flatMap h.get ++ cards) := by
  have hmem := Seat.mem_taken.mpr hs
  have hsplit : ∀ f : Seat → Cards, ((Seat.taken n).flatMap f).Perm
      (f s ++ ((Seat.taken n).erase s).flatMap f) := by
    intro f
    rw [← List.flatMap_cons]
    exact (List.perm_cons_erase hmem).flatMap_right f
  have hrest : ((Seat.taken n).erase s).flatMap (h.set s cards).get =
      ((Seat.taken n).erase s).flatMap h.get := by
    refine List.flatMap_congr fun t ht => Hands.get_set_of_ne h ?_ cards
    exact ((Seat.nodup_taken n).mem_erase_iff.mp ht).1
  refine ((hsplit _).append_right _).trans (.trans ?_ ((hsplit _).append_right _).symm)
  rw [hrest, Hands.get_set_self]
  refine List.perm_append_comm.trans ?_
  rw [List.append_assoc]
  exact List.Perm.append_left _ List.perm_append_comm

namespace Table

/-! ## Reading a table -/

/-- The cards of all hands of the table. -/
def held (t : Table) : Cards := (Seat.taken t.players).flatMap t.hand

theorem held_eq (t : Table) : t.held = (Seat.taken t.players).flatMap t.hands.get := rfl

/-- The cards that were set aside: the dog before the play, the discard afterwards. -/
def aside (t : Table) : Cards :=
  if t.phase.beforePlay then t.deal.dog else t.deal.discard.cards

/-- Reads one entry of the history: a card joins the trick in progress, and a trick that is won
leaves the table. -/
def followTrick (played : List (Seat × Card)) (e : HistoryEntry) : List (Seat × Card) :=
  match e.deed with
  | .card c => played ++ [(e.seat, c)]
  | .trickWon _ => []
  | _ => played

/-- Who has played to the trick in progress, and which card, as the history tells it. -/
def playedNow (t : Table) : List (Seat × Card) := t.history.foldl followTrick []

theorem playedNow_note (t : Table) (seat : Seat) (deed : Deed) :
    (t.note seat deed).playedNow = followTrick t.playedNow ⟨seat, deed, t.phase⟩ := by
  simp [playedNow, note]

/-! ## The invariants -/

/-- The parts of the table agree on the number of players. -/
structure Seated (t : Table) : Prop where
  supported : Rules.supported t.players
  deal_players : t.deal.players = t.players
  hands_players : t.hands.players = t.players

/-- A deal whose cards have been dealt and not yet been played. -/
structure BeforePlay (t : Table) : Prop where
  perm : (t.held ++ t.deal.dog).Perm Cards.standard
  hand_length : ∀ s : Seat, s.index < t.players → (t.hand s).length = Rules.handSize t.players
  hand_empty : ∀ s : Seat, t.players ≤ s.index → t.hand s = []
  current_lt : t.current.index < t.players
  bid : t.deal.bid.Seated t.players
  trick : t.trick = []
  playedNow : t.playedNow = []
  tricksDone : t.tricksDone = 0
  tricks : t.deal.tricks = []
  tricksWon : t.deal.tricksWon = 0
  attack : t.deal.attack = {}
  /-- Once the auction is over, somebody plays. -/
  taken : t.phase = .awaitingKingCall ∨ t.phase = .kingCallShown ∨ t.phase = .dogShown
    ∨ t.phase = .awaitingDiscard → t.deal.bid.contract.isTaken
  /-- A dog that is shown goes to the taker. -/
  unowned : t.phase = .dogShown ∨ t.phase = .awaitingDiscard →
    t.deal.bid.contract.dogOwner? = none

/-- The round of the trick in progress, which `leader` began. -/
structure InRound (t : Table) (leader : Seat) : Prop where
  leader_lt : leader.index < t.players
  leads : t.deal.leader? t.tricksDone = some leader
  current : t.current = leader.advance t.position t.players
  playedNow : t.playedNow = (leader.round t.position t.players).zip t.trick
  /-- A seat of the round has one card less. -/
  hand_length : ∀ s : Seat, s.index < t.players →
    (t.hand s).length + t.tricksDone + (if s ∈ leader.round t.position t.players then 1 else 0)
      = Rules.handSize t.players

/-- A deal whose cards are being played, or have been played. -/
structure InPlay (t : Table) : Prop where
  perm : (t.held ++ t.trick ++ t.deal.tricks.flatMap PlayedTrick.cards
    ++ t.deal.discard.cards).Perm Cards.standard
  hand_empty : ∀ s : Seat, t.players ≤ s.index → t.hand s = []
  bid : t.deal.bid.Seated t.players
  taken : t.deal.bid.contract.isTaken
  discard_length : t.deal.discard.cards.length = Rules.dogSize t.players
  discard_owner : t.deal.discard.owner = some (Record.discardOwner t.deal.bid.contract)
  played : t.deal.Played
  tricks_length : t.deal.tricks.length = t.tricksDone
  trick_length : t.trick.length = t.position
  position_le : t.position ≤ t.players
  round : ∃ leader, t.InRound leader
  /-- Whoever is asked has not played to the trick. -/
  more : t.phase = .awaitingHandle ∨ t.phase = .handleShown ∨ t.phase = .awaitingCard →
    t.position < t.players
  /-- Nobody has played to the next trick when one is won. -/
  between : t.phase = .trickEnded ∨ t.phase = .dealEnded → t.position = 0
  /-- There are cards to play until the last trick is won. -/
  unfinished : t.phase ≠ .trickEnded → t.phase ≠ .dealEnded →
    t.tricksDone < Rules.handSize t.players
  ended : t.phase = .dealEnded →
    t.tricksDone = Rules.handSize t.players ∧ t.points = some t.deal.result

/-- What holds at every table. -/
structure Sound (t : Table) : Prop extends Seated t where
  before : t.phase.beforePlay → t.BeforePlay
  during : t.phase.duringPlay → t.InPlay

/-! ## Dealing and bidding -/

/-- A deal changes the hands, the dog and, if it says who begins, the seats in turn. -/
theorem place_shape (t : Table) (d : Deal) : ∃ current dealer, place t d = { t with
    hands := d.hands, deal := t.deal.setDog d.dog, phase := .cardsDealt, current, dealer } := by
  unfold place
  cases d.firstPlayer with
  | none => exact ⟨t.current, t.dealer, rfl⟩
  | some first => exact ⟨first, first.previous t.players, rfl⟩

/-- Whoever is in turn after a deal sits at the table. -/
theorem place_eq (t : Table) (d : Deal) (ht : t.current.index < t.players)
    (hfirst : ∀ s, d.firstPlayer = some s → s.index < t.players) :
    ∃ current dealer : Seat, current.index < t.players ∧ place t d =
      { t with hands := d.hands, deal := t.deal.setDog d.dog, phase := .cardsDealt, current,
               dealer } := by
  unfold place
  cases hf : d.firstPlayer with
  | none => exact ⟨t.current, t.dealer, ht, rfl⟩
  | some first => exact ⟨first, first.previous t.players, hfirst first hf, rfl⟩

theorem sound_deal {t : Table} (h : t.Sound) {d : Deal} (hd : d.Complete t.players)
    (generator : Generator) : (place { cleared t with generator } d).Sound := by
  obtain ⟨current, dealer, hlt, heq⟩ := place_eq { cleared t with generator } d
    (Seat.next_lt h.supported _) hd.first_lt
  rw [heq]
  refine ⟨⟨h.supported, h.deal_players, hd.players⟩, fun _ => ?_, fun hp => nomatch hp⟩
  exact {
    perm := hd.perm
    hand_length := hd.hand_length
    hand_empty := hd.hand_empty
    current_lt := hlt
    bid := Bid.seated_none _
    trick := rfl
    playedNow := rfl
    tricksDone := rfl
    tricks := rfl
    tricksWon := rfl
    attack := rfl
    taken := fun hp => by rcases hp with hp | hp | hp | hp <;> cases hp
    unowned := fun hp => by rcases hp with hp | hp <;> cases hp }

theorem BeforePlay.afterBid {t : Table} (h : t.BeforePlay) (hn : Rules.supported t.players)
    (contract : Contract) (slam : Bool) : (t.afterBid contract slam).BeforePlay := by
  have hdeal : (t.afterBid contract slam).deal = { t.deal with
      bid := (t.deal.recordBid contract slam t.current).1.bid } := DealState.recordBid_eq _ _ _ _
  exact {
    perm := by rw [hdeal]; exact h.perm
    hand_length := h.hand_length
    hand_empty := h.hand_empty
    current_lt := Seat.next_lt hn _
    bid := DealState.recordBid_seated h.bid h.current_lt contract slam
    trick := h.trick
    playedNow := (playedNow_note _ _ _).trans h.playedNow
    tricksDone := h.tricksDone
    tricks := by rw [hdeal]; exact h.tricks
    tricksWon := by rw [hdeal]; exact h.tricksWon
    attack := by rw [hdeal]; exact h.attack
    taken := fun hp => by rcases hp with hp | hp | hp | hp <;> cases hp
    unowned := fun hp => by rcases hp with hp | hp <;> cases hp }

/-- Whoever is found with a card sits at the table. -/
theorem calledPartner_lt {t : Table} (h : t.Seated) {taker : Seat} {card : Card} {s : Seat}
    (hs : t.calledPartner taker card = some s) : s.index < t.players := by
  obtain ⟨hfound, _⟩ := Option.filter_eq_some_iff.mp hs
  rw [← h.hands_players]
  exact Seat.mem_taken.mp (List.mem_of_find?_eq_some hfound)

theorem BeforePlay.setPartner {t : Table} (h : t.BeforePlay) (ht : t.deal.bid.contract.isTaken)
    {partner : Option Seat} (hp : ∀ s, partner = some s → s.index < t.players) :
    BeforePlay { t with deal := t.deal.setPartner partner } :=
  { h with bid := DealState.setPartner_seated h.bid hp ht }

/-! ## The play begins -/

/-- The first lead is with a seat of the table. -/
theorem openingLeader_lt {t : Table} (hn : Rules.supported t.players)
    (hb : t.deal.bid.Seated t.players) : t.openingLeader.index < t.players := by
  unfold openingLeader
  split
  · rename_i taker _ htaker
    by_cases ht : t.deal.bid.contract.isTaken
    · obtain ⟨taker', _, htaker', hlt, _⟩ := hb.taken ht
      rw [htaker] at htaker'
      cases htaker'
      exact hlt
    · rw [(hb.untaken (by simpa using ht)).1] at htaker
      cases htaker
  · exact Seat.next_lt hn _

/-- **With a discard set aside and full hands, the play can begin.** -/
theorem BeforePlay.opened {t : Table} (h : t.BeforePlay) (hs : t.Seated)
    (taken : t.deal.bid.contract.isTaken) {hands : Hands} {discard : Cards}
    {history : List HistoryEntry}
    (perm : ((Seat.taken t.players).flatMap hands.get ++ discard).Perm Cards.standard)
    (hand_length : ∀ s : Seat, s.index < t.players →
      (hands.get s).length = Rules.handSize t.players)
    (hand_empty : ∀ s : Seat, t.players ≤ s.index → hands.get s = [])
    (discard_length : discard.length = Rules.dogSize t.players)
    (playedNow : history.foldl followTrick [] = []) :
    InPlay (Table.opened { t with
      hands, history
      deal := t.deal.setDiscard discard (Record.discardOwner t.deal.bid.contract) }) := by
  have hlt : t.openingLeader.index < t.players := openingLeader_lt hs.supported h.bid
  exact {
    perm := by
      -- No trick has been played yet, so that hands and discard are all there is.
      show ((Seat.taken t.players).flatMap hands.get ++ t.trick
        ++ t.deal.tricks.flatMap PlayedTrick.cards ++ discard).Perm Cards.standard
      rw [h.trick, h.tricks, List.flatMap_nil, List.append_nil, List.append_nil]
      exact perm
    hand_empty := hand_empty
    bid := h.bid
    taken := taken
    discard_length := discard_length
    discard_owner := rfl
    played := .opening h.tricks h.tricksWon h.attack
    tricks_length := congrArg List.length h.tricks
    trick_length := congrArg List.length h.trick
    position_le := Nat.zero_le _
    round := ⟨t.openingLeader, {
      leader_lt := hlt
      leads := rfl
      current := (Seat.advance_zero hs.supported hlt).symm
      playedNow := playedNow
      hand_length := by
        intro s hs
        show (hands.get s).length + 0 + (if s ∈ ([] : List Seat) then 1 else 0) = _
        rw [if_neg List.not_mem_nil]
        exact hand_length s hs }⟩
    more := fun hp => by rcases hp with hp | hp | hp <;> cases hp
    between := fun hp => by rcases hp with hp | hp <;> cases hp
    unfinished := fun _ _ => Rules.handSize_pos hs.supported
    ended := fun hp => nomatch hp }

theorem BeforePlay.dog_length {t : Table} (h : t.BeforePlay) (hn : Rules.supported t.players) :
    t.deal.dog.length = Rules.dogSize t.players := by
  have hlen := h.perm.length_eq
  rw [List.length_append, Cards.length_standard, held,
    Hands.length_flatMap_taken hn fun s hs => h.hand_length s (Seat.mem_taken.mp hs)] at hlen
  have := Rules.hands_and_dog hn
  omega

/-- The dog goes to its owner unseen. -/
theorem BeforePlay.openUnseen {t : Table} (h : t.BeforePlay) (hs : t.Seated)
    (taken : t.deal.bid.contract.isTaken) {owner : Team}
    (owned : t.deal.bid.contract.dogOwner? = some owner) :
    (Table.opened { t with deal := t.deal.setDiscard t.deal.dog owner }).InPlay := by
  have howner : owner = Record.discardOwner t.deal.bid.contract := by
    revert owned
    cases t.deal.bid.contract <;> intro owned <;> cases owned <;> rfl
  rw [howner]
  exact h.opened hs taken h.perm h.hand_length h.hand_empty (h.dog_length hs.supported)
    h.playedNow

theorem BeforePlay.nodup {t : Table} (h : t.BeforePlay) : (t.held ++ t.deal.dog).Nodup :=
  h.perm.nodup_iff.mpr Cards.nodup_standard

theorem hand_subset_held {t : Table} {s : Seat} (hs : s.index < t.players) :
    ∀ c ∈ t.hand s, c ∈ t.held :=
  fun _ hc => List.mem_flatMap.mpr ⟨s, Seat.mem_taken.mpr hs, hc⟩

theorem nodup_hand {t : Table} (h : t.held.Nodup) {s : Seat} (hs : s.index < t.players) :
    (t.hand s).Nodup := (List.nodup_flatMap.mp h).1 s (Seat.mem_taken.mpr hs)

/-- Hand and dog of a seat have no card twice. -/
theorem BeforePlay.nodup_hand_dog {t : Table} (h : t.BeforePlay) {s : Seat}
    (hs : s.index < t.players) : (t.hand s ++ t.deal.dog).Nodup := by
  obtain ⟨hheld, hdog, hdisj⟩ := List.nodup_append.mp h.nodup
  refine List.nodup_append.mpr ⟨nodup_hand hheld hs, hdog, fun c hc => ?_⟩
  exact hdisj c (hand_subset_held hs c hc)

/-- **The taker takes the dog and sets as many cards aside.** -/
theorem BeforePlay.exchanged {t : Table} (h : t.BeforePlay) (hs : t.Seated)
    (taken : t.deal.bid.contract.isTaken) (unowned : t.deal.bid.contract.dogOwner? = none)
    {taker : Seat} (htaker : taker.index < t.players) {discard : Cards}
    (allowed : (t.hand taker).isDiscard t.deal.dog discard t.players) :
    (t.exchanged taker discard).opened.InPlay := by
  obtain ⟨hlen, hnodup, hmem, _⟩ := Cards.isDiscard_iff.mp allowed
  have hperm := Cards.perm_append_takeOut (h.nodup_hand_dog htaker) hnodup hmem
  have howner : Team.attack = Record.discardOwner t.deal.bid.contract := by
    revert unowned
    cases t.deal.bid.contract <;> intro unowned <;> first | rfl | cases unowned
  have heq : (t.exchanged taker discard) = { t with
      hands := t.hands.set taker (Cards.takeOut (t.hand taker ++ t.deal.dog) discard).1
      history := t.history ++ [⟨taker, .discard discard, t.phase⟩]
      deal := t.deal.setDiscard discard (Record.discardOwner t.deal.bid.contract) } := by
    rw [← howner]
    rfl
  rw [heq]
  refine h.opened hs taken ?_ ?_ ?_ hlen ?_
  · -- Hand and dog together are the new hand and the discard, so every count stays.
    refine List.perm_iff_count.mpr fun c => ?_
    have hset := (t.hands.perm_set htaker
      (Cards.takeOut (t.hand taker ++ t.deal.dog) discard).1).count_eq c
    have hexchange := hperm.count_eq c
    have hdeck := h.perm.count_eq c
    simp only [List.count_append, held_eq, hand] at hset hexchange hdeck ⊢
    omega
  · intro s hlt
    by_cases hst : s = taker
    · subst hst
      rw [Hands.get_set_self]
      have := hperm.length_eq
      rw [List.length_append, List.length_append, h.hand_length s hlt,
        h.dog_length hs.supported] at this
      omega
    · rw [Hands.get_set_of_ne _ hst]
      exact h.hand_length s hlt
  · intro s hlt
    rw [Hands.get_set_of_ne _ (by rintro rfl; omega)]
    exact h.hand_empty s hlt
  · rw [List.foldl_append]
    exact h.playedNow

/-! ## Cards and tricks -/

theorem InPlay.nodup_held {t : Table} (h : t.InPlay) : t.held.Nodup := by
  have hall := h.perm.nodup_iff.mpr Cards.nodup_standard
  rw [List.append_assoc, List.append_assoc] at hall
  exact (List.nodup_append.mp hall).1

/-- Whoever is asked for a card sits at the table and has not played to the trick. -/
theorem InRound.current_turn {t : Table} {leader : Seat} (r : t.InRound leader)
    (hn : Rules.supported t.players) (hmore : t.position < t.players) :
    t.current.index < t.players ∧ t.current ∉ leader.round t.position t.players := by
  rw [r.current]
  exact ⟨Seat.advance_lt hn _ _, Seat.advance_not_mem_round hn hmore leader⟩

/-- **The card that is played leaves the hand for the trick.** -/
theorem InPlay.afterCard {t : Table} (h : t.InPlay) (hs : t.Seated)
    (phase : t.phase = .awaitingCard) {c : Card}
    (allowed : (t.hand t.current).canPlay t.trick c) : (t.afterCard c).InPlay := by
  obtain ⟨leader, r⟩ := h.round
  have hmore := h.more (Or.inr (Or.inr phase))
  obtain ⟨hcur, hnot⟩ := r.current_turn hs.supported hmore
  have hplayed := Cards.perm_cons_remove (nodup_hand h.nodup_held hcur)
    (Cards.mem_of_canPlay allowed)
  have hplayed_length := hplayed.length_eq
  rw [List.length_cons] at hplayed_length
  exact {
    perm := by
      -- The card is counted once on either side: in the hand before, in the trick afterwards.
      refine List.perm_iff_count.mpr fun x => ?_
      have hset := (t.hands.perm_set hcur ((t.hand t.current).remove c)).count_eq x
      have hcard := hplayed.count_eq x
      have hdeck := h.perm.count_eq x
      show List.count x ((Seat.taken t.players).flatMap
          (t.hands.set t.current ((t.hand t.current).remove c)).get ++ (t.trick ++ [c])
        ++ t.deal.tricks.flatMap PlayedTrick.cards ++ t.deal.discard.cards) = _
      rw [← List.singleton_append] at hcard
      simp only [List.count_append, held_eq, hand] at hset hcard hdeck ⊢
      omega
    hand_empty := by
      intro s (hlt : t.players ≤ s.index)
      show (t.hands.set t.current _).get s = []
      rw [Hands.get_set_of_ne _ (by rintro rfl; omega)]
      exact h.hand_empty s hlt
    bid := h.bid
    taken := h.taken
    discard_length := h.discard_length
    discard_owner := h.discard_owner
    played := h.played
    tricks_length := h.tricks_length
    trick_length := by
      show (t.trick ++ [c]).length = t.position + 1
      rw [List.length_append, h.trick_length]
      rfl
    position_le := hmore
    round := ⟨leader, {
      leader_lt := r.leader_lt
      leads := r.leads
      current := by
        show t.current.next t.players = leader.advance (t.position + 1) t.players
        rw [r.current, Seat.next_advance hs.supported]
      playedNow := by
        show Table.playedNow (t.note t.current (.card c)) = _
        rw [playedNow_note, r.playedNow, r.current]
        show _ = (leader.round (t.position + 1) t.players).zip (t.trick ++ [c])
        rw [Seat.round_succ, List.zip_append (by rw [Seat.length_round, h.trick_length])]
        rfl
      hand_length := by
        intro s hlt
        show ((t.hands.set t.current _).get s).length + t.tricksDone
          + (if s ∈ leader.round (t.position + 1) t.players then 1 else 0)
            = Rules.handSize t.players
        -- The seat in turn loses a card and joins the round; the others do neither.
        have hbefore := r.hand_length s hlt
        rw [Seat.round_succ, ← r.current]
        by_cases hst : s = t.current
        · subst hst
          rw [if_neg hnot] at hbefore
          rw [Hands.get_set_self, if_pos (by simp)]
          omega
        · rw [Hands.get_set_of_ne _ hst]
          simpa [hst, hand] using hbefore }⟩
    more := fun hp => by rcases hp with hp | hp | hp <;> cases hp
    between := fun hp => by rcases hp with hp | hp <;> cases hp
    unfinished := fun _ _ => h.unfinished (by rw [phase]; decide) (by rw [phase]; decide)
    ended := fun hp => nomatch hp }

/-- The trick in progress is led by the seat that the deal knows. -/
theorem InPlay.addTrick_leader {t : Table} (h : t.InPlay) {leader : Seat} (r : t.InRound leader)
    {deal : DealState} {winner : Seat} (added : t.deal.addTrick t.trick = .ok (deal, winner)) :
    t.deal.tricks.length < Rules.handSize t.deal.players
      ∧ deal = t.deal.withTrick leader t.trick ∧ winner = (t.deal.resolve leader t.trick).1 := by
  obtain ⟨_, hover, leader', hleader, rfl, rfl⟩ := DealState.addTrick_eq_ok.mp added
  rw [h.tricks_length, r.leads] at hleader
  cases hleader
  exact ⟨hover, rfl, rfl⟩

/-- **A trick that is won leaves the table for the deal, and its winner leads the next one.** -/
theorem InPlay.afterTrick {t : Table} (h : t.InPlay) (hs : t.Seated)
    (full : t.players ≤ t.position) {deal : DealState} {winner : Seat}
    (added : t.deal.addTrick t.trick = .ok (deal, winner)) :
    (t.afterTrick deal winner).InPlay := by
  obtain ⟨leader, r⟩ := h.round
  obtain ⟨hover, rfl, rfl⟩ := h.addTrick_leader r added
  have hall : t.position = t.players := Nat.le_antisymm h.position_le full
  have hwinner := DealState.resolve_fst_lt (d := t.deal) (hs.deal_players ▸ hs.supported)
    (hs.deal_players ▸ r.leader_lt) t.trick
  rw [hs.deal_players] at hwinner
  exact {
    perm := by
      show (t.held ++ [] ++ (t.deal.withTrick leader t.trick).tricks.flatMap PlayedTrick.cards
        ++ t.deal.discard.cards).Perm Cards.standard
      -- The cards of the trick only move from the table to the tricks of the deal.
      refine List.Perm.trans (List.perm_iff_count.mpr fun x => ?_) h.perm
      rw [DealState.withTrick_tricks, List.flatMap_append, List.flatMap_singleton]
      simp only [List.count_append, List.count_nil]
      omega
    hand_empty := h.hand_empty
    bid := h.bid
    taken := h.taken
    discard_length := h.discard_length
    discard_owner := h.discard_owner
    played := h.played.trick added
    tricks_length := by
      show (t.deal.withTrick leader t.trick).tricks.length = t.tricksDone + 1
      rw [DealState.withTrick_tricks, List.length_append, h.tricks_length]
      rfl
    trick_length := rfl
    position_le := Nat.zero_le _
    round := ⟨(t.deal.resolve leader t.trick).1, {
      leader_lt := hwinner
      leads := by
        show (t.deal.withTrick leader t.trick).leader? (t.tricksDone + 1) = _
        rw [← h.tricks_length, DealState.leader?_withTrick]
      current := (Seat.advance_zero hs.supported hwinner).symm
      playedNow := playedNow_note _ _ _
      hand_length := by
        intro s (hlt : s.index < t.players)
        show (t.hand s).length + (t.tricksDone + 1) + (if s ∈ ([] : List Seat) then 1 else 0)
          = Rules.handSize t.players
        -- All seats had played, and nobody has played to the next trick.
        have hbefore := r.hand_length s hlt
        rw [hall, if_pos ((Seat.mem_round_self hs.supported).mpr hlt)] at hbefore
        rw [if_neg List.not_mem_nil]
        omega }⟩
    more := fun hp => by rcases hp with hp | hp | hp <;> cases hp
    between := fun _ => rfl
    unfinished := fun hp => absurd rfl hp
    ended := fun hp => nomatch hp }

/-! ## Every move -/

/-- The play goes on to another question; the cards stay where they are. -/
theorem InPlay.goOn {t : Table} (h : t.InPlay) {phase : Phase} (handleAsked : PerSeat Bool)
    (hphase : phase = .awaitingHandle ∨ phase = .awaitingCard)
    (more : t.position < t.players) (unfinished : t.tricksDone < Rules.handSize t.players) :
    InPlay { t with phase, handleAsked } := by
  obtain ⟨leader, r⟩ := h.round
  exact { h with
    round := ⟨leader, { r with }⟩
    more := fun _ => more
    between := fun hp => by rcases hphase with rfl | rfl <;> rcases hp with hp | hp <;> cases hp
    unfinished := fun _ _ => unfinished
    ended := fun hp => by rcases hphase with rfl | rfl <;> cases hp }

/-- The phase of the auction changes; the cards stay where they are. -/
theorem BeforePlay.turnTo {t : Table} (h : t.BeforePlay) (phase : Phase) (position : Nat)
    (taken : phase = .awaitingKingCall ∨ phase = .dogShown ∨ phase = .awaitingDiscard →
      t.deal.bid.contract.isTaken)
    (unowned : phase = .dogShown ∨ phase = .awaitingDiscard →
      t.deal.bid.contract.dogOwner? = none) (hcall : phase ≠ .kingCallShown) :
    BeforePlay { t with phase, position } :=
  { h with
    taken := fun hp => taken (by
      rcases hp with hp | hp | hp | hp
      · exact Or.inl hp
      · exact absurd hp hcall
      · exact Or.inr (Or.inl hp)
      · exact Or.inr (Or.inr hp))
    unowned := unowned }

/-- The play goes on with a note in the history about anything but a card or a trick. -/
theorem InPlay.noted {t : Table} (h : t.InPlay) {history : List HistoryEntry}
    (playedNow : history.foldl followTrick [] = t.playedNow) : InPlay { t with history } := by
  obtain ⟨leader, r⟩ := h.round
  exact { h with round := ⟨leader, { r with playedNow := playedNow.trans r.playedNow }⟩ }

theorem InPlay.afterHandle {t : Table} (h : t.InPlay) (phase : t.phase = .awaitingHandle)
    (handle : Cards) : (t.afterHandle handle).InPlay := by
  obtain ⟨leader, r⟩ := h.round
  obtain ⟨attackHandle, defenseHandle, heq⟩ := t.deal.keepHandle_eq handle t.current
  have ht : t.afterHandle handle = { t.note t.current (.handle handle) with
      deal := t.deal.reset t.deal.dog t.deal.discard attackHandle defenseHandle
      phase := .handleShown } := by
    rw [Table.afterHandle, heq]
  rw [ht]
  exact { h with
    played := h.played.frame _ _ _ _
    round := ⟨leader, { r with playedNow := (playedNow_note _ _ _).trans r.playedNow }⟩
    more := fun _ => h.more (Or.inl phase)
    between := fun hp => by rcases hp with hp | hp <;> cases hp
    unfinished := fun _ _ => h.unfinished (by rw [phase]; decide) (by rw [phase]; decide)
    ended := fun hp => nomatch hp }

theorem InPlay.counted {t : Table} (h : t.InPlay) (hs : t.Seated) (phase : t.phase = .trickEnded)
    (played : Rules.handSize t.players ≤ t.tricksDone) : t.counted.InPlay := by
  obtain ⟨leader, r⟩ := h.round
  have hle := h.played.length_le
  rw [h.tricks_length, hs.deal_players] at hle
  exact { h with
    round := ⟨leader, { r with }⟩
    more := fun hp => by rcases hp with hp | hp | hp <;> cases hp
    between := fun _ => h.between (Or.inl phase)
    unfinished := fun _ hp => absurd rfl hp
    ended := fun _ => ⟨Nat.le_antisymm hle played, rfl⟩ }

/-- A table on which there is no deal that counts. -/
theorem Seated.sound_of_idle {t : Table} (h : t.Seated) (idle : t.phase.inDeal = false) :
    t.Sound := by
  obtain ⟨hbefore, hduring⟩ := Bool.or_eq_false_iff.mp idle
  refine ⟨h, fun hp => ?_, fun hp => ?_⟩
  · rw [hbefore] at hp
    cases hp
  · rw [hduring] at hp
    cases hp

theorem Seated.sound_of_before {t : Table} (h : t.Seated) (hb : t.BeforePlay)
    (before : t.phase.beforePlay) : t.Sound :=
  ⟨h, fun _ => hb, fun during => absurd ⟨before, during⟩ t.phase.not_both⟩

theorem Seated.sound_of_during {t : Table} (h : t.Seated) (hd : t.InPlay)
    (during : t.phase.duringPlay) : t.Sound :=
  ⟨h, fun before => absurd ⟨before, during⟩ t.phase.not_both, fun _ => hd⟩

/-- What is chosen for the next deal does not touch the one on the table. -/
theorem Sound.choose {t : Table} (h : t.Sound) (dealer : Seat) (distribution : Distribution) :
    Sound { t with dealer, distribution } := by
  refine ⟨⟨h.supported, h.deal_players, h.hands_players⟩, fun hp => ?_, fun hp => ?_⟩
  · exact { h.before hp with }
  · obtain ⟨leader, r⟩ := (h.during hp).round
    exact { h.during hp with round := ⟨leader, { r with }⟩ }

/-- **Every move leads from a sound table to a sound one.** -/
theorem Move.sound {t t' : Table} (h : t.Sound) (hm : Move t t') : t'.Sound := by
  have hs := h.toSeated
  cases hm with
  | create supported dealer generator =>
      exact Seated.sound_of_idle ⟨supported, rfl, rfl⟩ rfl
  | chooseDealer dealer => exact h.choose dealer t.distribution
  | chooseDistribution distribution => exact h.choose t.dealer distribution
  | getReady =>
      exact Seated.sound_of_idle ⟨hs.supported, hs.deal_players, hs.hands_players⟩ rfl
  | stop =>
      exact Seated.sound_of_idle ⟨hs.supported, hs.deal_players, hs.hands_players⟩ rfl
  | deal complete generator => exact sound_deal h (complete hs.supported) generator
  | bid phase contract slam =>
      have hb := h.before (by rw [phase]; rfl)
      refine Seated.sound_of_before ⟨hs.supported, ?_, hs.hands_players⟩
        (hb.afterBid hs.supported contract slam) rfl
      show (t.deal.recordBid contract slam t.current).1.players = t.players
      rw [DealState.recordBid_eq]
      exact hs.deal_players
  | askBid phase more =>
      have hb := h.before (by rcases phase with hp | hp <;> rw [hp] <;> rfl)
      exact Seated.sound_of_before ⟨hs.supported, hs.deal_players, hs.hands_players⟩
        (hb.turnTo .awaitingBid t.position (by simp) (by simp) (by simp)) rfl
  | passOut phase ended untaken =>
      have hb := h.before (by rcases phase with hp | hp <;> rw [hp] <;> rfl)
      exact Seated.sound_of_before ⟨hs.supported, hs.deal_players, hs.hands_players⟩
        (hb.turnTo .allPassed 0 (by simp) (by simp) (by simp)) rfl
  | askCall phase taken five position =>
      have hb := h.before (by rcases phase with hp | hp <;> rw [hp] <;> rfl)
      have hp : BeforePlay { t with deal := t.deal.setPartner none } :=
        hb.setPartner taken (by simp)
      exact Seated.sound_of_before ⟨hs.supported, hs.deal_players, hs.hands_players⟩
        (hp.turnTo .awaitingKingCall position (fun _ => taken) (by simp) (by simp)) rfl
  | call phase isTaker callable =>
      rename_i taker card
      have hb := h.before (by rw [phase]; rfl)
      have taken := hb.taken (Or.inl phase)
      have hp : BeforePlay { t with deal := t.deal.setPartner (t.calledPartner taker card) } :=
        hb.setPartner taken fun s hcalled => calledPartner_lt hs hcalled
      refine Seated.sound_of_before ⟨hs.supported, hs.deal_players, hs.hands_players⟩ ?_ rfl
      exact { hp with
        playedNow := (playedNow_note _ _ _).trans hb.playedNow
        taken := fun _ => taken
        unowned := fun hp => by rcases hp with hp | hp <;> cases hp }
  | showDog phase taken unowned position =>
      have hb := h.before (by rcases phase with hp | hp | hp <;> rw [hp] <;> rfl)
      exact Seated.sound_of_before ⟨hs.supported, hs.deal_players, hs.hands_players⟩
        (hb.turnTo .dogShown position (fun _ => taken) (fun _ => unowned) (by simp)) rfl
  | openUnseen phase taken owned =>
      have hb := h.before (by rcases phase with hp | hp | hp <;> rw [hp] <;> rfl)
      exact Seated.sound_of_during ⟨hs.supported, hs.deal_players, hs.hands_players⟩
        (hb.openUnseen hs taken owned) rfl
  | askDiscard phase =>
      have hb := h.before (by rw [phase]; rfl)
      have taken := hb.taken (by simp [phase])
      have unowned := hb.unowned (by simp [phase])
      exact Seated.sound_of_before ⟨hs.supported, hs.deal_players, hs.hands_players⟩
        (hb.turnTo .awaitingDiscard t.position (fun _ => taken) (fun _ => unowned) (by simp)) rfl
  | discard phase isTaker allowed =>
      have hb := h.before (by rw [phase]; rfl)
      have taken := hb.taken (by simp [phase])
      obtain ⟨taker', _, htaker, hlt, _⟩ := hb.bid.taken taken
      rw [isTaker] at htaker
      cases htaker
      exact Seated.sound_of_during ⟨hs.supported, hs.deal_players, hs.hands_players⟩
        (hb.exchanged hs taken (hb.unowned (by simp [phase])) hlt allowed) rfl
  | askHandle phase more first unasked =>
      have hd := h.during (Phase.duringPlay_of_goesOn phase)
      have unfinished : t.tricksDone < Rules.handSize t.players := by
        rw [first]
        exact Rules.handSize_pos hs.supported
      exact Seated.sound_of_during ⟨hs.supported, hs.deal_players, hs.hands_players⟩
        (hd.goOn _ (Or.inl rfl) more unfinished) rfl
  | handle phase allowed =>
      have hd := h.during (by rw [phase]; rfl)
      refine Seated.sound_of_during ⟨hs.supported, ?_, hs.hands_players⟩
        (hd.afterHandle phase _) rfl
      obtain ⟨_, _, heq⟩ := t.deal.keepHandle_eq _ t.current
      exact (congrArg DealState.players heq).trans hs.deal_players
  | decline phase =>
      -- The refusal is only noted here; that the play goes on is a move of its own.
      have during : t.phase.duringPlay := by rw [phase]; rfl
      exact Seated.sound_of_during ⟨hs.supported, hs.deal_players, hs.hands_players⟩
        ((h.during during).noted (playedNow_note t t.current .noHandle)) during
  | askCard phase more unfinished =>
      have hd := h.during (Phase.duringPlay_of_goesOn phase)
      refine Seated.sound_of_during ⟨hs.supported, hs.deal_players, hs.hands_players⟩
        (hd.goOn t.handleAsked (Or.inr rfl) more ?_) rfl
      -- Only after a trick it has to be known that it was not the last one.
      by_cases hp : t.phase = .trickEnded
      · exact unfinished hp
      · exact hd.unfinished hp (by intro he; rw [he] at phase; cases phase)
  | card phase allowed =>
      exact Seated.sound_of_during ⟨hs.supported, hs.deal_players, hs.hands_players⟩
        ((h.during (by rw [phase]; rfl)).afterCard hs phase allowed) rfl
  | winTrick phase full added =>
      have hd := h.during (Phase.duringPlay_of_goesOn phase)
      refine Seated.sound_of_during ⟨hs.supported, ?_, hs.hands_players⟩
        (hd.afterTrick hs full added) rfl
      obtain ⟨_, _, _, _, rfl, _⟩ := DealState.addTrick_eq_ok.mp added
      exact hs.deal_players
  | finish phase played =>
      exact Seated.sound_of_during ⟨hs.supported, hs.deal_players, hs.hands_players⟩
        ((h.during (by rw [phase]; rfl)).counted hs phase played) rfl

end Table

end FrenchTarot
