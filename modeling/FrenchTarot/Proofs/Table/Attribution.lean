import FrenchTarot.Proofs.Deal.Plays
import FrenchTarot.Proofs.Table.Reachable

/-!
# Whose cards they are

A table moves the seat in turn on by one after every card, and gives the lead to whoever has won a
trick.  The deal knows nothing of that: it counts from the leader of a trick, who is the winner of
the trick before.  The history has what really happened, with the seat whose card was accepted.

`PlaysKept` says that the cards of the history are those of the tricks (`DealState.plays`), followed
by those of the trick in progress; each move adds a card at the end of both, or moves a whole trick
from the table to the deal.  `Reachable.attributed` reads off what that means for a single card.
-/

namespace FrenchTarot

/-- A card that an entry of the history tells of, with the seat that played it. -/
def HistoryEntry.played? (e : HistoryEntry) : Option (Seat × Card) :=
  match e.deed with
  | .card c => some (e.seat, c)
  | _ => none

namespace Table

/-- The cards that were played in the deal, oldest first, with the seats that played them. -/
def cardsPlayed (t : Table) : List (Seat × Card) := t.history.filterMap HistoryEntry.played?

theorem cardsPlayed_note (t : Table) (seat : Seat) (deed : Deed) :
    (t.note seat deed).cardsPlayed =
      t.cardsPlayed ++ (HistoryEntry.played? ⟨seat, deed, t.phase⟩).toList := by
  rw [cardsPlayed, note, List.filterMap_append]
  congr 1

/-- Anything but a card leaves the cards as they are. -/
theorem cardsPlayed_note_other (t : Table) (seat : Seat) {deed : Deed}
    (other : HistoryEntry.played? ⟨seat, deed, t.phase⟩ = none) :
    (t.note seat deed).cardsPlayed = t.cardsPlayed := by
  rw [cardsPlayed_note, other]
  exact List.append_nil _

/-- **A card that is granted to a seat joins the history as a card of that seat.** -/
theorem cardsPlayed_playCard {t t' : Table} {seat : Seat} {c : Card}
    (ok : (playCard seat c).run t = .ok () t') : t'.cardsPlayed = t.cardsPlayed ++ [(seat, c)] := by
  rw [playCard_run, check_eq_ok, check_eq_ok, check_eq_ok] at ok
  obtain ⟨_, rfl, _, ok⟩ := ok
  cases ok
  exact cardsPlayed_note t t.current (.card c)

/-! ## The cards of the history are those of the deal -/

/-- The history and the deal have the same cards from the same seats. -/
structure PlaysKept (t : Table) : Prop where
  before : t.phase.beforePlay → t.cardsPlayed = []
  during : t.phase.duringPlay → t.cardsPlayed = t.deal.plays ++ t.playedNow

/-- The deal is given up. -/
theorem PlaysKept.leave {t : Table} (idle : t.phase.inDeal = false) : t.PlaysKept := by
  obtain ⟨hbefore, hduring⟩ := Bool.or_eq_false_iff.mp idle
  refine ⟨fun hp => ?_, fun hp => ?_⟩
  · rw [hbefore] at hp
    cases hp
  · rw [hduring] at hp
    cases hp

/-- A step before the play. -/
theorem PlaysKept.stay {t t' : Table} (h : t.PlaysKept) (hp : t.phase.beforePlay)
    (hp' : t'.phase.beforePlay) (cards : t'.cardsPlayed = t.cardsPlayed) : t'.PlaysKept :=
  ⟨fun _ => cards.trans (h.before hp), fun during => absurd ⟨hp', during⟩ t'.phase.not_both⟩

/-- The play begins, with no card played and no trick won. -/
theorem PlaysKept.open {t t' : Table} (h : t.PlaysKept) (hp : t.phase.beforePlay)
    (hp' : t'.phase.duringPlay) (cards : t'.cardsPlayed = t.cardsPlayed)
    (tricks : t'.deal.tricks = []) (now : t'.playedNow = []) : t'.PlaysKept :=
  ⟨fun before => absurd ⟨before, hp'⟩ t'.phase.not_both, fun _ => by
    rw [cards, h.before hp, DealState.plays_nil tricks, now]
    rfl⟩

/-- A step of the play that plays no card and wins no trick. -/
theorem PlaysKept.goOn {t t' : Table} (h : t.PlaysKept) (hp : t.phase.duringPlay)
    (hp' : t'.phase.duringPlay) (cards : t'.cardsPlayed = t.cardsPlayed)
    (plays : t'.deal.plays = t.deal.plays) (now : t'.playedNow = t.playedNow) : t'.PlaysKept :=
  ⟨fun before => absurd ⟨before, hp'⟩ t'.phase.not_both, fun _ => by
    rw [cards, plays, now, h.during hp]⟩

theorem PlaysKept.afterCard {t : Table} (h : t.PlaysKept) (phase : t.phase = .awaitingCard)
    (c : Card) : (t.afterCard c).PlaysKept := by
  refine ⟨(fun hp => nomatch hp), fun _ => ?_⟩
  have hcards : (t.afterCard c).cardsPlayed = t.cardsPlayed ++ [(t.current, c)] :=
    cardsPlayed_note t t.current (.card c)
  have hnow : (t.afterCard c).playedNow = t.playedNow ++ [(t.current, c)] :=
    playedNow_note t t.current (.card c)
  rw [hcards, hnow, h.during (by rw [phase]; rfl), List.append_assoc]
  rfl

/-- **A trick that is won takes its cards from the table into the deal.** -/
theorem PlaysKept.afterTrick {t : Table} (h : t.PlaysKept) (hs : t.Seated) (hd : t.InPlay)
    (phase : t.phase.duringPlay) (full : t.players ≤ t.position) {deal : DealState} {winner : Seat}
    (added : t.deal.addTrick t.trick = .ok (deal, winner)) :
    (t.afterTrick deal winner).PlaysKept := by
  refine ⟨(fun hp => nomatch hp), fun _ => ?_⟩
  obtain ⟨leader, r⟩ := hd.round
  obtain ⟨_, rfl, _⟩ := hd.addTrick_leader r added
  have hcards : (t.afterTrick (t.deal.withTrick leader t.trick) winner).cardsPlayed =
      t.cardsPlayed := cardsPlayed_note_other t.gathered winner rfl
  have hnow : (t.afterTrick (t.deal.withTrick leader t.trick) winner).playedNow = [] :=
    playedNow_note _ _ _
  have hround : t.playedNow = (leader.round t.deal.players t.deal.players).zip t.trick := by
    rw [r.playedNow, Nat.le_antisymm hd.position_le full, hs.deal_players]
  have hlead : t.deal.leader? t.deal.tricks.length = some leader := by
    rw [hd.tricks_length]
    exact r.leads
  rw [hcards, hnow, h.during phase, hround]
  show _ = (t.deal.withTrick leader t.trick).plays ++ []
  rw [DealState.plays_withTrick t.trick hlead, List.append_nil]

/-- **Every move keeps the cards of the history and of the deal together.** -/
theorem Move.playsKept {t t' : Table} (hs : t.Sound) (h : t.PlaysKept) (hm : Move t t') :
    t'.PlaysKept := by
  cases hm with
  | create => exact .leave rfl
  | chooseDealer => exact { h with }
  | chooseDistribution => exact { h with }
  | getReady => exact .leave rfl
  | stop => exact .leave rfl
  | deal complete generator =>
    refine ⟨fun _ => ?_, (fun hp => nomatch hp)⟩
    unfold place
    split <;> rfl
  | bid phase =>
    exact h.stay (by rw [phase]; rfl) rfl (cardsPlayed_note_other t _ rfl)
  | askBid phase => exact h.stay (by rcases phase with hp | hp <;> rw [hp] <;> rfl) rfl rfl
  | passOut phase => exact h.stay (by rcases phase with hp | hp <;> rw [hp] <;> rfl) rfl rfl
  | askCall phase => exact h.stay (by rcases phase with hp | hp <;> rw [hp] <;> rfl) rfl rfl
  | call phase => exact h.stay (by rw [phase]; rfl) rfl (cardsPlayed_note_other t _ rfl)
  | showDog phase =>
    exact h.stay (by rcases phase with hp | hp | hp <;> rw [hp] <;> rfl) rfl rfl
  | openUnseen phase =>
    have hp : t.phase.beforePlay := by rcases phase with hp | hp | hp <;> rw [hp] <;> rfl
    exact h.open hp rfl rfl (hs.before hp).tricks (hs.before hp).playedNow
  | askDiscard phase => exact h.stay (by rw [phase]; rfl) rfl rfl
  | discard phase =>
    have hp : t.phase.beforePlay := by rw [phase]; rfl
    exact h.open hp rfl (cardsPlayed_note_other t _ rfl) (hs.before hp).tricks
      ((playedNow_note t _ _).trans (hs.before hp).playedNow)
  | askHandle phase => exact h.goOn (Phase.duringPlay_of_goesOn phase) rfl rfl rfl rfl
  | handle phase =>
    exact h.goOn (by rw [phase]; rfl) rfl (cardsPlayed_note_other t _ rfl)
      (t.deal.plays_keepHandle _ _) (playedNow_note t _ _)
  | decline phase =>
    have hp : t.phase.duringPlay := by rw [phase]; rfl
    exact h.goOn hp hp (cardsPlayed_note_other t _ rfl) rfl (playedNow_note t _ _)
  | askCard phase => exact h.goOn (Phase.duringPlay_of_goesOn phase) rfl rfl rfl rfl
  | card phase => exact h.afterCard phase _
  | winTrick phase full added =>
    have hp := Phase.duringPlay_of_goesOn phase
    exact h.afterTrick hs.toSeated (hs.during hp) hp full added
  | finish phase => exact h.goOn (by rw [phase]; rfl) rfl rfl rfl rfl

theorem Reachable.playsKept {t : Table} (h : Reachable t) : t.PlaysKept :=
  h.keep (fun _ => .leave rfl) fun _ _ hs hk hm => hm.playsKept hs hk

/-! ## Single cards -/

/-- What the history of the play says about the seats of the cards. -/
structure Attributed (t : Table) : Prop where
  /-- A card joins the history when it is granted to a seat. -/
  accepted : ∀ seat card t', (playCard seat card).run t = .ok () t' →
    t'.cardsPlayed = t.cardsPlayed ++ [(seat, card)]
  /-- The cards of the history are those of the tricks and of the trick in progress, in order. -/
  cards : t.cardsPlayed.map Prod.snd = t.deal.tricks.flatMap PlayedTrick.cards ++ t.trick
  /-- The first player leads the first trick, and the winner of a trick leads the next one. -/
  lead_first : t.deal.leader? 0 = t.deal.firstPlayer
  lead_next : ∀ turn (p : PlayedTrick), t.deal.tricks[turn]? = some p →
    t.deal.leader? (turn + 1) = some p.winner
  /-- The card in place `i` of a trick came from the seat `i` places after the leader. -/
  won : ∀ turn (p : PlayedTrick), t.deal.tricks[turn]? = some p →
    ∃ leader, t.deal.leader? turn = some leader ∧ ∀ i c, p.cards[i]? = some c →
      t.cardsPlayed[turn * t.players + i]? = some (leader.advance i t.players, c)
  /-- So it is in the trick in progress, and the seat in turn is the next one. -/
  inProgress : ∃ leader, t.deal.leader? t.tricksDone = some leader
    ∧ (∀ i c, t.trick[i]? = some c →
      t.cardsPlayed[t.tricksDone * t.players + i]? = some (leader.advance i t.players, c))
    ∧ t.current = leader.advance t.position t.players
  /-- The owner of a card is the one seat that has played it. -/
  owner : ∀ turn (p : PlayedTrick) c, t.deal.tricks[turn]? = some p → c ∈ p.cards →
    ∃ seat, t.deal.ownerOf? c turn = some seat ∧ ∀ s, (s, c) ∈ t.cardsPlayed ↔ s = seat
  /-- A trick has one card of each seat of the table. -/
  complete : ∀ turn (p : PlayedTrick), t.deal.tricks[turn]? = some p →
    (p.cards.map fun c => t.deal.ownerOf? c turn).Perm ((Seat.taken t.players).map some)

theorem InPlay.nodup_played {t : Table} (h : t.InPlay) :
    (t.deal.tricks.flatMap PlayedTrick.cards ++ t.trick).Nodup := by
  have hall := h.perm.nodup_iff.mpr Cards.nodup_standard
  have hfirst := (List.nodup_append.mp hall).1
  rw [List.append_assoc] at hfirst
  exact (List.perm_append_comm.nodup_iff).mp (List.nodup_append.mp hfirst).2.1

theorem PlaysKept.map_snd {t : Table} (h : t.PlaysKept) (hd : t.InPlay)
    (phase : t.phase.duringPlay) :
    t.cardsPlayed.map Prod.snd = t.deal.tricks.flatMap PlayedTrick.cards ++ t.trick := by
  obtain ⟨leader, r⟩ := hd.round
  rw [h.during phase, List.map_append, hd.played.map_snd_plays, r.playedNow,
    List.map_snd_zip (by rw [hd.trick_length, Seat.length_round])]

/-- **In the play, every card of the history belongs to the seat that the deal names.** -/
theorem Reachable.attributed {t : Table} (h : Reachable t) (phase : t.phase.duringPlay) :
    t.Attributed := by
  have hs := h.sound.toSeated
  have hd := h.sound.during phase
  have hk := h.playsKept.during phase
  have hcards := h.playsKept.map_snd hd phase
  obtain ⟨leader, r⟩ := hd.round
  have hnodup : ∀ p ∈ t.deal.tricks, p.cards.Nodup := fun p hp =>
    (List.nodup_flatMap.mp (List.nodup_append.mp hd.nodup_played).1).1 p hp
  have hlength : t.deal.plays.length = t.tricksDone * t.players := by
    rw [hd.played.length_plays, hd.tricks_length, hs.deal_players]
  -- An entry of the history is a card of a trick or, after those, of the trick in progress.
  have hwon : ∀ turn (p : PlayedTrick), t.deal.tricks[turn]? = some p →
      ∃ leader, t.deal.leader? turn = some leader ∧ ∀ i c, p.cards[i]? = some c →
        t.cardsPlayed[turn * t.players + i]? = some (leader.advance i t.players, c) := by
    intro turn p hp
    obtain ⟨first, hl⟩ := hd.played.exists_leader (List.getElem?_eq_some_iff.mp hp).1
    refine ⟨first, hl, fun i c hc => ?_⟩
    have hplay := hd.played.getElem?_plays hl hp hc
    rw [hs.deal_players] at hplay
    rw [hk, List.getElem?_append_left (List.getElem?_eq_some_iff.mp hplay).1, hplay]
  exact {
    accepted := fun seat card t' => cardsPlayed_playCard
    cards := hcards
    lead_first := rfl
    lead_next := fun turn p hp => by rw [DealState.leader?, hp]; rfl
    won := hwon
    inProgress := by
      refine ⟨leader, r.leads, fun i c hc => ?_, r.current⟩
      have hi := (List.getElem?_eq_some_iff.mp hc).1
      rw [hd.trick_length] at hi
      rw [hk, List.getElem?_append_right (by omega), hlength, Nat.add_sub_cancel_left, r.playedNow]
      exact List.getElem?_zip_eq_some.mpr ⟨Seat.getElem?_round hi leader, hc⟩
    owner := by
      intro turn p c hp hc
      obtain ⟨first, hl, hentries⟩ := hwon turn p hp
      obtain ⟨i, hi⟩ := List.mem_iff_getElem?.mp hc
      have howner := DealState.ownerOf?_eq hl hp (hnodup p (List.mem_of_getElem? hp)) hi
      rw [hs.deal_players] at howner
      have hmem := List.mem_of_getElem? (hentries i c hi)
      refine ⟨_, howner, fun s => ⟨fun hin => ?_, fun he => he ▸ hmem⟩⟩
      -- No card is played twice, so that there is no other entry for it.
      have hunique : (t.cardsPlayed.map Prod.snd).Nodup := hcards ▸ hd.nodup_played
      exact congrArg Prod.fst (List.inj_on_of_nodup_map hunique hin hmem rfl)
    complete := by
      intro turn p hp
      have hn : Rules.supported t.deal.players := hs.deal_players ▸ hs.supported
      rw [← hs.deal_players]
      exact DealState.map_ownerOf?_perm hn hd.played hp (hnodup p (List.mem_of_getElem? hp)) }

/-- The end of a deal that was played. -/
theorem trialEnd_attributed : trialEnd.Attributed :=
  Reachable.attributed trialEnd_reachable (by rw [trial_phases.2]; rfl)

end Table

end FrenchTarot
