import FrenchTarot.Proofs.Table.Attribution

/-!
# Where the called card goes

At a table of five the taker calls a card before the dog is seen.  If another seat holds it, that
seat is the partner; otherwise the taker plays alone, with the card in the own hand or in the dog.

`CallTraced` follows the card from there to the end of the deal.  A partner's card stays in the
partner's hand until it is played, since only the taker exchanges cards.  The taker may take the
card up with the dog, and set it aside again if it is no king.  So at the end of the deal, when the
hands are empty, the partner has played the card, or else the taker has played it or set it aside.

At the smaller tables nobody is called, and the partner that the auction sets is the taker.
-/

namespace FrenchTarot

namespace Phase

/-- A deal that somebody plays, after the card has been called where one is called. -/
def afterCall : Phase → Bool
  | kingCallShown | dogShown | awaitingDiscard => true
  | p => p.duringPlay

theorem afterCall_of_duringPlay {p : Phase} : p.duringPlay → p.afterCall := by
  cases p <;> decide

end Phase

/-- In lists without repetitions, one after the other, an element is in one list only. -/
theorem index_unique {α β : Type} {f : α → List β} {l : List α} (nodup : (l.flatMap f).Nodup)
    {i j : Nat} {a a' : α} (hi : l[i]? = some a) (hj : l[j]? = some a') {b : β} (hb : b ∈ f a)
    (hb' : b ∈ f a') : i = j := by
  obtain ⟨hilt, rfl⟩ := List.getElem?_eq_some_iff.mp hi
  obtain ⟨hjlt, rfl⟩ := List.getElem?_eq_some_iff.mp hj
  have hapart := List.pairwise_iff_getElem.mp (List.nodup_flatMap.mp nodup).2
  by_contra hne
  rcases Nat.lt_or_gt_of_ne hne with hbefore | hafter
  · exact hapart i j hilt hjlt hbefore hb hb'
  · exact hapart j i hjlt hilt hafter hb' hb

/-- Only cards of the deck may be called. -/
theorem Cards.valid_of_canCall {stats : Statistics} {card : Card} (h : canCall stats card) :
    card.valid := by
  obtain ⟨rank, suit⟩ := card
  simp only [canCall, Bool.and_eq_true] at h
  obtain ⟨hsuit, hrank⟩ := h
  -- The rank is that of an honour.
  have hhonour : rank = Rank.king ∨ rank = Rank.queen ∨ rank = Rank.knight ∨ rank = Rank.jack := by
    simp only [callableRank, Bool.or_eq_true, Bool.and_eq_true, decide_eq_true_eq] at hrank
    tauto
  rcases hhonour with rfl | rfl | rfl | rfl <;> cases suit <;> simp_all [Card.valid] <;> decide

/-- The taker plays without a partner, if somebody plays. -/
def Bid.Alone (b : Bid) : Prop :=
  b.contract.isTaken → ∃ taker, b.taker = some taker ∧ b.partner = some taker

namespace DealState

/-- Whoever bids is the partner as well. -/
theorem recordBid_alone {d : DealState} (h : d.bid.Alone) (contract : Contract) (slam : Bool)
    (seat : Seat) : (d.recordBid contract slam seat).1.bid.Alone := by
  unfold recordBid
  split
  · exact fun taken => ⟨seat, if_pos taken, if_pos taken⟩
  · exact h

/-- The card lies in one trick and in no other, and there it came from the seat. -/
def PlayedBy (d : DealState) (card : Card) (s : Seat) : Prop :=
  ∃ turn, d.ownerOf? card turn = some s
    ∧ ∀ k, (∃ p, d.tricks[k]? = some p ∧ card ∈ p.cards) ↔ k = turn

/-- **What is in the list of plays was played by that seat, once.** -/
theorem playedBy_of_mem_plays {d : DealState} (h : d.Played)
    (nodup : (d.tricks.flatMap PlayedTrick.cards).Nodup) {s : Seat} {card : Card}
    (hmem : (s, card) ∈ d.plays) : d.PlayedBy card s := by
  obtain ⟨turn, hturn, hplay⟩ := List.mem_flatMap.mp hmem
  rw [List.mem_range] at hturn
  obtain ⟨leader, hl⟩ := h.exists_leader hturn
  have hp : d.tricks[turn]? = some d.tricks[turn] := List.getElem?_eq_getElem hturn
  rw [playsOf_eq hl hp] at hplay
  obtain ⟨i, hi⟩ := List.mem_iff_getElem?.mp hplay
  obtain ⟨hseat, hcard⟩ := List.getElem?_zip_eq_some.mp hi
  have hcards := (List.nodup_flatMap.mp nodup).1
  have hi : i < d.players := by
    rw [← Seat.length_round leader d.players d.players]
    exact (List.getElem?_eq_some_iff.mp hseat).1
  rw [Seat.getElem?_round hi] at hseat
  cases hseat
  have hin := List.mem_of_getElem? hcard
  refine ⟨turn, ownerOf?_eq hl hp (hcards _ (List.getElem_mem hturn)) hcard, fun k => ?_⟩
  exact ⟨fun ⟨p, hk, hin'⟩ => index_unique nodup hk hp hin' hin, fun hk => ⟨_, hk ▸ hp, hin⟩⟩

end DealState

namespace Table

/-! ## Whom a call finds -/

/-- Two seats have no card in common. -/
theorem seat_unique {t : Table} (h : t.held.Nodup) {s s' : Seat} (hs : s.index < t.players)
    (hs' : s'.index < t.players) {c : Card} (hc : c ∈ t.hand s) (hc' : c ∈ t.hand s') : s = s' := by
  obtain ⟨i, hi⟩ := List.mem_iff_getElem?.mp (Seat.mem_taken.mpr hs)
  obtain ⟨j, hj⟩ := List.mem_iff_getElem?.mp (Seat.mem_taken.mpr hs')
  cases index_unique h hi hj hc hc'
  exact Option.some.inj (hi.symm.trans hj)

theorem BeforePlay.hand_lt {t : Table} (h : t.BeforePlay) {s : Seat} {c : Card}
    (hc : c ∈ t.hand s) : s.index < t.players := by
  by_contra hout
  rw [h.hand_empty s (Nat.not_lt.mp hout)] at hc
  cases hc

/-- **A card is found with the seat that holds it.** -/
theorem BeforePlay.locate?_eq_some_iff {t : Table} (h : t.BeforePlay) (hs : t.Seated) {c : Card}
    {s : Seat} : t.hands.locate? c = some s ↔ c ∈ t.hand s := by
  have hholds {s} (hfound : t.hands.locate? c = some s) : c ∈ t.hand s := by
    have htest := List.find?_some hfound
    exact of_decide_eq_true htest
  refine ⟨hholds, fun hc => ?_⟩
  have hmem : s ∈ t.hands.seats := Seat.mem_taken.mpr (hs.hands_players ▸ h.hand_lt hc)
  obtain ⟨holder, hfound⟩ : ∃ holder, t.hands.locate? c = some holder :=
    Option.isSome_iff_exists.mp (List.find?_isSome.mpr ⟨s, hmem, decide_eq_true hc⟩)
  have hheld : t.held.Nodup := (List.nodup_append.mp h.nodup).1
  have hholder := hholds hfound
  rw [hfound, seat_unique hheld (h.hand_lt hholder) (h.hand_lt hc) hholder hc]

/-- What nobody holds is in the dog. -/
theorem BeforePlay.mem_dog {t : Table} (h : t.BeforePlay) {c : Card} (valid : c.valid)
    (nobody : ∀ s, c ∉ t.hand s) : c ∈ t.deal.dog := by
  have hdeck := h.perm.mem_iff.mpr (Cards.mem_standard.mpr valid)
  rcases List.mem_append.mp hdeck with hin | hin
  · obtain ⟨s, _, hc⟩ := List.mem_flatMap.mp hin
    exact absurd hc (nobody s)
  · exact hin

/-- The partner is the other seat that holds the card, and otherwise the taker, who holds it or
finds it in the dog. -/
theorem BeforePlay.calledPartner_spec {t : Table} (h : t.BeforePlay) (hs : t.Seated)
    (taker : Seat) {card : Card} (valid : card.valid) :
    (∀ s, s ≠ taker → (card ∈ t.hand s ↔ s = (t.calledPartner taker card).getD taker))
      ∧ (card ∈ t.hand ((t.calledPartner taker card).getD taker)
        ∨ (t.calledPartner taker card).getD taker = taker ∧ card ∈ t.deal.dog) := by
  cases hfound : t.hands.locate? card with
  | none =>
    have hnobody : ∀ s, card ∉ t.hand s := fun s hc => by
      rw [(h.locate?_eq_some_iff hs).mpr hc] at hfound
      cases hfound
    have hpartner : t.calledPartner taker card = none := by
      rw [calledPartner, hfound]
      rfl
    rw [hpartner]
    exact ⟨fun s hne => ⟨fun hc => absurd hc (hnobody s), fun he => absurd he hne⟩,
      .inr ⟨rfl, h.mem_dog valid hnobody⟩⟩
  | some holder =>
    have hholder : card ∈ t.hand holder := (h.locate?_eq_some_iff hs).mp hfound
    have honly {s} (hc : card ∈ t.hand s) : s = holder :=
      Option.some.inj (((h.locate?_eq_some_iff hs).mpr hc).symm.trans hfound)
    by_cases htaker : holder = taker
    · have hpartner : t.calledPartner taker card = none := by
        rw [calledPartner, hfound]
        simp [htaker]
      rw [hpartner]
      exact ⟨fun s hne => ⟨fun hc => htaker ▸ honly hc, fun he => absurd he hne⟩,
        .inl (htaker ▸ hholder)⟩
    · have hpartner : t.calledPartner taker card = some holder := by
        rw [calledPartner, hfound]
        simp [htaker]
      rw [hpartner]
      exact ⟨fun s _ => ⟨honly, fun he => he ▸ hholder⟩, .inl hholder⟩

/-! ## From the call to the end -/

/-- The called card, with the taker and the partner, and where the card is now. -/
structure CallTraced (t : Table) (card : Card) (taker partner : Seat) : Prop where
  called : t.calledCard = some card
  isTaker : t.deal.bid.taker = some taker
  isPartner : t.deal.bid.partner = some partner
  /-- A partner holds it or has played it; a taker who plays alone may also find it in the dog, or
  have set it aside. -/
  place : card ∈ t.hand partner ∨ (partner, card) ∈ t.cardsPlayed
    ∨ partner = taker ∧ card ∈ t.aside

/-- What every table keeps of the call. -/
structure CallKept (t : Table) : Prop where
  five : t.phase = .awaitingKingCall → t.players = 5
  alone : t.players ≠ 5 → t.deal.bid.Alone
  traced : t.players = 5 → t.phase.afterCall →
    ∃ card taker partner, t.CallTraced card taker partner

section Keeping

variable {t t' : Table} {card : Card} {taker partner : Seat}

/-- Nothing that happens to the card. -/
theorem CallTraced.frame (h : t.CallTraced card taker partner)
    (called : t'.calledCard = t.calledCard) (bid : t'.deal.bid = t.deal.bid)
    (hands : t'.hands = t.hands) (played : t'.cardsPlayed = t.cardsPlayed)
    (aside : ∀ c ∈ t.aside, c ∈ t'.aside) : t'.CallTraced card taker partner where
  called := called.trans h.called
  isTaker := bid ▸ h.isTaker
  isPartner := bid ▸ h.isPartner
  place := by
    rw [hand, hands, played]
    exact h.place.imp_right (Or.imp_right (And.imp_right (aside card)))

/-- A move that leaves the bid and the cards where they are. -/
theorem CallKept.frame (h : t.CallKept) (players : t'.players = t.players)
    (bid : t'.deal.bid = t.deal.bid) (called : t'.calledCard = t.calledCard)
    (hands : t'.hands = t.hands) (played : t'.cardsPlayed = t.cardsPlayed)
    (asks : t'.phase = .awaitingKingCall → t.phase = .awaitingKingCall)
    (after : t'.phase.afterCall → t.players = 5 →
      t.phase.afterCall ∧ ∀ c ∈ t.aside, c ∈ t'.aside) : t'.CallKept where
  five := fun phase => players ▸ h.five (asks phase)
  alone := fun other => bid ▸ h.alone (players ▸ other)
  traced := fun five phase => by
    obtain ⟨hphase, aside⟩ := after phase (players ▸ five)
    obtain ⟨card, taker, partner, ht⟩ := h.traced (players ▸ five) hphase
    exact ⟨card, taker, partner, ht.frame called bid hands played aside⟩

/-- **The taker calls a card that the partner holds, or that is not among the other seats.** -/
theorem CallTraced.afterCall (hs : t.Seated) (hb : t.BeforePlay)
    (isTaker : t.deal.bid.taker = some taker)
    (callable : Cards.canCall (t.hand taker).statistics card) :
    (t.afterCall taker card).CallTraced card taker
      ((t.calledPartner taker card).getD taker) where
  called := rfl
  isTaker := isTaker
  isPartner := by
    show (t.calledPartner taker card <|> t.deal.bid.taker) = _
    rw [isTaker]
    cases t.calledPartner taker card <;> rfl
  place := by
    obtain ⟨_, hplace⟩ := hb.calledPartner_spec hs taker (Cards.valid_of_canCall callable)
    exact hplace.imp_right Or.inr

/-- **What the taker does not set aside is in the new hand.** -/
theorem CallTraced.exchanged (h : t.CallTraced card taker partner) (phase : t.phase.beforePlay)
    (discard : Cards) : (t.exchanged taker discard).opened.CallTraced card taker partner where
  called := h.called
  isTaker := h.isTaker
  isPartner := h.isPartner
  place := by
    have hplayed : (t.exchanged taker discard).opened.cardsPlayed = t.cardsPlayed :=
      cardsPlayed_note_other t taker rfl
    have haside : t.aside = t.deal.dog := if_pos phase
    rw [hplayed]
    have hexchange : card ∈ t.hand taker ++ t.deal.dog →
        card ∈ (t.exchanged taker discard).opened.hand taker ∨ card ∈ discard := fun hin => by
      show card ∈ (t.hands.set taker _).get taker ∨ card ∈ discard
      rw [Hands.get_set_self]
      by_cases hout : card ∈ discard
      · exact .inr hout
      · exact .inl (Cards.mem_takeOut.mpr ⟨hin, hout⟩)
    -- Only the cards of the taker change places.
    by_cases hpartner : partner = taker
    · subst hpartner
      have hown : card ∈ t.hand partner ++ t.deal.dog ∨ (partner, card) ∈ t.cardsPlayed := by
        rcases h.place with hin | hin | ⟨_, hin⟩
        · exact .inl (List.mem_append_left _ hin)
        · exact .inr hin
        · exact .inl (List.mem_append_right _ (haside ▸ hin))
      rcases hown with hin | hin
      · exact (hexchange hin).imp_right fun hout => .inr ⟨rfl, hout⟩
      · exact .inr (.inl hin)
    · have hother : (t.exchanged taker discard).opened.hand partner = t.hand partner :=
        Hands.get_set_of_ne _ hpartner _
      rw [hother]
      exact h.place.imp_right (Or.imp_right fun hin => absurd hin.1 hpartner)

/-- **The called card is kept, or it is the card that is played.** -/
theorem CallTraced.afterCard (h : t.CallTraced card taker partner) (phase : t.phase = .awaitingCard)
    (c : Card) : (t.afterCard c).CallTraced card taker partner where
  called := h.called
  isTaker := h.isTaker
  isPartner := h.isPartner
  place := by
    have hplayed : (t.afterCard c).cardsPlayed = t.cardsPlayed ++ [(t.current, c)] :=
      cardsPlayed_note t t.current (.card c)
    have haside : (t.afterCard c).aside = t.aside := by
      rw [aside, aside, phase]
      rfl
    rw [hplayed, haside]
    rcases h.place with hin | hin | hin
    · by_cases hcurrent : partner = t.current
      · by_cases hcard : card = c
        · subst hcurrent hcard
          exact .inr (.inl (List.mem_append_right _ List.mem_cons_self))
        · refine .inl ?_
          show card ∈ (t.hands.set t.current _).get partner
          rw [hcurrent, Hands.get_set_self]
          exact Cards.mem_remove.mpr ⟨hcurrent ▸ hin, hcard⟩
      · refine .inl ?_
        show card ∈ (t.hands.set t.current _).get partner
        rw [Hands.get_set_of_ne _ hcurrent]
        exact hin
    · exact .inr (.inl (List.mem_append_left _ hin))
    · exact .inr (.inr hin)

/-- A move of the play that no card is played with. -/
theorem CallKept.goOn (h : t.CallKept) (players : t'.players = t.players)
    (bid : t'.deal.bid = t.deal.bid) (called : t'.calledCard = t.calledCard)
    (hands : t'.hands = t.hands) (played : t'.cardsPlayed = t.cardsPlayed)
    (discard : t'.deal.discard = t.deal.discard) (phase : t.phase.duringPlay)
    (phase' : t'.phase.duringPlay) : t'.CallKept := by
  have before : ∀ {p : Phase}, p.duringPlay → p.beforePlay = false := fun {p} hp =>
    Bool.eq_false_iff.mpr fun hb => p.not_both ⟨hb, hp⟩
  refine h.frame players bid called hands played (fun asks => ?_) fun _ _ =>
    ⟨Phase.afterCall_of_duringPlay phase, fun c hc => ?_⟩
  · rw [asks] at phase'
    cases phase'
  · rw [aside, before phase] at hc
    rw [aside, before phase', discard]
    exact hc

/-- **Every move keeps track of the called card.** -/
theorem Move.callKept (hs : t.Sound) (h : t.CallKept) (hm : Move t t') : t'.CallKept := by
  cases hm with
  | create supported =>
    exact ⟨(fun hp => nomatch hp), (fun _ taken => nomatch taken), fun _ hp => nomatch hp⟩
  | chooseDealer => exact h.frame rfl rfl rfl rfl rfl id fun phase _ => ⟨phase, fun _ => id⟩
  | chooseDistribution =>
    exact h.frame rfl rfl rfl rfl rfl id fun phase _ => ⟨phase, fun _ => id⟩
  | getReady => exact h.frame rfl rfl rfl rfl rfl (fun hp => nomatch hp) fun hp => nomatch hp
  | stop => exact h.frame rfl rfl rfl rfl rfl (fun hp => nomatch hp) fun hp => nomatch hp
  | deal complete generator =>
    obtain ⟨current, dealer, heq⟩ := place_shape { cleared t with generator } _
    rw [heq]
    exact ⟨(fun hp => nomatch hp), (fun _ taken => nomatch taken), fun _ hp => nomatch hp⟩
  | bid phase contract slam =>
    exact ⟨(fun hp => nomatch hp),
      fun other => DealState.recordBid_alone (h.alone other) contract slam t.current,
      fun _ hp => nomatch hp⟩
  | askBid phase => exact h.frame rfl rfl rfl rfl rfl (fun hp => nomatch hp) fun hp => nomatch hp
  | passOut phase => exact h.frame rfl rfl rfl rfl rfl (fun hp => nomatch hp) fun hp => nomatch hp
  | askCall phase taken five =>
    exact ⟨fun _ => five, fun other => absurd five other, fun _ hp => nomatch hp⟩
  | call phase isTaker callable =>
    have hb := hs.before (by rw [phase]; rfl)
    exact ⟨(fun hp => nomatch hp), fun other => absurd (h.five phase) other,
      fun _ _ => ⟨_, _, _, CallTraced.afterCall hs.toSeated hb isTaker callable⟩⟩
  | showDog phase taken unowned position called =>
    refine h.frame rfl rfl rfl rfl rfl (fun hp => nomatch hp) fun _ five => ?_
    rw [aside, called five]
    exact ⟨rfl, fun _ => id⟩
  | openUnseen phase taken owned called =>
    refine h.frame rfl rfl rfl rfl rfl (fun hp => nomatch hp) fun _ five => ?_
    rw [aside, called five]
    exact ⟨rfl, fun _ => id⟩
  | askDiscard phase =>
    refine h.frame rfl rfl rfl rfl rfl (fun hp => nomatch hp) fun _ _ => ?_
    rw [aside, phase]
    exact ⟨rfl, fun _ => id⟩
  | discard phase isTaker allowed =>
    refine ⟨(fun hp => nomatch hp), h.alone, fun five _ => ?_⟩
    obtain ⟨card, taker, partner, traced⟩ := h.traced five (by rw [phase]; rfl)
    cases isTaker.symm.trans traced.isTaker
    exact ⟨card, _, partner, traced.exchanged (by rw [phase]; rfl) _⟩
  | askHandle phase =>
    exact h.goOn rfl rfl rfl rfl rfl rfl (Phase.duringPlay_of_goesOn phase) rfl
  | @handle phase cards =>
    obtain ⟨attackHandle, defenseHandle, heq⟩ := t.deal.keepHandle_eq cards t.current
    have hbid : (t.deal.keepHandle cards t.current).bid = t.deal.bid := by rw [heq]; rfl
    have hdiscard : (t.deal.keepHandle cards t.current).discard = t.deal.discard := by
      rw [heq]
      rfl
    exact h.goOn rfl hbid rfl rfl (cardsPlayed_note_other t _ rfl) hdiscard
      (by rw [phase]; rfl) rfl
  | decline phase =>
    have hp : t.phase.duringPlay := by rw [phase]; rfl
    exact h.goOn rfl rfl rfl rfl (cardsPlayed_note_other t _ rfl) rfl hp hp
  | askCard phase =>
    exact h.goOn rfl rfl rfl rfl rfl rfl (Phase.duringPlay_of_goesOn phase) rfl
  | card phase =>
    refine ⟨(fun hp => nomatch hp), h.alone, fun five _ => ?_⟩
    obtain ⟨card, taker, partner, traced⟩ := h.traced five (by rw [phase]; rfl)
    exact ⟨card, taker, partner, traced.afterCard phase _⟩
  | winTrick phase full added =>
    obtain ⟨_, _, leader, _, rfl, _⟩ := DealState.addTrick_eq_ok.mp added
    exact h.goOn rfl rfl rfl rfl (cardsPlayed_note_other t.gathered _ rfl) rfl
      (Phase.duringPlay_of_goesOn phase) rfl
  | finish phase => exact h.goOn rfl rfl rfl rfl rfl rfl (by rw [phase]; rfl) rfl

end Keeping

theorem Reachable.callKept {t : Table} (h : Reachable t) : t.CallKept := by
  refine h.keep (fun seed => ?_) fun _ _ hs hk hm => hm.callKept hs hk
  exact ⟨(fun hp => nomatch hp), (fun _ taken => nomatch taken), fun _ hp => nomatch hp⟩

end Table

end FrenchTarot
