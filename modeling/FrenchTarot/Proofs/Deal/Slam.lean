import FrenchTarot.Proofs.Deal.Winner
import Mathlib.Data.List.Find

/-!
# Which side makes a slam

A deal tells a slam by the number of tricks that the attack has won, and that number depends on the
Fool: in the last trick it wins for the taker, provided the attack has won all tricks before.  Yet
the cards alone decide.  In every other trick the seat with the highest card wins, and so the attack
makes a slam when it has the highest card of all tricks, or of all but the last one, to which the
taker plays the Fool.  The defense has no such exception (`Over.slamDetected`).

`Resolved` ties the owner of each trick to its highest card.  A trick that is added leaves the
tricks before it as they are, and is itself resolved because the deal has counted right so far.
-/

namespace FrenchTarot

/-! ## The highest card of a trick -/

namespace Cards

/-- The highest card of a trick: of the trumps other than the Fool if there are some, and else of
the suit led. -/
inductive Top (trick : Cards) (c : Card) : Prop where
  | trump (mem : c ∈ trick.properTrumps) (highest : ∀ x ∈ trick.properTrumps, x.rank ≤ c.rank)
  | suit (untrumped : trick.properTrumps = []) (led : trick.requiredSuit? = some c.suit)
      (mem : c ∈ trick) (highest : ∀ x ∈ trick, x.suit = c.suit → x.rank ≤ c.rank)

theorem Top.mem_trick {trick : Cards} {c : Card} (h : trick.Top c) : c ∈ trick := by
  cases h with
  | trump mem => exact (mem_properTrumps.mp mem).1
  | suit _ _ mem => exact mem

theorem Top.unique {trick : Cards} {c c' : Card} (h : trick.Top c) (h' : trick.Top c') :
    c = c' := by
  -- Both are trumps or both are of the suit led, and neither has the greater rank.
  have hsame : c.suit = c'.suit ∧ c.rank ≤ c'.rank ∧ c'.rank ≤ c.rank := by
    cases h with
    | trump mem highest =>
      cases h' with
      | trump mem' highest' =>
        have htrump := (mem_properTrumps.mp mem).2.1
        have htrump' := (mem_properTrumps.mp mem').2.1
        simp only [Card.isTrump, decide_eq_true_eq] at htrump htrump'
        exact ⟨htrump.trans htrump'.symm, highest' c mem, highest c' mem'⟩
      | suit untrumped =>
        rw [untrumped] at mem
        cases mem
    | suit untrumped led mem highest =>
      cases h' with
      | trump mem' =>
        rw [untrumped] at mem'
        cases mem'
      | suit _ led' mem' highest' =>
        have hsuit : c.suit = c'.suit := Option.some.inj (led.symm.trans led')
        exact ⟨hsuit, highest' c mem hsuit, highest c' mem' hsuit.symm⟩
  obtain ⟨hsuit, hle, hge⟩ := hsame
  obtain ⟨rank, suit⟩ := c
  obtain ⟨rank', suit'⟩ := c'
  dsimp only at hsuit hle hge
  rw [hsuit, Nat.le_antisymm hle hge]

/-- Without a trump but the Fool, the first ordinary card says which suit is required. -/
theorem requiredSuit?_untrumped {trick : Cards} (h : trick.properTrumps = []) :
    trick.requiredSuit? = (trick.find? fun c => !c.isTrump).map Card.suit := by
  have hfool : ∀ c ∈ trick, (!c.isFool) = !c.isTrump := by
    intro c hc
    have hproper : ¬ (c.isTrump ∧ c.isFool = false) := by
      intro hp
      have := mem_properTrumps.mpr ⟨hc, hp⟩
      rw [h] at this
      cases this
    cases htrump : c.isTrump with
    | false => rw [Card.isFool_of_plain htrump]
    | true => simpa [htrump] using hproper
  rw [requiredSuit?, List.find?_congr hfool]

theorem exists_not_fool {trick : Cards} (hn : trick.Nodup) (hlen : 2 ≤ trick.length) :
    ∃ c ∈ trick, c.isFool = false := by
  by_contra hnone
  have hall : ∀ c ∈ trick, c = Card.fool := by
    intro c hc
    by_contra hne
    exact hnone ⟨c, hc, by simpa [Card.isFool] using hne⟩
  have hrep := List.eq_replicate_of_mem hall
  rw [hrep, List.nodup_replicate] at hn
  omega

end Cards

namespace DealState

open Cards

/-- The card that wins by rank is the highest card of the trick. -/
theorem leadingCard_top {trick : Cards} (h : ∃ c ∈ trick, c.isFool = false) :
    trick.Top (leadingCard trick) := by
  unfold leadingCard
  cases htrump : trick.highestTrump? with
  | some m =>
    obtain ⟨mem, highest⟩ := highestTrump?_eq_some htrump
    exact .trump mem highest
  | none =>
    have huntrumped := highestTrump?_eq_none.mp htrump
    cases hled : trick.highestOfSuitLed? with
    | none =>
      -- A trick of trumps without a proper one would be nothing but the Fool.
      obtain ⟨c, hc, hfool⟩ := h
      have hproper := mem_properTrumps.mpr ⟨hc, highestOfSuitLed?_eq_none.mp hled c hc, hfool⟩
      rw [huntrumped] at hproper
      cases hproper
    | some b =>
      obtain ⟨lead, hlead, hsuit, _⟩ := highestOfSuitLed?_eq_some hled
      rw [highestOfSuitLed?, hlead] at hled
      obtain ⟨mem, highest⟩ := highest?_eq_some hled
      refine .suit huntrumped ?_ (List.mem_filter.mp mem).1 ?_
      · rw [requiredSuit?_untrumped huntrumped, hlead]
        exact congrArg some hsuit.symm
      · intro x hx hxs
        exact highest x (List.mem_filter.mpr ⟨hx, by simpa using hxs.trans hsuit⟩)

/-! ## Natural winners and slams -/

/-- A seat has played the highest card of a trick. -/
def NaturalWinner (d : DealState) (turn : Nat) (s : Seat) : Prop :=
  ∃ p c, d.tricks[turn]? = some p ∧ p.cards.Top c ∧ d.ownerOf? c turn = some s

/-- A side has the highest card of a trick. -/
def NaturalOwner (d : DealState) (turn : Nat) (team : Team) : Prop :=
  ∃ s, d.NaturalWinner turn s ∧ d.bid.teamOf s = team

/-- The taker has played the Fool to a trick. -/
def TakerPlaysFool (d : DealState) (turn : Nat) : Prop :=
  ∃ s, d.bid.taker = some s ∧ d.ownerOf? Card.fool turn = some s

/-- The attack has the highest card of every trick, except that the taker may play the Fool to the
last one. -/
structure AttackSlam (d : DealState) : Prop where
  before : ∀ turn, turn + 1 < d.tricks.length → d.NaturalOwner turn .attack
  last : ∀ turn, turn + 1 = d.tricks.length → d.NaturalOwner turn .attack ∨ d.TakerPlaysFool turn

/-- The defense has the highest card of every trick. -/
def DefenseSlam (d : DealState) : Prop := ∀ turn < d.tricks.length, d.NaturalOwner turn .defense

/-- What a deal tells about slams is what its cards say. -/
structure SlamDetected (d : DealState) : Prop where
  complete : d.tricks.length = Rules.handSize d.players
  natural : ∀ turn < d.tricks.length, ∃! s, d.NaturalWinner turn s
  attack : d.result.slamTeam = some .attack ↔ d.AttackSlam
  defense : d.result.slamTeam = some .defense ↔ d.DefenseSlam
  neither : d.result.slamTeam = none ↔ ¬ d.AttackSlam ∧ ¬ d.DefenseSlam
  done : d.result.slamDone ↔ d.result.slamTeam ≠ none
  counted : d.tricksWon = d.tricks.countP fun p => p.owner = .attack

theorem NaturalWinner.unique {d : DealState} {turn : Nat} {s s' : Seat}
    (h : d.NaturalWinner turn s) (h' : d.NaturalWinner turn s') : s = s' := by
  obtain ⟨p, c, hp, hc, hs⟩ := h
  obtain ⟨p', c', hp', hc', hs'⟩ := h'
  obtain rfl : p = p' := Option.some.inj (hp.symm.trans hp')
  obtain rfl := hc.unique hc'
  exact Option.some.inj (hs.symm.trans hs')

theorem NaturalOwner.unique {d : DealState} {turn : Nat} {team team' : Team}
    (h : d.NaturalOwner turn team) (h' : d.NaturalOwner turn team') : team = team' := by
  obtain ⟨s, hs, rfl⟩ := h
  obtain ⟨s', hs', rfl⟩ := h'
  rw [hs.unique hs']

/-! ## The owners of the tricks -/

/-- The Fool wins a trick: the last one, for the taker, after the attack has won all others. -/
structure FoolWins (d : DealState) (turn : Nat) : Prop where
  last : turn + 1 = Rules.handSize d.players
  others : ∀ p ∈ d.tricks.take turn, p.owner = .attack
  fool : d.TakerPlaysFool turn

/-- A trick belongs to the side with its highest card, or to the attack by the Fool. -/
structure ResolvedAt (d : DealState) (turn : Nat) (p : PlayedTrick) : Prop where
  natural : ∃ s, d.NaturalWinner turn s
  owner : ¬ d.FoolWins turn → d.NaturalOwner turn p.owner
  fool : d.FoolWins turn → p.owner = .attack

/-- The tricks are resolved, and those of the attack are counted right. -/
structure Resolved (d : DealState) : Prop where
  tricksWon : d.tricksWon = d.tricks.countP fun p => p.owner = .attack
  tricks : ∀ turn p, d.tricks[turn]? = some p → d.ResolvedAt turn p

/-- A trick that is added changes nothing in the tricks before it. -/
theorem naturalWinner_withTrick (d : DealState) (leader : Seat) (trick : Cards) {turn : Nat}
    (h : turn < d.tricks.length) (s : Seat) :
    (d.withTrick leader trick).NaturalWinner turn s ↔ d.NaturalWinner turn s := by
  simp only [NaturalWinner, ownerOf?_withTrick d leader trick _ h, withTrick_tricks,
    List.getElem?_append_left h]

theorem foolWins_withTrick (d : DealState) (leader : Seat) (trick : Cards) {turn : Nat}
    (h : turn < d.tricks.length) :
    (d.withTrick leader trick).FoolWins turn ↔ d.FoolWins turn := by
  have hothers : (d.withTrick leader trick).tricks.take turn = d.tricks.take turn := by
    rw [withTrick_tricks, List.take_append_of_le_length (Nat.le_of_lt h)]
  have hfool : (d.withTrick leader trick).TakerPlaysFool turn ↔ d.TakerPlaysFool turn := by
    simp only [TakerPlaysFool, ownerOf?_withTrick d leader trick _ h, withTrick_bid]
  constructor
  · rintro ⟨last, others, fool⟩
    exact ⟨last, hothers ▸ others, hfool.mp fool⟩
  · rintro ⟨last, others, fool⟩
    exact ⟨last, hothers.symm ▸ others, hfool.mpr fool⟩

theorem naturalWinner_withTrick_last {d : DealState} {leader : Seat} {trick : Cards}
    (hl : d.leader? d.tricks.length = some leader) (h : trick.Top (leadingCard trick)) :
    (d.withTrick leader trick).NaturalWinner d.tricks.length
      (seatOf leader trick (leadingCard trick) d.players) :=
  ⟨_, _, getElem?_withTrick d leader trick, h, ownerOf?_withTrick_last hl h.mem_trick⟩

/-- In the trick that is added, the Fool wins when it completes a slam. -/
theorem foolWins_withTrick_last {d : DealState} {leader : Seat} {trick : Cards}
    (hl : d.leader? d.tricks.length = some leader) (hn : trick.Nodup) :
    (d.withTrick leader trick).FoolWins d.tricks.length ↔ d.SlamWithFool leader trick := by
  have hothers : (d.withTrick leader trick).tricks.take d.tricks.length = d.tricks := by
    rw [withTrick_tricks, List.take_left]
  have hlead := (leader?_withTrick_of_le d leader trick (Nat.le_refl _)).trans hl
  have hlast := getElem?_withTrick d leader trick
  constructor
  · rintro ⟨last, others, s, htaker, hs⟩
    rw [hothers] at others
    refine ⟨last, others, ?_⟩
    by_cases hmem : Card.fool ∈ trick
    · obtain ⟨place, hplace⟩ := List.mem_iff_getElem?.mp hmem
      rw [ownerOf?_eq hlead hlast hn hplace] at hs
      exact ⟨place, hplace, htaker.trans hs.symm⟩
    · -- Nobody has played a card that is not there.
      have hnone : trick.position? Card.fool = none := by
        rw [Cards.position?, List.findIdx?_eq_none_iff]
        intro c hc
        exact decide_eq_false fun he => hmem (he ▸ hc)
      rw [ownerOf?, hlead, hlast] at hs
      simp [hnone] at hs
  · rintro ⟨last, others, place, hplace, htaker⟩
    exact ⟨last, hothers.symm ▸ others, _, htaker, ownerOf?_eq hlead hlast hn hplace⟩

/-- The tricks before stay resolved. -/
theorem ResolvedAt.withTrick {d : DealState} {turn : Nat} {p : PlayedTrick}
    (h : d.ResolvedAt turn p) (leader : Seat) (trick : Cards) (hlt : turn < d.tricks.length) :
    (d.withTrick leader trick).ResolvedAt turn p := by
  have hnatural := naturalWinner_withTrick d leader trick hlt
  have hfool := foolWins_withTrick d leader trick hlt
  refine ⟨?_, fun hnot => ?_, fun hwins => h.fool (hfool.mp hwins)⟩
  · obtain ⟨s, hs⟩ := h.natural
    exact ⟨s, (hnatural s).mpr hs⟩
  · obtain ⟨s, hs, hteam⟩ := h.owner (mt hfool.mpr hnot)
    exact ⟨s, (hnatural s).mpr hs, hteam⟩

/-- **A trick that is added is resolved by its highest card, or by the Fool.** -/
theorem Resolved.withTrick {d : DealState} (h : d.Resolved) {leader : Seat} {trick : Cards}
    (hl : d.leader? d.tricks.length = some leader) (hn : trick.Nodup) (hlen : 2 ≤ trick.length)
    (hmore : d.tricks.length < Rules.handSize d.players) :
    (d.withTrick leader trick).Resolved := by
  have hnatural := naturalWinner_withTrick_last hl (leadingCard_top (exists_not_fool hn hlen))
  have hfool := foolWins_withTrick_last hl hn
  obtain ⟨hslam, hrule⟩ := resolve_fst leader hn hmore h.tricksWon
  refine ⟨(Tallied.withTrick ⟨rfl, h.tricksWon⟩ leader trick).tricksWon, fun turn p hp => ?_⟩
  rcases getElem?_withTrick_eq_some hp with ⟨hlt, hp⟩ | ⟨rfl, rfl⟩
  · exact (h.tricks turn p hp).withTrick leader trick hlt
  · refine ⟨⟨_, hnatural⟩, fun hnot => ⟨_, hnatural, ?_⟩, fun hwins => ?_⟩
    · exact congrArg d.bid.teamOf (hrule (mt hfool.mpr hnot)).symm
    · exact Bid.teamOf_eq_attack.mpr (.inl (hslam (hfool.mp hwins)))

/-- **The tricks of a deal that was played are resolved.** -/
theorem Played.resolved {d : DealState} (h : d.Played) (hplayers : 2 ≤ d.players)
    (hn : (d.tricks.flatMap PlayedTrick.cards).Nodup) : d.Resolved := by
  induction h with
  | opening tricks tricksWon _ =>
    refine ⟨?_, ?_⟩
    · rw [tricks, tricksWon]
      rfl
    · simp [tricks]
  | trick before added ih =>
    obtain ⟨hsize, hmore, leader, hl, rfl, _⟩ := addTrick_eq_ok.mp added
    obtain ⟨hbefore, htrick, _⟩ := nodup_withTrick hn
    exact (ih hplayers hbefore).withTrick hl htrick (hsize.symm ▸ hplayers) hmore

/-! ## Slams -/

/-- The Fool wins the last trick only. -/
theorem Resolved.owner_of_not_last {d : DealState} (h : d.Resolved) {turn : Nat} {p : PlayedTrick}
    (hp : d.tricks[turn]? = some p) (hlt : turn + 1 < Rules.handSize d.players) :
    d.NaturalOwner turn p.owner :=
  (h.tricks turn p hp).owner fun hw => Nat.ne_of_lt hlt hw.last

/-- The attack owns all tricks exactly if the cards give it the slam. -/
theorem Resolved.attack_iff {d : DealState} (h : d.Resolved)
    (hend : d.tricks.length = Rules.handSize d.players) :
    (∀ p ∈ d.tricks, p.owner = .attack) ↔ d.AttackSlam := by
  constructor
  · intro hall
    refine ⟨fun turn hlt => ?_, fun turn hlast => ?_⟩
    · have howner := h.owner_of_not_last (List.getElem?_eq_getElem (by omega)) (hend ▸ hlt)
      rwa [hall _ (List.getElem_mem _)] at howner
    · by_cases hw : d.FoolWins turn
      · exact .inr hw.fool
      · have howner := (h.tricks turn _ (List.getElem?_eq_getElem (by omega))).owner hw
        rw [hall _ (List.getElem_mem _)] at howner
        exact .inl howner
  · intro hslam
    have hbefore : ∀ turn p, turn + 1 < d.tricks.length → d.tricks[turn]? = some p →
        p.owner = .attack := by
      intro turn p hlt hp
      exact (h.owner_of_not_last hp (hend ▸ hlt)).unique (hslam.before turn hlt)
    intro p hp
    obtain ⟨turn, hp⟩ := List.mem_iff_getElem?.mp hp
    obtain ⟨hlt, _⟩ := List.getElem?_eq_some_iff.mp hp
    by_cases hlast : turn + 1 = d.tricks.length
    · by_cases hw : d.FoolWins turn
      · exact (h.tricks turn p hp).fool hw
      · rcases hslam.last turn hlast with hnatural | hfool
        · exact ((h.tricks turn p hp).owner hw).unique hnatural
        · -- The attack owns all tricks before, so that the Fool does win.
          refine absurd ⟨hlast.trans hend, fun q hq => ?_, hfool⟩ hw
          obtain ⟨k, hk, rfl⟩ := List.mem_take_iff_getElem.mp hq
          exact hbefore k _ (by omega) (List.getElem?_eq_getElem (by omega))
    · exact hbefore turn p (by omega) hp

/-- The defense owns all tricks exactly if it has the highest cards. -/
theorem Resolved.defense_iff {d : DealState} (h : d.Resolved) (hmany : 2 ≤ d.tricks.length)
    (hend : d.tricks.length = Rules.handSize d.players) :
    (∀ p ∈ d.tricks, p.owner = .defense) ↔ d.DefenseSlam := by
  have hzero : d.tricks[0]? = some d.tricks[0] := List.getElem?_eq_getElem (by omega)
  -- The Fool wins nothing after a first trick of the defense.
  have hfool : d.tricks[0].owner = .defense → ∀ turn, ¬ d.FoolWins turn := by
    intro howner turn hw
    have hlast := hw.last
    have hmem : d.tricks[0] ∈ d.tricks.take turn :=
      List.mem_take_iff_getElem.mpr ⟨0, by omega, rfl⟩
    rw [hw.others _ hmem] at howner
    cases howner
  constructor
  · intro hall turn hlt
    have hnot := hfool (hall _ (List.getElem_mem _)) turn
    have howner := (h.tricks turn _ (List.getElem?_eq_getElem hlt)).owner hnot
    rwa [hall _ (List.getElem_mem hlt)] at howner
  · intro hslam p hp
    have hfirst := (h.owner_of_not_last hzero (by omega)).unique (hslam 0 (by omega))
    obtain ⟨turn, hp⟩ := List.mem_iff_getElem?.mp hp
    obtain ⟨hlt, _⟩ := List.getElem?_eq_some_iff.mp hp
    exact ((h.tricks turn p hp).owner (hfool hfirst turn)).unique (hslam turn hlt)

theorem slamTeam_eq_attack {d : DealState} (h : 0 < Rules.handSize d.players) :
    d.slamTeam = some .attack ↔ d.tricksWon = Rules.handSize d.players := by
  unfold slamTeam
  split
  · rename_i hzero
    simp [hzero, Nat.ne_of_lt h]
  · split <;> simp_all

theorem slamTeam_eq_defense {d : DealState} : d.slamTeam = some .defense ↔ d.tricksWon = 0 := by
  unfold slamTeam
  split
  · simp_all
  · split <;> simp_all

/-- **At the end of a deal a slam is made by the side that has the highest card of every trick, and
by the attack too if it lacks the last one, to which the taker plays the Fool.** -/
theorem Over.slamDetected {d : DealState} (h : d.Over) : d.SlamDetected := by
  have hf := h.finished
  have hend := hf.tricks_length
  obtain ⟨hplayers, hmany⟩ : 2 ≤ d.players ∧ 2 ≤ d.tricks.length := by
    rw [hend]
    rcases Rules.supported_iff.mp hf.supported with hs | hs | hs <;> rw [hs] <;> decide
  have hr := hf.played.resolved hplayers hf.distinct.1
  have hattack : d.slamTeam = some .attack ↔ d.AttackSlam := by
    rw [slamTeam_eq_attack (by omega), ← hend, tricksWon_eq_length hr.tricksWon,
      hr.attack_iff hend]
  have hdefense : d.slamTeam = some .defense ↔ d.DefenseSlam := by
    rw [slamTeam_eq_defense, hr.tricksWon, List.countP_eq_zero, ← hr.defense_iff hmany hend]
    refine forall₂_congr fun p _ => ?_
    cases p.owner <;> simp
  exact {
    complete := hend
    natural := fun turn hlt => by
      obtain ⟨s, hs⟩ := (hr.tricks turn _ (List.getElem?_eq_getElem hlt)).natural
      exact ⟨s, hs, fun s' hs' => hs'.unique hs⟩
    attack := hattack
    defense := hdefense
    neither := by
      rw [← hattack, ← hdefense]
      show d.slamTeam = none ↔ _
      rcases d.slamTeam with _ | (_ | _) <;> simp
    done := Option.isSome_iff_ne_none
    counted := hr.tricksWon }

/-- South leads seventeen high trumps and then the Fool, and West has the highest card of that last
trick. -/
def slamRecord : Record := ⟨Record.currentVersion, slamInfo, slamTricks ++ [slamFool]⟩

theorem slamRecord_detected :
    ∃ d, slamRecord.replay = .ok d ∧ d.Over ∧ d.SlamDetected ∧ d.AttackSlam := by
  have hreplay : slamRecord.replay.toOption.map (fun d => d.result.slamTeam) =
      some (some .attack) := by
    decide +kernel
  obtain ⟨d, hd, hslam⟩ := exists_of_map_toOption hreplay
  have hover : d.Over := .replay hd
  have hdetected := hover.slamDetected
  exact ⟨d, hd, hover, hdetected, hdetected.attack.mp hslam⟩

end DealState

end FrenchTarot
