import FrenchTarot.Proofs.Table.Refusals
import FrenchTarot.Proofs.Table.Steps

/-!
# A deal comes to its end

A deal has a limited number of decisions: a bid, a handle and the cards of every seat, a call and a
discard.  `toCome` counts those that are still to come.  Every decision takes one away, and nothing
that a table does by itself brings one back, so that a deal is over after as many decisions.

The only thing that could go around in a circle is the handle.  A seat that is asked for one is
marked (`Asking`), and it is not asked again after it has answered.

What counts in the play is how many cards and handles are left.  Both follow from the number of
tricks and from the place in the trick, and the bounds on these are part of what every table keeps.
-/

namespace FrenchTarot.Table

/-! ## What is to come -/

/-- How many handles a seat may still be asked for; all of them are in the first trick. -/
def handlesLeft (t : Table) : Nat := if t.tricksDone = 0 then t.players - t.position else 0

/-- How many cards are still to be played. -/
def cardsLeft (t : Table) : Nat :=
  t.players * Rules.handSize t.players - (t.players * t.tricksDone + t.position)

/-- How many decisions the play of a whole deal has. -/
def wholePlay (t : Table) : Nat := t.players + t.players * Rules.handSize t.players

/-- How many decisions a deal still has at most, counting the next deal before it is dealt. -/
def toCome (t : Table) : Nat :=
  match t.phase with
  | .awaitingPlayers | .awaitingReady => t.players + 2 + t.wholePlay
  | .cardsDealt | .awaitingBid | .bidShown => t.players - t.position + 2 + t.wholePlay
  | .awaitingKingCall => 2 + t.wholePlay
  | .kingCallShown | .dogShown | .awaitingDiscard => 1 + t.wholePlay
  | .dealStarting | .awaitingHandle | .cardShown | .trickEnded => t.handlesLeft + t.cardsLeft
  -- The seat in turn has shown its handle, or declined to.
  | .handleShown | .awaitingCard => t.handlesLeft - 1 + t.cardsLeft
  | .allPassed | .dealEnded | .stopped => 0

theorem toCome_lt {t : Table} (h : t.Seated) : t.toCome < 128 := by
  have hwhole : t.players + 2 + t.wholePlay ≤ 87 := by
    rw [wholePlay]
    rcases Rules.supported_iff.mp h.supported with hn | hn | hn <;> rw [hn] <;> decide
  have hhandles : t.handlesLeft ≤ t.players := by
    rw [handlesLeft]
    split <;> omega
  have hcards : t.players + t.cardsLeft ≤ t.wholePlay := by
    rw [cardsLeft, wholePlay]
    omega
  rw [toCome]
  cases t.phase <;> dsimp only <;> omega

/-- A seat is asked for a bid during the round of bids, and for a handle in the first trick, where
it is marked as asked. -/
structure Asking (t : Table) : Prop where
  bidder : t.phase = .awaitingBid → t.position < t.players
  first : t.phase = .awaitingHandle → t.tricksDone = 0
  asked : t.phase = .awaitingHandle ∨ t.phase = .handleShown →
    t.handleAsked.get t.current = true

/-- Where nobody is asked for a bid or a handle. -/
theorem Asking.idle {t : Table} (bid : t.phase ≠ .awaitingBid) (handle : t.phase ≠ .awaitingHandle)
    (shown : t.phase ≠ .handleShown) : t.Asking :=
  ⟨fun hp => absurd hp bid, fun hp => absurd hp handle, fun hp =>
    hp.elim (fun hp => absurd hp handle) fun hp => absurd hp shown⟩

theorem Move.asking {t t' : Table} (h : t.Asking) (hm : Move t t') : t'.Asking := by
  cases hm with
  | chooseDealer => exact ⟨h.bidder, h.first, h.asked⟩
  | chooseDistribution => exact ⟨h.bidder, h.first, h.asked⟩
  | deal complete generator =>
    obtain ⟨current, dealer, heq⟩ := place_shape { cleared t with generator } _
    rw [heq]
    exact .idle nofun nofun nofun
  | askBid phase more =>
    exact ⟨fun _ => more, nofun, fun hp => by rcases hp with hp | hp <;> cases hp⟩
  | askHandle phase more first unasked =>
    exact ⟨nofun, fun _ => first, fun _ => by
      show (t.handleAsked.set t.current true).get t.current = true
      rw [PerSeat.get_set, if_pos rfl]⟩
  | handle phase => exact ⟨nofun, nofun, fun _ => h.asked (.inl phase)⟩
  | decline phase => exact ⟨h.bidder, h.first, h.asked⟩
  | _ => exact .idle nofun nofun nofun

theorem Reachable.asking {t : Table} (h : Reachable t) : t.Asking :=
  h.keep (fun _ => .idle nofun nofun nofun) fun _ _ _ hk hm => hm.asking hk

/-! ## Steps -/

section Steps

variable {t t' : Table} {b : Option Announcement}

/-- The play that begins has all of its decisions before it. -/
theorem toCome_opened (t : Table) : t.opened.toCome = t.wholePlay := by
  show t.opened.handlesLeft + t.opened.cardsLeft = _
  simp [handlesLeft, cardsLeft, wholePlay, opened]

/-- **Going on with the play brings no decision back.** -/
theorem Continued.toCome_le (hle : t.position ≤ t.players) (hc : Continued t t') :
    t'.toCome ≤ t.handlesLeft + t.cardsLeft
      ∧ (t.handleAsked.get t.current = true → t.position < t.players →
        t'.toCome = t.handlesLeft - 1 + t.cardsLeft) := by
  cases hc with
  | won full added =>
    refine ⟨?_, fun _ more => absurd more (Nat.not_lt.mpr full)⟩
    have hposition : t.position = t.players := Nat.le_antisymm hle full
    have hsucc : t.players * (t.tricksDone + 1) = t.players * t.tricksDone + t.players :=
      Nat.mul_succ _ _
    show handlesLeft (afterTrick t _ _) + cardsLeft (afterTrick t _ _) ≤ _
    show (if t.tricksDone + 1 = 0 then t.players - 0 else 0)
      + (t.players * Rules.handSize t.players - (t.players * (t.tricksDone + 1) + 0)) ≤ _
    rw [if_neg (Nat.succ_ne_zero _), cardsLeft]
    omega
  | askHandle more first unasked =>
    refine ⟨Nat.le_refl _, fun asked => ?_⟩
    rw [unasked] at asked
    cases asked
  | askCard more asked => exact ⟨Nat.add_le_add_right (Nat.sub_le _ _) _, fun _ _ => rfl⟩

theorem Settled.toCome_le (hs : Settled t t') : t'.toCome ≤ 1 + t.wholePlay := by
  cases hs with
  | shown => exact Nat.le_refl _
  | unseen =>
    rw [toCome_opened]
    exact Nat.le_add_left _ _

/-- A card is still to be played when somebody is asked for one. -/
theorem InPlay.cardsLeft_pos (h : t.InPlay) (phase : t.phase = .awaitingCard) :
    0 < t.cardsLeft := by
  have more := h.more (Or.inr (Or.inr phase))
  have unfinished := h.unfinished (by rw [phase]; decide) (by rw [phase]; decide)
  have hrest : t.players * (t.tricksDone + 1) ≤ t.players * Rules.handSize t.players :=
    Nat.mul_le_mul_left _ unfinished
  rw [Nat.mul_succ] at hrest
  rw [cardsLeft]
  omega

/-- **A step takes away the decision that it makes, and brings none back.** -/
theorem Step.toCome_le (h : t.Sound) (ha : t.Asking) (hstep : Step t b t') :
    t'.toCome + (if t.phase.awaitsAction then 1 else 0) ≤ t.toCome := by
  have auction : t.phase = .cardsDealt ∨ t.phase = .bidShown → t.phase.awaitsAction = false ∧
      t.toCome = t.players - t.position + 2 + t.wholePlay := by
    rintro (phase | phase) <;> simp only [phase, toCome, Phase.awaitsAction, and_self]
  -- In the play a seat that is asked is in the trick, and there are tricks to play.
  have during {p : Phase} (phase : t.phase = p) (hp : p.duringPlay) : t.InPlay :=
    h.during (by rw [phase, hp])
  have handle (phase : t.phase = .awaitingHandle) : 0 < t.handlesLeft := by
    have more := (during phase rfl).more (Or.inl phase)
    rw [handlesLeft, if_pos (ha.first phase)]
    omega
  cases hstep with
  | askBid phase =>
    obtain ⟨idle, before⟩ := auction phase
    rw [idle, before]
    exact Nat.le_refl _
  | bid phase recorded =>
    have more := ha.bidder phase
    rw [toCome, toCome, phase]
    show t.players - (t.position + 1) + 2 + t.wholePlay + 1
      ≤ t.players - t.position + 2 + t.wholePlay
    omega
  | passOut phase =>
    rw [(auction phase).1]
    exact Nat.zero_le _
  | askCall phase =>
    obtain ⟨idle, before⟩ := auction phase
    rw [idle, before]
    show 2 + t.wholePlay ≤ _
    omega
  | call phase taker card =>
    rw [toCome, toCome, phase]
    show 1 + t.wholePlay + 1 ≤ 2 + t.wholePlay
    omega
  | closeAuction phase _ _ _ settled =>
    obtain ⟨idle, before⟩ := auction phase
    have hle : t'.toCome ≤ 1 + t.wholePlay := settled.toCome_le
    rw [idle, before]
    show t'.toCome ≤ _
    omega
  | closeCall phase settled =>
    have hle := settled.toCome_le
    rw [toCome.eq_def t, phase]
    exact hle
  | askDiscard phase =>
    rw [toCome, toCome, phase]
    exact Nat.le_refl _
  | discard phase taker cards =>
    rw [toCome_opened, toCome, phase]
    show t.wholePlay + 1 ≤ 1 + t.wholePlay
    omega
  | handle phase cards =>
    have hpos := handle phase
    rw [toCome, toCome, phase]
    show t.handlesLeft - 1 + t.cardsLeft + 1 ≤ t.handlesLeft + t.cardsLeft
    omega
  | decline phase continued =>
    have hpos := handle phase
    have hplay := during phase rfl
    have hnext : t'.toCome = t.handlesLeft - 1 + t.cardsLeft :=
      (Continued.toCome_le (t := t.note _ _) hplay.position_le continued).2
        (ha.asked (Or.inl phase)) (hplay.more (Or.inl phase))
    rw [hnext, toCome, phase]
    show t.handlesLeft - 1 + t.cardsLeft + 1 ≤ t.handlesLeft + t.cardsLeft
    omega
  | card phase c =>
    have hcards := (during phase rfl).cardsLeft_pos phase
    have hafter : (t.afterCard c).cardsLeft + 1 = t.cardsLeft := by
      rw [cardsLeft] at hcards
      show t.players * Rules.handSize t.players - (t.players * t.tricksDone + (t.position + 1)) + 1
        = t.players * Rules.handSize t.players - (t.players * t.tricksDone + t.position)
      omega
    have hhandles : (t.afterCard c).handlesLeft = t.handlesLeft - 1 := by
      show (if t.tricksDone = 0 then t.players - (t.position + 1) else 0) = _
      rw [handlesLeft]
      split <;> omega
    rw [toCome, toCome, phase]
    show (t.afterCard c).handlesLeft + (t.afterCard c).cardsLeft + 1
      ≤ t.handlesLeft - 1 + t.cardsLeft
    omega
  | goOn phase continued =>
    rcases phase with phase | phase | phase
    · rw [toCome.eq_def t, phase]
      exact (continued.toCome_le (during phase rfl).position_le).1
    · -- The seat has been asked, and so it is not asked again.
      have hplay := during phase rfl
      have hnext := (continued.toCome_le hplay.position_le).2 (ha.asked (Or.inr phase))
        (hplay.more (Or.inr (Or.inl phase)))
      rw [hnext, toCome, phase]
      exact Nat.le_refl _
    · rw [toCome.eq_def t, phase]
      exact (continued.toCome_le (during phase rfl).position_le).1
  | nextTrick phase _ continued =>
    rw [toCome.eq_def t, phase]
    exact (continued.toCome_le (during phase rfl).position_le).1
  | finish phase =>
    rw [phase]
    exact Nat.zero_le _

end Steps

/-! ## Acknowledging -/

section Acknowledging

variable {t t' : Table} {files : Files}

/-- What an acknowledgement of a table that does not rest may lead to. -/
inductive Acknowledged (t : Table) : Table → Prop where
  | refused : Acknowledged t t
  | step {t' : Table} (step : Step t none t') : Acknowledged t t'
  | getReady (phase : t.phase = .awaitingPlayers) :
      Acknowledged t { t with phase := .awaitingReady }
  | deal (phase : t.phase = .awaitingReady) (d : Deal) (generator : Generator)
      (distribution : Distribution) :
      Acknowledged t { place { cleared t with generator } d with distribution }

theorem dealNext_acknowledged (h : t.Sound) (phase : t.phase = .awaitingReady)
    (after : answered Refusal.givesUp ((dealNext files).run t) = some t') : Acknowledged t t' := by
  unfold dealNext at after
  rw [get_bind_run, EStateM.run_bind, EStateM.run_adaptExcept] at after
  rcases newDeal_complete h.supported files t.distribution with ⟨used, d, g, hrun, _⟩ | ⟨t₁, hrun⟩
  · rw [hrun] at after
    cases after
    exact .deal phase d g _
  · rw [hrun] at after
    cases after

theorem acknowledge_acknowledged (h : t.Sound) (busy : t.phase.isResting = false)
    (after : answered Refusal.givesUp ((acknowledge files).run t) = some t') :
    Acknowledged t t' := by
  by_cases deal : t.phase.inDeal
  · have ready : t.phase ≠ .awaitingReady := fun hp => by
      rw [hp] at deal
      cases deal
    have going : t.phase.endsDeal = false := by
      revert busy
      cases t.phase <;> decide
    rcases (acknowledge_plays h files ready).granted_or after with ⟨transition, granted⟩ | rfl
    · exact .step (acknowledge_step deal going granted)
    · exact .refused
  · unfold acknowledge at after
    rw [get_bind_run] at after
    cases hp : t.phase with
    | awaitingPlayers =>
      rw [hp] at after
      cases after
      exact .getReady hp
    | awaitingReady =>
      rw [hp] at after
      exact dealNext_acknowledged h hp after
    | stopped =>
      rw [hp] at busy
      cases busy
    | _ =>
      rw [hp] at deal
      exact absurd rfl deal

/-- **Acknowledging brings no decision back.**  A deal has been counted before it is dealt. -/
theorem Acknowledged.toCome_le (h : t.Sound) (ha : t.Asking) (hack : Acknowledged t t') :
    t'.toCome ≤ t.toCome := by
  cases hack with
  | refused => exact Nat.le_refl _
  | step hstep => exact (Nat.le_add_right _ _).trans (hstep.toCome_le h ha)
  | getReady phase =>
    rw [toCome, toCome, phase]
    exact Nat.le_refl _
  | deal phase d generator distribution =>
    obtain ⟨current, dealer, heq⟩ := place_shape { cleared t with generator } d
    rw [heq, toCome, toCome, phase]
    exact Nat.le_refl _

/-- Nobody stops a game by acknowledging. -/
theorem Acknowledged.going (busy : t.phase.isResting = false) (hack : Acknowledged t t') :
    t'.phase ≠ .stopped := by
  intro stopped
  cases hack with
  | refused =>
    rw [stopped] at busy
    cases busy
  | step hstep =>
    have deal := hstep.inDeal
    rw [stopped] at deal
    cases deal
  | getReady => cases stopped
  | deal phase d generator distribution =>
    obtain ⟨current, dealer, heq⟩ := place_shape { cleared t with generator } d
    rw [heq] at stopped
    cases stopped

/-- What acknowledging keeps on the way from a table to one that rests. -/
structure Onward (t t' : Table) : Prop where
  reached : Reachable t'
  toCome_le : t'.toCome ≤ t.toCome
  stopped_iff : t'.phase = .stopped ↔ t.phase = .stopped

/-- **Acknowledging goes on until the table rests.** -/
theorem Reachable.acknowledgeAll (h : Reachable t)
    (returns : t.phase = .awaitingPlayers ∨ t.phase = .awaitingReady → t.DealingReturns)
    (files : Files) : ∃ transition t', (acknowledgeAll files).run t = .ok transition t'
      ∧ t'.phase.isResting ∧ Onward t t' := by
  have supplied : t.phase = .awaitingPlayers ∨ t.phase = .awaitingReady →
      t.Supplied files t.distribution := fun idle _ => returns idle
  obtain ⟨transition, t', hrun, hrests⟩ :=
    acknowledgeWithin_rests h.sound supplied t.turn t.phase.distance_le
  refine ⟨transition, t', hrun, hrests, ?_⟩
  refine acknowledgeWithin_keeps (P := Onward t) (fun t₁ t₂ before busy after => ?_)
    ⟨h, Nat.le_refl _, Iff.rfl⟩ (congrArg (answered Refusal.givesUp) hrun)
  have hack := acknowledge_acknowledged before.reached.sound busy after
  have going : t₁.phase ≠ .stopped := fun stopped => by
    rw [stopped] at busy
    cases busy
  exact {
    reached := before.reached.call files .acknowledge after
    toCome_le :=
      (hack.toCome_le before.reached.sound before.reached.asking).trans before.toCome_le
    stopped_iff := iff_of_false (hack.going busy) fun stopped =>
      going (before.stopped_iff.mpr stopped) }

end Acknowledging

end FrenchTarot.Table
