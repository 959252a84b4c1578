import FrenchTarot.Agent.Basic
import FrenchTarot.Proofs.Random.Range
import FrenchTarot.Proofs.Table.Reachable

/-!
# When the fallback is accepted

A seat that has to decide always has a fallback, and the table accepts it, with one exception.  A
discard has no trumps and no kings, and a taker may hold so many of them that hand and dog together
have too few other cards.  Then the first cards that may be discarded are not enough, and nothing
else is accepted either: the table cannot go on with the deal.

`fallback_accepted_iff` says that this is the only exception, for the fallback and for a bot of
either kind.  The other decisions are always at hand: any bid, any king, no handle, and one of the
legal cards, which a hand that is asked for a card has.  `lopsidedTable_refuses` shows a table that
has come to the exception.
-/

namespace FrenchTarot.Table

/-- The table takes a decision of a seat. -/
def Accepts (t : Table) (seat : Seat) (action : Action) : Prop :=
  ∃ transition t', (apply seat action).run t = .ok transition t'

/-- The taker has to discard more cards than there are that may be discarded. -/
def LacksDiscards (t : Table) : Prop :=
  t.phase = .awaitingDiscard ∧ ∃ taker, t.deal.bid.taker = some taker ∧
    ((t.hand taker ++ t.deal.dog).filter Cards.discardable).length < Rules.dogSize t.players

/-! ## What is accepted -/

/-- Telling what has happened is never refused. -/
theorem report_ok_iff {α : Type} {x : TableM α} {event : α → Event} {t : Table} :
    (∃ transition t', (x >>= fun a => report (event a)).run t = .ok transition t') ↔
      ∃ a t', x.run t = .ok a t' := by
  rw [EStateM.run_bind]
  cases x.run t with
  | ok a t' => exact ⟨fun _ => ⟨a, t', rfl⟩, fun _ => ⟨_, t', rfl⟩⟩
  | error e t' =>
    constructor <;> rintro ⟨_, _, h⟩ <;> cases h

theorem accepts_bid {t : Table} (phase : t.phase = .awaitingBid) (contract : Contract)
    (slam : Bool) : t.Accepts t.current (.bid contract slam) := by
  refine report_ok_iff.mpr ?_
  rw [placeBid_run, if_pos phase, if_pos rfl]
  exact ⟨_, _, rfl⟩

theorem accepts_kingCall {t : Table} (phase : t.phase = .awaitingKingCall) {taker : Seat}
    (isTaker : t.deal.bid.taker = some taker) {card : Card}
    (callable : Cards.canCall (t.hand taker).statistics card) :
    t.Accepts taker (.kingCall card) := by
  refine report_ok_iff.mpr ?_
  rw [callCard_run, if_pos phase, isTaker]
  dsimp only
  rw [if_pos rfl, if_pos callable]
  exact ⟨_, _, rfl⟩

theorem accepts_discard {t : Table} (phase : t.phase = .awaitingDiscard) {taker : Seat}
    (isTaker : t.deal.bid.taker = some taker) {cards : Cards}
    (allowed : (t.hand taker).isDiscard t.deal.dog cards t.players) :
    t.Accepts taker (.discard cards) := by
  refine report_ok_iff.mpr ?_
  rw [layDiscard_run, if_pos phase, isTaker]
  dsimp only
  rw [if_pos rfl, if_pos allowed]
  exact ⟨_, _, rfl⟩

theorem accepts_noHandle {t : Table} (phase : t.phase = .awaitingHandle)
    (more : t.position < t.players) : t.Accepts t.current .noHandle := by
  obtain ⟨transition, t', hrun⟩ := continuePlay_ok (t := t.note t.current .noHandle) more
  refine ⟨transition, t', ?_⟩
  show (declineHandle t.current).run t = _
  rw [declineHandle_run, if_pos phase, if_pos rfl, hrun]

theorem accepts_card {t : Table} (phase : t.phase = .awaitingCard) {card : Card}
    (allowed : (t.hand t.current).canPlay t.trick card) : t.Accepts t.current (.card card) := by
  refine report_ok_iff.mpr ?_
  rw [playCard_run, if_pos phase, if_pos rfl, if_pos allowed]
  exact ⟨_, _, rfl⟩

/-- **Where a discard is awaited, only a discard is accepted.** -/
theorem isDiscard_of_accepts {t : Table} (phase : t.phase = .awaitingDiscard) {seat : Seat}
    {action : Action} (h : t.Accepts seat action) :
    ∃ taker cards, t.deal.bid.taker = some taker ∧
      (t.hand taker).isDiscard t.deal.dog cards t.players := by
  cases action with
  | bid contract slam =>
    obtain ⟨_, _, h⟩ := report_ok_iff.mp h
    rw [placeBid_run, if_neg (by rw [phase]; decide)] at h
    cases h
  | kingCall card =>
    obtain ⟨_, _, h⟩ := report_ok_iff.mp h
    rw [callCard_run, if_neg (by rw [phase]; decide)] at h
    cases h
  | discard cards =>
    obtain ⟨_, _, h⟩ := report_ok_iff.mp h
    rw [layDiscard_run, if_pos phase] at h
    cases htaker : t.deal.bid.taker with
    | none =>
      rw [htaker] at h
      cases h
    | some taker =>
      rw [htaker] at h
      dsimp only at h
      split at h
      · split at h
        · rename_i allowed
          exact ⟨taker, cards, rfl, allowed⟩
        · cases h
      · cases h
  | handle cards =>
    obtain ⟨_, _, h⟩ := report_ok_iff.mp h
    rw [showHandle_run, if_neg (by rw [phase]; decide)] at h
    cases h
  | noHandle =>
    obtain ⟨_, _, h⟩ := h
    rw [show apply seat .noHandle = declineHandle seat from rfl, declineHandle_run,
      if_neg (by rw [phase]; decide)] at h
    cases h
  | card card =>
    obtain ⟨_, _, h⟩ := report_ok_iff.mp h
    rw [playCard_run, if_neg (by rw [phase]; decide)] at h
    cases h

/-- With too few cards that may be discarded, no decision of anybody is accepted. -/
theorem LacksDiscards.refuses {t : Table} (h : t.LacksDiscards) (seat : Seat) (action : Action) :
    ¬ t.Accepts seat action := by
  obtain ⟨phase, taker, htaker, hfew⟩ := h
  intro haccepts
  obtain ⟨taker', cards, htaker', allowed⟩ := isDiscard_of_accepts phase haccepts
  rw [htaker] at htaker'
  cases htaker'
  have := Cards.dogSize_le_of_isDiscard allowed
  omega

/-! ## The fallback -/

/-- A seat that is asked for a card has one. -/
theorem InPlay.hand_ne_nil {t : Table} (h : t.InPlay) (hs : t.Seated)
    (phase : t.phase = .awaitingCard) : t.hand t.current ≠ [] := by
  obtain ⟨leader, r⟩ := h.round
  obtain ⟨hlt, hnot⟩ := r.current_turn hs.supported (h.more (Or.inr (Or.inr phase)))
  have hsize := r.hand_length t.current hlt
  rw [if_neg hnot] at hsize
  have hleft := h.unfinished (by rw [phase]; decide) (by rw [phase]; decide)
  intro hnil
  rw [hnil, List.length_nil] at hsize
  omega

/-- The first legal card is the fallback, and every legal card is accepted. -/
theorem fallback_card {t : Table} (h : t.InPlay) (hs : t.Seated) (phase : t.phase = .awaitingCard) :
    ∃ card, (t.legal t.current).head? = some card ∧ t.legal t.current ≠ []
      ∧ ∀ c ∈ t.legal t.current, t.Accepts t.current (.card c) := by
  have hne : t.legal t.current ≠ [] := Cards.legal_ne_nil t.trick (h.hand_ne_nil hs phase)
  exact ⟨(t.legal t.current).head hne, List.head?_eq_some_head hne, hne,
    fun c hc => accepts_card phase (Cards.mem_legal.mp hc)⟩

/-- **Whoever has to decide has a fallback, and it is accepted unless there are too few cards to
discard.** -/
theorem Sound.fallback {t : Table} (h : t.Sound) (awaits : t.phase.awaitsAction) :
    ∃ seat action, t.acting? = some seat ∧ t.defaultAction? = some action
      ∧ (¬ t.LacksDiscards → t.Accepts seat action) := by
  cases phase : t.phase with
  | awaitingBid =>
    have hacting : t.acting? = some t.current := by rw [acting?, phase]
    refine ⟨t.current, .bid ((t.hand t.current).chooseBid t.deal.bid.contract) false, hacting, ?_,
      fun _ => accepts_bid phase _ _⟩
    rw [defaultAction?, hacting, phase]
    rfl
  | awaitingKingCall =>
    have hb := h.before (by rw [phase]; rfl)
    obtain ⟨taker, _, htaker, _⟩ := hb.bid.taken (hb.taken (by simp [phase]))
    have hacting : t.acting? = some taker := by rw [acting?, phase, htaker]
    refine ⟨taker, .kingCall (t.hand taker).firstCall, hacting, ?_, fun _ =>
      accepts_kingCall phase htaker (Cards.canCall_firstCall (t.hand taker))⟩
    rw [defaultAction?, hacting, phase]
    rfl
  | awaitingDiscard =>
    have hb := h.before (by rw [phase]; rfl)
    obtain ⟨taker, _, htaker, hlt, _⟩ := hb.bid.taken (hb.taken (by simp [phase]))
    have hacting : t.acting? = some taker := by rw [acting?, phase, htaker]
    refine ⟨taker, .discard ((t.hand taker).firstDiscard t.deal.dog t.players), hacting, ?_, ?_⟩
    · rw [defaultAction?, hacting, phase]
      rfl
    · intro hlacks
      refine accepts_discard phase htaker
        (Cards.isDiscard_firstDiscard (hb.nodup_hand_dog hlt) (Nat.le_of_not_lt fun hfew => ?_))
      exact hlacks ⟨phase, taker, htaker, hfew⟩
  | awaitingHandle =>
    have hd := h.during (by rw [phase]; rfl)
    have hacting : t.acting? = some t.current := by rw [acting?, phase]
    refine ⟨t.current, .noHandle, hacting, ?_,
      fun _ => accepts_noHandle phase (hd.more (Or.inl phase))⟩
    rw [defaultAction?, hacting, phase]
    rfl
  | awaitingCard =>
    have hd := h.during (by rw [phase]; rfl)
    have hacting : t.acting? = some t.current := by rw [acting?, phase]
    obtain ⟨card, hhead, hne, hall⟩ := fallback_card hd h.toSeated phase
    refine ⟨t.current, .card card, hacting, ?_, fun _ => hall card (List.mem_of_head? hhead)⟩
    rw [defaultAction?, hacting, phase]
    show (t.legal t.current).head?.map Action.card = _
    rw [hhead]
    rfl
  | _ =>
    rw [phase] at awaits
    cases awaits

/-- **A bot decides like the fallback, or plays any legal card.** -/
theorem Sound.bot {t : Table} (h : t.Sound) {seat : Seat} {action : Action}
    (hacting : t.acting? = some seat) (hdefault : t.defaultAction? = some action)
    (haccepts : ¬ t.LacksDiscards → t.Accepts seat action) (b : Bot) :
    ∃ choice, (b.decide t seat).2 = some choice
      ∧ (¬ t.LacksDiscards → t.Accepts seat choice) := by
  unfold Bot.decide
  by_cases phase : t.phase = .awaitingCard
  · -- Only for a card does a bot go its own way.
    rw [if_neg (fun hne => hne phase)]
    have hd := h.during (by rw [phase]; rfl)
    have hseat : seat = t.current := by
      rw [acting?, phase] at hacting
      cases hacting
      rfl
    subst hseat
    obtain ⟨card, hhead, hne, hall⟩ := fallback_card hd h.toSeated phase
    cases b.policy with
    | firstLegal =>
      refine ⟨.card card, ?_, fun _ => hall card (List.mem_of_head? hhead)⟩
      dsimp only
      rw [hhead]
      rfl
    | randomLegal =>
      obtain ⟨chosen, hmem, hchosen⟩ := Generator.choose_mem hne b.generator
      refine ⟨.card chosen, ?_, fun _ => hall chosen hmem⟩
      dsimp only
      rw [hchosen]
      rfl
  · rw [if_pos phase]
    exact ⟨action, hdefault, haccepts⟩

/-- **The fallback is accepted exactly when there are enough cards to discard, and so is what a bot
decides; otherwise nothing is accepted.** -/
theorem fallback_accepted_iff {t : Table} (h : Reachable t) (awaits : t.phase.awaitsAction) :
    ∃ seat action, t.acting? = some seat ∧ t.defaultAction? = some action
      ∧ (t.Accepts seat action ↔ ¬ t.LacksDiscards)
      ∧ (∀ b : Bot, ∃ choice, (b.decide t seat).2 = some choice
        ∧ (t.Accepts seat choice ↔ ¬ t.LacksDiscards))
      ∧ (t.LacksDiscards → ∀ (anyone : Seat) (anything : Action), ¬ t.Accepts anyone anything) := by
  obtain ⟨seat, action, hacting, hdefault, haccepts⟩ := h.sound.fallback awaits
  refine ⟨seat, action, hacting, hdefault, ⟨fun ha hl => hl.refuses _ _ ha, haccepts⟩, ?_,
    fun hl => hl.refuses⟩
  intro b
  obtain ⟨choice, hchoice, hbot⟩ := h.sound.bot hacting hdefault haccepts b
  exact ⟨choice, hchoice, fun ha hl => hl.refuses _ _ ha, hbot⟩

/-- A table where the first seat is asked for a bid. -/
theorem trialAuction_fallback : ∃ seat action, trialAuction.acting? = some seat
    ∧ trialAuction.defaultAction? = some action
    ∧ (trialAuction.Accepts seat action ↔ ¬ trialAuction.LacksDiscards)
    ∧ (∀ b : Bot, ∃ choice, (b.decide trialAuction seat).2 = some choice
      ∧ (trialAuction.Accepts seat choice ↔ ¬ trialAuction.LacksDiscards))
    ∧ (trialAuction.LacksDiscards →
      ∀ (anyone : Seat) (anything : Action), ¬ trialAuction.Accepts anyone anything) :=
  fallback_accepted_iff trialAuction_reachable (by rw [trial_phases.1]; rfl)

/-! ## A deal without enough discards -/

/-- A deal file for four players.  The first one holds trumps only, and the dog has the last trumps
and two kings. -/
def lopsidedText : String :=
  "[\"3\",\"South\",\"18-T;19-T;20-T;21-T;14-S;14-H\"," ++
  "\"00-T;01-T;02-T;03-T;04-T;05-T;06-T;07-T;08-T;" ++
  "09-T;10-T;11-T;12-T;13-T;14-T;15-T;16-T;17-T\"," ++
  "\"14-D;14-C;01-S;02-S;03-S;04-S;05-S;06-S;07-S;" ++
  "08-S;09-S;10-S;11-S;12-S;13-S;01-H;02-H;03-H\"," ++
  "\"04-H;05-H;06-H;07-H;08-H;09-H;10-H;11-H;12-H;" ++
  "13-H;01-D;02-D;03-D;04-D;05-D;06-D;07-D;08-D\"," ++
  "\"09-D;10-D;11-D;12-D;13-D;01-C;02-C;03-C;04-C;" ++
  "05-C;06-C;07-C;08-C;09-C;10-C;11-C;12-C;13-C\"," ++
  "\"\"]"

/-- The trumps, the kings, and the other cards. -/
def lopsidedDeck : Cards :=
  (List.range 22).map (⟨·, .trumps⟩) ++ Suit.ordinary.map (⟨Rank.king, ·⟩) ++
    Suit.ordinary.flatMap fun s => (List.range 13).map fun r => ⟨r + 1, s⟩

/-- The deal of the file. -/
def lopsidedDeal : Deal where
  hands := ⟨4, ⟨lopsidedDeck.take 18, (lopsidedDeck.drop 24).take 18,
    (lopsidedDeck.drop 42).take 18, (lopsidedDeck.drop 60).take 18, []⟩⟩
  dog := (lopsidedDeck.drop 18).take 6
  firstPlayer := some .south
  seed := none

-- The text becomes a list by name: computing its characters takes far longer than reading them.
set_option maxRecDepth 10000 in
theorem ofText_lopsidedText : Deal.ofText lopsidedText = .ok lopsidedDeal := by
  unfold Deal.ofText Json.readAll lopsidedText
  simp only [String.toList_append]
  repeat rw [String.toList_ofList]
  decide +kernel

/-- A table of four. -/
def tableOfFour : Table := (ofSeed 0).callAll [.create 4]

/-- A table of four where the first seat takes the lopsided deal. -/
def lopsidedTable : Table :=
  (place (cleared tableOfFour) lopsidedDeal).callAll
    [.acknowledge, .placeBid .south .take false, .acknowledge, .placeBid .east .pass false,
      .acknowledge, .placeBid .north .pass false, .acknowledge, .placeBid .west .pass false,
      .acknowledge, .acknowledge]

/-- The file deals to any table of four. -/
theorem ofFile_lopsided {t : Table} (four : t.players = 4) :
    Distribution.ofFile (fun _ => some lopsidedText) t.players "" = .ok lopsidedDeal :=
  Distribution.ofFile_eq_ok rfl ofText_lopsidedText four.symm

theorem lopsidedStart_reachable : Reachable (place (cleared tableOfFour) lopsidedDeal) := by
  have hfour : Reachable tableOfFour := by
    rw [tableOfFour]
    exact (Reachable.start 0).callAll _
  have hplayers : tableOfFour.players = 4 := by decide +kernel
  exact hfour.newDeal_ofFile (ofFile_lopsided hplayers)

theorem lopsidedTable_reachable : Reachable lopsidedTable := by
  rw [lopsidedTable]
  exact lopsidedStart_reachable.callAll _

theorem lopsidedTable_lacksDiscards : lopsidedTable.LacksDiscards := by
  have h : lopsidedTable.phase = .awaitingDiscard ∧ lopsidedTable.deal.bid.taker = some .south ∧
      ((lopsidedTable.hand .south ++ lopsidedTable.deal.dog).filter Cards.discardable).length
        < Rules.dogSize lopsidedTable.players := by
    decide +kernel
  exact ⟨h.1, .south, h.2⟩

/-- **A table that waits for a discard and accepts nothing.** -/
theorem lopsidedTable_refuses : Reachable lopsidedTable ∧ lopsidedTable.phase.awaitsAction
    ∧ ∀ (anyone : Seat) (anything : Action), ¬ lopsidedTable.Accepts anyone anything := by
  refine ⟨lopsidedTable_reachable, ?_, lopsidedTable_lacksDiscards.refuses⟩
  rw [lopsidedTable_lacksDiscards.1]
  rfl

end FrenchTarot.Table
