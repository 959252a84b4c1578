import FrenchTarot.Proofs.Agent.Pending
import FrenchTarot.Proofs.Table.Progress

/-!
# Playing a deal comes to an end

`playDeal` goes from round to round.  In each of them the table is acknowledged until it rests, and
then a decision is taken, or a millisecond passes because the bots have to pause.  A decision takes
away one of those that are still to come, and after it there is at most one pause to be waited for.
`effort` puts the two together, and every round makes it less.

So the limit on the rounds is never reached, and `playDeal` does what it would do without a limit:
`playDeal_classified` says how it ends.  A deal is played and counted, or everybody passes, or the
game had been stopped.  The only refusal is that of a discard, and then there is no discard that
could be made.
-/

namespace FrenchTarot

/-! ## Bots without delay -/

/-- Every seat is empty, or a bot plays that takes no time. -/
def Roster.Immediate (r : Roster) : Prop :=
  ∀ s a, r.agent? s = some a → ∃ b : Bot, a = .bot b ∧ b.minDelay = 0 ∧ b.maxDelay = 0

theorem Roster.empty_immediate (seats : Nat) : (empty seats).Immediate := by
  intro s a ha
  have hnone : (empty seats).agent? s = none := by
    unfold agent? empty
    rw [List.getElem?_replicate]
    split <;> rfl
  rw [hnone] at ha
  cases ha

theorem Roster.Immediate.setBot {r : Roster} (h : r.Immediate) (s : Seat) {b : Bot}
    (least : b.minDelay = 0) (most : b.maxDelay = 0) :
    (r.setAgent s (some (.bot b))).Immediate := by
  intro t a ha
  rw [agent?_setAgent] at ha
  split at ha
  · cases ha
    exact ⟨b, rfl, least, most⟩
  · exact h t a ha

theorem Roster.bots_immediate (players : Nat) (seed : UInt64) : (bots players seed).Immediate :=
  List.foldlRecOn (motive := Roster.Immediate) _ _ (empty_immediate players)
    fun _ h s _ => h.setBot s rfl rfl

/-- What a bot draws for its decision changes no delay. -/
theorem Bot.decide_delays (b : Bot) (t : Table) (seat : Seat) :
    (b.decide t seat).1.minDelay = b.minDelay ∧ (b.decide t seat).1.maxDelay = b.maxDelay := by
  unfold Bot.decide
  split
  · exact ⟨rfl, rfl⟩
  · cases b.policy <;> exact ⟨rfl, rfl⟩

/-- A bot without delay decides at once. -/
theorem Bot.turn_immediate {b : Bot} (least : b.minDelay = 0) (most : b.maxDelay = 0) {t : Table}
    {seat : Seat} (asked : t.acting? = some seat) (now : Nat) :
    b.turn t seat now = { b with waitsUntil := none }.decide t seat := by
  have hdelay : b.drawDelay = (0, b) := by
    unfold Bot.drawDelay
    rw [least, most]
    rfl
  unfold Bot.turn
  rw [if_neg fun hne => hne asked, hdelay]
  rfl

namespace Table

/-! ## Decisions -/

variable {t : Table} {seat : Seat} {action : Action}

/-- **A decision that is accepted is one less to come.** -/
theorem Reachable.accepted (h : Reachable t) (awaits : t.phase.awaitsAction)
    (accepts : t.Accepts seat action) : ∃ transition t',
      (apply seat action).run t = .ok transition t' ∧ Reachable t' ∧ t'.phase.inDeal
        ∧ t'.toCome < t.toCome := by
  obtain ⟨transition, t', hrun⟩ := accepts
  have hstep := apply_step hrun
  have hless := hstep.toCome_le h.sound h.asking
  rw [if_pos awaits] at hless
  refine ⟨transition, t', hrun, ?_, hstep.inDeal, hless⟩
  exact h.call (fun _ => none) (.apply seat action) (congrArg (answered Refusal.givesUp) hrun)

/-- **Where too few cards can be discarded, the fallback is refused.** -/
theorem LacksDiscards.fallback_refused (h : t.LacksDiscards) (asked : t.acting? = some seat)
    (fallback : t.defaultAction? = some action) :
    ∃ cards, (apply seat action).run t = .error (.invalidDiscard cards) t := by
  obtain ⟨phase, taker, htaker, few⟩ := h
  have hseat : t.acting? = some taker := by rw [acting?, phase, htaker]
  obtain rfl : taker = seat := Option.some.inj (hseat.symm.trans asked)
  rw [defaultAction?, hseat, phase] at fallback
  cases fallback
  have refused : ¬ (t.hand taker).isDiscard t.deal.dog
      ((t.hand taker).firstDiscard t.deal.dog t.players) t.players := fun allowed => by
    have := Cards.dogSize_le_of_isDiscard allowed
    omega
  refine ⟨(t.hand taker).firstDiscard t.deal.dog t.players, ?_⟩
  rw [apply, EStateM.run_bind, layDiscard_run, if_pos phase, htaker]
  dsimp only
  rw [if_pos rfl, if_neg refused]

/-- **A bot without delay makes a choice that is accepted if any is.**  For a discard it makes the
same choice as the fallback. -/
theorem Sound.botTurn (h : t.Sound) (asked : t.acting? = some seat)
    (fallback : t.defaultAction? = some action)
    (accepts : ¬ t.LacksDiscards → t.Accepts seat action) {b : Bot} (least : b.minDelay = 0)
    (most : b.maxDelay = 0) (now : Nat) :
    ∃ b' choice, b.turn t seat now = (b', some choice) ∧ b'.minDelay = 0 ∧ b'.maxDelay = 0
      ∧ (¬ t.LacksDiscards → t.Accepts seat choice) ∧ (t.LacksDiscards → choice = action) := by
  obtain ⟨choice, hchoice, allowed⟩ := h.bot asked fallback accepts { b with waitsUntil := none }
  obtain ⟨hmin, hmax⟩ := Bot.decide_delays { b with waitsUntil := none } t seat
  rw [Bot.turn_immediate least most asked]
  refine ⟨_, choice, Prod.ext rfl hchoice, hmin.trans least, hmax.trans most, allowed, ?_⟩
  intro lacks
  have hdecide : (Bot.decide { b with waitsUntil := none } t seat).2 = t.defaultAction? := by
    rw [Bot.decide, if_pos (by rw [lacks.1]; decide)]
  exact Option.some.inj ((hchoice.symm.trans hdecide).trans fallback)

end Table

namespace Game

/-! ## Turns -/

variable {g : Game} {seat : Seat} {action choice : Action}

theorem onTable_run {α : Type} (x : TableM α) (g : Game) :
    (onTable x).run g = match x.run g.table with
      | .ok a table => .ok a { g with table }
      | .error e table => .error e { g with table } := rfl

theorem playDefault_run (asked : g.table.acting? = some seat)
    (fallback : g.table.defaultAction? = some action) :
    playDefault.run g = match (Table.apply seat action).run g.table with
      | .ok _ table => .ok true { g with table }
      | .error e table => .error e { g with table } := by
  unfold playDefault
  rw [EStateM.run_bind, EStateM.run_get]
  dsimp only
  rw [EStateM.run_bind, EStateM.run_get]
  dsimp only
  rw [asked, fallback]
  dsimp only
  rw [EStateM.run_bind, onTable_run]
  cases (Table.apply seat action).run g.table <;> rfl

/-- What comes of a decision: it is taken, or there is no discard that could be made. -/
inductive Decides (g : Game) : EStateM.Result Refusal Game Bool → Prop where
  | taken {t : Table} (reached : Table.Reachable t) (deal : t.phase.inDeal)
      (fewer : t.toCome < g.table.toCome) : Decides g (.ok true { g with table := t })
  | stuck (cards : Cards) (lacks : g.table.LacksDiscards) :
      Decides g (.error (.invalidDiscard cards) g)

theorem playDefault_decides (h : Table.Reachable g.table) (awaits : g.table.phase.awaitsAction)
    (asked : g.table.acting? = some seat) (fallback : g.table.defaultAction? = some action)
    (accepts : ¬ g.table.LacksDiscards → g.table.Accepts seat action) :
    Decides g (playDefault.run g) := by
  rw [playDefault_run asked fallback]
  by_cases lacks : g.table.LacksDiscards
  · obtain ⟨cards, hrun⟩ := lacks.fallback_refused asked fallback
    rw [hrun]
    exact .stuck cards lacks
  · obtain ⟨transition, t, hrun, reached, deal, fewer⟩ := h.accepted awaits (accepts lacks)
    rw [hrun]
    exact .taken reached deal fewer

/-- A bot chooses what is accepted, or the fallback. -/
theorem submit_decides (h : Table.Reachable g.table) (awaits : g.table.phase.awaitsAction)
    (asked : g.table.acting? = some seat) (fallback : g.table.defaultAction? = some action)
    (accepts : ¬ g.table.LacksDiscards → g.table.Accepts seat choice)
    (same : g.table.LacksDiscards → choice = action) :
    Decides g ((submit seat choice).run g) := by
  rw [submit_run]
  by_cases lacks : g.table.LacksDiscards
  · obtain ⟨cards, hrun⟩ := lacks.fallback_refused asked fallback
    rw [same lacks, hrun]
    exact playDefault_decides h awaits asked fallback fun enough => absurd lacks enough
  · obtain ⟨transition, t, hrun, reached, deal, fewer⟩ := h.accepted awaits (accepts lacks)
    rw [hrun]
    exact .taken reached deal fewer

/-- Nobody decides for an empty seat. -/
theorem takeTurn_empty (asked : g.table.acting? = some seat)
    (empty : g.roster.agent? seat = none) : takeTurn.run g = .ok false g := by
  unfold takeTurn
  rw [EStateM.run_bind, EStateM.run_get]
  dsimp only
  rw [asked]
  dsimp only
  rw [empty]
  rfl

/-- Bots that have to pause are not asked. -/
theorem takeTurn_pausing {b : Bot} (asked : g.table.acting? = some seat)
    (bot : g.roster.agent? seat = some (.bot b))
    (pausing : g.roster.waitsUntil.any (g.clock < ·)) : takeTurn.run g = .ok false g := by
  unfold takeTurn
  rw [EStateM.run_bind, EStateM.run_get]
  dsimp only
  rw [asked]
  dsimp only
  rw [bot]
  dsimp only
  rw [if_pos]
  · rfl
  · rw [pausing]
    rfl

/-- **A bot that decides makes its decision, and then the bots may have to pause.** -/
theorem takeTurn_bot {b b' : Bot} (asked : g.table.acting? = some seat)
    (bot : g.roster.agent? seat = some (.bot b))
    (pausing : g.roster.waitsUntil.any (g.clock < ·) = false)
    (decided : b.turn g.table seat g.clock = (b', some choice)) :
    takeTurn.run g =
      match (submit seat choice).run
          { g with roster := g.roster.setAgent seat (some (.bot b')) } with
      | .ok acted h => .ok acted <|
        if acted && 0 < g.roster.pause then
          { h with roster := { h.roster with waitsUntil := some (g.clock + g.roster.pause) } }
        else h
      | .error e h => .error e h := by
  have hturn : (Agent.bot b).turn g.table seat g.clock = (.bot b', some choice) := by
    rw [Agent.turn, decided]
  unfold takeTurn
  rw [EStateM.run_bind, EStateM.run_get]
  dsimp only
  rw [asked]
  dsimp only
  rw [bot]
  dsimp only
  rw [pausing, hturn, Bool.and_false, if_neg Bool.false_ne_true, EStateM.run_bind, EStateM.run_set]
  dsimp only
  rw [EStateM.run_bind]
  cases (submit seat choice).run { g with roster := g.roster.setAgent seat (some (.bot b')) } with
  | error e h => rfl
  | ok acted h =>
    have hkind : decide ((Agent.bot b).kind = AgentKind.bot) = true := rfl
    dsimp only
    rw [hkind, Bool.and_true]
    split <;> rfl

/-! ## Rounds -/

section Rounds

variable {files : Files} {transition : Transition} {t : Table}

theorem playWithin_played
    (acknowledged : (Table.acknowledgeAll files).run g.table = .ok transition t)
    (phase : t.phase = .dealEnded) {points : Points} (counted : t.points = some points)
    (limit : Nat) :
    (playWithin files (limit + 1)).run g = .ok (.played points) { g with table := t } := by
  rw [playWithin, EStateM.run_bind, onTable_run, acknowledged]
  dsimp only
  rw [EStateM.run_bind, EStateM.run_get]
  dsimp only
  rw [phase]
  dsimp only
  rw [counted]
  rfl

theorem playWithin_notPlayed
    (acknowledged : (Table.acknowledgeAll files).run g.table = .ok transition t)
    (phase : t.phase = .allPassed ∨ t.phase = .stopped) (limit : Nat) :
    (playWithin files (limit + 1)).run g = .ok .notPlayed { g with table := t } := by
  rw [playWithin, EStateM.run_bind, onTable_run, acknowledged]
  dsimp only
  rw [EStateM.run_bind, EStateM.run_get]
  dsimp only
  rcases phase with phase | phase <;> rw [phase] <;> rfl

/-- Where somebody has to decide, a turn comes before the next round. -/
theorem playWithin_awaits
    (acknowledged : (Table.acknowledgeAll files).run g.table = .ok transition t)
    (awaits : t.phase.awaitsAction) (limit : Nat) :
    (playWithin files (limit + 1)).run g =
      (playTurn >>= fun _ => playWithin files limit).run { g with table := t } := by
  rw [playWithin, EStateM.run_bind, onTable_run, acknowledged]
  dsimp only
  rw [EStateM.run_bind, EStateM.run_get]
  dsimp only
  cases phase : t.phase with
  | dealEnded | allPassed | stopped =>
    rw [phase] at awaits
    cases awaits
  | _ => rfl

end Rounds

/-- A bound on the rounds: the decisions to come, with a pause after each, and the present pause. -/
def effort (g : Game) : Nat := g.table.toCome * (1 + g.roster.pause) + g.waiting

theorem effort_lt {g' : Game} (fewer : g'.table.toCome < g.table.toCome)
    (pause : g'.roster.pause = g.roster.pause)
    (soon : g'.waiting ≤ max g.waiting g.roster.pause) : g'.effort < g.effort := by
  have hone : (g'.table.toCome + 1) * (1 + g.roster.pause) ≤
      g.table.toCome * (1 + g.roster.pause) := Nat.mul_le_mul_right _ fewer
  rw [Nat.succ_mul] at hone
  rw [effort, effort, pause]
  omega

/-- A game in which a deal can be played: the bots take no time, and a deal can be had if one has to
be dealt first. -/
structure Ready (g : Game) : Prop where
  reached : Table.Reachable g.table
  immediate : g.roster.Immediate
  returns : g.table.phase = .awaitingPlayers ∨ g.table.phase = .awaitingReady →
    g.table.DealingReturns

/-- A game that is played on after another one, and is stopped only if that one was. -/
structure Follows (g g' : Game) : Prop where
  ready : g'.Ready
  stopped_iff : g'.table.phase = .stopped ↔ g.table.phase = .stopped

theorem Follows.trans {g' g'' : Game} (h : Follows g g') (h' : Follows g' g'') : Follows g g'' :=
  ⟨h'.ready, h'.stopped_iff.trans h.stopped_iff⟩

/-- A decision leads from a deal to the same deal, so that there is none to be dealt. -/
theorem Follows.of_inDeal {g' : Game} (awaits : g.table.phase.awaitsAction)
    (reached : Table.Reachable g'.table) (immediate : g'.roster.Immediate)
    (deal : g'.table.phase.inDeal) : Follows g g' := by
  refine ⟨⟨reached, immediate, fun idle => ?_⟩, iff_of_false (fun stopped => ?_) fun stopped => ?_⟩
  · rcases idle with idle | idle <;> rw [idle] at deal <;> cases deal
  · rw [stopped] at deal
    cases deal
  · rw [stopped] at awaits
    cases awaits

/-- The pause after a decision is all that there is to wait for. -/
theorem waiting_pause (t : Table) (r : Roster) (now : Nat) :
    waiting ⟨t, { r with waitsUntil := some (now + r.pause) }, now⟩ = r.pause :=
  Nat.add_sub_cancel_left now r.pause

/-- What comes of a turn: the end of the deal is closer, or there is no discard to be made. -/
inductive Progresses (g : Game) : EStateM.Result Refusal Game PUnit → Prop where
  | closer {g' : Game} (follows : Follows g g') (less : g'.effort < g.effort) :
      Progresses g (.ok ⟨⟩ g')
  | stuck (cards : Cards) {g' : Game} (follows : Follows g g') (lacks : g'.table.LacksDiscards) :
      Progresses g (.error (.invalidDiscard cards) g')

/-- Where the seat has not decided, the bot gets its time, or the fallback is played. -/
theorem playTurn_untaken (untaken : takeTurn.run g = .ok false g)
    (asked : g.table.acting? = some seat) :
    playTurn.run g =
      if (g.roster.agent? seat).map Agent.kind = some .bot then wait.run g
      else match playDefault.run g with
        | .ok _ h => .ok ⟨⟩ h
        | .error e h => .error e h := by
  unfold playTurn
  rw [EStateM.run_bind, untaken]
  dsimp only
  rw [if_pos (show (!false) = true from rfl), EStateM.run_bind, EStateM.run_get]
  dsimp only
  rw [asked]
  dsimp only
  split
  · rfl
  · rw [EStateM.run_bind]
    cases playDefault.run g <;> rfl

/-- **The fallback is played for an empty seat.** -/
theorem playTurn_empty (h : g.Ready) (awaits : g.table.phase.awaitsAction)
    (asked : g.table.acting? = some seat) (fallback : g.table.defaultAction? = some action)
    (accepts : ¬ g.table.LacksDiscards → g.table.Accepts seat action)
    (empty : g.roster.agent? seat = none) : Progresses g (playTurn.run g) := by
  rw [playTurn_untaken (takeTurn_empty asked empty) asked, empty, Option.map_none, if_neg nofun]
  have hdecides := playDefault_decides h.reached awaits asked fallback accepts
  cases hrun : playDefault.run g with
  | ok acted g' =>
    rw [hrun] at hdecides
    cases hdecides with
    | taken reached deal fewer =>
      exact .closer (.of_inDeal awaits reached h.immediate deal)
        (effort_lt fewer rfl (Nat.le_max_left _ _))
  | error e g' =>
    rw [hrun] at hdecides
    cases hdecides with
    | stuck cards lacks => exact .stuck cards ⟨h, Iff.rfl⟩ lacks

/-- **A bot that has to pause is waited for.** -/
theorem playTurn_pausing {b : Bot} (h : g.Ready) (asked : g.table.acting? = some seat)
    (bot : g.roster.agent? seat = some (.bot b))
    (pausing : g.roster.waitsUntil.any (g.clock < ·)) : Progresses g (playTurn.run g) := by
  have hbot : (g.roster.agent? seat).map Agent.kind = some .bot := by
    rw [bot]
    rfl
  rw [playTurn_untaken (takeTurn_pausing asked bot pausing) asked, if_pos hbot]
  have hless : waiting { g with clock := g.clock + 1 } < g.waiting := by
    cases hwaits : g.roster.waitsUntil with
    | none =>
      rw [hwaits] at pausing
      cases pausing
    | some time =>
      rw [hwaits] at pausing
      have hlater : g.clock < time := of_decide_eq_true pausing
      rw [waiting, waiting, hwaits]
      show time - (g.clock + 1) < time - g.clock
      omega
  exact .closer ⟨⟨h.reached, h.immediate, h.returns⟩, Iff.rfl⟩ (Nat.add_lt_add_left hless _)

/-- **A bot decides for its seat.** -/
theorem playTurn_bot {b : Bot} (h : g.Ready) (awaits : g.table.phase.awaitsAction)
    (asked : g.table.acting? = some seat) (fallback : g.table.defaultAction? = some action)
    (accepts : ¬ g.table.LacksDiscards → g.table.Accepts seat action)
    (bot : g.roster.agent? seat = some (.bot b)) (least : b.minDelay = 0) (most : b.maxDelay = 0)
    (pausing : g.roster.waitsUntil.any (g.clock < ·) = false) :
    Progresses g (playTurn.run g) := by
  obtain ⟨b', choice, hturn, least', most', allowed, same⟩ :=
    h.reached.sound.botTurn asked fallback accepts least most g.clock
  have himmediate := h.immediate.setBot seat least' most'
  have hdecides := submit_decides
    (g := { g with roster := g.roster.setAgent seat (some (.bot b')) })
    h.reached awaits asked fallback allowed same
  unfold playTurn
  rw [EStateM.run_bind, takeTurn_bot asked bot pausing hturn]
  cases hsubmit : (submit seat choice).run
      { g with roster := g.roster.setAgent seat (some (.bot b')) } with
  | error e g' =>
    rw [hsubmit] at hdecides
    cases hdecides with
    | stuck cards lacks => exact .stuck cards ⟨⟨h.reached, himmediate, h.returns⟩, Iff.rfl⟩ lacks
  | ok acted g' =>
    rw [hsubmit] at hdecides
    cases hdecides with
    | taken reached deal fewer =>
      show Progresses g (.ok ⟨⟩ (if _ then _ else _))
      split
      · exact .closer (.of_inDeal awaits reached himmediate deal)
          (effort_lt fewer rfl ((waiting_pause _ _ _).le.trans (Nat.le_max_right _ _)))
      · exact .closer (.of_inDeal awaits reached himmediate deal)
          (effort_lt fewer rfl (Nat.le_max_left _ _))

/-- **Whoever has to decide brings the end of the deal closer, unless no discard can be made.** -/
theorem playTurn_progresses (h : g.Ready) (awaits : g.table.phase.awaitsAction) :
    Progresses g (playTurn.run g) := by
  obtain ⟨seat, action, asked, fallback, accepts⟩ := h.reached.sound.fallback awaits
  cases hagent : g.roster.agent? seat with
  | none => exact playTurn_empty h awaits asked fallback accepts hagent
  | some agent =>
    obtain ⟨b, rfl, least, most⟩ := h.immediate seat agent hagent
    cases pausing : g.roster.waitsUntil.any (g.clock < ·) with
    | true => exact playTurn_pausing h asked hagent pausing
    | false => exact playTurn_bot h awaits asked fallback accepts hagent least most pausing

/-! ## Whole deals -/

/-- How playing a deal ends. -/
inductive Ended (g : Game) : EStateM.Result Refusal Game DealOutcome → Prop where
  | played {g' : Game} {points : Points} (follows : Follows g g')
      (phase : g'.table.phase = .dealEnded) (counted : g'.table.points = some points) :
      Ended g (.ok (.played points) g')
  | notPlayed {g' : Game} (follows : Follows g g')
      (phase : g'.table.phase = .allPassed ∨ g'.table.phase = .stopped) :
      Ended g (.ok .notPlayed g')
  | stuck (cards : Cards) {g' : Game} (follows : Follows g g')
      (lacks : g'.table.LacksDiscards) : Ended g (.error (.invalidDiscard cards) g')

theorem Ended.after {g' : Game} {r : EStateM.Result Refusal Game DealOutcome} (h : Ended g' r)
    (follows : Follows g g') : Ended g r := by
  cases h with
  | played next phase counted => exact .played (follows.trans next) phase counted
  | notPlayed next phase => exact .notPlayed (follows.trans next) phase
  | stuck cards next lacks => exact .stuck cards (follows.trans next) lacks

/-- **Playing ends, and no limit beyond the effort makes a difference.** -/
theorem playWithin_ends (h : g.Ready) (files : Files) :
    ∃ r, Ended g r ∧ ∀ limit, g.effort < limit → (playWithin files limit).run g = r := by
  induction hn : g.effort using Nat.strong_induction_on generalizing g with
  | _ n ih =>
    subst hn
    obtain ⟨transition, t, acknowledged, rests, onward⟩ :=
      h.reached.acknowledgeAll h.returns files
    have follows : Follows g { g with table := t } :=
      ⟨⟨onward.reached, h.immediate, fun idle => by
        rcases idle with idle | idle <;> rw [idle] at rests <;> cases rests⟩, onward.stopped_iff⟩
    have hfewer : effort { g with table := t } ≤ g.effort :=
      Nat.add_le_add_right (Nat.mul_le_mul_right _ onward.toCome_le) _
    -- Every limit beyond the effort leaves one round at least.
    have limits {r : EStateM.Result Refusal Game DealOutcome} (ended : Ended g r)
        (hall : ∀ limit, g.effort ≤ limit → (playWithin files (limit + 1)).run g = r) :
        ∃ r, Ended g r ∧ ∀ limit, g.effort < limit → (playWithin files limit).run g = r := by
      refine ⟨r, ended, fun limit hlt => ?_⟩
      obtain ⟨rest, rfl⟩ := Nat.exists_eq_add_one_of_ne_zero (Nat.ne_of_gt (Nat.zero_lt_of_lt hlt))
      exact hall rest (Nat.le_of_lt_succ hlt)
    by_cases awaits : t.phase.awaitsAction
    · have hround := playWithin_awaits acknowledged awaits
      have hprogress := playTurn_progresses follows.ready awaits
      cases hturn : playTurn.run { g with table := t } with
      | ok _ g' =>
        rw [hturn] at hprogress
        cases hprogress with
        | closer next less =>
          obtain ⟨r, ended, hall⟩ := ih g'.effort (less.trans_le hfewer) next.ready rfl
          refine limits (ended.after (follows.trans next)) fun limit hle => ?_
          rw [hround, EStateM.run_bind, hturn]
          exact hall limit ((less.trans_le hfewer).trans_le hle)
      | error e g' =>
        rw [hturn] at hprogress
        cases hprogress with
        | stuck cards next lacks =>
          refine limits (.stuck cards (follows.trans next) lacks) fun limit _ => ?_
          rw [hround, EStateM.run_bind, hturn]
    · cases phase : t.phase with
      | dealEnded =>
        have hd := onward.reached.sound.during (by rw [phase]; rfl)
        have counted := (hd.ended phase).2
        exact limits (.played follows phase counted)
          fun limit _ => playWithin_played acknowledged phase counted limit
      | allPassed =>
        exact limits (.notPlayed follows (.inl phase))
          fun limit _ => playWithin_notPlayed acknowledged (.inl phase) limit
      | stopped =>
        exact limits (.notPlayed follows (.inr phase))
          fun limit _ => playWithin_notPlayed acknowledged (.inr phase) limit
      | _ =>
        rw [phase] at rests awaits
        exact absurd rests awaits

theorem effort_lt_rounds (h : g.table.Seated) : g.effort < g.rounds := by
  have hdecisions : g.table.toCome * (1 + g.roster.pause) ≤ 127 * (1 + g.roster.pause) :=
    Nat.mul_le_mul_right _ (Nat.le_of_lt_succ (Table.toCome_lt h))
  rw [effort, rounds, mostDecisions]
  omega

/-- What playing a deal returns, and the game that it leaves. -/
structure Classified (g : Game) (r : EStateM.Result Refusal Game DealOutcome) (g' : Game) :
    Prop where
  reached : Table.Reachable g'.table
  played_iff : (∃ points, r = .ok (.played points) g') ↔ g'.table.phase = .dealEnded
  /-- The points are those that the table has. -/
  points : ∀ points, r = .ok (.played points) g' → g'.table.points = some points
  notPlayed_iff : r = .ok .notPlayed g' ↔ g'.table.phase = .allPassed ∨ g'.table.phase = .stopped
  /-- A game is stopped at the end if it was stopped before. -/
  stopped_iff : g'.table.phase = .stopped ↔ g.table.phase = .stopped
  /-- Only a discard is refused, where the taker has too few cards for one. -/
  refused_iff : (∃ cards, r = .error (.invalidDiscard cards) g') ↔ g'.table.LacksDiscards
  total : (∃ points, r = .ok (.played points) g') ∨ r = .ok .notPlayed g'
    ∨ ∃ cards, r = .error (.invalidDiscard cards) g'

/-- The phases that are left belong to different ends. -/
theorem Ended.classified {r : EStateM.Result Refusal Game DealOutcome} (h : Ended g r) :
    ∃ g', Classified g r g' := by
  cases h with
  | @played g' points follows phase counted =>
    have lacks : ¬ g'.table.LacksDiscards := fun lacks => by cases phase.symm.trans lacks.1
    exact ⟨g', {
      reached := follows.ready.reached
      stopped_iff := follows.stopped_iff
      played_iff := by simp [phase]
      points := by simp [counted]
      notPlayed_iff := by simp [phase]
      refused_iff := by simp [lacks]
      total := by simp }⟩
  | @notPlayed g' follows phase =>
    have ended : g'.table.phase ≠ .dealEnded := fun ended => by
      rcases phase with phase | phase <;> cases phase.symm.trans ended
    have lacks : ¬ g'.table.LacksDiscards := fun lacks => by
      rcases phase with phase | phase <;> cases phase.symm.trans lacks.1
    exact ⟨g', {
      reached := follows.ready.reached
      stopped_iff := follows.stopped_iff
      played_iff := by simp [ended]
      points := by simp
      notPlayed_iff := by simp [phase]
      refused_iff := by simp [lacks]
      total := by simp }⟩
  | @stuck cards g' follows lacks =>
    exact ⟨g', {
      reached := follows.ready.reached
      stopped_iff := follows.stopped_iff
      played_iff := by simp [lacks.1]
      points := by simp
      notPlayed_iff := by simp [lacks.1]
      refused_iff := by simp [lacks]
      total := by simp }⟩

/-- **Playing a deal comes to an end of a known kind, as it would without a limit.** -/
theorem Ready.playDeal_classified (h : g.Ready) (files : Files) :
    (∃ g', Classified g ((playDeal files).run g) g')
      ∧ ∀ limit, g.rounds ≤ limit → (playWithin files limit).run g = (playDeal files).run g := by
  obtain ⟨r, ended, hall⟩ := playWithin_ends h files
  have hlt := effort_lt_rounds h.reached.sound.toSeated
  have hdeal : (playDeal files).run g = r := hall g.rounds hlt
  rw [hdeal]
  exact ⟨ended.classified, fun limit hle => hall limit (hlt.trans_le hle)⟩

/-- A game before the first deal, with bots at every seat. -/
def openingGame : Game := ⟨(Table.ofSeed 0).callAll [.newGame], .bots 4 0, 0⟩

theorem openingGame_ready : openingGame.Ready where
  reached := (Table.Reachable.start 0).callAll _
  immediate := Roster.bots_immediate 4 0
  returns := fun _ => Table.ofSeed_dealingReturns

theorem openingGame_classified : openingGame.Ready
    ∧ (∃ g', Classified openingGame ((playDeal noFiles).run openingGame) g')
    ∧ ∀ limit, openingGame.rounds ≤ limit →
      (playWithin noFiles limit).run openingGame = (playDeal noFiles).run openingGame :=
  ⟨openingGame_ready, openingGame_ready.playDeal_classified noFiles⟩

end Game

end FrenchTarot
