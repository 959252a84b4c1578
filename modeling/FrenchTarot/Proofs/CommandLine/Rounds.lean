import FrenchTarot.CommandLine.Script
import FrenchTarot.Proofs.Agent.Playing
import FrenchTarot.Proofs.Table.Series
import FrenchTarot.Proofs.Table.Setup

/-!
# The rounds of a game

A round makes a deal and has it played.  `Open.dealEnds` says how that may end: the deal is played
and counted, or everybody passes, or a discard is refused where no discard could be made.  This is
`playWithin_ends` once more, for a table on which a deal has just been placed, so that nothing has
stopped the game.  `playRound` looks at nothing else (`playRound_eq`).

Afterwards the table is acknowledged, and is ready for the next round.  `Goes` puts this together:
if the game goes on, the session is again one of the same game, and `Changed` tells what the round
has done to the score and to the number of passes.

Rounds that follow each other are a chain, `Rounds`.  A fact about all of them needs a step for a
single round (`Rounds.keep`), and the score, the passes in a row and the number of rounds are such
facts.  For the last one, `left` is the number of rounds that there can still be: fifty for every
deal that is missing in the score, less the passes since the last one that was played.
-/

namespace FrenchTarot

theorem Game.onTable_ok {α : Type} {x : TableM α} {g : Game} {a : α} {t : Table}
    (ok : x.run g.table = .ok a t) : (onTable x).run g = .ok a { g with table := t } := by
  rw [onTable_run, ok]

namespace CommandLine

open Game (noFiles)

/-! ## The deal of a round -/

/-- What a round asks of the game: the cards are dealt, and the deal is played. -/
def dealAndPlay (files : Files) : GameM DealOutcome := do
  let _ ← Game.onTable (Table.acknowledge files)
  Game.playDeal files

namespace Session

/-- A session between two deals: the table is ready for one, and the bots take no time. -/
structure Open (s : Session) : Prop where
  reached : Table.Reachable s.game.table
  ready : s.game.table.phase = .awaitingReady
  immediate : s.game.roster.Immediate

/-- Where the cards of the next deal have to be drawn at random, the search for a deal comes to an
end. -/
def Supplied (s : Session) (files : Files) : Prop :=
  s.game.table.Supplied files s.game.table.distribution

variable {s : Session} {files : Files}

/-- The new deal that begins a round is given. -/
theorem Open.dealt (h : s.Open) (supplied : s.Supplied files) :
    ∃ transition t, (Table.acknowledge files).run s.game.table = .ok transition t
      ∧ t.Reachable ∧ t.phase = .cardsDealt := by
  obtain ⟨used, d, g, drawn⟩ := Table.exists_drawn h.reached.sound.supported supplied
  obtain ⟨transition, ok⟩ := Table.acknowledge_deals h.ready drawn.newDeal
  refine ⟨transition, _, ok, h.reached.call files .acknowledge (congrArg (Table.answered _) ok), ?_⟩
  obtain ⟨current, dealer, heq⟩ :=
    Table.place_shape { Table.cleared s.game.table with generator := g } d
  rw [heq]

/-- How the deal of a round ends. -/
inductive DealEnds : EStateM.Result Refusal Game DealOutcome → Prop where
  | played {g : Game} {points : Points} (ready : g.Ready) (phase : g.table.phase = .dealEnded)
      (counted : g.table.points = some points) : DealEnds (.ok (.played points) g)
  | passed {g : Game} (ready : g.Ready) (phase : g.table.phase = .allPassed) :
      DealEnds (.ok .notPlayed g)
  | stuck (cards : Cards) {g : Game} (lacks : g.table.LacksDiscards) :
      DealEnds (.error (.invalidDiscard cards) g)

/-- **The deal of a round is played and counted, or everybody passes, or there is no discard.** -/
theorem Open.dealEnds (h : s.Open) (supplied : s.Supplied files) :
    DealEnds ((dealAndPlay files).run s.game) := by
  obtain ⟨transition, t, dealt, reached, phase⟩ := h.dealt supplied
  have ready : Game.Ready { s.game with table := t } :=
    ⟨reached, h.immediate, fun idle => by
      rcases idle with idle | idle <;> cases phase.symm.trans idle⟩
  have hrun : (dealAndPlay files).run s.game =
      (Game.playDeal files).run { s.game with table := t } := by
    unfold dealAndPlay
    rw [EStateM.run_bind, Game.onTable_ok dealt]
  obtain ⟨r, ended, hall⟩ := Game.playWithin_ends ready files
  rw [hrun, show (Game.playDeal files).run { s.game with table := t } = r from
    hall _ (Game.effort_lt_rounds reached.sound.toSeated)]
  cases ended with
  | played follows phase counted => exact .played follows.ready phase counted
  | notPlayed follows unplayed =>
    rcases unplayed with passed | stopped
    · exact .passed follows.ready passed
    · cases phase.symm.trans (follows.stopped_iff.mp stopped)
  | stuck cards follows lacks => exact .stuck cards lacks

/-! ## The round -/

/-- The session after a deal that was played. -/
def counting (s : Session) (g : Game) (points : Points) : Session :=
  { s with game := g, score := s.score.add points g.table.deal.bid s.players, passes := 0 }

/-- What a round reports of a deal that was played. -/
def report (s : Session) (g : Game) (points : Points) : PlayedDeal :=
  ⟨(s.counting g points).score.played, .ofState g.table.deal, points, g.table.deal.bid⟩

theorem call_ok {α : Type} {x : GameM α} {a : α} {g : Game} (ok : x.run s.game = .ok a g) :
    s.call x = .ok (a, { s with game := g }) := by
  unfold call
  rw [show x s.game = _ from ok]

theorem call_error {α : Type} {x : GameM α} {e : Refusal} {g : Game}
    (error : x.run s.game = .error e g) : s.call x = .error e := by
  unfold call
  rw [show x s.game = _ from error]

/-- What a round makes of the end of its deal. -/
def conclude (s : Session) : EStateM.Result Refusal Game DealOutcome → Round
  | .error e _ => .refused e
  | .ok .unfinished _ => .unfinished
  | .ok (.played points) g => .played (s.counting g points) (s.report g points)
  | .ok .notPlayed g | .ok .uncounted g =>
    if mostPasses ≤ s.passes + 1 then .gaveUp
    else .passed { s with game := g, passes := s.passes + 1 }

/-- A round looks at nothing but the end of its deal. -/
theorem playRound_eq (s : Session) (files : Files) :
    s.playRound files = s.conclude ((dealAndPlay files).run s.game) := by
  unfold playRound acknowledge dealAndPlay
  rw [EStateM.run_bind]
  cases hack : (Game.onTable (Table.acknowledge files)).run s.game with
  | error e g =>
    rw [call_error hack]
    rfl
  | ok transition g =>
    rw [call_ok hack]
    dsimp only [bind, Except.bind, pure, Except.pure]
    cases hplay : (Game.playDeal files).run g with
    | error e g' => rw [call_error (s := { s with game := g }) hplay, conclude]
    | ok outcome g' =>
      rw [call_ok (s := { s with game := g }) hplay]
      cases outcome <;> rfl

/-- A session whose table has been made ready; nothing else about it has changed. -/
structure Reopened (s s' : Session) : Prop extends s'.Open where
  score : s'.score = s.score
  players : s'.players = s.players
  passes : s'.passes = s.passes
  distribution : s'.game.table.distribution = s.game.table.distribution

/-- Where nothing goes on at the table, an acknowledgement makes it ready. -/
theorem reopened (reached : s.game.table.Reachable) (immediate : s.game.roster.Immediate)
    (idle : s.game.table.phase = .awaitingPlayers ∨ s.game.table.phase = .allPassed
      ∨ s.game.table.phase = .dealEnded) :
    ∃ s', s.acknowledge noFiles = .ok s' ∧ s.Reopened s' := by
  obtain ⟨transition, ok⟩ := Table.acknowledge_idle noFiles idle
  unfold acknowledge
  rw [call_ok (Game.onTable_ok ok)]
  refine ⟨_, rfl, ⟨?_, rfl, immediate⟩, rfl, rfl, rfl, rfl⟩
  exact reached.call noFiles .acknowledge (congrArg (Table.answered _) ok)

end Session

/-! ## Rounds that follow each other -/

/-- The entry of a deal in the score of `n` players. -/
def PlayedDeal.entry (n : Nat) (d : PlayedDeal) : ScoreEntry :=
  ⟨d.points, d.bid, n, d.points.seatScores d.bid n⟩

/-- A round of a game: the session before it, and the files that it finds. -/
structure Iteration where
  session : Session
  files : Files

theorem mostPasses_pos : 0 < mostPasses := by decide

namespace Iteration

/-- What comes of the deal. -/
def result (i : Iteration) : EStateM.Result Refusal Game DealOutcome :=
  (dealAndPlay i.files).run i.session.game

/-- What the round reports of a deal that was played, if one was. -/
def deal? (i : Iteration) : Option PlayedDeal :=
  match i.session.playRound i.files with
  | .played _ d => some d
  | _ => none

/-- The deal came to its end, and was counted. -/
def Played (i : Iteration) (d : PlayedDeal) : Prop :=
  ∃ g, i.result = .ok (.played d.points) g ∧ g.table.phase = .dealEnded
    ∧ g.table.points = some d.points ∧ d.bid = g.table.deal.bid
    ∧ d.record = .ofState g.table.deal

/-- Everybody passed. -/
def Passed (i : Iteration) : Prop :=
  ∃ g, i.result = .ok .notPlayed g ∧ g.table.phase = .allPassed

/-- A discard was refused, and there is none that would have been accepted. -/
def Stuck (i : Iteration) (cards : Cards) : Prop :=
  ∃ g, i.result = .error (.invalidDiscard cards) g ∧ g.table.phase = .awaitingDiscard
    ∧ ∀ seat choice, ¬ g.table.Accepts seat (.discard choice)

variable {i : Iteration}

theorem Passed.not_played (h : i.Passed) {d : PlayedDeal} : ¬ i.Played d := by
  obtain ⟨g, passed, _⟩ := h
  rintro ⟨g', played, _⟩
  cases passed.symm.trans played

theorem Stuck.not_passed {cards : Cards} (h : i.Stuck cards) : ¬ i.Passed := by
  obtain ⟨g, stuck, _⟩ := h
  rintro ⟨g', passed, _⟩
  cases stuck.symm.trans passed

end Iteration

/-- The session before the next round: the round is over, and the table has been acknowledged. -/
inductive Session.Next (s : Session) (files : Files) (s' : Session) : Prop where
  | played {s₁ : Session} {d : PlayedDeal} (round : s.playRound files = .played s₁ d)
      (ready : s₁.acknowledge noFiles = .ok s')
  | passed {s₁ : Session} (round : s.playRound files = .passed s₁)
      (ready : s₁.acknowledge noFiles = .ok s')

/-- Rounds of a game, one after the other, while the score is not full. -/
inductive Rounds (first : Session) : List Iteration → Session → Prop where
  | start : Rounds first [] first
  | round {rounds : List Iteration} {s s' : Session} {files : Files}
      (before : Rounds first rounds s) (going : s.score.isFinished = false)
      (next : s.Next files s') : Rounds first (rounds ++ [⟨s, files⟩]) s'

/-- A round may come before the others as well. -/
theorem Rounds.cons {s s' last : Session} {files : Files} {rounds : List Iteration}
    (going : s.score.isFinished = false) (next : s.Next files s') (rest : Rounds s' rounds last) :
    Rounds s (⟨s, files⟩ :: rounds) last := by
  induction rest with
  | start => exact .round .start going next
  | round _ going' next' ih => exact .round ih going' next'

namespace Session

/-- However the game goes on, the search for a deal comes to an end in every round. -/
def Returns (s : Session) : Prop :=
  ∀ rounds last, Rounds s rounds last → last.score.isFinished = false →
    ∀ files, last.Supplied files

/-- A session of a game as configured, before a round. -/
structure InGame (c : Config) (s : Session) : Prop extends s.Open where
  deals : s.score.deals = c.mode.deals
  players : s.players = c.players.toNat
  few : s.passes < mostPasses
  returns : s.Returns

variable {c : Config} {s s' : Session} {files : Files}

/-- What a round changes when the game goes on after it. -/
inductive Changed (c : Config) (s : Session) (files : Files) (s' : Session) : Prop where
  | played {d : PlayedDeal} (deal : Iteration.deal? ⟨s, files⟩ = some d)
      (ended : Iteration.Played ⟨s, files⟩ d) (passes : s'.passes = 0)
      (score : s'.score = s.score.add d.points d.bid c.players.toNat)
  | passed (deal : Iteration.deal? ⟨s, files⟩ = none) (ended : Iteration.Passed ⟨s, files⟩)
      (passes : s'.passes = s.passes + 1) (score : s'.score = s.score)

/-- How a round goes, as the session sees it. -/
inductive Goes (c : Config) (s : Session) (files : Files) : Prop where
  | played {s₁ s₂ : Session} {d : PlayedDeal} (round : s.playRound files = .played s₁ d)
      (deals : s₁.score.deals = c.mode.deals) (players : s₁.players = c.players.toNat)
      (ready : s₁.acknowledge noFiles = .ok s₂) (inGame : s₂.InGame c)
      (changed : s.Changed c files s₂)
  | passed {s₁ s₂ : Session} (round : s.playRound files = .passed s₁)
      (ready : s₁.acknowledge noFiles = .ok s₂) (inGame : s₂.InGame c)
      (changed : s.Changed c files s₂)
  | gaveUp (round : s.playRound files = .gaveUp) (ended : Iteration.Passed ⟨s, files⟩)
      (many : mostPasses ≤ s.passes + 1)
  | stuck {cards : Cards} (round : s.playRound files = .refused (.invalidDiscard cards))
      (ended : Iteration.Stuck ⟨s, files⟩ cards)

theorem Returns.next (h : s.Returns) (going : s.score.isFinished = false)
    (next : s.Next files s') : s'.Returns :=
  fun _ last chain unfinished => h _ last (chain.cons going next) unfinished

/-- **A round is played, or everybody passes, or there is no discard.** -/
theorem InGame.goes (h : s.InGame c) (going : s.score.isFinished = false) (files : Files) :
    s.Goes c files := by
  have ends := h.dealEnds (h.returns [] s .start going files)
  have round := s.playRound_eq files
  cases hresult : (dealAndPlay files).run s.game with
  | error e g =>
    rw [hresult] at ends round
    cases ends with
    | stuck cards lacks =>
      exact .stuck round ⟨g, hresult, lacks.1, fun seat choice => lacks.refuses seat _⟩
  | ok outcome g =>
    rw [hresult] at ends round
    cases ends with
    | @played _ points ready phase counted =>
      obtain ⟨s₂, acknowledged, again⟩ :=
        reopened (s := s.counting g points) ready.reached ready.immediate (.inr (.inr phase))
      refine .played round h.deals h.players acknowledged {
        toOpen := again.toOpen
        deals := (congrArg _ again.score).trans h.deals
        players := again.players.trans h.players
        few := again.passes.trans_lt mostPasses_pos
        returns := h.returns.next going (.played round acknowledged) } ?_
      refine .played (d := s.report g points) ?_ ⟨g, hresult, phase, counted, rfl, rfl⟩
        again.passes ?_
      · rw [Iteration.deal?, round]
        rfl
      · rw [again.score, ← h.players]
        rfl
    | passed ready phase =>
      by_cases many : mostPasses ≤ s.passes + 1
      · rw [conclude, if_pos many] at round
        exact .gaveUp round ⟨g, hresult, phase⟩ many
      · rw [conclude, if_neg many] at round
        obtain ⟨s₂, acknowledged, again⟩ :=
          reopened (s := { s with game := g, passes := s.passes + 1 }) ready.reached
            ready.immediate (.inr (.inl phase))
        refine .passed round acknowledged {
          toOpen := again.toOpen
          deals := (congrArg _ again.score).trans h.deals
          players := again.players.trans h.players
          few := again.passes.trans_lt (Nat.not_le.mp many)
          returns := h.returns.next going (.passed round acknowledged) } ?_
        refine .passed ?_ ⟨g, hresult, phase⟩ again.passes again.score
        rw [Iteration.deal?, round]

/-- A round does not go on in two ways. -/
theorem Next.unique {s₁ s₂ : Session} (h₁ : s.Next files s₁) (h₂ : s.Next files s₂) : s₁ = s₂ := by
  cases h₁ with
  | played round ready | passed round ready =>
    cases h₂ with
    | played round' ready' | passed round' ready' =>
      cases round.symm.trans round' <;> exact Except.ok.inj (ready.symm.trans ready')

/-- **The session before the next round is of the same game.** -/
theorem InGame.next (h : s.InGame c) (going : s.score.isFinished = false)
    (next : s.Next files s') : s'.InGame c ∧ s.Changed c files s' := by
  cases h.goes going files with
  | played round _ _ ready inGame changed =>
    obtain rfl := next.unique (.played round ready)
    exact ⟨inGame, changed⟩
  | passed round ready inGame changed =>
    obtain rfl := next.unique (.passed round ready)
    exact ⟨inGame, changed⟩
  | gaveUp round | stuck round =>
    cases next with
    | played round' | passed round' => cases round.symm.trans round'

/-- How many rounds there can still be. -/
def left (c : Config) (s : Session) : Nat :=
  mostPasses * (c.mode.deals - s.score.played) - s.passes

theorem InGame.played_lt (h : s.InGame c) (going : s.score.isFinished = false) :
    s.score.played < c.mode.deals := by
  rw [← h.deals]
  simpa [Score.isFinished] using going

/-- While the score is not full there is a round left. -/
theorem InGame.left_pos (h : s.InGame c) (going : s.score.isFinished = false) : 0 < s.left c := by
  have hplayed := h.played_lt going
  have hfew := h.few
  have hmissing : mostPasses * 1 ≤ mostPasses * (c.mode.deals - s.score.played) :=
    Nat.mul_le_mul_left _ (by omega)
  rw [left]
  omega

/-- **Every round takes one of those away that there can still be.** -/
theorem Changed.left_lt (h : s.InGame c) (going : s.score.isFinished = false)
    (changed : s.Changed c files s') : s'.left c < s.left c := by
  have hplayed := h.played_lt going
  have hfew := h.few
  obtain ⟨missing, hmissing⟩ : ∃ missing, c.mode.deals - s.score.played = missing + 1 :=
    ⟨c.mode.deals - s.score.played - 1, by omega⟩
  rw [left, left, hmissing, Nat.mul_succ]
  cases changed with
  | played _ _ passes score =>
    -- The passes are forgotten, but there were fewer of them than the deal takes rounds away.
    have hadded : s'.score.played = s.score.played + 1 := by
      rw [score]
      exact List.length_append
    rw [passes, hadded, show c.mode.deals - (s.score.played + 1) = missing by omega]
    omega
  | passed _ _ passes score =>
    rw [passes, score, hmissing, Nat.mul_succ]
    omega

end Session

namespace Rounds

variable {c : Config} {first last : Session} {rounds : List Iteration}

/-- **What a round keeps is kept by all rounds of a game.** -/
theorem keep {P : List Iteration → Session → Prop} (start : P [] first)
    (step : ∀ rounds s s' files, s.InGame c → s'.InGame c → s.score.isFinished = false →
      s.Changed c files s' → P rounds s → P (rounds ++ [⟨s, files⟩]) s')
    (chain : Rounds first rounds last) (h : first.InGame c) : last.InGame c ∧ P rounds last := by
  induction chain with
  | start => exact ⟨h, start⟩
  | round _ going next ih =>
    obtain ⟨inGame, changed⟩ := ih.1.next going next
    exact ⟨inGame, step _ _ _ _ ih.1 inGame going changed ih.2⟩

theorem inGame (chain : Rounds first rounds last) (h : first.InGame c) : last.InGame c :=
  (chain.keep (P := fun _ _ => True) trivial (fun _ _ _ _ _ _ _ _ _ => trivial) h).1

/-- Every round begins with a table that is ready for a deal. -/
theorem ready (chain : Rounds first rounds last) (h : first.InGame c) :
    ∀ i ∈ rounds, i.session.game.table.phase = .awaitingReady := by
  refine (chain.keep (c := c)
    (P := fun rounds _ => ∀ i ∈ rounds, i.session.game.table.phase = .awaitingReady)
    (List.forall_mem_nil _) ?_ h).2
  intro rounds s s' files inGame _ _ _ ih
  exact List.forall_mem_append.mpr ⟨ih, List.forall_mem_singleton.mpr inGame.ready⟩

/-- All rounds together take no more than there can be. -/
theorem length_le (chain : Rounds first rounds last) (h : first.InGame c) :
    rounds.length + last.left c ≤ first.left c := by
  refine (chain.keep (c := c) (P := fun rounds last => rounds.length + last.left c ≤ first.left c)
    (by rw [List.length_nil, Nat.zero_add]) ?_ h).2
  intro rounds s s' files inGame _ going changed ih
  have hless := changed.left_lt inGame going
  rw [List.length_append, List.length_singleton]
  omega

/-- The rounds that were not passed are those whose deals were played. -/
theorem deals_played (chain : Rounds first rounds last) (h : first.InGame c) :
    ∀ i ∈ rounds, (∀ d, i.deal? = some d → i.Played d) ∧ (i.deal? = none → i.Passed) := by
  refine (chain.keep (c := c)
    (P := fun rounds _ => ∀ i ∈ rounds,
      (∀ d, i.deal? = some d → i.Played d) ∧ (i.deal? = none → i.Passed))
    (List.forall_mem_nil _) ?_ h).2
  intro rounds s s' files _ _ _ changed ih
  refine List.forall_mem_append.mpr ⟨ih, List.forall_mem_singleton.mpr ?_⟩
  cases changed with
  | played deal ended | passed deal ended => simp [deal, ended]

/-- **The score has the deals that were played, and no others.** -/
theorem history (chain : Rounds first rounds last) (h : first.InGame c)
    (new : first.score.history = []) :
    last.score.history = (rounds.filterMap Iteration.deal?).map (·.entry c.players.toNat) := by
  refine (chain.keep (c := c)
    (P := fun rounds last =>
      last.score.history = (rounds.filterMap Iteration.deal?).map (·.entry c.players.toNat))
    new ?_ h).2
  intro rounds s s' files _ _ _ changed ih
  rw [List.filterMap_append, List.map_append, ← ih]
  cases changed with
  | played deal _ _ score =>
    rw [score, List.filterMap_cons_some deal]
    rfl
  | passed deal _ _ score =>
    rw [score, List.filterMap_cons_none deal, List.filterMap_nil, List.map_nil, List.append_nil]

/-! ## Passed rounds -/

/-- The passes of a session count the rounds that were just passed. -/
theorem passes_counted (chain : Rounds first rounds last) (h : first.InGame c)
    (fresh : first.passes = 0) :
    ∃ passes, passes <:+ rounds ∧ (∀ i ∈ passes, i.Passed) ∧ passes.length = last.passes := by
  refine (chain.keep (c := c)
    (P := fun rounds last =>
      ∃ passes, passes <:+ rounds ∧ (∀ i ∈ passes, i.Passed) ∧ passes.length = last.passes)
    ⟨[], List.nil_suffix, List.forall_mem_nil _, fresh.symm⟩ ?_ h).2
  rintro rounds s s' files _ _ _ changed ⟨passes, ⟨before, rfl⟩, passed, hlength⟩
  cases changed with
  | played _ _ none => exact ⟨[], List.nil_suffix, List.forall_mem_nil _, none.symm⟩
  | passed _ ended more =>
    refine ⟨passes ++ [⟨s, files⟩], ⟨before, (List.append_assoc ..).symm⟩, ?_, ?_⟩
    · exact List.forall_mem_append.mpr ⟨passed, List.forall_mem_singleton.mpr ended⟩
    · rw [List.length_append, hlength, more]
      rfl

theorem length_passes_le (chain : Rounds first rounds last) (h : first.InGame c) :
    ∀ passes, passes <:+ rounds → (∀ i ∈ passes, i.Passed) → passes.length ≤ last.passes := by
  refine (chain.keep (c := c)
    (P := fun rounds last =>
      ∀ passes, passes <:+ rounds → (∀ i ∈ passes, i.Passed) → passes.length ≤ last.passes)
    ?_ ?_ h).2
  · intro passes hsuffix _
    rw [List.suffix_nil.mp hsuffix]
    exact Nat.zero_le _
  · intro rounds s s' files _ _ _ changed ih passes hsuffix passed
    rcases List.suffix_concat_iff.mp hsuffix with rfl | ⟨before, rfl, hbefore⟩
    · exact Nat.zero_le _
    · -- The last round is among the passes, so that it cannot have been played.
      obtain ⟨hall, hlast⟩ := List.forall_mem_append.mp passed
      cases changed with
      | played _ ended =>
        exact absurd ended (List.forall_mem_singleton.mp hlast).not_played
      | passed _ _ more =>
        rw [List.length_append, more]
        exact Nat.succ_le_succ (ih before hbefore hall)

/-- **A game that goes on has not had too many passes in a row.** -/
theorem length_passes_lt (chain : Rounds first rounds last) (h : first.InGame c) :
    ∀ passes, passes <:+: rounds → (∀ i ∈ passes, i.Passed) → passes.length < mostPasses := by
  induction chain with
  | start =>
    intro passes hwithin _
    rw [List.infix_nil.mp hwithin]
    exact mostPasses_pos
  | round before going next ih =>
    intro passes hwithin passed
    have chain := Rounds.round before going next
    -- Passes that end with the last round are counted by the session that it leaves.
    rcases List.infix_concat_iff.mp hwithin with hsuffix | hbefore
    · exact (chain.length_passes_le h passes hsuffix passed).trans_lt (chain.inGame h).few
    · exact ih passes hbefore passed

end Rounds

end CommandLine

end FrenchTarot
