import FrenchTarot.Proofs.Agent.Keeping
import FrenchTarot.Proofs.CommandLine.Rounds
import FrenchTarot.Proofs.Score.Range

/-!
# A game comes to its end

The loop of a game plays rounds until the score is full, and is given a limit on the rounds.
`playRounds_ends` follows the loop from any session of a game: every round takes one of those away
that there can still be (`Changed.left_lt`), so that a limit that is not below them is never
reached, and the loop does the same with every such limit.

`Course` says what is known of the rounds of a whole game, and `Ending` in which of three ways they
end: with a full score, with too many passes in a row, or with a discard that nobody could have
made.  The chain of the rounds before (`Rounds`) has the facts, and what is left is the last round,
the one that fails.  That too many passes are reported only after as many passes in a row needs the
rounds before it, too: they would have failed earlier otherwise (`Rounds.length_passes_lt`).  The
totals of a full score are exact as far as they have 32 bits, and they have them at any time in a
game of no more than half a million deals (`Rounds.inInt32`).

The search for a deal is taken to come to an end.  In a game whose deals are numbered this is not
assumed: such a game goes on with numbers (`steady_numbered`), and there is always one that can be
played (`Opens.returns_of_numbered`).
-/

namespace FrenchTarot

namespace CommandLine

open Game (noFiles)

/-! ## What a script prints -/

/-- How a script ends. -/
inductive Outcome where
  /-- The program ends well. -/
  | done
  | fail (code : UInt8) (message : String)
  deriving DecidableEq, Repr

namespace Script

/-- What a script prints, and how it ends.  The texts that it loads are given in the order in which
it asks for them, and whatever it saves is written. -/
def run : Script → (Nat → Option String) → List String × Outcome
  | done, _ => ([], .done)
  | fail code message, _ => ([], .fail code message)
  | print text next, texts =>
    let (lines, outcome) := (next ()).run texts
    (text :: lines, outcome)
  | load _ next, texts => (next (texts 0)).run fun k => texts (k + 1)
  | save _ _ next, texts => (next true).run texts

variable {texts : Nat → Option String}

end Script

/-! ## Rounds of the loop -/

namespace Iteration

/-- A file that the round finds is the one of its deal, and it has one of the texts. -/
def Found (texts : Nat → Option String) (i : Iteration) : Prop :=
  ∀ path text, i.files path = some text →
    i.session.dealFile? = some path ∧ some text ∈ Set.range texts

/-- What is printed for the round when the game goes on after it. -/
def lines (c : Config) (i : Iteration) : List String :=
  match i.deal? with
  | some d => dealLines c.mode.deals c.players.toNat d
  | none => [passedLine]

end Iteration

/-- The message of a game in which too many deals in a row were passed. -/
def gaveUpMessage : String := "every player passed " ++ toString mostPasses ++ " times in a row"

/-- How the loop is left: the score is full, or there is a last round, which fails. -/
inductive Stops (last : Session) : List Iteration → List String → Outcome → Prop where
  | full (finished : last.score.isFinished = true) : Stops last [] (finalLines last.score) .done
  | gaveUp {files : Files} (going : last.score.isFinished = false)
      (passed : Iteration.Passed ⟨last, files⟩) (many : mostPasses ≤ last.passes + 1) :
      Stops last [⟨last, files⟩] [] (.fail 1 gaveUpMessage)
  | stuck {files : Files} {cards : Cards} (going : last.score.isFinished = false)
      (stuck : Iteration.Stuck ⟨last, files⟩ cards) :
      Stops last [⟨last, files⟩] [] (.fail 1 (Refusal.invalidDiscard cards).message)

variable {c : Config} {s : Session}

/-- From a session on, the loop plays some rounds and is left, with every limit that is not below
the rounds that there can still be. -/
def LoopEnds (c : Config) (output : Option String) (texts : Nat → Option String) (s : Session) :
    Prop :=
  ∃ rounds last final lines outcome, Rounds s rounds last ∧ Stops last final lines outcome
    ∧ (∀ i ∈ rounds ++ final, i.Found texts)
    ∧ ∀ limit, s.left c ≤ limit → (Script.playRounds output limit s).run texts =
      (rounds.flatMap (·.lines c) ++ lines, outcome)

section Loop

variable {output : Option String} {texts rest : Nat → Option String} {files : Files}

/-- Where there is a round left, every such limit lets it be played. -/
theorem forall_limit {s : Session} (h : s.InGame c) (going : s.score.isFinished = false)
    {P : Nat → Prop} (hall : ∀ limit, s.left c ≤ limit + 1 → P (limit + 1)) :
    ∀ limit, s.left c ≤ limit → P limit := by
  intro limit hle
  have hpos := h.left_pos going
  obtain ⟨rest, rfl⟩ := Nat.exists_eq_add_one_of_ne_zero (n := limit) (by omega)
  exact hall rest hle

/-- A round comes before the rest of the loop. -/
theorem LoopEnds.cons {s' : Session} (h : s.InGame c) (going : s.score.isFinished = false)
    (next : s.Next files s') (changed : s.Changed c files s')
    (found : Iteration.Found texts ⟨s, files⟩) (later : Set.range rest ⊆ Set.range texts)
    (hrun : ∀ limit, (Script.playRounds output (limit + 1) s).run texts =
      (Iteration.lines c ⟨s, files⟩ ++ ((Script.playRounds output limit s').run rest).1,
        ((Script.playRounds output limit s').run rest).2))
    (ends : LoopEnds c output rest s') : LoopEnds c output texts s := by
  obtain ⟨rounds, last, final, lines, outcome, chain, stops, hfound, hall⟩ := ends
  refine ⟨⟨s, files⟩ :: rounds, last, final, lines, outcome, chain.cons going next, stops, ?_, ?_⟩
  · refine List.forall_mem_cons.mpr ⟨found, fun i hi path text htext => ?_⟩
    obtain ⟨hfile, hmem⟩ := hfound i hi path text htext
    exact ⟨hfile, later hmem⟩
  · refine forall_limit h going fun limit hle => ?_
    have hless := changed.left_lt h going
    rw [hrun, hall limit (by omega), List.flatMap_cons, List.append_assoc]

/-- A round is the last one of the loop. -/
theorem LoopEnds.last {outcome : Outcome} (h : s.InGame c) (going : s.score.isFinished = false)
    (stops : Stops s [⟨s, files⟩] [] outcome) (found : Iteration.Found texts ⟨s, files⟩)
    (hrun : ∀ limit, (Script.playRounds output (limit + 1) s).run texts = ([], outcome)) :
    LoopEnds c output texts s :=
  ⟨[], s, _, [], outcome, .start, stops, List.forall_mem_singleton.mpr found,
    forall_limit h going fun limit _ => hrun limit⟩

end Loop

/-! ## The beginning of a game -/

/-- The session before the first round of a game. -/
def Opens (c : Config) (seed : UInt64) (first : Session) : Prop :=
  ∃ s, Session.start c seed = .ok s ∧ s.acknowledge noFiles = .ok first

theorem Opens.unique {seed : UInt64} {first first' : Session} (h : Opens c seed first)
    (h' : Opens c seed first') : first = first' := by
  obtain ⟨s, start, acknowledged⟩ := h
  obtain ⟨s', start', acknowledged'⟩ := h'
  cases start.symm.trans start'
  exact Except.ok.inj (acknowledged.symm.trans acknowledged')

/-- A session before the first round. -/
structure Session.Fresh (c : Config) (s : Session) : Prop extends s.Open where
  score : s.score = .new c.mode.deals
  players : s.players = c.players.toNat
  passes : s.passes = 0
  distribution : s.game.table.distribution = c.distribution

theorem Session.Fresh.inGame (h : s.Fresh c) (returns : s.Returns) : s.InGame c where
  toOpen := h.toOpen
  deals := congrArg _ h.score
  players := h.players
  few := h.passes.trans_lt mostPasses_pos
  returns := returns

/-- There can be fifty rounds for every deal. -/
theorem Session.Fresh.left_eq (h : s.Fresh c) : s.left c = mostPasses * c.mode.deals := by
  rw [Session.left, h.passes, h.score]
  rfl

/-! ## Games of a numbered series -/

/-- What a deal keeps that is made and played is kept by the round. -/
theorem Session.playRound_keeps {P : Table → Prop} {s s' : Session} {files : Files}
    (dealt : Game.Preserves P (dealAndPlay files)) (h : P s.game.table)
    (round : (∃ d, s.playRound files = .played s' d) ∨ s.playRound files = .passed s') :
    P s'.game.table := by
  rw [playRound_eq] at round
  cases hrun : (dealAndPlay files).run s.game with
  | error e g =>
    rw [hrun] at round
    rcases round with ⟨d, round⟩ | round <;> cases round
  | ok outcome g =>
    have hg : P g.table := dealt _ _ _ h hrun
    rw [hrun] at round
    cases outcome with
    | played points =>
      rcases round with ⟨d, round⟩ | round
      · cases round
        exact hg
      · cases round
    | unfinished => rcases round with ⟨d, round⟩ | round <;> cases round
    | notPlayed | uncounted =>
      rw [conclude] at round
      split at round
      · rcases round with ⟨d, round⟩ | round <;> cases round
      · rcases round with ⟨d, round⟩ | round
        · cases round
        · cases round
          exact hg

theorem Session.acknowledge_keeps {P : Table → Prop} (steady : Game.Steady P noFiles)
    {s s' : Session} (h : P s.game.table) (again : s.acknowledge noFiles = .ok s') :
    P s'.game.table := by
  unfold acknowledge at again
  cases hrun : (Game.onTable (Table.acknowledge noFiles)).run s.game with
  | error e g =>
    rw [call_error hrun] at again
    cases again
  | ok transition g =>
    rw [call_ok hrun] at again
    cases again
    exact steady.onTable_acknowledge _ _ _ h hrun

/-- What acknowledging and deciding keep is kept up to the next round. -/
theorem Session.Next.keeps {P : Table → Prop} (steady : ∀ files, Game.Steady P files)
    {s s' : Session} {files : Files} (next : s.Next files s') (h : P s.game.table) :
    P s'.game.table := by
  have dealt : Game.Preserves P (dealAndPlay files) :=
    (steady files).onTable_acknowledge.bind fun _ => (steady files).playDeal
  cases next with
  | played round ready =>
    exact acknowledge_keeps (steady noFiles) (playRound_keeps dealt h (.inl ⟨_, round⟩)) ready
  | passed round ready =>
    exact acknowledge_keeps (steady noFiles) (playRound_keeps dealt h (.inr round)) ready

/-- What every round keeps is kept by the game. -/
theorem Rounds.keeps {P : Table → Prop} (steady : ∀ files, Game.Steady P files)
    {first last : Session} {rounds : List Iteration} (chain : Rounds first rounds last)
    (h : P first.game.table) : P last.game.table := by
  induction chain with
  | start => exact h
  | round _ _ next ih => exact next.keeps steady ih

/-- Everybody passed in fifty rounds in a row. -/
def PassedOut (iterations : List Iteration) : Prop :=
  ∃ passes, passes <:+: iterations ∧ passes.length = mostPasses ∧ ∀ i ∈ passes, i.Passed

/-- What is printed for a seat in the deals of some rounds. -/
def seatScores (c : Config) (rounds : List Iteration) (seat : Seat) : List Int :=
  (rounds.filterMap Iteration.deal?).map fun d =>
    (d.points.seatScores d.bid c.players.toNat).get seat

/-- The score after some rounds, with as many deals in it as are planned. -/
structure FullScore (c : Config) (rounds : List Iteration) (score : Score) : Prop where
  played : score.played = c.mode.deals
  /-- Every deal came to its end, and else everybody passed. -/
  ended : ∀ i ∈ rounds, (∀ d, i.deal? = some d → i.Played d) ∧ (i.deal? = none → i.Passed)
  deals : score.history = (rounds.filterMap Iteration.deal?).map (·.entry c.players.toNat)
  /-- The totals are the sums of what the seats have won in the deals. -/
  total : ∀ seat, InInt32 (seatScores c rounds seat).sum →
    score.total seat = (seatScores c rounds seat).sum
  /-- Beyond 32 bits the sums wrap around. -/
  wraps : ∀ seat, score.total seat = ((seatScores c rounds seat).sum).bmod (2 ^ 32)
  /-- Unless more than half a million deals are planned, no sum leaves that range on the way. -/
  inRange : c.mode.deals * Points.mostInDeal < 2 ^ 31 →
    ∀ before, before <+: rounds → ∀ seat, InInt32 (seatScores c before seat).sum

/-- How a game ends, what it has printed, and what comes of it. -/
inductive Ending (c : Config) (first : Session) :
    List Iteration → List String → Outcome → Prop where
  | full {rounds : List Iteration} {last : Session} (chain : Rounds first rounds last)
      (full : FullScore c rounds last.score) :
      Ending c first rounds (rounds.flatMap (·.lines c) ++ finalLines last.score) .done
  | gaveUp {rounds : List Iteration} {last : Session} {files : Files}
      (chain : Rounds first rounds last) (passed : Iteration.Passed ⟨last, files⟩) :
      Ending c first (rounds ++ [⟨last, files⟩]) (rounds.flatMap (·.lines c))
        (.fail 1 gaveUpMessage)
  | stuck {rounds : List Iteration} {last : Session} {files : Files} {cards : Cards}
      (chain : Rounds first rounds last) (stuck : Iteration.Stuck ⟨last, files⟩ cards) :
      Ending c first (rounds ++ [⟨last, files⟩]) (rounds.flatMap (·.lines c))
        (.fail 1 (Refusal.invalidDiscard cards).message)

/-- The rounds of a game that has ended. -/
structure Course (c : Config) (texts : Nat → Option String) (first : Session)
    (iterations : List Iteration) (lines : List String) (outcome : Outcome) : Prop where
  length_le : iterations.length ≤ mostPasses * c.mode.deals
  ready : ∀ i ∈ iterations, i.session.game.table.phase = .awaitingReady
  found : ∀ i ∈ iterations, i.Found texts
  ending : Ending c first iterations lines outcome
  gaveUp_iff : outcome = .fail 1 gaveUpMessage ↔ PassedOut iterations

variable {texts : Nat → Option String} {first last : Session} {rounds final : List Iteration}
  {lines : List String} {outcome : Outcome}

/-- The message of a refused discard begins differently from that of a game that is given up. -/
theorem message_ne_gaveUpMessage (cards : Cards) :
    (Refusal.invalidDiscard cards).message ≠ gaveUpMessage := by
  have differ (text number rest : String) :
      "invalid discard: " ++ text ≠ "every player passed " ++ number ++ rest := fun h => by
    have hletters := congrArg String.toList h
    simp at hletters
  exact differ cards.text (toString mostPasses) " times in a row"

/-- A score has no more deals than are planned. -/
theorem Rounds.played_le (chain : Rounds first rounds last) (h : first.InGame c)
    (new : first.score.history = []) : last.score.played ≤ c.mode.deals := by
  refine (chain.keep (c := c) (P := fun _ last => last.score.played ≤ c.mode.deals) ?_ ?_ h).2
  · rw [Score.played, new]
    exact Nat.zero_le _
  · intro _ s s' files inGame _ going changed ih
    cases changed with
    | played _ _ _ score =>
      rw [score, Score.played, Score.add, List.length_append]
      exact inGame.played_lt going
    | passed _ _ _ score => rwa [score]

/-- The deal of a round is counted from cards of the deck. -/
theorem Session.InGame.possible {files : Files} (h : s.InGame c)
    (going : s.score.isFinished = false) {d : PlayedDeal} (played : Iteration.Played ⟨s, files⟩ d) :
    d.points.Possible := by
  obtain ⟨g, result, phase, counted, _, _⟩ := played
  have ends := h.dealEnds (h.returns [] s .start going files)
  rw [show (dealAndPlay files).run s.game = .ok (.played d.points) g from result] at ends
  cases ends with
  | played ready =>
    have inPlay := ready.reached.sound.during (by rw [phase]; rfl)
    have heq : d.points = g.table.deal.result :=
      Option.some.inj (counted.symm.trans (inPlay.ended phase).2)
    rw [heq]
    exact (DealState.Over.table ready.reached phase).possible

theorem Rounds.possible (chain : Rounds first rounds last) (h : first.InGame c) :
    ∀ d ∈ rounds.filterMap Iteration.deal?, d.points.Possible := by
  refine (chain.keep (c := c)
    (P := fun rounds _ => ∀ d ∈ rounds.filterMap Iteration.deal?, d.points.Possible)
    (List.forall_mem_nil _) ?_ h).2
  intro rounds s s' files inGame _ going changed ih
  rw [List.filterMap_append]
  refine List.forall_mem_append.mpr ⟨ih, ?_⟩
  cases changed with
  | played deal ended =>
    rw [List.filterMap_cons_some deal]
    exact List.forall_mem_singleton.mpr (inGame.possible going ended)
  | passed deal =>
    rw [List.filterMap_cons_none deal]
    exact List.forall_mem_nil _

/-- **In a game that is not too long the totals are in range all the time.** -/
theorem Rounds.inInt32 (accepted : c.check = .ok ()) (chain : Rounds first rounds last)
    (h : first.InGame c)
    (few : (rounds.filterMap Iteration.deal?).length * Points.mostInDeal < 2 ^ 31) :
    ∀ before, before <+: rounds → ∀ seat, InInt32 (seatScores c before seat).sum := by
  intro before hbefore seat
  have hn := Config.supported_of_check accepted
  have hdeals := hbefore.filterMap Iteration.deal?
  refine inInt32_sum ?_ fun x hx => ?_
  · rw [seatScores, List.length_map]
    exact (Nat.mul_le_mul_right _ hdeals.length_le).trans_lt few
  · obtain ⟨d, hd, rfl⟩ := List.mem_map.mp hx
    exact (chain.possible h d (hdeals.mem hd)).natAbs_seatScores_le d.bid hn seat

/-- **A score that is full has the deals of the rounds, and as many as are planned.** -/
theorem Rounds.fullScore (accepted : c.check = .ok ()) (chain : Rounds first rounds last)
    (fresh : first.Fresh c) (h : first.InGame c) (finished : last.score.isFinished = true) :
    FullScore c rounds last.score := by
  have hnew : first.score.history = [] := by
    rw [fresh.score]
    rfl
  have hhistory := chain.history h hnew
  have hge : c.mode.deals ≤ last.score.played := by
    rw [← (chain.inGame h).deals]
    simpa [Score.isFinished] using finished
  have hplayed : last.score.played = c.mode.deals := Nat.le_antisymm (chain.played_le h hnew) hge
  have hwraps (seat : Seat) :
      last.score.total seat = ((seatScores c rounds seat).sum).bmod (2 ^ 32) := by
    rw [Score.total_eq, hhistory, List.map_map]
    rfl
  exact {
    played := hplayed
    ended := chain.deals_played h
    deals := hhistory
    total := fun seat fits => (hwraps seat).trans fits.bmod_eq
    wraps := hwraps
    inRange := fun few => by
      rw [← hplayed, Score.played, hhistory, List.length_map] at few
      exact chain.inInt32 accepted h few }

/-- The last round is one of those that there can be. -/
theorem Stops.length_le (stops : Stops last final lines outcome) (chain : Rounds first rounds last)
    (fresh : first.Fresh c) (h : first.InGame c) :
    (rounds ++ final).length ≤ mostPasses * c.mode.deals := by
  have hfinal : final.length ≤ last.left c := by
    cases stops with
    | full => exact Nat.zero_le _
    | gaveUp going | stuck going => exact (chain.inGame h).left_pos going
  calc (rounds ++ final).length
    _ = rounds.length + final.length := List.length_append
    _ ≤ rounds.length + last.left c := Nat.add_le_add_left hfinal _
    _ ≤ first.left c := chain.length_le h
    _ = mostPasses * c.mode.deals := fresh.left_eq

/-- The last round begins as the others do. -/
theorem Stops.ready (stops : Stops last final lines outcome) (chain : Rounds first rounds last)
    (h : first.InGame c) :
    ∀ i ∈ rounds ++ final, i.session.game.table.phase = .awaitingReady := by
  refine List.forall_mem_append.mpr ⟨chain.ready h, ?_⟩
  cases stops with
  | full => exact List.forall_mem_nil _
  | gaveUp | stuck => exact List.forall_mem_singleton.mpr (chain.inGame h).ready

theorem Stops.ending (stops : Stops last final lines outcome) (accepted : c.check = .ok ())
    (chain : Rounds first rounds last) (fresh : first.Fresh c) (h : first.InGame c) :
    Ending c first (rounds ++ final) (rounds.flatMap (·.lines c) ++ lines) outcome := by
  cases stops with
  | full finished =>
    rw [List.append_nil]
    exact .full chain (chain.fullScore accepted fresh h finished)
  | gaveUp _ passed =>
    rw [List.append_nil]
    exact .gaveUp chain passed
  | stuck _ stuck =>
    rw [List.append_nil]
    exact .stuck chain stuck

/-- **A game is given up exactly if everybody has passed fifty times in a row.** -/
theorem Stops.gaveUp_iff (stops : Stops last final lines outcome) (chain : Rounds first rounds last)
    (fresh : first.Fresh c) (h : first.InGame c) :
    outcome = .fail 1 gaveUpMessage ↔ PassedOut (rounds ++ final) := by
  have few (passes : List Iteration) (hwithin : passes <:+: rounds)
      (passed : ∀ i ∈ passes, i.Passed) : passes.length ≠ mostPasses :=
    (chain.length_passes_lt h passes hwithin passed).ne
  cases stops with
  | full =>
    refine iff_of_false nofun ?_
    rintro ⟨passes, hwithin, hlength, passed⟩
    rw [List.append_nil] at hwithin
    exact few passes hwithin passed hlength
  | @gaveUp files going passed many =>
    refine iff_of_true rfl ?_
    -- The rounds that were just passed, together with the last one.
    obtain ⟨passes, ⟨before, rfl⟩, hall, hlength⟩ := chain.passes_counted h fresh.passes
    refine ⟨passes ++ [⟨last, files⟩], ⟨before, [], by simp⟩, ?_, ?_⟩
    · have hfew := (chain.inGame h).few
      rw [List.length_append, List.length_singleton]
      omega
    · exact List.forall_mem_append.mpr ⟨hall, List.forall_mem_singleton.mpr passed⟩
  | @stuck files cards going stuck =>
    refine iff_of_false (fun heq => ?_) ?_
    · exact message_ne_gaveUpMessage cards (Outcome.fail.inj heq).2
    · rintro ⟨passes, hwithin, hlength, passed⟩
      rcases List.infix_concat_iff.mp hwithin with hsuffix | hbefore
      · -- The last round ended with a refusal, and is not among the passes.
        rcases List.suffix_concat_iff.mp hsuffix with rfl | ⟨before, rfl, _⟩
        · cases hlength
        · have hlast := (List.forall_mem_append.mp passed).2
          exact stuck.not_passed (List.forall_mem_singleton.mp hlast)
      · exact few passes hbefore passed hlength

end CommandLine

end FrenchTarot
