import FrenchTarot.Proofs.Deal.Numbers
import FrenchTarot.Proofs.Table.NewDeal
import FrenchTarot.Proofs.Table.Steps

/-!
# A numbered series

A table whose distribution is a number deals the numbers from there on, one after the other.  Two
places take part in the counting: a number that is not usable is passed over while a deal is looked
for, and after a deal the table goes on with the number after the one that was used.  Each of them
could skip a number or deal one twice.

What happens at a table is a `Sitting`: any calls, granted or refused, and in between the deals that
come from acknowledging that the table is ready.  A sitting that begins with a number counts up
(`CountsUp`): each deal is that of the first number that is usable from where the one before has
left off.  At a table that keeps its size, this means that the usable numbers are dealt, in order
and without a gap (`CountsUp.usableNumbers`).
-/

namespace FrenchTarot

namespace Deal

/-- The numbers that are usable among the first from `seed` on. -/
def usableNumbers (n : Nat) (seed : UInt64) (count : Nat) : List UInt64 :=
  ((List.range count).map (ahead seed)).filter (Usable n ·)

variable {n : Nat} {seed : UInt64} {count : Nat}

/-- When the next usable number is known, it is the next of the list. -/
theorem usableNumbers_next {skipped : Nat}
    (unusable : ∀ i < skipped, ¬ Usable n (ahead (ahead seed count) i))
    (usable : Usable n (ahead (ahead seed count) skipped)) :
    usableNumbers n seed (count + skipped + 1) =
      usableNumbers n seed count ++ [ahead (ahead seed count) skipped] := by
  simp only [ahead_ahead] at unusable usable ⊢
  rw [usableNumbers, List.range_succ, List.range_add, List.map_append, List.map_append,
    List.filter_append, List.filter_append, ← usableNumbers]
  have hskipped : (((List.range skipped).map (count + ·)).map (ahead seed)).filter
      (Usable n ·) = [] := by
    simpa using unusable
  rw [hskipped, List.append_nil, List.map_singleton, List.filter_singleton]
  simp [usable]

/-- No number is there twice before all of them have been there. -/
theorem nodup_usableNumbers (n : Nat) (seed : UInt64) (hle : count ≤ UInt64.size) :
    (usableNumbers n seed count).Nodup := by
  refine List.Nodup.filter _ (List.Nodup.map_on ?_ List.nodup_range)
  intro i hi j hj heq
  exact ahead_injOn ((List.mem_range.mp hi).trans_le hle) ((List.mem_range.mp hj).trans_le hle) heq

end Deal

namespace Table

variable {start t t' : Table} {files : Files} {seed : UInt64} {dealt : List Table}

/-! ## Sittings -/

/-- A call that does not deal and does not choose how to deal.  Acknowledging until the table rests
is several calls. -/
def Call.Aside (t : Table) : Call → Prop
  | setDistribution _ | newDeal _ | acknowledgeAll => False
  | acknowledge => t.phase ≠ .awaitingReady
  | _ => True

/-- What happens at a table: the tables that were left by the deals, and the table in the end.  The
files may change from call to call. -/
inductive Sitting (start : Table) : List Table → Table → Prop where
  | start : Sitting start [] start
  | deal {dealt : List Table} {t t' : Table} (before : Sitting start dealt t)
      (ready : t.phase = .awaitingReady) (files : Files)
      (after : Call.acknowledge.after? files t = some t') : Sitting start (dealt ++ [t']) t'
  | aside {dealt : List Table} {t t' : Table} (before : Sitting start dealt t) {c : Call}
      (aside : c.Aside t) (files : Files) (after : c.after? files t = some t') :
      Sitting start dealt t'

/-- An acknowledgement goes on with a sitting, whatever is acknowledged. -/
theorem Sitting.acknowledge (before : Sitting start dealt t)
    (after : Call.acknowledge.after? files t = some t') :
    ∃ more, Sitting start (dealt ++ more) t' := by
  by_cases ready : t.phase = .awaitingReady
  · exact ⟨[t'], before.deal ready files after⟩
  · exact ⟨[], (List.append_nil dealt).symm ▸ before.aside (c := .acknowledge) ready files after⟩

/-- **Acknowledging until the table rests goes on with a sitting.** -/
theorem Sitting.acknowledgeAll (before : Sitting start dealt t)
    (after : Call.acknowledgeAll.after? files t = some t') :
    ∃ more, Sitting start (dealt ++ more) t' := by
  refine acknowledgeWithin_keeps (P := fun t => ∃ more, Sitting start (dealt ++ more) t)
    (fun t₁ t₂ h _ hr => ?_) ⟨[], (List.append_nil dealt).symm ▸ before⟩ after
  have again : Call.acknowledge.after? files t₁ = some t₂ := hr
  obtain ⟨more, h⟩ := h
  obtain ⟨last, h⟩ := h.acknowledge again
  exact ⟨more ++ last, List.append_assoc dealt more last ▸ h⟩

theorem Sitting.reachable (h : Sitting start dealt t) (hstart : Reachable start) :
    Reachable t := by
  induction h with
  | start => exact hstart
  | deal _ _ files after ih => exact ih.call files _ after
  | aside _ _ files after ih => exact ih.call files _ after

/-! ## The distribution between two deals -/

theorem Step.distribution {b : Option Announcement} (h : Step t b t') :
    t'.distribution = t.distribution := by
  have settled : ∀ {t t' : Table}, Settled t t' → t'.distribution = t.distribution := fun h => by
    cases h <;> rfl
  have continued : ∀ {t t' : Table}, Continued t t' → t'.distribution = t.distribution :=
    fun h => by cases h <;> rfl
  cases h with
  | closeAuction _ _ _ _ hs => exact (settled hs).trans rfl
  | closeCall _ hs => exact settled hs
  | decline _ hc => exact (continued hc).trans rfl
  | goOn _ hc => exact continued hc
  | nextTrick _ _ hc => exact continued hc
  | _ => rfl

theorem acknowledge_distribution (h : t.Sound) (ready : t.phase ≠ .awaitingReady)
    (after : Call.acknowledge.after? files t = some t') : t'.distribution = t.distribution := by
  rcases (acknowledge_plays h files ready).granted_or after with ⟨transition, granted⟩ | rfl
  · by_cases going : t.phase.inDeal ∧ t.phase.endsDeal = false
    · exact (acknowledge_step going.1 going.2 granted).distribution
    · unfold Table.acknowledge at granted
      rw [get_bind_run] at granted
      cases hp : t.phase with
      | awaitingReady => exact absurd hp ready
      | awaitingPlayers | allPassed | dealEnded | stopped =>
        rw [hp] at granted
        cases granted <;> rfl
      | _ => exact absurd (by rw [hp]; exact ⟨rfl, rfl⟩) going
  · rfl

/-- **Only a deal moves a series on.** -/
theorem Call.Aside.distribution {c : Call} (aside : c.Aside t) (h : t.Sound)
    (after : c.after? files t = some t') : t'.distribution = t.distribution := by
  -- A call of a deal makes a step when it is granted, and changes nothing when it is refused.
  have step : ∀ {α : Type} {r : EStateM.Result Refusal Table α}, t.Plays r →
      answered Refusal.givesUp r = some t' →
      (∀ a, r = .ok a t' → ∃ b, Step t b t') → t'.distribution = t.distribution := by
    intro α r plays after step
    rcases plays.granted_or after with ⟨a, granted⟩ | rfl
    · obtain ⟨b, step⟩ := step a granted
      exact step.distribution
    · rfl
  cases c with
  | create n =>
    rw [Call.after?, create_run] at after
    split at after <;> cases after <;> rfl
  | setFirstDealer | newGame | stop =>
    cases after
    rfl
  | setDistribution | newDeal | acknowledgeAll => exact aside.elim
  | placeBid seat contract slam =>
    exact step (placeBid_plays ..) after fun _ ok => ⟨_, placeBid_step ok⟩
  | callCard seat card => exact step (callCard_plays ..) after fun _ ok => ⟨_, callCard_step ok⟩
  | layDiscard seat cards =>
    exact step (layDiscard_plays ..) after fun _ ok => ⟨_, layDiscard_step ok⟩
  | showHandle seat cards =>
    exact step (showHandle_plays ..) after fun _ ok => ⟨_, showHandle_step ok⟩
  | declineHandle seat =>
    exact step (declineHandle_plays h seat) after fun _ ok => ⟨_, declineHandle_step ok⟩
  | playCard seat card => exact step (playCard_plays ..) after fun _ ok => ⟨_, playCard_step ok⟩
  | apply seat action =>
    exact step (apply_plays h seat action) after fun _ ok => ⟨_, apply_step ok⟩
  | acknowledge => exact acknowledge_distribution h aside after

/-! ## Dealing the next number -/

/-- The table has the cards of a number on it, and the next deal is that of the number after. -/
structure ShowsNumber (t : Table) (number : UInt64) : Prop where
  cards : ∃ d, Deal.Dealt t.players number d ∧ t.Holds d
  following : t.distribution = .numbered (number + 1)

theorem place_players (t : Table) (d : Deal) : (place t d).players = t.players := by
  obtain ⟨current, dealer, heq⟩ := place_shape t d
  rw [heq]

/-- A ready table that is acknowledged has a new deal, and chooses how to deal after it. -/
theorem acknowledge_deals (ready : t.phase = .awaitingReady) {used : Distribution}
    (ok : (newDeal files t.distribution).run t = .ok used t') : ∃ transition,
      (Table.acknowledge files).run t =
        .ok transition { t' with distribution := followingDistribution used } := by
  rw [Table.acknowledge, get_bind_run, ready]
  unfold dealNext
  dsimp only
  rw [get_bind_run, EStateM.run_bind, EStateM.run_adaptExcept, ok]
  exact ⟨_, rfl⟩

/-- **A ready table is dealt the first usable number from its own on.** -/
theorem acknowledge_numbered (hn : Rules.supported t.players) (ready : t.phase = .awaitingReady)
    (numbered : t.distribution = .numbered seed) (files : Files) :
    ∃ skipped t', Call.acknowledge.after? files t = some t' ∧ t'.players = t.players
      ∧ (∀ i < skipped, ¬ Deal.Usable t.players (Deal.ahead seed i))
      ∧ t'.ShowsNumber (Deal.ahead seed skipped) := by
  obtain ⟨found, hfound⟩ := Deal.numbered_returns hn seed
  obtain ⟨skipped, d, unusable, dealt, hseed⟩ := Deal.numberedWithin_eq_ok hfound
  have hdeal : (t.distribution.deal files t.players).run t.generator =
      .ok found t.generator := by
    rw [numbered, Distribution.deal, hfound]
    rfl
  have hused : usedDistribution t.distribution found = .numbered (Deal.ahead seed skipped) := by
    rw [numbered, hseed]
    rfl
  have hplayers := place_players { cleared t with generator := t.generator } found
  have hcards := place_holds { cleared t with generator := t.generator } found
  obtain ⟨transition, ok⟩ := acknowledge_deals ready (newDeal_requested hdeal)
  refine ⟨skipped, _, congrArg (answered _) ok, hplayers, unusable, ?_⟩
  rw [hused]
  -- The number that is noted in a deal has no part in its cards.
  have hsame : found.hands = d.hands ∧ found.dog = d.dog := by
    rw [hseed]
    exact ⟨rfl, rfl⟩
  exact {
    cards := ⟨d, hplayers.symm ▸ dealt, hcards.hands.trans hsame.1, hcards.dog.trans hsame.2⟩
    following := rfl }

/-! ## Counting up -/

/-- The tables were dealt the numbers from `seed` on, each of them the first that is usable at the
table from where the one before has left off; so many numbers have been looked at. -/
inductive CountsUp (seed : UInt64) : List Table → Nat → Prop where
  | start : CountsUp seed [] 0
  | next {dealt : List Table} {t : Table} {count skipped : Nat} (before : CountsUp seed dealt count)
      (unusable : ∀ i < skipped, ¬ Deal.Usable t.players (Deal.ahead (Deal.ahead seed count) i))
      (shows : t.ShowsNumber (Deal.ahead (Deal.ahead seed count) skipped)) :
      CountsUp seed (dealt ++ [t]) (count + skipped + 1)

/-- At a table of one size the numbers that are dealt are the usable ones, in order. -/
theorem CountsUp.usableNumbers {count n : Nat} (h : CountsUp seed dealt count)
    (players : ∀ t ∈ dealt, t.players = n) :
    List.Forall₂ ShowsNumber dealt (Deal.usableNumbers n seed count) := by
  induction h with
  | start => exact .nil
  | @next dealt t count skipped _ unusable shows ih =>
    simp only [List.mem_append, List.mem_singleton, or_imp, forall_and, forall_eq] at players
    obtain ⟨hbefore, rfl⟩ := players
    obtain ⟨d, hdealt, _⟩ := shows.cards
    rw [Deal.usableNumbers_next unusable ⟨d, hdealt⟩]
    exact List.rel_append (ih hbefore) (.cons shows .nil)

/-- A sitting that begins with a number counts up, and stands where the next deal begins. -/
theorem Sitting.countsUp (h : Sitting start dealt t) (hstart : Reachable start)
    (numbered : start.distribution = .numbered seed) :
    ∃ count, CountsUp seed dealt count ∧ t.distribution = .numbered (Deal.ahead seed count) := by
  induction h with
  | start => exact ⟨0, .start, numbered.trans (by rw [Deal.ahead_zero])⟩
  | deal before ready files after ih =>
    obtain ⟨count, counts, current⟩ := ih
    obtain ⟨skipped, t', after', hplayers, unusable, shows⟩ :=
      acknowledge_numbered (before.reachable hstart).sound.supported ready current files
    cases after.symm.trans after'
    refine ⟨count + skipped + 1, counts.next (hplayers ▸ unusable) shows, ?_⟩
    rw [shows.following, Deal.ahead_ahead, Deal.ahead_succ]
  | aside before aside files after ih =>
    obtain ⟨count, counts, current⟩ := ih
    exact ⟨count, counts,
      (aside.distribution (before.reachable hstart).sound after).trans current⟩

/-- **A numbered series deals every usable number once, and in order.** -/
theorem Reachable.numbered_series (h : Reachable start)
    (numbered : start.distribution = .numbered seed) {last : Table}
    (sitting : Sitting start dealt last) :
    ∃ count, CountsUp seed dealt count
      ∧ last.distribution = .numbered (Deal.ahead seed count)
      ∧ ∀ n, (∀ t ∈ dealt, t.players = n) →
        List.Forall₂ ShowsNumber dealt (Deal.usableNumbers n seed count)
          ∧ (count ≤ UInt64.size → (Deal.usableNumbers n seed count).Nodup) := by
  obtain ⟨count, counts, current⟩ := sitting.countsUp h numbered
  exact ⟨count, counts, current, fun n players =>
    ⟨counts.usableNumbers players, Deal.nodup_usableNumbers n seed⟩⟩

/-- A table of five that is ready for a series which begins with the greatest number. -/
def seriesReady : Table :=
  (ofSeed 0).callAll [.create 5, .setDistribution (.numbered (0 - 1)), .newGame]

theorem seriesReady_reachable : Reachable seriesReady := by
  rw [seriesReady]
  exact (Reachable.start 0).callAll _

/-- Two deals in a row, where the numbers come around to zero after the first of them. -/
theorem seriesReady_dealt : ∃ first second count, Sitting seriesReady [first, second] second
    ∧ CountsUp (0 - 1) [first, second] count
    ∧ List.Forall₂ ShowsNumber [first, second] (Deal.usableNumbers 5 (0 - 1) count) := by
  obtain ⟨ready, numbered, five⟩ : seriesReady.phase = .awaitingReady
      ∧ seriesReady.distribution = .numbered (0 - 1) ∧ seriesReady.players = 5 := by
    decide +kernel
  have hn := seriesReady_reachable.sound.supported
  obtain ⟨_, first, hfirst, hplayers, _, shows⟩ :=
    acknowledge_numbered hn ready numbered fun _ => none
  -- The first deal is given up for a new game.
  obtain ⟨_, second, hsecond, hplayers', _, _⟩ :=
    acknowledge_numbered (t := { first with phase := .awaitingReady }) (hplayers ▸ hn) rfl
      shows.following fun _ => none
  have sitting : Sitting seriesReady [first, second] second :=
    ((Sitting.start.deal ready _ hfirst).aside (c := .newGame) trivial (fun _ => none) rfl).deal rfl
      _ hsecond
  obtain ⟨count, counts, _, games⟩ := seriesReady_reachable.numbered_series numbered sitting
  refine ⟨first, second, count, sitting, counts, (games 5 ?_).1⟩
  simp [hplayers, hplayers', five]

end Table

end FrenchTarot
