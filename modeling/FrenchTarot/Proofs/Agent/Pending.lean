import FrenchTarot.Agent.Roster
import FrenchTarot.Proofs.Agent.Fallback

/-!
# How long a decision stays with a person

A person hands in a decision at any time, and the agent of the seat keeps it until the table asks for
it.  This module follows one such decision through everything that may happen at a table: decisions
that are handed in, calls on the table itself, and turns, in any order and over any number of deals.

An agent that is asked at the end of a deal forgets the decision.  But a table asks the agent of the
seat that has to decide, and at the end of a deal there is none.  So the decision stays, however
often the agents get their turn there, and it is given on the next time its seat is asked:
`Session.late_iff` says that a decision outlives its deal exactly if its seat is not asked before the
deal ends.  `staleBid_late` is a bid that was meant for one deal and is made in the next one.
-/

namespace FrenchTarot

/-! ## Agents of a roster -/

namespace Roster

theorem agent?_setAgent (r : Roster) (s t : Seat) (agent : Option Agent) :
    (r.setAgent s agent).agent? t = if t = s then agent else r.agent? t := by
  have hlength : s.index <
      (r.seats ++ List.replicate (s.index + 1 - r.seats.length) none).length := by
    rw [List.length_append, List.length_replicate]
    omega
  unfold setAgent agent?
  by_cases h : t = s
  · subst h
    rw [if_pos rfl, List.getElem?_set_self hlength, Option.join_some]
  · have hindex : s.index ≠ t.index := fun he => h (Seat.eq_of_index_eq he).symm
    rw [if_neg h, List.getElem?_set_ne hindex]
    -- The seats that are added are empty, as seats beyond the end are.
    by_cases hold : t.index < r.seats.length
    · rw [List.getElem?_append_left hold]
    · rw [List.getElem?_append_right (by omega), List.getElem?_eq_none (l := r.seats) (by omega),
        List.getElem?_replicate]
      split <;> rfl

/-- A decision is handed to one agent. -/
theorem agent?_receive (r : Roster) (s t : Seat) (action : Action) :
    (r.receive s action).1.agent? t =
      if t = s then (r.agent? s).map fun agent => (agent.receive action).1 else r.agent? t := by
  unfold receive
  cases hagent : r.agent? s with
  | none =>
    by_cases h : t = s
    · rw [if_pos h, h]
      exact hagent
    · rw [if_neg h]
  | some agent => exact r.agent?_setAgent s t _

/-- A decision is taken by a person who has none. -/
theorem receive_taken_iff (r : Roster) (s : Seat) (action : Action) :
    (r.receive s action).2 = true ↔ r.agent? s = some (.human none) := by
  unfold receive
  cases r.agent? s with
  | none => exact ⟨nofun, nofun⟩
  | some agent =>
    cases agent with
    | human pending => cases pending <;> simp [Agent.receive]
    | bot b => simp [Agent.receive]

end Roster

namespace Game

/-! ## Turns -/

/-- The table, agents and time that a call leaves, granted or refused. -/
def after {α : Type} (x : GameM α) (g : Game) : Game :=
  match x.run g with
  | .ok _ g' | .error _ g' => g'

/-- A call that leaves something as it is. -/
def Keeps {α β : Type} (view : Game → β) (x : GameM α) : Prop := ∀ g, view (after x g) = view g

theorem Keeps.bind {α β γ : Type} {v : Game → γ} {x : GameM α} {f : α → GameM β}
    (hx : Keeps v x) (hf : ∀ a, Keeps v (f a)) : Keeps v (x >>= f) := fun g => by
  have hfirst := hx g
  unfold after at hfirst ⊢
  rw [EStateM.run_bind]
  cases hrun : x.run g with
  | ok a g' =>
    rw [hrun] at hfirst
    exact (hf a g').trans hfirst
  | error e g' =>
    rw [hrun] at hfirst
    exact hfirst

theorem after_get_bind {α : Type} (f : Game → GameM α) (g : Game) :
    after (get >>= f) g = after (f g) g := rfl

theorem after_set_bind {α : Type} (g' : Game) (f : PUnit → GameM α) (g : Game) :
    after (set g' >>= f) g = after (f ⟨⟩) g' := rfl

theorem keeps_onTable {α : Type} (x : TableM α) : Keeps Game.roster (onTable x) := fun g => by
  show Game.roster (match onTable x g with | .ok _ g' | .error _ g' => g') = g.roster
  unfold onTable
  cases x g.table <;> rfl

theorem keeps_playDefault : Keeps Game.roster playDefault := by
  refine Keeps.bind (fun _ => rfl) fun g => Keeps.bind (fun _ => rfl) fun h => ?_
  split
  · exact (keeps_onTable _).bind fun _ _ => rfl
  · exact fun _ => rfl

/-- A decision is tried, and a refusal for the cards in it is answered by the fallback. -/
theorem submit_run (g : Game) (seat : Seat) (action : Action) :
    (submit seat action).run g =
      match (Table.apply seat action).run g.table with
      | .ok _ table => .ok true { g with table }
      | .error e table =>
        if isReplaced e then playDefault.run { g with table } else .error e { g with table } := by
  unfold submit
  simp only [EStateM.run, tryCatch, tryCatchThe, MonadExceptOf.tryCatch, EStateM.tryCatch, bind,
    EStateM.bind, EStateM.Backtrackable.restore, EStateM.dummyRestore, onTable]
  cases Table.apply seat action g.table with
  | ok transition table => rfl
  | error e table =>
    dsimp only
    by_cases he : isReplaced e
    · rw [if_pos he, if_pos he]
      unfold EStateM.bind
      cases playDefault { g with table } <;> rfl
    · rw [if_neg he, if_neg he]
      rfl

/-- A decision changes the table alone. -/
theorem keeps_submit (seat : Seat) (action : Action) :
    Keeps Game.roster (submit seat action) := by
  intro g
  unfold after
  rw [submit_run]
  cases (Table.apply seat action).run g.table with
  | ok transition table => rfl
  | error e table =>
    dsimp only
    by_cases he : isReplaced e
    · rw [if_pos he]
      exact keeps_playDefault { g with table }
    · rw [if_neg he]

/-- **A person who is asked gives on the decision, and has none any more.** -/
theorem takeTurn_person {g : Game} {s : Seat} {pending : Option Action}
    (asked : g.table.acting? = some s) (person : g.roster.agent? s = some (.human pending)) :
    takeTurn.run g = (pending.elim (pure false) (submit s)).run
      { g with roster := g.roster.setAgent s (some (.human none)) } := by
  have hturn : (Agent.human pending).turn g.table s g.clock = (.human none, pending) := by
    have hphase : ¬ (g.table.phase = .dealEnded || g.table.phase = .stopped) := by
      intro h
      rcases Bool.or_eq_true_iff.mp h with hp | hp <;>
        simp [Table.acting?, of_decide_eq_true hp] at asked
    rw [Agent.turn, if_neg hphase, if_neg (fun h => h asked)]
  unfold takeTurn
  rw [EStateM.run_bind, EStateM.run_get]
  dsimp only
  rw [asked]
  dsimp only
  rw [person]
  dsimp only
  rw [hturn]
  cases pending with
  | none => rfl
  | some action =>
    -- Nobody waits for a person, so that nothing is left to do after the decision.
    have hkind : decide ((Agent.human (some action)).kind = .bot) = false := rfl
    simp only [hkind, Bool.false_and, Bool.and_false, Bool.false_eq_true, if_false, bind_pure,
      Option.elim_some]
    rfl

/-- The agent of a seat that is not asked stays as it is. -/
theorem agent?_takeTurn {g : Game} {s : Seat} (unasked : g.table.acting? ≠ some s) :
    (after takeTurn g).roster.agent? s = g.roster.agent? s := by
  have hother : ∀ {seat : Seat} (agent : Agent), g.table.acting? = some seat →
      (g.roster.setAgent seat (some agent)).agent? s = g.roster.agent? s := fun agent asked => by
    rw [Roster.agent?_setAgent, if_neg]
    rintro rfl
    exact unasked asked
  unfold takeTurn
  rw [after_get_bind]
  split
  · rfl
  · rename_i seat asked
    split
    · rfl
    · rename_i agent _
      dsimp only
      split
      · rfl
      · rw [after_set_bind]
        split
        · exact hother _ asked
        · -- The decision changes the table, and the pause after it changes no agent.
          refine (Keeps.bind (v := fun h => h.roster.agent? s)
            (fun h => congrArg (Roster.agent? · s) (keeps_submit seat _ h)) (fun acted => ?_) _).trans
            (hother _ asked)
          split
          · exact Keeps.bind (v := fun h => h.roster.agent? s) (fun _ => rfl) fun _ _ => rfl
          · exact fun _ => rfl

/-! ## Sessions -/

/-- What may happen at a table with agents. -/
inductive Happening where
  | receive (seat : Seat) (action : Action)
  | call (files : Files) (c : Table.Call)
  | turn
  | wait

/-- The game after it; none when a call on the table gives up. -/
def Happening.after? (g : Game) : Happening → Option Game
  | receive seat action => some { g with roster := (g.roster.receive seat action).1 }
  | call files c => (c.after? files g.table).map fun table => { g with table }
  | turn => some (after takeTurn g)
  | wait => some { g with clock := g.clock + 1 }

/-- Something that happens, and the game that it happens in. -/
structure Moment where
  game : Game
  happening : Happening

namespace Moment

/-- The deal has been played to its end. -/
def DealEnded (m : Moment) : Prop := m.game.table.phase = .dealEnded

instance (m : Moment) : Decidable m.DealEnded :=
  inferInstanceAs (Decidable (m.game.table.phase = .dealEnded))

theorem going {m : Moment} {p : Phase} (phase : m.game.table.phase = p) (unended : p ≠ .dealEnded) :
    ¬ m.DealEnded := fun h => unended (phase.symm.trans h)

/-- A decision is handed to the agent of a seat, and the agent takes it. -/
def HandsIn (m : Moment) (s : Seat) (a : Action) : Prop :=
  m.happening = .receive s a ∧ (m.game.roster.receive s a).2

/-- The agents get a turn, and the seat has to decide. -/
def Asks (m : Moment) (s : Seat) : Prop := m.happening = .turn ∧ m.game.table.acting? = some s

theorem asks_of_acting {t : Table} {roster : Roster} {clock : Nat} {s : Seat}
    (acting : t.acting? = some s) : (⟨⟨t, roster, clock⟩, .turn⟩ : Moment).Asks s := ⟨rfl, acting⟩

/-- The seat has to decide, and a person gives on the decision (`takeTurn_person`). -/
def GivesOn (m : Moment) (s : Seat) (a : Action) : Prop :=
  m.Asks s ∧ m.game.roster.agent? s = some (.human (some a))

end Moment

/-- What happens from a game on, one thing after the other, up to another game. -/
inductive Session : Game → List Moment → Game → Prop where
  | start (g : Game) : Session g [] g
  | next {g g' g'' : Game} {e : Happening} {log : List Moment} (after : e.after? g = some g')
      (rest : Session g' log g'') : Session g (⟨g, e⟩ :: log) g''

/-- A deal comes to its end during some moments. -/
def EndsDeal (moments : List Moment) : Prop :=
  ∃ m m', [m, m'].Sublist moments ∧ ¬ m.DealEnded ∧ m'.DealEnded

/-- A decision of a seat is handed in, a deal ends, and then the decision is given on. -/
def Late (log : List Moment) (s : Seat) (a : Action) : Prop :=
  ∃ earlier handed between given later, log = earlier ++ handed :: (between ++ given :: later)
    ∧ handed.HandsIn s a ∧ EndsDeal (handed :: between)
    -- It is this decision that is given on, and not one that was handed in after it.
    ∧ (∀ m ∈ between, ∀ b, ¬ m.HandsIn s b) ∧ given.GivesOn s a

/-- The agents get a turn at the end of each deal, before the table goes on. -/
def Attended (log : List Moment) : Prop :=
  ∀ m rest, (m :: rest) <:+ log → ¬ m.DealEnded →
    let visit := rest.takeWhile fun m => m.DealEnded
    visit = [] ∨ visit = rest ∨ ∃ m ∈ visit, m.happening = .turn

theorem Attended.cons {m : Moment} {log : List Moment} (h : Attended log)
    (hm : ¬ m.DealEnded → log.takeWhile (fun m => m.DealEnded) = []
      ∨ ∃ m ∈ log.takeWhile (fun m => m.DealEnded), m.happening = .turn) :
    Attended (m :: log) := by
  intro m' rest hsuffix going
  rcases List.suffix_cons_iff.mp hsuffix with heq | hsuffix
  · cases heq
    exact (hm going).imp_right Or.inr
  · exact h m' rest hsuffix going

/-! ## One decision -/

variable {g g' : Game} {e : Happening} {log : List Moment} {s : Seat} {a : Action}

/-- **A seat that is asked has no decision afterwards.** -/
theorem Happening.emptied (after : e.after? g = some g') {pending : Option Action}
    (person : g.roster.agent? s = some (.human pending)) (asks : (⟨g, e⟩ : Moment).Asks s) :
    g'.roster.agent? s = some (.human none) := by
  obtain ⟨rfl, asked⟩ := asks
  cases after
  have hkeeps : Keeps Game.roster (pending.elim (pure false) (submit s)) := by
    cases pending with
    | none => exact fun _ => rfl
    | some action => exact keeps_submit s action
  unfold Game.after
  rw [takeTurn_person asked person]
  have hroster := hkeeps { g with roster := g.roster.setAgent s (some (.human none)) }
  unfold Game.after at hroster
  rw [hroster, Roster.agent?_setAgent, if_pos rfl]

/-- **A decision that is taken is kept.** -/
theorem Happening.handedIn (after : e.after? g = some g') (hands : (⟨g, e⟩ : Moment).HandsIn s a) :
    g'.roster.agent? s = some (.human (some a)) := by
  obtain ⟨rfl, taken⟩ := hands
  cases after
  rw [Roster.agent?_receive, if_pos rfl, (g.roster.receive_taken_iff s a).mp taken]
  rfl

/-- **Nothing else concerns a person.** -/
theorem Happening.kept (after : e.after? g = some g') {pending : Option Action}
    (person : g.roster.agent? s = some (.human pending)) (unasked : ¬ (⟨g, e⟩ : Moment).Asks s)
    (untaken : ∀ b, ¬ (⟨g, e⟩ : Moment).HandsIn s b) :
    g'.roster.agent? s = some (.human pending) := by
  cases e with
  | receive seat action =>
    cases after
    rw [Roster.agent?_receive]
    by_cases h : s = seat
    · subst h
      have hfull : ¬ pending = none := fun hnone => untaken action ⟨rfl,
        (g.roster.receive_taken_iff s action).mpr (hnone ▸ person)⟩
      obtain ⟨a, rfl⟩ := Option.ne_none_iff_exists'.mp hfull
      rw [if_pos rfl, person]
      rfl
    · rw [if_neg h]
      exact person
  | call files c =>
    obtain ⟨table, _, rfl⟩ := Option.map_eq_some_iff.mp after
    exact person
  | turn =>
    cases after
    rw [agent?_takeTurn fun asked => unasked ⟨rfl, asked⟩]
    exact person
  | wait =>
    cases after
    exact person

namespace Session

/-- **A person who has a decision keeps it until the seat is asked.** -/
theorem keeps (run : Session g log g') (person : g.roster.agent? s = some (.human (some a)))
    (unasked : ∀ m ∈ log, ¬ m.Asks s) : g'.roster.agent? s = some (.human (some a))
      ∧ ∀ m ∈ log, ∀ b, ¬ m.HandsIn s b := by
  induction run with
  | start => exact ⟨person, List.forall_mem_nil _⟩
  | @next g _ _ e log after rest ih =>
    have untaken : ∀ b, ¬ (⟨g, e⟩ : Moment).HandsIn s b := fun b hands => by
      have hnone := (g.roster.receive_taken_iff s b).mp hands.2
      rw [hnone] at person
      cases person
    have hnow := unasked _ List.mem_cons_self
    obtain ⟨hlast, hrest⟩ := ih (Happening.kept after person hnow untaken)
      fun m hm => unasked m (List.mem_cons_of_mem _ hm)
    exact ⟨hlast, List.forall_mem_cons.mpr ⟨untaken, hrest⟩⟩

/-- A person without a decision has none until one is handed in. -/
theorem stays_empty (run : Session g log g') (person : g.roster.agent? s = some (.human none))
    (untaken : ∀ m ∈ log, ∀ b, ¬ m.HandsIn s b) : g'.roster.agent? s = some (.human none) := by
  induction run with
  | start => exact person
  | @next g _ _ e log after rest ih =>
    refine ih ?_ fun m hm => untaken m (List.mem_cons_of_mem _ hm)
    by_cases asks : (⟨g, e⟩ : Moment).Asks s
    · exact Happening.emptied after person asks
    · exact Happening.kept after person asks (untaken _ List.mem_cons_self)

/-- **A person has kept a decision, and has got no other one, exactly if the seat was not asked.** -/
theorem keeps_iff (run : Session g log g') (person : g.roster.agent? s = some (.human (some a))) :
    (g'.roster.agent? s = some (.human (some a)) ∧ ∀ m ∈ log, ∀ b, ¬ m.HandsIn s b) ↔
      ∀ m ∈ log, ¬ m.Asks s := by
  refine ⟨fun h => ?_, fun unasked => run.keeps person unasked⟩
  induction run with
  | start => exact List.forall_mem_nil _
  | @next g _ _ e log after rest ih =>
    obtain ⟨hkept, untaken⟩ := h
    have huntaken : ∀ m ∈ log, ∀ b, ¬ m.HandsIn s b :=
      fun m hm => untaken m (List.mem_cons_of_mem _ hm)
    by_cases asks : (⟨g, e⟩ : Moment).Asks s
    · -- Once asked, the person would have none at the end.
      rw [rest.stays_empty (Happening.emptied after person asks) huntaken] at hkept
      cases hkept
    · have hnext := Happening.kept after person asks (untaken _ List.mem_cons_self)
      exact List.forall_mem_cons.mpr ⟨asks, ih hnext ⟨hkept, huntaken⟩⟩

/-- A session may be cut anywhere. -/
theorem of_append {xs ys : List Moment} (run : Session g (xs ++ ys) g') :
    ∃ h, Session g xs h ∧ Session h ys g' := by
  induction xs generalizing g with
  | nil => exact ⟨g, .start g, run⟩
  | cons m xs ih =>
    cases run with
    | next after rest =>
      obtain ⟨h, first, last⟩ := ih rest
      exact ⟨h, .next after first, last⟩

/-- **A decision outlives its deal exactly if its seat is not asked before the deal ends.** -/
theorem late_iff (run : Session g log g') (s : Seat) (a : Action) :
    Late log s a ↔ ∃ earlier handed between given later,
      log = earlier ++ handed :: (between ++ given :: later) ∧ handed.HandsIn s a
        ∧ EndsDeal (handed :: between) ∧ (∀ m ∈ between, ¬ m.Asks s) ∧ given.Asks s := by
  refine exists_congr fun earlier => exists_congr fun handed => exists_congr fun between =>
    exists_congr fun given => exists_congr fun later => ?_
  refine and_congr_right fun hlog => and_congr_right fun hands => and_congr_right fun _ => ?_
  subst hlog
  obtain ⟨_, _, run⟩ := run.of_append
  cases run with
  | next after run =>
    obtain ⟨_, meanwhile, run⟩ := run.of_append
    cases run with
    | next =>
      have hiff := meanwhile.keeps_iff (Happening.handedIn after hands)
      constructor
      · exact fun ⟨untaken, asks, person⟩ => ⟨hiff.mp ⟨person, untaken⟩, asks⟩
      · intro ⟨unasked, asks⟩
        obtain ⟨person, untaken⟩ := hiff.mpr unasked
        exact ⟨untaken, asks, person⟩

end Session

/-! ## A bid that comes too late -/

/-- Four persons, none of whom has handed in anything. -/
def fourPersons : Roster := ⟨List.replicate 4 (some (.human none)), 0, none⟩

def noFiles : Files := fun _ => none

/-- A table of four where the last trick of a deal has been won. -/
def lastTrick : Table :=
  ((Table.place (Table.cleared Table.tableOfFour) Table.lopsidedDeal).callAll
    [.acknowledge, .placeBid .south .guardWithout false, .acknowledge, .placeBid .east .pass false,
      .acknowledge, .placeBid .north .pass false, .acknowledge,
      .placeBid .west .pass false]).playOut 167

theorem lastTrick_reachable : Table.Reachable lastTrick := by
  rw [lastTrick]
  exact (Table.lopsidedStart_reachable.callAll _).playOut _

/-- The same table at the end of the deal, and before the next one. -/
def dealOver : Table := lastTrick.callAll [.acknowledge]

def nextDeal : Table := dealOver.callAll [.acknowledge]

/-- The table with the next deal, and where the first seat is asked for a bid. -/
def nextCards : Table := Table.place (Table.cleared nextDeal) Table.lopsidedDeal

def nextAuction : Table := nextCards.callAll [.acknowledge]

def staleBid : Action := .bid .guardAgainst false

/-- The persons, with the bid that one of them has handed in. -/
def oneBid : Roster := (fourPersons.receive .south staleBid).1

/-- The agents get a turn at the end of the deal, and the next one is dealt. -/
def dealToDeal : List Moment :=
  [⟨⟨lastTrick, oneBid, 0⟩, .call noFiles .acknowledge⟩,
    ⟨⟨dealOver, oneBid, 0⟩, .turn⟩,
    ⟨⟨dealOver, oneBid, 0⟩, .call noFiles .acknowledge⟩,
    ⟨⟨nextDeal, oneBid, 0⟩, .call (fun _ => some Table.lopsidedText) (.newDeal (.custom ""))⟩,
    ⟨⟨nextCards, oneBid, 0⟩, .call noFiles .acknowledge⟩]

/-- A bid is handed in before the deal ends, and the agents get a turn in the next auction. -/
def staleLog : List Moment :=
  ⟨⟨lastTrick, fourPersons, 0⟩, .receive .south staleBid⟩ ::
    (dealToDeal ++ [⟨⟨nextAuction, oneBid, 0⟩, .turn⟩])

def staleEnd : Game := after takeTurn ⟨nextAuction, oneBid, 0⟩

/-- The deal is played here, once. -/
theorem stale_tables : (lastTrick.phase = .trickEnded ∧ dealOver.phase = .dealEnded
      ∧ nextDeal.phase = .awaitingReady ∧ nextCards.phase = .cardsDealt
      ∧ nextAuction.phase = .awaitingBid)
    ∧ ((Table.Call.after? noFiles lastTrick .acknowledge).isSome
      ∧ (Table.Call.after? noFiles dealOver .acknowledge).isSome
      ∧ (Table.Call.after? noFiles nextCards .acknowledge).isSome)
    ∧ nextDeal.players = 4 ∧ nextAuction.current = .south := by
  decide +kernel

/-- An acknowledgement that does not give up. -/
theorem acknowledged {t : Table} (h : (Table.Call.after? noFiles t .acknowledge).isSome)
    (roster : Roster) (clock : Nat) :
    Happening.after? ⟨t, roster, clock⟩ (.call noFiles .acknowledge) =
      some ⟨t.callAll [.acknowledge], roster, clock⟩ := by
  obtain ⟨t', ht'⟩ := Option.isSome_iff_exists.mp h
  have hcalled : t.callAll [.acknowledge] = t' := congrArg (Option.getD · t) ht'
  rw [Happening.after?, ht', hcalled]
  rfl

/-- The agents are not asked where nobody has to decide. -/
theorem takeTurn_nobody {g : Game} (nobody : g.table.acting? = none) :
    takeTurn.run g = .ok false g := by
  unfold takeTurn
  rw [EStateM.run_bind, EStateM.run_get]
  dsimp only
  rw [nobody]
  rfl

theorem staleSession : Session ⟨lastTrick, fourPersons, 0⟩ staleLog staleEnd := by
  obtain ⟨⟨_, ended, _, _, _⟩, ⟨hend, hready, hask⟩, hplayers, _⟩ := stale_tables
  have hturn : Happening.after? ⟨dealOver, oneBid, 0⟩ .turn = some ⟨dealOver, oneBid, 0⟩ := by
    rw [Happening.after?, after, takeTurn_nobody]
    rw [Table.acting?, ended]
  have hdeal : Happening.after? ⟨nextDeal, oneBid, 0⟩
      (.call (fun _ => some Table.lopsidedText) (.newDeal (.custom ""))) =
      some ⟨nextCards, oneBid, 0⟩ := by
    rw [Happening.after?, Table.Call.after?,
      Table.newDeal_ofFile (Table.ofFile_lopsided hplayers)]
    rfl
  have hlast : Session ⟨nextAuction, oneBid, 0⟩ [⟨⟨nextAuction, oneBid, 0⟩, .turn⟩] staleEnd :=
    .next rfl (.start _)
  have hfirst : Happening.after? ⟨lastTrick, fourPersons, 0⟩ (.receive .south staleBid) =
      some ⟨lastTrick, oneBid, 0⟩ := by
    rw [Happening.after?, oneBid]
  have hover : Happening.after? ⟨lastTrick, oneBid, 0⟩ (.call noFiles .acknowledge) =
      some ⟨dealOver, oneBid, 0⟩ := acknowledged hend _ _
  have hnext : Happening.after? ⟨dealOver, oneBid, 0⟩ (.call noFiles .acknowledge) =
      some ⟨nextDeal, oneBid, 0⟩ := acknowledged hready _ _
  have hasked : Happening.after? ⟨nextCards, oneBid, 0⟩ (.call noFiles .acknowledge) =
      some ⟨nextAuction, oneBid, 0⟩ := acknowledged hask _ _
  exact .next hfirst <| .next hover <| .next hturn <| .next hnext <| .next hdeal <|
    .next hasked hlast

theorem staleLog_late_iff : Session ⟨lastTrick, fourPersons, 0⟩ staleLog staleEnd
    ∧ (Late staleLog .south staleBid ↔ ∃ earlier handed between given later,
      staleLog = earlier ++ handed :: (between ++ given :: later)
        ∧ handed.HandsIn .south staleBid ∧ EndsDeal (handed :: between)
        ∧ (∀ m ∈ between, ¬ m.Asks .south) ∧ given.Asks .south) :=
  ⟨staleSession, staleSession.late_iff .south staleBid⟩

theorem staleLog_attended : Attended staleLog := by
  obtain ⟨⟨hlast, ended, hnext, hcards, hauction⟩, _⟩ := stale_tables
  have hnil : Attended [] := fun m rest h => by simp at h
  have unvisited : ∀ {m : Moment} {log : List Moment}, ¬ m.DealEnded →
      (m :: log).takeWhile (fun m => m.DealEnded) = [] := fun h =>
    List.takeWhile_cons_of_neg (by simpa using h)
  refine .cons (.cons (.cons (.cons (.cons (.cons (.cons hnil ?_) ?_) ?_) ?_) ?_) ?_) ?_
  · exact fun _ => Or.inl rfl
  · exact fun _ => Or.inl (unvisited (Moment.going hauction (by decide)))
  · exact fun _ => Or.inl (unvisited (Moment.going hcards (by decide)))
  · exact fun h => absurd ended h
  · exact fun h => absurd ended h
  · -- The deal ends here, and the first thing that happens is a turn.
    refine fun _ => Or.inr ⟨⟨⟨dealOver, oneBid, 0⟩, .turn⟩, ?_, rfl⟩
    refine (List.takeWhile_cons_of_pos ?_).symm ▸ List.mem_cons_self
    exact decide_eq_true ended
  · exact fun _ => Or.inl (unvisited (Moment.going hlast (by decide)))

/-- The bid is made in the deal after the one that it was handed in for. -/
theorem staleBid_late : Table.Reachable lastTrick
    ∧ Session ⟨lastTrick, fourPersons, 0⟩ staleLog staleEnd ∧ Attended staleLog
    ∧ Late staleLog .south staleBid ∧ staleEnd.table.deal.bid.contract = .guardAgainst := by
  obtain ⟨⟨hlast, ended, _, _, hauction⟩, _, _, hsouth⟩ := stale_tables
  have hbid : staleEnd.table.deal.bid.contract = .guardAgainst := by decide +kernel
  have hends : EndsDeal (⟨⟨lastTrick, fourPersons, 0⟩, .receive .south staleBid⟩ :: dealToDeal) :=
    ⟨_, ⟨⟨dealOver, oneBid, 0⟩, .turn⟩,
      .cons_cons _ (.cons _ (.cons_cons _ (List.nil_sublist _))),
      Moment.going hlast (by decide), ended⟩
  have hacting : nextAuction.acting? = some .south := by
    rw [Table.acting?, hauction]
    exact congrArg some hsouth
  refine ⟨lastTrick_reachable, staleSession, staleLog_attended, ?_, hbid⟩
  have hhands : (⟨⟨lastTrick, fourPersons, 0⟩, .receive .south staleBid⟩ : Moment).HandsIn .south
      staleBid := ⟨rfl, (Roster.receive_taken_iff _ _ _).mpr rfl⟩
  have hholds : oneBid.agent? .south = some (.human (some staleBid)) := rfl
  have hgives : (⟨⟨nextAuction, oneBid, 0⟩, .turn⟩ : Moment).GivesOn .south staleBid :=
    ⟨Moment.asks_of_acting hacting, hholds⟩
  exact ⟨[], _, dealToDeal, _, [], rfl, hhands, hends, by simp [dealToDeal, Moment.HandsIn],
    hgives⟩

end Game

end FrenchTarot
