import FrenchTarot.Proofs.Deal.Generated
import FrenchTarot.Proofs.Table.Reachable

/-!
# Nothing of a deal is left in the next one

A new deal may be asked for at any time, in the middle of a trick as well as between two games.
`cleared` then sets back the table field by field, and the state of the deal as a whole, for the
number of players that the deal state has on its own account.  If one field were forgotten, the deal
before would be seen in the next one.

So two tables are compared that have nothing in common but their players, their dealer and their
generator.  After a new deal by the same distribution they are the same, but for the distribution
that each of them keeps for later (`place_cleared_congr`).  And what they are is an untouched table
with cards on it (`place_cleared_untouched`).

A new deal is given whatever the distribution.  A numbered one always finds a deal, and in place of
a file that cannot be used a deal is drawn at random.  Only the search for a random deal has to come
to an end, and only where there is one (`Supplied`).
-/

namespace FrenchTarot

namespace Distribution

/-- A file that no deal for `n` players can be had from. -/
inductive Unusable (files : Files) (n : Nat) (path : String) : Prop
  | unreadable (missing : files path = none)
  /-- The text is no deal file, or what it holds is not a complete distribution. -/
  | malformed {text : String} {cause : DealError} (found : files path = some text)
      (refused : Deal.ofText text = .error cause)
  | otherTable {text : String} {d : Deal} (found : files path = some text)
      (read : Deal.ofText text = .ok d) (other : d.hands.players ≠ n)

/-- These are the files that give no deal. -/
theorem unusable_iff {files : Files} {n : Nat} {path : String} :
    Unusable files n path ↔ ∃ cause, ofFile files n path = .error cause := by
  unfold ofFile
  constructor
  · rintro (missing | ⟨found, refused⟩ | ⟨found, read, other⟩)
    · exact ⟨.unreadable, by rw [missing]⟩
    · rw [found]
      dsimp only
      rw [refused]
      exact ⟨_, rfl⟩
    · rw [found]
      dsimp only
      rw [read]
      exact ⟨_, if_pos other⟩
  · rintro ⟨cause, hcause⟩
    cases found : files path with
    | none => exact .unreadable found
    | some text =>
      cases hread : Deal.ofText text with
      | error cause => exact .malformed found hread
      | ok d =>
        refine .otherTable found hread fun same => ?_
        rw [found] at hcause
        dsimp only at hcause
        rw [hread] at hcause
        have hok : (if d.hands.players ≠ n then throw (.playerMismatch n d.hands.players)
            else pure d : Except DealError Deal) = .error cause := hcause
        rw [if_neg (fun other => other same)] at hok
        cases hok

/-- Whether a deal by the distribution is drawn at random in the end. -/
def AtRandom (files : Files) (n : Nat) : Distribution → Prop
  | random => True
  | numbered _ => False
  | custom path => Unusable files n path

/-- The file that the distribution names, if it names one, has the same text. -/
def SameFile (files files' : Files) : Distribution → Prop
  | custom path => files path = files' path
  | _ => True

theorem deal_congr {files files' : Files} {distribution : Distribution}
    (same : distribution.SameFile files files') (n : Nat) :
    distribution.deal files n = distribution.deal files' n := by
  cases distribution with
  | random => rfl
  | numbered seed => rfl
  | custom path =>
    have same : files path = files' path := same
    rw [deal, deal, ofFile, ofFile, same]

/-- Any other distribution gives the deal that was asked for. -/
theorem deal_ok {files : Files} {n : Nat} (hn : Rules.supported n) {distribution : Distribution}
    (h : ¬ distribution.AtRandom files n) (g : Generator) :
    ∃ d, (distribution.deal files n).run g = .ok d g := by
  cases distribution with
  | random => exact absurd trivial h
  | numbered seed =>
    obtain ⟨d, hd⟩ := Deal.numbered_returns hn seed
    refine ⟨d, ?_⟩
    rw [deal, hd]
    rfl
  | custom path =>
    cases hd : ofFile files n path with
    | error cause => exact absurd (unusable_iff.mpr ⟨cause, hd⟩) h
    | ok d =>
      refine ⟨d, ?_⟩
      rw [deal, hd]
      rfl

end Distribution

namespace Table

/-! ## The table after a deal -/

/-- A table where cards have been dealt and nothing else has happened. -/
structure Untouched (t : Table) : Prop where
  phase : t.phase = .cardsDealt
  bid : t.deal.bid = .none
  discard : t.deal.discard = .empty
  attackHandle : t.deal.attackHandle = []
  defenseHandle : t.deal.defenseHandle = []
  /-- No trick has been played, and with the tricks there are their winners. -/
  tricks : t.deal.tricks = []
  tricksWon : t.deal.tricksWon = 0
  attack : t.deal.attack = {}
  firstPlayer : t.deal.firstPlayer = none
  calledCard : t.calledCard = none
  points : t.points = none
  trick : t.trick = []
  position : t.position = 0
  tricksDone : t.tricksDone = 0
  handleAsked : ∀ s, t.handleAsked.get s = false
  history : t.history = []

/-- The table is left with the cards of a deal on it. -/
structure Holds (t : Table) (d : Deal) : Prop where
  hands : t.hands = d.hands
  dog : t.deal.dog = d.dog

variable {t t₁ t₂ : Table}

theorem place_holds (t : Table) (d : Deal) : Holds (place t d) d := by
  obtain ⟨current, dealer, heq⟩ := place_shape t d
  rw [heq]
  exact ⟨rfl, rfl⟩

theorem place_generator (t : Table) (d : Deal) : (place t d).generator = t.generator := by
  obtain ⟨current, dealer, heq⟩ := place_shape t d
  rw [heq]

theorem place_cleared_untouched (t : Table) (d : Deal) (generator : Generator) :
    Untouched (place { cleared t with generator } d) := by
  obtain ⟨current, dealer, heq⟩ := place_shape { cleared t with generator } d
  rw [heq]
  exact {
    phase := rfl
    bid := rfl
    discard := rfl
    attackHandle := rfl
    defenseHandle := rfl
    tricks := rfl
    tricksWon := rfl
    attack := rfl
    firstPlayer := rfl
    calledCard := rfl
    points := rfl
    trick := rfl
    position := rfl
    tricksDone := rfl
    handleAsked := fun s => PerSeat.get_replicate false s
    history := rfl }

/-- **What a deal leaves depends on nothing else of the table.** -/
theorem place_cleared_congr (seated₁ : t₁.Seated) (seated₂ : t₂.Seated)
    (players : t₁.players = t₂.players) (dealer : t₁.dealer = t₂.dealer) (d : Deal)
    (generator : Generator) (distribution : Distribution) :
    { place { cleared t₁ with generator } d with distribution } =
      { place { cleared t₂ with generator } d with distribution } := by
  -- The deal state is set back for its own number of players, which is that of the table.
  have hdeal : t₁.deal.players = t₂.deal.players := by
    rw [seated₁.deal_players, seated₂.deal_players, players]
  unfold place cleared
  cases d.firstPlayer <;> simp only [players, dealer, hdeal]

/-! ## Dealing -/

/-- What is drawn for a deal to `n` players: the deal that was asked for, or a spare one. -/
inductive Drawn (files : Files) (n : Nat) (distribution : Distribution) (g : Generator) :
    Distribution → Deal → Generator → Prop
  | requested {d : Deal} {g' : Generator}
      (given : (distribution.deal files n).run g = .ok d g') :
      Drawn files n distribution g (usedDistribution distribution d) d g'
  | spare {cause : DealError} {d : Deal} {g' g'' : Generator}
      (refused : (distribution.deal files n).run g = .error cause g')
      (given : (Deal.random n).run g' = .ok d g'') :
      Drawn files n distribution g .random d g''

section Drawn

variable {files files' : Files} {n : Nat} {distribution used : Distribution} {d : Deal}
  {g g' : Generator}

/-- The table is cleared, and what is drawn is placed on it. -/
theorem Drawn.newDeal (h : Drawn files t.players distribution t.generator used d g) :
    (newDeal files distribution).run t =
      .ok used (place { cleared t with generator := g } d) := by
  cases h with
  | requested given => exact newDeal_requested given
  | spare refused given => rw [newDeal_spare refused, given]

/-- What is drawn depends on the one file that is named. -/
theorem Drawn.congr (h : Drawn files n distribution g used d g')
    (same : distribution.SameFile files files') : Drawn files' n distribution g used d g' := by
  have hdeal := Distribution.deal_congr same n
  cases h with
  | requested given => exact .requested (hdeal ▸ given)
  | spare refused given => exact .spare (hdeal ▸ refused) given

/-- In place of what cannot be had, a random deal is drawn from the same generator. -/
theorem Drawn.atRandom (random : distribution.AtRandom files n)
    (hd : (Deal.random n).run g = .ok d g') : Drawn files n distribution g .random d g' := by
  cases distribution with
  | random => exact .requested hd
  | numbered seed => exact random.elim
  | custom path =>
    obtain ⟨cause, hcause⟩ := Distribution.unusable_iff.mp random
    have refused : (Distribution.deal files n (.custom path)).run g = .error cause g := by
      rw [Distribution.deal, hcause]
      rfl
    exact .spare refused hd

end Drawn

/-- The search for a deal that begins with the table's generator comes to an end. -/
def DealingReturns (t : Table) : Prop :=
  ∃ d generator, (Deal.random t.players).run t.generator = .ok d generator

instance (t : Table) : Decidable t.DealingReturns :=
  match h : (Deal.random t.players).run t.generator with
  | .ok d g => .isTrue ⟨d, g, h⟩
  | .error _ _ => .isFalse fun ⟨d, g, hd⟩ => by rw [h] at hd; cases hd

/-- A deal can be had at a fresh table. -/
theorem ofSeed_dealingReturns : (ofSeed 0).DealingReturns := by
  decide +kernel

/-- Where a deal by the distribution has to be drawn at random, the search for it comes to an
end. -/
def Supplied (t : Table) (files : Files) (distribution : Distribution) : Prop :=
  distribution.AtRandom files t.players → t.DealingReturns

/-- A deal is drawn for every distribution. -/
theorem exists_drawn {files : Files} {distribution : Distribution} (hn : Rules.supported t.players)
    (supplied : t.Supplied files distribution) :
    ∃ used d g, Drawn files t.players distribution t.generator used d g := by
  by_cases random : distribution.AtRandom files t.players
  · obtain ⟨d, g, hd⟩ := supplied random
    exact ⟨.random, d, g, .atRandom random hd⟩
  · obtain ⟨d, hd⟩ := Distribution.deal_ok hn random t.generator
    exact ⟨_, d, _, .requested hd⟩

/-- A new deal by one distribution at two tables, which leaves nothing to tell them apart. -/
structure DealtAlike (files₁ files₂ : Files) (distribution : Distribution) (t₁ t₂ : Table)
    (used : Distribution) (t₁' t₂' : Table) : Prop where
  first : (newDeal files₁ distribution).run t₁ = .ok used t₁'
  second : (newDeal files₂ distribution).run t₂ = .ok used t₂'
  /-- Only the distribution that a table keeps for later may differ. -/
  same : { t₁' with distribution := t₂'.distribution } = t₂'
  first_untouched : Untouched t₁'
  second_untouched : Untouched t₂'
  /-- In place of a file that cannot be used, the cards are dealt at random. -/
  atRandom : distribution.AtRandom files₁ t₁.players → used = .random
    ∧ ∃ d, (Deal.random t₁.players).run t₁.generator = .ok d t₁'.generator ∧ t₁'.Holds d

/-- **Nothing of the deals before is left after a new deal, and a new deal is always given.** -/
theorem Reachable.newDeal_forgets (h₁ : Reachable t₁) (h₂ : Reachable t₂)
    (players : t₁.players = t₂.players) (dealer : t₁.dealer = t₂.dealer)
    (generator : t₁.generator = t₂.generator) {files₁ files₂ : Files}
    {distribution : Distribution} (same : distribution.SameFile files₁ files₂)
    (returns : distribution.AtRandom files₁ t₁.players → t₁.DealingReturns) :
    ∃ used t₁' t₂', DealtAlike files₁ files₂ distribution t₁ t₂ used t₁' t₂' := by
  have hn := h₁.sound.supported
  obtain ⟨used, d, g, drawn, atRandom⟩ : ∃ used d g,
      Drawn files₁ t₁.players distribution t₁.generator used d g
        ∧ (distribution.AtRandom files₁ t₁.players → used = .random
          ∧ (Deal.random t₁.players).run t₁.generator = .ok d g) := by
    by_cases random : distribution.AtRandom files₁ t₁.players
    · obtain ⟨d, g, hd⟩ := returns random
      exact ⟨.random, d, g, .atRandom random hd, fun _ => ⟨rfl, hd⟩⟩
    · obtain ⟨d, hd⟩ := Distribution.deal_ok hn random t₁.generator
      exact ⟨_, d, _, .requested hd, fun h => absurd h random⟩
  -- The second table has the same draw, and it is placed on a table that is cleared as well.
  have drawn₂ : Drawn files₂ t₂.players distribution t₂.generator used d g :=
    players ▸ generator ▸ drawn.congr same
  refine ⟨used, _, _, ⟨drawn.newDeal, drawn₂.newDeal,
    place_cleared_congr h₁.sound.toSeated h₂.sound.toSeated players dealer d g _,
    place_cleared_untouched t₁ d g, place_cleared_untouched t₂ d g, fun random => ?_⟩⟩
  obtain ⟨hused, hd⟩ := atRandom random
  refine ⟨hused, d, ?_, place_holds _ d⟩
  rw [hd, place_generator]

/-- A fresh table where a numbered deal has been dealt and a bid has been made, before the dealer is
chosen anew. -/
def interrupted : Table :=
  (ofSeed 0).callAll [.newDeal (.numbered 1), .acknowledge, .placeBid .north .guard false,
    .setFirstDealer .east]

theorem interrupted_reachable : Reachable interrupted := by
  rw [interrupted]
  exact (Reachable.start 0).callAll _

/-- There is a bid at one of the tables, and the file that is asked for is missing. -/
theorem interrupted_forgotten : interrupted.deal.bid.taker = some .north
    ∧ ∃ used t₁' t₂', DealtAlike (fun _ => none) (fun _ => none) (.custom "missing")
      (ofSeed 0) interrupted used t₁' t₂' := by
  obtain ⟨taker, players, dealer, generator⟩ :
      interrupted.deal.bid.taker = some .north ∧ (ofSeed 0).players = interrupted.players
        ∧ (ofSeed 0).dealer = interrupted.dealer
        ∧ (ofSeed 0).generator = interrupted.generator := by
    decide +kernel
  exact ⟨taker, (Reachable.start 0).newDeal_forgets interrupted_reachable players dealer
    generator rfl fun _ => ofSeed_dealingReturns⟩

end Table

end FrenchTarot
