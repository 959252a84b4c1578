import FrenchTarot.Proofs.Table.Reachable

/-!
# Which handles are paid

Every seat may show a handle before its first card, and the history keeps all handles that were
shown.  The deal itself keeps one handle for each side: a second handle of a side takes the place of
the first (`HandlesKept`).  The bonuses that are counted at the end are those of the two handles
that were kept.

So a side is paid for the last of its handles, and it is paid in full exactly when no more than one
of its seats has shown a handle (`handles_paid_iff`).  Two seats of a side can both have ten trumps;
`twoHandles_underpaid` is a deal in which both defenders show theirs and one bonus is lost.
-/

namespace FrenchTarot

/-- A handle that an entry of the history tells of, with the seat that showed it. -/
def HistoryEntry.shown? (e : HistoryEntry) : Option (Seat × Cards) :=
  match e.deed with
  | .handle cards => some (e.seat, cards)
  | _ => none

namespace DealState

/-- The handle that is kept for a side. -/
def handleOf (d : DealState) : Team → Cards
  | .attack => d.attackHandle
  | .defense => d.defenseHandle

/-- **A handle takes the place of the one that its side had shown before.** -/
theorem handleOf_keepHandle (d : DealState) (handle : Cards) (seat : Seat) (team : Team) :
    (d.keepHandle handle seat).handleOf team =
      if d.bid.teamOf seat = team then handle else d.handleOf team := by
  unfold keepHandle
  cases d.bid.teamOf seat <;> cases team <;> rfl

theorem keepHandle_bid (d : DealState) (handle : Cards) (seat : Seat) :
    (d.keepHandle handle seat).bid = d.bid := by
  obtain ⟨_, _, heq⟩ := d.keepHandle_eq handle seat
  rw [heq]
  rfl

end DealState

/-! ## What handles come to -/

theorem Handle.bonus_pos (h : Handle) (n : Nat) : 0 < h.bonus n := by
  unfold Handle.bonus
  split
  · cases h <;> decide
  · split <;> cases h <;> decide

/-- A list of cards that was accepted as a handle has a bonus. -/
theorem DealState.handleBonus_pos {handle : Cards} (h : (Handle.ofSize? handle.length).isSome)
    (n : Nat) : 0 < DealState.handleBonus handle n := by
  obtain ⟨size, hsize⟩ := Option.isSome_iff_exists.mp h
  rw [DealState.handleBonus, hsize]
  exact size.bonus_pos n

/-- What handles come to at a table of `n` players. -/
def handlesBonus (n : Nat) (handles : List (Seat × Cards)) : Int :=
  (handles.map fun h => DealState.handleBonus h.2 n).sum

/-- The last of some handles; no cards when there is none. -/
def lastHandle (handles : List (Seat × Cards)) : Cards := (handles.getLast?.map Prod.snd).getD []

@[simp] theorem handlesBonus_nil (n : Nat) : handlesBonus n [] = 0 := rfl

theorem handlesBonus_cons (n : Nat) (h : Seat × Cards) (handles : List (Seat × Cards)) :
    handlesBonus n (h :: handles) = DealState.handleBonus h.2 n + handlesBonus n handles := by
  simp [handlesBonus]

theorem handlesBonus_concat (n : Nat) (handles : List (Seat × Cards)) (h : Seat × Cards) :
    handlesBonus n (handles ++ [h]) = handlesBonus n handles + DealState.handleBonus h.2 n := by
  simp [handlesBonus]

theorem lastHandle_concat (handles : List (Seat × Cards)) (h : Seat × Cards) :
    lastHandle (handles ++ [h]) = h.2 := by
  simp [lastHandle]

theorem handlesBonus_nonneg {n : Nat} {handles : List (Seat × Cards)}
    (genuine : ∀ h ∈ handles, (Handle.ofSize? h.2.length).isSome) : 0 ≤ handlesBonus n handles := by
  induction handles with
  | nil => rfl
  | cons h handles ih =>
    have hfirst := DealState.handleBonus_pos (genuine h List.mem_cons_self) n
    have hrest := ih fun x hx => genuine x (List.mem_cons_of_mem _ hx)
    rw [handlesBonus_cons]
    omega

/-- The handles of the two sides are all handles. -/
theorem handlesBonus_filter_add (n : Nat) (b : Bid) (handles : List (Seat × Cards)) :
    handlesBonus n (handles.filter fun h => b.teamOf h.1 = .attack)
        + handlesBonus n (handles.filter fun h => b.teamOf h.1 = .defense)
      = handlesBonus n handles := by
  induction handles with
  | nil => rfl
  | cons h handles ih =>
    rw [List.filter_cons, List.filter_cons]
    cases b.teamOf h.1 <;> simp [handlesBonus_cons] <;> omega

/-- **The last handle is worth no more than all of them, and as much only if there is no other.** -/
theorem handleBonus_lastHandle (n : Nat) {handles : List (Seat × Cards)}
    (genuine : ∀ h ∈ handles, (Handle.ofSize? h.2.length).isSome) :
    DealState.handleBonus (lastHandle handles) n ≤ handlesBonus n handles
      ∧ (DealState.handleBonus (lastHandle handles) n = handlesBonus n handles ↔
        handles.length ≤ 1) := by
  rcases List.eq_nil_or_concat handles with rfl | ⟨before, last, rfl⟩
  · exact ⟨Int.le_refl _, fun _ => Nat.zero_le _, fun _ => rfl⟩
  · rw [List.concat_eq_append, handlesBonus_concat, lastHandle_concat, List.length_append,
      List.length_singleton]
    rw [List.concat_eq_append] at genuine
    cases before with
    | nil => simp
    | cons first rest =>
      -- Another handle adds a bonus, and every bonus is positive.
      have hfirst := DealState.handleBonus_pos (genuine first (by simp)) n
      have hrest : 0 ≤ handlesBonus n rest :=
        handlesBonus_nonneg fun h hh => genuine h (by simp [hh])
      rw [handlesBonus_cons, List.length_cons]
      omega

namespace Table

/-! ## The handles of a table -/

/-- The handles that were shown in the deal, oldest first, with the seats that showed them. -/
def shownHandles (t : Table) : List (Seat × Cards) := t.history.filterMap HistoryEntry.shown?

/-- The handles that the seats of a side have shown. -/
def handlesOf (t : Table) (team : Team) : List (Seat × Cards) :=
  t.shownHandles.filter fun h => t.deal.bid.teamOf h.1 = team

theorem shownHandles_note (t : Table) (seat : Seat) (deed : Deed) :
    (t.note seat deed).shownHandles =
      t.shownHandles ++ (HistoryEntry.shown? ⟨seat, deed, t.phase⟩).toList := by
  rw [shownHandles, note, List.filterMap_append]
  congr 1

/-- Anything but a handle leaves the handles as they are. -/
theorem shownHandles_note_other (t : Table) (seat : Seat) {deed : Deed}
    (other : HistoryEntry.shown? ⟨seat, deed, t.phase⟩ = none) :
    (t.note seat deed).shownHandles = t.shownHandles := by
  rw [shownHandles_note, other]
  exact List.append_nil _

/-- The deal keeps the last handle of each side. -/
structure HandlesKept (t : Table) : Prop where
  /-- Only handles are shown. -/
  genuine : ∀ h ∈ t.shownHandles, (Handle.ofSize? h.2.length).isSome
  unshown : t.phase.beforePlay → t.shownHandles = []
  kept : t.phase.inDeal → ∀ team, t.deal.handleOf team = lastHandle (t.handlesOf team)

theorem HandlesKept.genuine_handlesOf {t : Table} (h : t.HandlesKept) (team : Team) :
    ∀ x ∈ t.handlesOf team, (Handle.ofSize? x.2.length).isSome :=
  fun x hx => h.genuine x (List.mem_filter.mp hx).1

/-- What neither shows a handle nor touches the handles and, in the play, the bid. -/
theorem HandlesKept.frame {t t' : Table} (h : t.HandlesKept)
    (shown : t'.shownHandles = t.shownHandles)
    (before : t'.phase.beforePlay → t.phase.beforePlay)
    (same : t'.phase.inDeal → t.phase.inDeal
      ∧ (t.phase.beforePlay ∨ t'.deal.bid = t.deal.bid)
      ∧ ∀ team, t'.deal.handleOf team = t.deal.handleOf team) : t'.HandlesKept where
  genuine := by
    rw [shown]
    exact h.genuine
  unshown := fun hp => shown.trans (h.unshown (before hp))
  kept := by
    intro hp team
    obtain ⟨hdeal, hbid, hhandle⟩ := same hp
    rw [hhandle, h.kept hdeal, handlesOf, handlesOf, shown]
    rcases hbid with hbefore | hbid
    · -- Before the play no handle has been shown, whoever bids.
      rw [h.unshown hbefore]
      rfl
    · rw [hbid]

/-- The deal is given up. -/
theorem HandlesKept.leave {t t' : Table} (h : t.HandlesKept) (idle : t'.phase.inDeal = false)
    (shown : t'.shownHandles = t.shownHandles) : t'.HandlesKept := by
  obtain ⟨hbefore, _⟩ := Bool.or_eq_false_iff.mp idle
  refine h.frame shown (fun hp => ?_) fun hp => ?_
  · rw [hbefore] at hp
    cases hp
  · rw [idle] at hp
    cases hp

/-- A step before the play, or into it. -/
theorem HandlesKept.before {t t' : Table} (h : t.HandlesKept) (hp : t.phase.beforePlay)
    (shown : t'.shownHandles = t.shownHandles)
    (same : ∀ team, t'.deal.handleOf team = t.deal.handleOf team) : t'.HandlesKept :=
  h.frame shown (fun _ => hp) fun _ => ⟨Bool.or_eq_true_iff.mpr (.inl hp), .inl hp, same⟩

/-- A step of the play. -/
theorem HandlesKept.during {t t' : Table} (h : t.HandlesKept) (hp : t.phase.duringPlay)
    (hp' : t'.phase.duringPlay) (shown : t'.shownHandles = t.shownHandles)
    (bid : t'.deal.bid = t.deal.bid)
    (same : ∀ team, t'.deal.handleOf team = t.deal.handleOf team) : t'.HandlesKept :=
  h.frame shown (fun before => absurd ⟨before, hp'⟩ t'.phase.not_both) fun _ =>
    ⟨Bool.or_eq_true_iff.mpr (.inr hp), .inr bid, same⟩

theorem HandlesKept.afterHandle {t : Table} (h : t.HandlesKept)
    (phase : t.phase = .awaitingHandle) {cards : Cards}
    (allowed : (t.hand t.current).isHandle cards) : (t.afterHandle cards).HandlesKept := by
  have hshown : (t.afterHandle cards).shownHandles = t.shownHandles ++ [(t.current, cards)] :=
    shownHandles_note t t.current (.handle cards)
  have hbid : (t.afterHandle cards).deal.bid = t.deal.bid := t.deal.keepHandle_bid cards t.current
  refine ⟨?_, (fun hp => nomatch hp), ?_⟩
  · intro x hx
    rw [hshown] at hx
    rcases List.mem_append.mp hx with hx | hx
    · exact h.genuine x hx
    · rw [List.mem_singleton.mp hx]
      simp only [Cards.isHandle, Bool.and_eq_true] at allowed
      exact allowed.1.1.1
  · intro _ team
    have hbefore := h.kept (by rw [phase]; rfl) team
    show (t.deal.keepHandle cards t.current).handleOf team = _
    rw [DealState.handleOf_keepHandle, hbefore, handlesOf, handlesOf, hshown, hbid,
      List.filter_append, List.filter_singleton]
    -- The handle is the last one of its side; the other side keeps what it had.
    by_cases hteam : t.deal.bid.teamOf t.current = team
    · rw [if_pos hteam, decide_eq_true hteam, cond_true, lastHandle_concat]
    · rw [if_neg hteam, decide_eq_false hteam, cond_false, List.append_nil]

/-- A new deal starts without handles. -/
theorem handlesKept_deal (t : Table) (d : Deal) (generator : Generator) :
    (place { cleared t with generator } d).HandlesKept := by
  obtain ⟨current, dealer, heq⟩ := place_shape { cleared t with generator } d
  rw [heq]
  refine ⟨?_, fun _ => rfl, ?_⟩
  · intro shown hshown
    cases hshown
  · intro _ team
    cases team <;> rfl

/-- **Every move keeps the last handle of each side.** -/
theorem Move.handlesKept {t t' : Table} (h : t.HandlesKept) (hm : Move t t') : t'.HandlesKept := by
  cases hm with
  | create => exact h.leave rfl rfl
  | chooseDealer => exact h.frame rfl id fun hp => ⟨hp, .inr rfl, fun _ => rfl⟩
  | chooseDistribution => exact h.frame rfl id fun hp => ⟨hp, .inr rfl, fun _ => rfl⟩
  | getReady => exact h.leave rfl rfl
  | stop => exact h.leave rfl rfl
  | deal complete generator => exact handlesKept_deal t _ generator
  | bid phase contract slam =>
    refine h.before (by rw [phase]; rfl) (shownHandles_note_other t _ rfl) fun team => ?_
    show (t.deal.recordBid contract slam t.current).1.handleOf team = _
    rw [DealState.recordBid_eq]
    cases team <;> rfl
  | askBid phase =>
    exact h.before (by rcases phase with hp | hp <;> rw [hp] <;> rfl) rfl fun _ => rfl
  | passOut phase =>
    exact h.before (by rcases phase with hp | hp <;> rw [hp] <;> rfl) rfl fun _ => rfl
  | askCall phase =>
    exact h.before (by rcases phase with hp | hp <;> rw [hp] <;> rfl) rfl
      fun team => by cases team <;> rfl
  | call phase =>
    exact h.before (by rw [phase]; rfl) (shownHandles_note_other t _ rfl)
      fun team => by cases team <;> rfl
  | showDog phase =>
    exact h.before (by rcases phase with hp | hp | hp <;> rw [hp] <;> rfl) rfl fun _ => rfl
  | openUnseen phase =>
    exact h.before (by rcases phase with hp | hp | hp <;> rw [hp] <;> rfl) rfl
      fun team => by cases team <;> rfl
  | askDiscard phase => exact h.before (by rw [phase]; rfl) rfl fun _ => rfl
  | discard phase =>
    exact h.before (by rw [phase]; rfl) (shownHandles_note_other t _ rfl)
      fun team => by cases team <;> rfl
  | askHandle phase =>
    exact h.during (Phase.duringPlay_of_goesOn phase) rfl rfl rfl fun _ => rfl
  | handle phase allowed => exact h.afterHandle phase allowed
  | decline phase =>
    exact h.frame (shownHandles_note_other t _ rfl) id fun hp => ⟨hp, .inr rfl, fun _ => rfl⟩
  | askCard phase =>
    exact h.during (Phase.duringPlay_of_goesOn phase) rfl rfl rfl fun _ => rfl
  | card phase =>
    exact h.during (by rw [phase]; rfl) rfl (shownHandles_note_other t _ rfl) rfl fun _ => rfl
  | winTrick phase full added =>
    obtain ⟨_, _, leader, _, rfl, _⟩ := DealState.addTrick_eq_ok.mp added
    exact h.during (Phase.duringPlay_of_goesOn phase) rfl (shownHandles_note_other t.gathered _ rfl)
      rfl fun team => by cases team <;> rfl
  | finish phase => exact h.during (by rw [phase]; rfl) rfl rfl rfl fun _ => rfl

theorem Reachable.handlesKept {t : Table} (h : Reachable t) : t.HandlesKept := by
  refine h.keep (fun seed => ?_) fun _ _ _ hk hm => hm.handlesKept hk
  exact ⟨(fun _ hx => nomatch hx), (fun hp => nomatch hp), (fun hp => nomatch hp)⟩

/-! ## A deal with two handles of one side -/

/-- The trumps of some ranks. -/
def trumps (ranks : List Nat) : Cards := ranks.map (⟨·, .trumps⟩)

/-- A table of three where the taker has led and the next seat is asked for a handle. -/
def twoHandlesStart : Table :=
  ((ofSeed 0).callAll [.create 3, .setFirstDealer .south, .newDeal (.numbered 1653), .acknowledge,
    .placeBid .east .guardWithout true]).playOut 5

/-- The end of that deal, in which both defenders have shown ten trumps. -/
def twoHandles : Table :=
  (((twoHandlesStart.callAll
    [.showHandle .north (trumps [6, 7, 9, 11, 12, 13, 17, 18, 19, 20])]).playOut 3).callAll
      [.showHandle .south (trumps [0, 2, 3, 5, 8, 10, 14, 15, 16, 21])]).playOut 165

theorem twoHandles_reachable : Reachable twoHandles := by
  have hstart : Reachable twoHandlesStart := by
    rw [twoHandlesStart]
    exact ((Reachable.start 0).callAll _).playOut 5
  rw [twoHandles]
  exact (((hstart.callAll _).playOut 3).callAll _).playOut 165

theorem twoHandles_bonus : twoHandles.phase = .dealEnded
    ∧ twoHandles.points.map Points.handlePoints = some 13
    ∧ handlesBonus twoHandles.players twoHandles.shownHandles = 26 := by
  decide +kernel

/-! ## What is paid -/

/-- **A side is paid for the handle that one of its seats has shown last, and so the handles of a
deal are paid in full exactly when no side has shown two.** -/
theorem handles_paid_iff {t : Table} (h : Reachable t) (ended : t.phase = .dealEnded) :
    ∃ p, t.points = some p
      ∧ p.handlePoints = p.attackHandlePoints + p.defenseHandlePoints
      ∧ p.attackHandlePoints = DealState.handleBonus (lastHandle (t.handlesOf .attack)) t.players
      ∧ p.defenseHandlePoints = DealState.handleBonus (lastHandle (t.handlesOf .defense)) t.players
      ∧ (p.attackHandlePoints = handlesBonus t.players (t.handlesOf .attack) ↔
        (t.handlesOf .attack).length ≤ 1)
      ∧ (p.defenseHandlePoints = handlesBonus t.players (t.handlesOf .defense) ↔
        (t.handlesOf .defense).length ≤ 1)
      ∧ (p.handlePoints = handlesBonus t.players t.shownHandles ↔
        (t.handlesOf .attack).length ≤ 1 ∧ (t.handlesOf .defense).length ≤ 1) := by
  have hs := h.sound
  have hk := h.handlesKept
  have hpoints := ((hs.during (by rw [ended]; rfl)).ended ended).2
  have hkept := hk.kept (by rw [ended]; rfl)
  have hattack : t.deal.result.attackHandlePoints =
      DealState.handleBonus (lastHandle (t.handlesOf .attack)) t.players := by
    rw [← hkept .attack, ← hs.deal_players]
    rfl
  have hdefense : t.deal.result.defenseHandlePoints =
      DealState.handleBonus (lastHandle (t.handlesOf .defense)) t.players := by
    rw [← hkept .defense, ← hs.deal_players]
    rfl
  have hsum : t.deal.result.handlePoints =
      t.deal.result.attackHandlePoints + t.deal.result.defenseHandlePoints := rfl
  -- Neither side can make up for what the other one is not paid.
  obtain ⟨hle, hiff⟩ := handleBonus_lastHandle t.players (hk.genuine_handlesOf .attack)
  obtain ⟨hle', hiff'⟩ := handleBonus_lastHandle t.players (hk.genuine_handlesOf .defense)
  have hall : handlesBonus t.players (t.handlesOf .attack)
      + handlesBonus t.players (t.handlesOf .defense) = handlesBonus t.players t.shownHandles :=
    handlesBonus_filter_add t.players t.deal.bid t.shownHandles
  refine ⟨t.deal.result, hpoints, hsum, hattack, hdefense, ?_, ?_, ?_⟩
  · rw [hattack]
    exact hiff
  · rw [hdefense]
    exact hiff'
  · rw [hsum, hattack, hdefense, ← hall, ← hiff, ← hiff']
    omega

/-- A deal in which one side has shown two handles. -/
theorem twoHandles_paid : ∃ p, twoHandles.points = some p
    ∧ p.handlePoints = p.attackHandlePoints + p.defenseHandlePoints
    ∧ p.attackHandlePoints =
      DealState.handleBonus (lastHandle (twoHandles.handlesOf .attack)) twoHandles.players
    ∧ p.defenseHandlePoints =
      DealState.handleBonus (lastHandle (twoHandles.handlesOf .defense)) twoHandles.players
    ∧ (p.attackHandlePoints = handlesBonus twoHandles.players (twoHandles.handlesOf .attack) ↔
      (twoHandles.handlesOf .attack).length ≤ 1)
    ∧ (p.defenseHandlePoints = handlesBonus twoHandles.players (twoHandles.handlesOf .defense) ↔
      (twoHandles.handlesOf .defense).length ≤ 1)
    ∧ (p.handlePoints = handlesBonus twoHandles.players twoHandles.shownHandles ↔
      (twoHandles.handlesOf .attack).length ≤ 1 ∧ (twoHandles.handlesOf .defense).length ≤ 1) :=
  handles_paid_iff twoHandles_reachable twoHandles_bonus.1

/-- **Both defenders show a handle, and one bonus is paid.** -/
theorem twoHandles_underpaid : Reachable twoHandles ∧ twoHandles.phase = .dealEnded
    ∧ ∃ p, twoHandles.points = some p
      ∧ p.handlePoints < handlesBonus twoHandles.players twoHandles.shownHandles := by
  obtain ⟨hphase, hpoints, hbonus⟩ := twoHandles_bonus
  obtain ⟨p, hp, hpaid⟩ := Option.map_eq_some_iff.mp hpoints
  refine ⟨twoHandles_reachable, hphase, p, hp, ?_⟩
  rw [hpaid, hbonus]
  decide

end Table

end FrenchTarot
