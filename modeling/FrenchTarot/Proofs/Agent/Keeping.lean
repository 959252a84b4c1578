import FrenchTarot.Proofs.Agent.Playing

/-!
# What playing a deal keeps

Whoever plays a deal does nothing to the table but acknowledge what it shows and hand in decisions.
So what these two calls keep is kept by a whole deal, whoever sits at the table and however often a
decision is replaced by the fallback (`Steady.playDeal`).
-/

namespace FrenchTarot.Game

/-- What holds of the table holds after an acknowledgement and after a decision, too. -/
structure Steady (P : Table → Prop) (files : Files) : Prop where
  acknowledge : ∀ t t', P t → Table.Call.acknowledge.after? files t = some t' → P t'
  apply : ∀ t t' seat action, P t →
    (Table.Call.apply seat action).after? files t = some t' → P t'

/-- A call that is granted keeps what holds of the table. -/
def Preserves (P : Table → Prop) {α : Type} (x : GameM α) : Prop :=
  ∀ g a g', P g.table → x.run g = .ok a g' → P g'.table

section Preserves

variable {P : Table → Prop} {files : Files} {α β : Type}

theorem preserves_pure (a : α) : Preserves P (pure a) := by
  intro g b g' h ok
  cases ok
  exact h

theorem Preserves.bind {x : GameM α} {f : α → GameM β} (hx : Preserves P x)
    (hf : ∀ a, Preserves P (f a)) : Preserves P (x >>= f) := by
  intro g b g' h ok
  rw [EStateM.run_bind] at ok
  cases hrun : x.run g with
  | error e g₁ =>
    rw [hrun] at ok
    cases ok
  | ok a g₁ =>
    rw [hrun] at ok
    exact hf a g₁ b g' (hx g a g₁ h hrun) ok

/-- What is read is the game itself. -/
theorem preserves_get_bind {f : Game → GameM α} (hf : ∀ g, P g.table → Preserves P (f g)) :
    Preserves P (get >>= f) := fun g a g' h ok => hf g h g a g' h ok

theorem preserves_set_bind {g₀ : Game} {f : PUnit → GameM α} (h₀ : P g₀.table)
    (hf : Preserves P (f ⟨⟩)) : Preserves P (set g₀ >>= f) := fun _ a g' _ ok => hf g₀ a g' h₀ ok

theorem preserves_modify {f : Game → Game} (same : ∀ g, (f g).table = g.table) :
    Preserves P (modify f) := by
  intro g a g' h ok
  cases ok
  exact (same g).symm ▸ h

theorem preserves_onTable {x : TableM α}
    (hx : ∀ t a t', P t → x.run t = .ok a t' → P t') : Preserves P (onTable x) := by
  intro g a g' h ok
  rw [onTable_run] at ok
  cases hrun : x.run g.table with
  | error e t =>
    rw [hrun] at ok
    cases ok
  | ok b t =>
    rw [hrun] at ok
    cases ok
    exact hx _ _ _ h hrun

theorem Steady.onTable_apply (h : Steady P files) (seat : Seat) (action : Action) :
    Preserves P (onTable (Table.apply seat action)) :=
  preserves_onTable fun t _ t' ht ok =>
    h.apply t t' seat action ht (congrArg (Table.answered _) ok)

theorem Steady.onTable_acknowledge (h : Steady P files) :
    Preserves P (onTable (Table.acknowledge files)) :=
  preserves_onTable fun t _ t' ht ok => h.acknowledge t t' ht (congrArg (Table.answered _) ok)

theorem Steady.onTable_acknowledgeAll (h : Steady P files) :
    Preserves P (onTable (Table.acknowledgeAll files)) :=
  preserves_onTable fun _ _ _ ht ok =>
    Table.acknowledgeWithin_keeps (fun t t' ht _ => h.acknowledge t t' ht) ht
      (congrArg (Table.answered _) ok)

theorem Steady.playDefault (h : Steady P files) : Preserves P playDefault := by
  refine preserves_get_bind fun g _ => preserves_get_bind fun g' _ => ?_
  split
  · exact (h.onTable_apply _ _).bind fun _ => preserves_pure _
  · exact preserves_pure _

/-- A decision is not replaced for want of a deal. -/
theorem goesOn_of_isReplaced {e : Refusal} (replaced : isReplaced e) : e.givesUp = false := by
  cases e with
  | deal cause => cases replaced
  | _ => rfl

/-- A decision that is refused is replaced on the table that the refusal leaves. -/
theorem Steady.submit (h : Steady P files) (seat : Seat) (action : Action) :
    Preserves P (submit seat action) := by
  intro g a g' hg ok
  rw [submit_run] at ok
  cases hrun : (Table.apply seat action).run g.table with
  | ok transition t =>
    rw [hrun] at ok
    cases ok
    exact h.apply g.table t seat action hg (congrArg (Table.answered _) hrun)
  | error e t =>
    rw [hrun] at ok
    dsimp only at ok
    split at ok
    · rename_i replaced
      have after : (Table.Call.apply seat action).after? files g.table = some t := by
        rw [Table.Call.after?, hrun, Table.answered, goesOn_of_isReplaced replaced]
        rfl
      exact h.playDefault _ a g' (h.apply g.table t seat action hg after) ok
    · cases ok

theorem Steady.takeTurn (h : Steady P files) : Preserves P takeTurn := by
  refine preserves_get_bind fun g hg => ?_
  split
  · exact preserves_pure _
  · rename_i seat _
    split
    · exact preserves_pure _
    · rename_i agent _
      dsimp only
      split
      · exact preserves_pure _
      · refine preserves_set_bind hg ?_
        split
        · exact preserves_pure _
        · refine (h.submit seat _).bind fun acted => ?_
          split
          · exact Preserves.bind (preserves_modify fun _ => rfl) fun _ => preserves_pure _
          · exact preserves_pure _

theorem Steady.playTurn (h : Steady P files) : Preserves P playTurn := by
  refine h.takeTurn.bind fun acted => ?_
  split
  · refine preserves_get_bind fun g _ => ?_
    split
    · exact preserves_pure _
    · split
      · exact preserves_modify fun _ => rfl
      · exact h.playDefault.bind fun _ => preserves_pure _
  · exact preserves_pure _

theorem Steady.playWithin (h : Steady P files) (limit : Nat) :
    Preserves P (playWithin files limit) := by
  induction limit with
  | zero => exact preserves_pure _
  | succ limit ih =>
    refine h.onTable_acknowledgeAll.bind fun _ => preserves_get_bind fun g _ => ?_
    dsimp only
    split
    · split <;> exact preserves_pure _
    · exact preserves_pure _
    · exact preserves_pure _
    · exact h.playTurn.bind fun _ => ih

/-- **What acknowledging and deciding keep is kept by a deal that is played.** -/
theorem Steady.playDeal (h : Steady P files) : Preserves P (playDeal files) :=
  preserves_get_bind fun g _ => h.playWithin g.rounds

end Preserves

end FrenchTarot.Game
