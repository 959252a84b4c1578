import FrenchTarot.Json.Fields
import FrenchTarot.Proofs.Checks

/-!
# What every draft of a record has

A record is read field by field into a draft.  A property of drafts that the blank one has, and that
reading a field does not destroy, holds of the draft from which the record is made, whether the
text gave an array or an object, and in whatever order the fields came.
-/

namespace FrenchTarot.Json

variable {δ α : Type} {P : δ → Prop} {fields : List (Field δ)}

/-- Reading this field keeps a property of drafts. -/
def Field.Keeps (P : δ → Prop) (f : Field δ) : Prop :=
  ∀ d cs d' rest, P d → f.read d cs = .ok (d', rest) → P d'

/-- A stored field keeps what putting its value keeps. -/
theorem keeps_stored {name : String} {get : δ → Option α} {put : δ → α → δ} {read : Reader α}
    (h : ∀ d cs a rest, P d → read cs = .ok (a, rest) → P (put d a)) :
    (Field.stored name get put read).Keeps P := by
  intro d cs d' rest hd hr
  simp only [Field.stored] at hr
  rw [bind_eq_ok] at hr
  obtain ⟨⟨a, rest'⟩, hread, hr⟩ := hr
  rw [pure_eq_ok, Prod.mk.injEq] at hr
  obtain ⟨rfl, rfl⟩ := hr
  exact h d cs a rest' hd hread

theorem positionalFrom_keeps : ∀ {fields : List (Field δ)} {first : Bool} {d d' : δ}
    {cs rest : List Char}, (∀ f ∈ fields, f.Keeps P) → P d →
    positionalFrom fields first d cs = .ok (d', rest) → P d'
  | [], first, d, d', cs, rest, _, hd, h => by
      unfold positionalFrom at h
      split at h
      · cases h
      · split at h
        · cases h
          exact hd
        · cases h
  | f :: fields, first, d, d', cs, rest, hf, hd, h => by
      unfold positionalFrom at h
      split at h
      · cases h
      · split at h
        · cases h
          exact hd
        · split at h
          · cases h
          · rw [bind_eq_ok] at h
            obtain ⟨⟨d1, rest1⟩, hread, h⟩ := h
            have hd1 : P d1 := hf f List.mem_cons_self d _ d1 rest1 hd hread
            exact positionalFrom_keeps (fun g hg => hf g (List.mem_cons_of_mem f hg)) hd1 h

theorem takeEntry_keeps (hf : ∀ f ∈ fields, f.Keeps P) {name : String} {d d' : δ}
    {cs rest : List Char} (hd : P d) (h : takeEntry fields name d cs = .ok (d', rest)) : P d' := by
  unfold takeEntry at h
  split at h
  · rw [bind_eq_ok] at h
    obtain ⟨_, _, h⟩ := h
    rw [bind_eq_ok] at h
    obtain ⟨⟨_, rest1⟩, _, h⟩ := h
    rw [pure_eq_ok, Prod.mk.injEq] at h
    exact h.1 ▸ hd
  · rename_i f hfind
    split at h
    · cases h
    · rw [bind_eq_ok] at h
      obtain ⟨cs', _, h⟩ := h
      exact hf f (List.mem_of_find?_eq_some hfind) d cs' d' rest hd h

theorem entriesFrom_keeps {entry : String → δ → Reader δ} {strict : Bool}
    (he : ∀ name d cs d' rest, P d → entry name d cs = .ok (d', rest) → P d') :
    ∀ {limit : List Char} {first : Bool} {d d' : δ} {cs rest : List Char}, P d →
      entriesFrom strict entry limit first d cs = .ok (d', rest) → P d'
  | [], first, d, d', cs, rest, _, h => by
      unfold entriesFrom at h
      cases h
  | _ :: limit, first, d, d', cs, rest, hd, h => by
      unfold entriesFrom at h
      split at h
      · cases h
      · split at h
        · cases h
          exact hd
        · split at h
          · cases h
          · split at h
            · cases h
            · split at h
              · cases h
              · rw [bind_eq_ok] at h
                obtain ⟨⟨name, rest1⟩, _, h⟩ := h
                rw [bind_eq_ok] at h
                obtain ⟨⟨d1, rest2⟩, hentry, h⟩ := h
                exact entriesFrom_keeps he (he name d rest1 d1 rest2 hd hentry) h

/-- **A record is made from a draft with the property.** -/
theorem recordFrom_keeps {make : δ → Except JsonError α} {blank : δ} {cs rest : List Char} {a : α}
    (hf : ∀ f ∈ fields, f.Keeps P) (hb : P blank)
    (h : recordFrom fields blank make cs = .ok (a, rest)) : ∃ d, P d ∧ make d = .ok a := by
  unfold recordFrom at h
  split at h
  · cases h
  · split at h
    · rw [bind_eq_ok] at h
      obtain ⟨⟨d, rest1⟩, hread, h⟩ := h
      rw [bind_eq_ok] at h
      obtain ⟨a', hmake, h⟩ := h
      rw [pure_eq_ok, Prod.mk.injEq] at h
      exact ⟨d, positionalFrom_keeps hf hb hread, h.1 ▸ hmake⟩
    · split at h
      · rw [bind_eq_ok] at h
        obtain ⟨⟨d, rest1⟩, hread, h⟩ := h
        rw [bind_eq_ok] at h
        obtain ⟨a', hmake, h⟩ := h
        rw [pure_eq_ok, Prod.mk.injEq] at h
        have hd : P d := entriesFrom_keeps (fun _ _ _ _ _ => takeEntry_keeps hf) hb hread
        exact ⟨d, hd, h.1 ▸ hmake⟩
      · rw [bind_eq_ok] at h
        obtain ⟨_, _, h⟩ := h
        cases h

theorem readAll_eq_ok {read : Reader α} {text : String} {a : α} (h : readAll read text = .ok a) :
    ∃ rest, read text.toList = .ok (a, rest) := by
  unfold readAll at h
  rw [bind_eq_ok] at h
  obtain ⟨⟨a', rest⟩, hread, h⟩ := h
  dsimp only at h
  split at h
  · rw [pure_eq_ok] at h
    exact ⟨rest, h ▸ hread⟩
  · cases h

/-- A value that is not nested is what its decoder makes of some value. -/
theorem plainFrom_eq_ok {decode : Decoder α} {cs rest : List Char} {a : α}
    (h : plainFrom decode cs = .ok (a, rest)) : ∃ j, decode j = .ok a := by
  unfold plainFrom at h
  split at h
  · cases h
  · split at h
    · cases h
    · rw [bind_eq_ok] at h
      obtain ⟨⟨j, rest1⟩, _, h⟩ := h
      rw [bind_eq_ok] at h
      obtain ⟨a', hdecode, h⟩ := h
      rw [pure_eq_ok, Prod.mk.injEq] at h
      exact ⟨j, h.1 ▸ hdecode⟩

end FrenchTarot.Json
