import FrenchTarot.Json.Tagged
import FrenchTarot.Proofs.Json.RoundTrip

/-!
# Reading what was printed: tagged values

A tagged value is printed with the name of its form in front.  Once that has been read, every other
entry is kept, the last one first.  The entries that are kept may have any name but `type`; here
their values are neither arrays nor objects, as the fields of all forms are.
-/

namespace FrenchTarot.Json

variable {names : List String} {depth : Nat}

theorem asFormOf_mem {form : String} (h : form ∈ names) :
    asFormOf names (.string form) = .ok form := by
  show (if form ∈ names then pure form else unfit) = _
  rw [if_pos h]
  rfl

/-- The name of the form is taken once. -/
theorem takeTagged_form {form : String} (h : form ∈ names) (kept : List (String × Json))
    {rest : List Char} (ends : EndsNumeral rest) :
    takeTagged names depth "type" ⟨none, kept⟩ (':' :: (compactChars (.string form) ++ rest)) =
      .ok (⟨some form, kept⟩, rest) := by
  have hread := plainFrom_printed (.string form) (asFormOf_mem h) ends
  unfold takeTagged
  rw [if_pos rfl, if_neg (by simp)]
  show (plainFrom (asFormOf names) _ >>= _) = _
  rw [hread]
  rfl

/-- Every other entry is kept. -/
theorem takeTagged_kept {name : String} {j : Json} (hname : name ≠ "type") (hj : Readable 0 j)
    (draft : TaggedDraft) {rest : List Char} (ends : EndsNumeral rest) :
    takeTagged names depth name draft (':' :: (compactChars j ++ rest)) =
      .ok (⟨draft.form, (name, j) :: draft.entries⟩, rest) := by
  unfold takeTagged
  rw [if_neg hname]
  show (valueFrom depth _ >>= _) = _
  rw [hj.valueFrom_compact depth ends]
  rfl

theorem takes_kept {entries : List (String × Json)}
    (h : ∀ e ∈ entries, e.1 ≠ "type" ∧ Readable 0 e.2) (draft : TaggedDraft) :
    Takes (takeTagged names depth) .compact entries draft
      ⟨draft.form, entries.reverse ++ draft.entries⟩ := by
  induction entries generalizing draft with
  | nil => exact .nil
  | cons entry entries ih =>
    obtain ⟨hname, hreadable⟩ := h entry List.mem_cons_self
    have hothers := ih (fun e he => h e (List.mem_cons_of_mem entry he))
      ⟨draft.form, entry :: draft.entries⟩
    rw [List.reverse_cons, List.append_assoc]
    exact .cons (fun _ => takeTagged_kept hname hreadable draft) hothers

/-- **A tagged value is read from what is printed for it**, its own entries last first. -/
theorem taggedFrom_printed {form : String} {entries : List (String × Json)} (hform : form ∈ names)
    (hentries : ∀ e ∈ entries, e.1 ≠ "type" ∧ Readable 0 e.2) (rest : List Char) :
    taggedFrom names depth (compactChars (object (("type", .string form) :: entries)) ++ rest) =
      .ok ((form, .entries entries.reverse), rest) := by
  have htakes : Takes (takeTagged names depth) .compact (("type", .string form) :: entries)
      ⟨none, []⟩ ⟨some form, entries.reverse ++ []⟩ :=
    .cons (fun _ => takeTagged_form hform []) (takes_kept hentries ⟨some form, []⟩)
  rw [compactChars_object]
  unfold taggedFrom
  rw [skipSpace_cons rfl]
  dsimp only
  rw [if_neg (by decide), if_pos rfl, entriesFrom_braced htakes rest, List.append_nil]
  rfl

/-- A form without a field. -/
theorem taggedFrom_bare {form : String} (hform : form ∈ names) (rest : List Char) :
    taggedFrom names depth (compactChars (object [("type", .string form)]) ++ rest) =
      .ok ((form, .entries []), rest) :=
  taggedFrom_printed hform (List.forall_mem_nil _) rest

/-- A form with one field. -/
theorem taggedFrom_field {form name : String} {j : Json} (hform : form ∈ names)
    (hname : name ≠ "type") (hj : Readable 0 j) (rest : List Char) :
    taggedFrom names depth (compactChars (object [("type", .string form), (name, j)]) ++ rest) =
      .ok ((form, .entries [(name, j)]), rest) := by
  refine taggedFrom_printed hform ?_ rest
  intro e he
  obtain rfl := List.mem_singleton.mp he
  exact ⟨hname, hj⟩

end FrenchTarot.Json
