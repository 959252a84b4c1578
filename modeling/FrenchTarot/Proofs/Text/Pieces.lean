import FrenchTarot.Card.Text
import Mathlib.Data.List.DropRight
import Mathlib.Data.List.TakeWhile
import Mathlib.Data.String.Basic

/-!
# Pieces of a text

A reader drops blanks at the ends of a text, cuts it at the first separator or at all of them, and
looks at digits and letters.  Each of these has a lemma here that tells the text from its pieces:
what is dropped is blank, what is cut comes together again, and the number or the letter that was
read is the one that stands there.
-/

namespace FrenchTarot

namespace Text

/-! ## Blanks -/

/-- Nothing but blanks. -/
def AllBlank (cs : List Char) : Prop := ∀ x ∈ cs, isBlank x

theorem allBlank_nil : AllBlank [] := by simp [AllBlank]

theorem AllBlank.append {front back : List Char} (hf : AllBlank front) (hb : AllBlank back) :
    AllBlank (front ++ back) := fun x hx => (List.mem_append.mp hx).elim (hf x) (hb x)

/-- What is dropped at the ends is blank. -/
theorem exists_trim (cs : List Char) :
    ∃ front back, AllBlank front ∧ AllBlank back ∧ cs = front ++ trim cs ++ back := by
  refine ⟨cs.takeWhile isBlank, (cs.dropWhile isBlank).rtakeWhile isBlank,
    fun x => List.mem_takeWhile_imp, fun x => List.mem_rtakeWhile_imp, ?_⟩
  show cs = cs.takeWhile isBlank ++ (cs.dropWhile isBlank).rdropWhile isBlank ++ _
  rw [List.append_assoc, List.rdropWhile_append_rtakeWhile, List.takeWhile_append_dropWhile]

/-- Blanks at the ends make no difference. -/
theorem trim_append {front back : List Char} (hf : AllBlank front) (hb : AllBlank back)
    (cs : List Char) : trim (front ++ cs ++ back) = trim cs := by
  have hback : ∀ x ∈ back.reverse, isBlank x := fun x hx => hb x (List.mem_reverse.mp hx)
  unfold trim
  rw [List.append_assoc, List.dropWhile_append_of_pos hf, List.dropWhile_append]
  split
  · rename_i hnone
    rw [List.isEmpty_iff] at hnone
    rw [hnone, List.dropWhile_eq_nil_iff.mpr hb]
  · rw [List.reverse_append, List.dropWhile_append_of_pos hback]

theorem trim_eq_nil {cs : List Char} : trim cs = [] ↔ AllBlank cs := by
  constructor
  · intro h
    obtain ⟨front, back, hf, hb, hcs⟩ := exists_trim cs
    rw [h, List.append_nil] at hcs
    exact hcs ▸ hf.append hb
  · intro h
    have hnone := trim_append h allBlank_nil []
    rwa [List.append_nil, List.append_nil] at hnone

/-- A text that begins and ends with other characters has no blanks to drop. -/
theorem trim_eq_self {cs : List Char} (hfirst : ∀ x ∈ cs.head?, isBlank x = false)
    (hlast : ∀ x ∈ cs.getLast?, isBlank x = false) : trim cs = cs := by
  have hfront : cs.dropWhile isBlank = cs := by
    cases cs with
    | nil => rfl
    | cons x cs =>
      have hx := hfirst x rfl
      exact List.dropWhile_cons_of_neg (by simp [hx])
  show (cs.dropWhile isBlank).rdropWhile isBlank = cs
  rw [hfront, List.rdropWhile_eq_self_iff]
  intro hne
  have hx := hlast _ (List.getLast?_eq_some_getLast hne)
  rw [hx]
  exact Bool.false_ne_true

/-! ## Cuts -/

/-- A text is cut at the first separator. -/
theorem cutAt_eq_some {sep : Char} {cs before after : List Char} :
    cutAt sep cs = some (before, after) ↔ cs = before ++ sep :: after ∧ sep ∉ before := by
  induction cs generalizing before with
  | nil => simp [cutAt]
  | cons c cs ih =>
    rw [cutAt]
    by_cases hc : c = sep
    · subst hc
      rw [if_pos rfl]
      cases before with
      | nil => simp [eq_comm]
      | cons b before =>
        refine ⟨fun h => by simp at h, fun ⟨h, hnot⟩ => absurd ?_ hnot⟩
        rw [List.cons_append, List.cons.injEq] at h
        rw [h.1]
        exact List.mem_cons_self
    · rw [if_neg hc, Option.map_eq_some_iff]
      cases before with
      | nil => simp [hc]
      | cons b before =>
        simp only [Prod.mk.injEq, Prod.exists, List.cons_append, List.cons.injEq]
        constructor
        · rintro ⟨_, _, hcut, ⟨rfl, rfl⟩, rfl⟩
          obtain ⟨rfl, hnot⟩ := ih.mp hcut
          exact ⟨⟨rfl, rfl⟩, by simp [Ne.symm hc, hnot]⟩
        · rintro ⟨⟨rfl, rfl⟩, hnot⟩
          exact ⟨before, after, ih.mpr ⟨rfl, fun h => hnot (List.mem_cons_of_mem _ h)⟩,
            ⟨rfl, rfl⟩, rfl⟩

theorem segments_ne_nil (sep : Char) (cs : List Char) : segments sep cs ≠ [] := by
  cases cs with
  | nil => exact List.cons_ne_nil _ _
  | cons c cs =>
    unfold segments
    split
    · exact List.cons_ne_nil _ _
    · split
      · exact List.cons_ne_nil _ _
      · exact List.cons_ne_nil _ _

/-- A part ends at the separator. -/
theorem segments_append {sep : Char} {part : List Char} (h : sep ∉ part) (cs : List Char) :
    segments sep (part ++ sep :: cs) = part :: segments sep cs := by
  induction part with
  | nil =>
    obtain ⟨first, parts, hcs⟩ := List.exists_cons_of_ne_nil (segments_ne_nil sep cs)
    rw [List.nil_append, segments, hcs]
    exact if_pos rfl
  | cons c part ih =>
    rw [List.mem_cons, not_or] at h
    obtain ⟨hc, hpart⟩ := h
    rw [List.cons_append, segments, ih hpart]
    exact if_neg (Ne.symm hc)

theorem segments_eq_self {sep : Char} {part : List Char} (h : sep ∉ part) :
    segments sep part = [part] := by
  induction part with
  | nil => rfl
  | cons c part ih =>
    rw [List.mem_cons, not_or] at h
    obtain ⟨hc, hpart⟩ := h
    rw [segments, ih hpart]
    exact if_neg (Ne.symm hc)

/-- **Parts that hold no separator are found again.** -/
theorem segments_intercalate {sep : Char} : ∀ {parts : List (List Char)}, parts ≠ [] →
    (∀ part ∈ parts, sep ∉ part) → segments sep ([sep].intercalate parts) = parts
  | [], h, _ => absurd rfl h
  | [part], _, h => by
    rw [List.intercalate_singleton, segments_eq_self (h part List.mem_cons_self)]
  | part :: next :: parts, _, h => by
    rw [List.intercalate_cons_cons, List.append_assoc, List.singleton_append,
      segments_append (h part List.mem_cons_self),
      segments_intercalate (List.cons_ne_nil next parts)
        fun p hp => h p (List.mem_cons_of_mem part hp)]

/-- The parts of a text make up the text. -/
theorem intercalate_segments (sep : Char) (cs : List Char) :
    [sep].intercalate (segments sep cs) = cs := by
  induction cs with
  | nil => rfl
  | cons c cs ih =>
    obtain ⟨part, parts, hcs⟩ := List.exists_cons_of_ne_nil (segments_ne_nil sep cs)
    rw [hcs] at ih
    rw [segments, hcs]
    dsimp only
    split
    · rename_i hc
      rw [List.intercalate_cons_cons, ih, hc]
      rfl
    · rw [← ih]
      cases parts with
      | nil => simp
      | cons next parts => simp [List.intercalate_cons_cons]

/-! ## Digits and letters -/

theorem isDigit_iff {x : Char} : x.isDigit ↔ ∃ d < 10, x = Nat.digitChar d := by
  constructor
  · intro h
    have hcodes : ∀ d < 10, Char.ofNat (48 + d) = Nat.digitChar d := by decide
    obtain ⟨hlow, hhigh⟩ : 48 ≤ x.toNat ∧ x.toNat ≤ 57 := Char.isDigit_iff_toNat.mp h
    refine ⟨x.toNat - 48, by omega, ?_⟩
    rw [← hcodes _ (by omega), Nat.add_sub_cancel' hlow, Char.ofNat_toNat]
  · rintro ⟨d, hd, rfl⟩
    rw [Nat.isDigit_digitChar]
    exact decide_eq_true hd

/-- A number is read from its two digits. -/
theorem ofTwoDigits?_eq_some {cs : List Char} {n : Nat} :
    ofTwoDigits? cs = some n ↔ ∃ tens < 10, ∃ units < 10,
      cs = [Nat.digitChar tens, Nat.digitChar units] ∧ n = 10 * tens + units := by
  constructor
  · intro h
    unfold ofTwoDigits? at h
    split at h
    · split at h
      · rename_i a b hdigits
        rw [Bool.and_eq_true] at hdigits
        obtain ⟨tens, htens, rfl⟩ := isDigit_iff.mp hdigits.1
        obtain ⟨units, hunits, rfl⟩ := isDigit_iff.mp hdigits.2
        rw [Nat.toNat_digitChar_sub_48_of_lt_ten htens,
          Nat.toNat_digitChar_sub_48_of_lt_ten hunits] at h
        exact ⟨tens, htens, units, hunits, rfl, (Option.some.inj h).symm⟩
      · cases h
    · cases h
  · rintro ⟨tens, htens, units, hunits, rfl, rfl⟩
    rw [ofTwoDigits?, isDigit_iff.mpr ⟨tens, htens, rfl⟩, isDigit_iff.mpr ⟨units, hunits, rfl⟩,
      Nat.toNat_digitChar_sub_48_of_lt_ten htens, Nat.toNat_digitChar_sub_48_of_lt_ten hunits]
    rfl

/-- A digit is neither a blank nor a separator. -/
theorem digitChar_spec {d : Nat} (h : d < 10) :
    isBlank (Nat.digitChar d) = false ∧ Nat.digitChar d ≠ '-' ∧ Nat.digitChar d ≠ ';' := by
  have hall : ∀ d < 10,
      isBlank (Nat.digitChar d) = false ∧ Nat.digitChar d ≠ '-' ∧ Nat.digitChar d ≠ ';' := by
    decide
  exact hall d h

/-- A letter whose capital is known is that capital or its small letter. -/
theorem eq_or_eq_toLower_of_toUpper {x capital : Char} (h : x.toUpper = capital) :
    x = capital ∨ x = capital.toLower := by
  subst h
  unfold Char.toUpper
  split
  · rename_i hsmall
    have hcapital : 'A'.val ≤ x.val + ('A'.val - 'a'.val)
        ∧ x.val + ('A'.val - 'a'.val) ≤ 'Z'.val := by
      simp only [UInt32.le_iff_toNat_le, UInt32.toNat_add] at hsmall ⊢
      simp at hsmall ⊢
      omega
    right
    unfold Char.toLower
    rw [dif_pos hcapital]
    ext
    simp [UInt32.add_assoc]
  · exact .inl rfl

end Text

end FrenchTarot
