import FrenchTarot.Json.Printer
import FrenchTarot.Json.Reader
import FrenchTarot.Proofs.Checks
import Mathlib.Tactic.IntervalCases

/-!
# Reading what was printed: strings and integers

A string is printed character by character, with an escape where one is needed, and each character
is read back from what stands for it.  An integer is printed in decimal digits, which are read as a
numeral without fraction and exponent, provided that what follows does not go on with the numeral.
Such a numeral of at most 64 bits is the integer again; it is always in range.
-/

namespace FrenchTarot.Json

/-! ## Strings -/

theorem hexValue?_hexDigit : ∀ d < 16, hexValue? (hexDigit d) = some d := by
  decide

/-- A control character is no part of a pair. -/
theorem codeMeaning_control {strict : Bool} {c : Char} (h : c.toNat < 32) :
    codeMeaning strict none c.toNat = .ok (.inr c) := by
  have hlow : isLowSurrogate c.toNat = false := by
    rw [isLowSurrogate, Bool.and_eq_false_iff]
    exact Or.inl (decide_eq_false (by omega))
  have hhigh : isHighSurrogate c.toNat = false := by
    rw [isHighSurrogate, Bool.and_eq_false_iff]
    exact Or.inl (decide_eq_false (by omega))
  unfold codeMeaning
  rw [hlow, hhigh, Char.ofNat_toNat]
  cases strict <;> rfl

/-- **A character is read from what is printed for it.** -/
theorem stringFrom_escape (strict : Bool) (c : Char) (cs : List Char) :
    stringFrom strict .plain (escape c ++ cs) =
      (stringFrom strict .plain cs).map fun (text, rest) => (c :: text, rest) := by
  have hread : ∀ e : Char, (stringFrom strict .plain cs >>= fun x => return (e :: x.1, x.2)) =
      (stringFrom strict .plain cs).map fun (text, rest) => (e :: text, rest) := fun e => by
    cases stringFrom strict .plain cs <;> rfl
  unfold escape
  by_cases h₁ : c = '"'
  · subst h₁
    exact hread '"'
  by_cases h₂ : c = '\\'
  · subst h₂
    exact hread '\\'
  by_cases h₃ : c = '\x08'
  · subst h₃
    exact hread '\x08'
  by_cases h₄ : c = '\t'
  · subst h₄
    exact hread '\t'
  by_cases h₅ : c = '\n'
  · subst h₅
    exact hread '\n'
  by_cases h₆ : c = '\x0c'
  · subst h₆
    exact hread '\x0c'
  by_cases h₇ : c = '\r'
  · subst h₇
    exact hread '\r'
  rw [if_neg h₁, if_neg h₂, if_neg h₃, if_neg h₄, if_neg h₅, if_neg h₆, if_neg h₇]
  by_cases h₈ : c.toNat < 32
  · -- The code of a control character has two digits that are not zero.
    rw [if_pos h₈]
    have hcode : 16 * (16 * (16 * 0 + 0) + c.toNat / 16) + c.toNat % 16 = c.toNat := by omega
    show stringFrom strict (.code none 2 (16 * 0 + 0))
      (hexDigit (c.toNat / 16) :: hexDigit (c.toNat % 16) :: cs) = _
    rw [stringFrom, hexValue?_hexDigit _ (by omega)]
    show stringFrom strict (.code none 1 (16 * (16 * 0 + 0) + c.toNat / 16))
      (hexDigit (c.toNat % 16) :: cs) = _
    rw [stringFrom, hexValue?_hexDigit _ (by omega)]
    dsimp only
    rw [if_neg (by decide), hcode, codeMeaning_control h₈]
    exact hread c
  · rw [if_neg h₈, List.singleton_append, stringFrom, if_neg h₁, if_neg h₂, if_neg h₈]
    exact hread c

theorem stringFrom_quoted (strict : Bool) (text rest : List Char) :
    stringFrom strict .plain (text.flatMap escape ++ '"' :: rest) = .ok (text, rest) := by
  induction text with
  | nil => rfl
  | cons c text ih =>
    rw [List.flatMap_cons, List.append_assoc, stringFrom_escape, ih]
    rfl

/-- **A string is read from what is printed for it.** -/
theorem stringBody_quoted (strict : Bool) (text : String) (rest : List Char) :
    stringBody strict (text.toList.flatMap escape ++ '"' :: rest) = .ok (text, rest) := by
  unfold stringBody
  rw [stringFrom_quoted]
  exact congrArg (fun t => Except.ok (t, rest)) (String.ofList_toList)

/-! ## Decimal digits -/

/-- What follows a numeral does not go on with it. -/
def EndsNumeral (rest : List Char) : Prop :=
  ∀ c ∈ rest.head?, c.isDigit = false ∧ c ≠ '.' ∧ c ≠ 'e' ∧ c ≠ 'E'

theorem le_ofDigitChars (n : Nat) (ds : List Char) : n ≤ Nat.ofDigitChars 10 ds n := by
  induction ds generalizing n with
  | nil => simp
  | cons d ds ih =>
    rw [Nat.ofDigitChars_cons]
    exact Nat.le_trans (by omega) (ih _)

/-- A number of 64 bits takes in all its digits. -/
theorem appendDigits_eq {n : Nat} {ds : List Char}
    (h : Nat.ofDigitChars 10 ds n < UInt64.size) :
    Numeral.appendDigits n ds = (Nat.ofDigitChars 10 ds n, []) := by
  induction ds generalizing n with
  | nil => rfl
  | cons d ds ih =>
    rw [Nat.ofDigitChars_cons] at h ⊢
    have hle := le_ofDigitChars (10 * n + (d.toNat - '0'.toNat)) ds
    unfold Numeral.appendDigits
    exact (if_pos (Nat.lt_of_le_of_lt hle h)).trans (ih h)

theorem appendDigits_toDigits {n : Nat} (h : n < UInt64.size) :
    Numeral.appendDigits 0 (Nat.toDigits 10 n) = (n, []) := by
  have hdigits := Nat.ofDigitChars_ten_toDigits (n := n)
  have hsize : Nat.ofDigitChars 10 (Nat.toDigits 10 n) 0 < UInt64.size := by rwa [hdigits]
  have happend := appendDigits_eq hsize
  rwa [hdigits] at happend

/-- A number other than zero is not printed with a zero in front. -/
theorem head_toDigits {n : Nat} (h : 0 < n) {c : Char} {cs : List Char}
    (hdigits : Nat.toDigits 10 n = c :: cs) : c ≠ '0' := by
  induction n using Nat.strongRecOn generalizing c cs with
  | ind n ih =>
    by_cases hn : n < 10
    · rw [Nat.toDigits_of_lt_base hn] at hdigits
      cases hdigits
      interval_cases n <;> decide
    · rw [Nat.toDigits_of_base_le (by decide) (by omega)] at hdigits
      obtain ⟨d, ds, hfirst⟩ := List.exists_cons_of_ne_nil
        (Nat.toDigits_ne_nil (n := n / 10) (b := 10))
      rw [hfirst] at hdigits
      cases hdigits
      exact ih (n / 10) (by omega) (by omega) hfirst

theorem digitsFrom_toDigits (strict : Bool) (n : Nat) {rest : List Char} (ends : EndsNumeral rest) :
    digitsFrom strict (Nat.toDigits 10 n ++ rest) = .ok (Nat.toDigits 10 n, rest) := by
  have hdigits : ∀ c ∈ Nat.toDigits 10 n, c.isDigit :=
    fun c hc => Nat.isDigit_of_mem_toDigits (by decide) (by decide) hc
  have hrest : rest.takeWhile Char.isDigit = [] ∧ rest.dropWhile Char.isDigit = rest := by
    cases rest with
    | nil => exact ⟨rfl, rfl⟩
    | cons c rest =>
      have hc : ¬ c.isDigit := by simp [(ends c rfl).1]
      exact ⟨List.takeWhile_cons_of_neg hc, List.dropWhile_cons_of_neg hc⟩
  unfold digitsFrom
  rw [List.takeWhile_append_of_pos hdigits, List.dropWhile_append_of_pos hdigits, hrest.1,
    hrest.2, List.append_nil]
  obtain ⟨d, ds, hcons⟩ := List.exists_cons_of_ne_nil (Nat.toDigits_ne_nil (n := n) (b := 10))
  rw [hcons]

/-- The digits of a number are read as the whole part of a numeral. -/
theorem wholeFrom_toDigits (strict : Bool) (n : Nat) {rest : List Char} (ends : EndsNumeral rest) :
    wholeFrom strict (Nat.toDigits 10 n ++ rest) = .ok (Nat.toDigits 10 n, rest) := by
  unfold wholeFrom
  rw [digitsFrom_toDigits strict n ends]
  dsimp only [bind, Except.bind]
  split
  · rename_i hdigits
    rcases Nat.eq_zero_or_pos n with rfl | hn
    · cases hdigits
    · exact absurd rfl (head_toDigits hn hdigits)
  · rfl

/-! ## Integers -/

namespace Numeral

/-- The numeral that an integer is printed as. -/
def ofInt : Int → Numeral
  | .ofNat n => ⟨false, Nat.toDigits 10 n, none, none⟩
  | .negSucc n => ⟨true, Nat.toDigits 10 (n + 1), none, none⟩

end Numeral

/-- Integers of 64 bits, with a sign or without. -/
def Fits (value : Int) : Prop := -(2 ^ 63) ≤ value ∧ value < 2 ^ 64

theorem Fits.of_lt {n : Nat} (h : n < 2 ^ 64) : Fits n := by
  constructor <;> omega

theorem Fits.natAbs_lt {value : Int} (h : Fits value) : value.natAbs < UInt64.size := by
  obtain ⟨hlow, hhigh⟩ := h
  rw [UInt64.size]
  omega

theorem numeralFrom_digits (strict : Bool) (value : Int) {rest : List Char}
    (ends : EndsNumeral rest) :
    numeralFrom strict (digits value ++ rest) = .ok (.ofInt value, rest) := by
  have hfraction : fractionFrom strict rest = .ok (none, rest) := by
    unfold fractionFrom
    split
    · exact absurd rfl (ends '.' rfl).2.1
    · rfl
  have hexponent : exponentFrom strict rest = .ok (none, rest) := by
    unfold exponentFrom
    cases rest with
    | nil => rfl
    | cons c rest =>
      obtain ⟨_, _, hsmall, hgreat⟩ := ends c rfl
      simp [hsmall, hgreat, pure, Except.pure]
  have hunsigned : ∀ (negative : Bool) (n : Nat),
      (wholeFrom strict (Nat.toDigits 10 n ++ rest) >>= fun whole =>
        fractionFrom strict whole.2 >>= fun fraction =>
          exponentFrom strict fraction.2 >>= fun exponent =>
            .ok (⟨negative, whole.1, fraction.1, exponent.1⟩, exponent.2)) =
        (.ok (⟨negative, Nat.toDigits 10 n, none, none⟩, rest) :
          Except JsonError (Numeral × List Char)) := fun negative n => by
    rw [wholeFrom_toDigits strict n ends]
    show (fractionFrom strict rest >>= _) = _
    rw [hfraction]
    show (exponentFrom strict rest >>= _) = _
    rw [hexponent]
    rfl
  cases value with
  | ofNat n =>
    -- The first character is a digit, so there is no sign.
    obtain ⟨d, ds, hcons⟩ := List.exists_cons_of_ne_nil (Nat.toDigits_ne_nil (n := n) (b := 10))
    have hdigit : d.isDigit := Nat.isDigit_of_mem_toDigits (by decide) (by decide)
      (hcons ▸ List.mem_cons_self : d ∈ Nat.toDigits 10 n)
    have hsign : d ≠ '-' := by
      rintro rfl
      exact absurd hdigit (by decide)
    have hread := hunsigned false n
    unfold numeralFrom digits Numeral.ofInt
    dsimp only
    rw [hcons, List.cons_append] at hread ⊢
    split
    · rename_i hminus
      exact absurd (List.cons.inj hminus).1 hsign
    · exact hread
  | negSucc n => exact hunsigned true (n + 1)

/-- Rounding at most doubles a number. -/
theorem Numeral.rounded_le (n : Nat) : Numeral.rounded n ≤ 2 * n := by
  unfold Numeral.rounded
  rcases Nat.eq_zero_or_pos n with rfl | hn
  · decide
  have hunit : Nat.pow 2 (n.log2 + 1 - 53) ≤ n :=
    Nat.le_trans (Nat.pow_le_pow_right (by decide) (by omega)) (Nat.log2_self_le (by omega))
  have hmultiple : n / Nat.pow 2 (n.log2 + 1 - 53) * Nat.pow 2 (n.log2 + 1 - 53) ≤ n :=
    Nat.div_mul_le_self _ _
  unfold Number.roundToBits Number.nearestMultiple
  dsimp only
  split
  · rw [Nat.add_mul]
    omega
  · omega

theorem Numeral.leading_ofInt {value : Int} (h : Fits value) :
    (Numeral.ofInt value).leading = (value.natAbs, 0) := by
  have hdigits := appendDigits_toDigits h.natAbs_lt
  cases value with
  | ofNat n =>
    unfold Numeral.leading Numeral.ofInt
    dsimp only [Int.natAbs] at hdigits ⊢
    rw [hdigits]
    rfl
  | negSucc n =>
    unfold Numeral.leading Numeral.ofInt
    dsimp only [Int.natAbs] at hdigits ⊢
    rw [hdigits]
    rfl

theorem Numeral.outOfRange_ofInt {value : Int} (h : Fits value) :
    (Numeral.ofInt value).outOfRange = false := by
  have hproduct : Numeral.rounded value.natAbs * Numeral.rounded (Nat.pow 10 0)
      < Numeral.rangeEnd := calc
    _ ≤ 2 * value.natAbs * (2 * Nat.pow 10 0) :=
      Nat.mul_le_mul (Numeral.rounded_le _) (Numeral.rounded_le _)
    _ ≤ 2 * UInt64.size * (2 * Nat.pow 10 0) :=
      Nat.mul_le_mul_right _ (Nat.mul_le_mul_left 2 (Nat.le_of_lt h.natAbs_lt))
    _ < Numeral.rangeEnd := by decide +kernel
  unfold Numeral.outOfRange
  rw [Numeral.leading_ofInt h]
  split
  · rfl
  · rfl
  · rename_i heq
    cases heq
    rw [Bool.or_eq_false_iff]
    exact ⟨rfl, decide_eq_false (Nat.not_le_of_gt hproduct)⟩

theorem Numeral.toJson_ofInt {value : Int} (h : Fits value) :
    (Numeral.ofInt value).toJson = .integer value := by
  have hdigits := appendDigits_toDigits h.natAbs_lt
  cases value with
  | ofNat n =>
    unfold Numeral.toJson Numeral.ofInt
    dsimp only [Int.natAbs] at hdigits ⊢
    rw [hdigits]
    rfl
  | negSucc n =>
    have hrange : 0 < n + 1 ∧ 2 * (n + 1) ≤ UInt64.size := by
      obtain ⟨hlow, _⟩ := h
      rw [UInt64.size]
      omega
    unfold Numeral.toJson Numeral.ofInt
    dsimp only [Int.natAbs] at hdigits ⊢
    rw [hdigits]
    exact if_pos hrange

end FrenchTarot.Json
