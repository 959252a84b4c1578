import FrenchTarot.Json.Basic
import FrenchTarot.Number.Rounding

/-!
# Numerals

A numeral is an optional sign, digits, and optionally a fraction and an exponent.  One that is
written as an integer of at most 64 bits stands for that integer.  Every other numeral is kept as it
is written, but a numeral that is kept has to be in range.

The range is checked on the way in which a number of 53 significant bits is made from a numeral: its
leading digits, as many as give a number of 64 bits, are rounded to 53 bits, and multiplied by a
power of ten that is rounded to 53 bits as well.  The numeral is out of range if the product rounds
to 2¹⁰²⁴ or more, or if the power of ten is above 10³⁰⁸.
-/

namespace FrenchTarot.Json

/-- The parts of a numeral. -/
structure Numeral where
  negative : Bool
  whole : List Char
  /-- Digits after the point. -/
  fraction : Option (List Char)
  /-- Sign and digits of the exponent. -/
  exponent : Option (Option Char × List Char)

namespace Numeral

/-! ## The value of a numeral -/

/-- Value of a decimal digit. -/
def digitValue (c : Char) : Nat := c.toNat - 48

/-- The number written by decimal digits. -/
def ofDigits (cs : List Char) : Nat := cs.foldl (fun n c => 10 * n + digitValue c) 0

/-- Appends digits to a number as long as it has 64 bits; also gives the digits that are left. -/
def appendDigits (n : Nat) : List Char → Nat × List Char
  | [] => (n, [])
  | c :: cs =>
    let longer := 10 * n + digitValue c
    if longer < UInt64.size then appendDigits longer cs else (n, c :: cs)

/-- The number that the exponent stands for. -/
def exponentValue (n : Numeral) : Int :=
  match n.exponent with
  | none => 0
  | some (some '-', ds) => -(ofDigits ds : Int)
  | some (_, ds) => ofDigits ds

/-- The leading digits of a numeral, as a number of 64 bits, with the exponent of ten that goes with
them.  Digits before the point that are left out raise the exponent, and digits after it that are
taken in lower it. -/
def leading (n : Numeral) : Nat × Int :=
  let fraction := n.fraction.getD []
  let (first, dropped) := appendDigits 0 n.whole
  let (digits, unused) := appendDigits first fraction
  (digits, n.exponentValue + dropped.length - (fraction.length - unused.length : Nat))

/-- The least number that rounds to 2¹⁰²⁴ or more: half of the last of 53 bits below it. -/
def rangeEnd : Nat := (Nat.pow 2 54 - 1) * Nat.pow 2 970

/-- The exponent of the greatest power of ten in range. -/
def maxExponent : Nat := 308

/-- A number, or a power of ten, with 53 significant bits. -/
def rounded (n : Nat) : Nat := Number.roundToBits 53 n

/-- Whether a numeral is too great. -/
def outOfRange (n : Numeral) : Bool :=
  match n.leading with
  | (0, _) => false
  | (_, .negSucc _) => false
  | (digits, .ofNat e) =>
    maxExponent < e || rangeEnd ≤ rounded digits * rounded (Nat.pow 10 e)

def chars (n : Numeral) : List Char :=
  (if n.negative then ['-'] else []) ++ n.whole
    ++ (match n.fraction with
      | some ds => '.' :: ds
      | none => [])
    ++ (match n.exponent with
      | some (sign, ds) => 'e' :: (sign.toList ++ ds)
      | none => [])

def toJson (n : Numeral) : Json :=
  let asWritten := Json.decimal (String.ofList n.chars)
  match n.fraction, n.exponent, appendDigits 0 n.whole with
  | none, none, (value, []) =>
    if !n.negative then .integer value
    else if 0 < value ∧ 2 * value ≤ UInt64.size then .integer (-value)
    else asWritten
  | _, _, _ => asWritten

end Numeral

/-! ## Reading -/

/-- The error of a numeral that has no digit where one is due. -/
def digitMissing (strict : Bool) (cs : List Char) : JsonError :=
  if strict && cs.isEmpty then .incomplete else .malformed

/-- Reads one digit or more. -/
def digitsFrom (strict : Bool) : Reader (List Char) := fun cs =>
  match cs.takeWhile Char.isDigit with
  | [] => .error (digitMissing strict cs)
  | ds => .ok (ds, cs.dropWhile Char.isDigit)

/-- Reads the digits before the point; a zero in front stands alone. -/
def wholeFrom (strict : Bool) : Reader (List Char) := fun cs => do
  let (ds, rest) ← digitsFrom strict cs
  match ds with
  | '0' :: _ :: _ => throw .malformed
  | _ => return (ds, rest)

/-- Reads the digits after the point, if there is one. -/
def fractionFrom (strict : Bool) : Reader (Option (List Char))
  | '.' :: cs => do
    let (ds, rest) ← digitsFrom strict cs
    return (some ds, rest)
  | cs => return (none, cs)

/-- Reads the exponent, if there is one. -/
def exponentFrom (strict : Bool) : Reader (Option (Option Char × List Char)) := fun cs =>
  match cs with
  | [] => return (none, [])
  | c :: cs' =>
    if c = 'e' || c = 'E' then do
      let (sign, digits) : Option Char × List Char :=
        match cs' with
        | '+' :: r => (some '+', r)
        | '-' :: r => (some '-', r)
        | r => (none, r)
      let (ds, rest) ← digitsFrom strict digits
      return (some (sign, ds), rest)
    else return (none, cs)

def numeralFrom (strict : Bool) : Reader Numeral := fun cs => do
  let (negative, cs) : Bool × List Char :=
    match cs with
    | '-' :: r => (true, r)
    | r => (false, r)
  let (whole, cs) ← wholeFrom strict cs
  let (fraction, cs) ← fractionFrom strict cs
  let (exponent, cs) ← exponentFrom strict cs
  return (⟨negative, whole, fraction, exponent⟩, cs)

end FrenchTarot.Json
