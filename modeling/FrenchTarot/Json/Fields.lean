import FrenchTarot.Json.Decode

/-!
# Records in one pass

A record is an object with known names, or an array of its fields in order; missing fields at the
end of the array are left out.  It is read in one pass, so the first problem in the text decides:
a value that does not fit, a name that comes twice, or a fault of form.  Names that are not known
are passed over with their values.

The fields are collected in a draft, a structure of optional values, from which the record is made
when the text has given all it holds.
-/

namespace FrenchTarot.Json

/-- A field of a record that is collected in a draft. -/
structure Field (δ : Type) where
  name : String
  /-- Whether the draft has the field already. -/
  given : δ → Bool
  /-- Reads the value of the field into the draft. -/
  read : δ → Reader δ

/-- Reads a value that is neither an array nor an object; one of those does not fit. -/
def plainFrom {α : Type} (decode : Decoder α) : Reader α := fun cs =>
  match skipSpace cs with
  | [] => .error .incomplete
  | c :: rest =>
    if c = '[' || c = '\x7b' then unfit
    else do
      let (j, rest) ← scalarFrom true (c :: rest)
      return (← decode j, rest)

namespace Field

/-- A field that is kept in one place of the draft. -/
def stored {δ α : Type} (name : String) (get : δ → Option α) (put : δ → α → δ) (read : Reader α) :
    Field δ :=
  ⟨name, fun d => (get d).isSome, fun d cs => do
    let (a, rest) ← read cs
    return (put d a, rest)⟩

end Field

/-- Reads the fields of an array, in order, up to its closing bracket. -/
def positionalFrom {δ : Type} : List (Field δ) → Bool → δ → Reader δ
  | [], _, draft, cs =>
    match skipSpace cs with
    | [] => .error .incomplete
    | c :: rest => if c = ']' then .ok (draft, rest) else .error .malformed
  | f :: fields, first, draft, cs =>
    match skipSpace cs with
    | [] => .error .incomplete
    | c :: rest =>
      if c = ']' then .ok (draft, rest)
      else if !first && c ≠ ',' then .error .malformed
      else do
        let (draft, rest) ← f.read draft (if first then c :: rest else rest)
        positionalFrom fields false draft rest

/-- Takes an entry of an object into the draft. -/
def takeEntry {δ : Type} (fields : List (Field δ)) (name : String) (draft : δ) : Reader δ :=
  fun cs =>
  match fields.find? fun f => f.name = name with
  | none => do
    let (_, rest) ← skipValue (← expectColon cs)
    return (draft, rest)
  | some f => if f.given draft then unfit else do f.read draft (← expectColon cs)

/-- Reads a record with these fields, starting from an empty draft. -/
def recordFrom {δ α : Type} (fields : List (Field δ)) (blank : δ) (make : δ → Except JsonError α) :
    Reader α := fun cs =>
  match skipSpace cs with
  | [] => .error .incomplete
  | c :: rest =>
    if c = '[' then do
      let (draft, rest) ← positionalFrom fields true blank rest
      return (← make draft, rest)
    else if c = '\x7b' then do
      let (draft, rest) ← entriesFrom true (takeEntry fields) (c :: rest) true blank rest
      return (← make draft, rest)
    else do
      let _ ← scalarFrom true (c :: rest)
      unfit

end FrenchTarot.Json
