import FrenchTarot.Json.Fields

/-!
# Tagged values

A choice between several forms is an object whose entry `type` names the form; the form's own field
stands in the same object, before or after it.  An array whose first item is the name, followed by
the field, says the same.  Because the name may come last, the other entries are kept as values
until it is known.
-/

namespace FrenchTarot.Json

/-- What comes with the name of a form. -/
inductive Payload where
  | entries (entries : List (String × Json))
  | items (items : List Json)

namespace Payload

/-- A form without a field: an array must hold nothing more, an object may. -/
def asNothing : Payload → Except JsonError Unit
  | entries _ => .ok ()
  | items [] => .ok ()
  | items _ => unfit

/-- A form with one field, which must be there exactly once. -/
def asField {α : Type} (name : String) (decode : Decoder α) : Payload → Except JsonError α
  | entries es =>
    match es.filter fun e => e.1 = name with
    | [(_, j)] => decode j
    | _ => unfit
  | items [j] => decode j
  | items _ => unfit

end Payload

/-- The name of a form, which must be one of those that exist. -/
def asFormOf (names : List String) : Decoder String := fun j => do
  let name ← asText j
  if name ∈ names then return name else unfit

/-- A tagged value while its entries are read. -/
structure TaggedDraft where
  form : Option String
  /-- The other entries, last first. -/
  entries : List (String × Json)

/-- Takes an entry of a tagged value: the name of its form, or an entry to keep. -/
def takeTagged (names : List String) (depth : Nat) (name : String) (draft : TaggedDraft) :
    Reader TaggedDraft := fun cs =>
  if name = "type" then
    if draft.form.isSome then unfit
    else do
      let (form, rest) ← plainFrom (asFormOf names) (← expectColon cs)
      return ({ draft with form := some form }, rest)
  else do
    let (j, rest) ← valueFrom depth (← expectColon cs)
    return ({ draft with entries := (name, j) :: draft.entries }, rest)

/-- Reads a tagged value with these forms, whose kept values may be nested `depth` deep. -/
def taggedFrom (names : List String) (depth : Nat) : Reader (String × Payload) := fun cs =>
  match skipSpace cs with
  | [] => .error .incomplete
  | c :: rest =>
    if c = '[' then
      match skipSpace rest with
      | [] => .error .incomplete
      | c :: rest =>
        if c = ']' then unfit
        else do
          let (form, rest) ← plainFrom (asFormOf names) (c :: rest)
          let (items, rest) ← itemsFrom (valueFrom depth) (c :: rest) false rest
          return ((form, .items items), rest)
    else if c = '\x7b' then do
      let (draft, rest) ←
        entriesFrom true (takeTagged names depth) (c :: rest) true ⟨none, []⟩ rest
      return ((← required draft.form, .entries draft.entries), rest)
    else do
      let _ ← scalarFrom true (c :: rest)
      unfit

end FrenchTarot.Json
