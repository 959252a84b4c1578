import FrenchTarot.Json.Fields
import FrenchTarot.Proofs.Json.Entries

/-!
# Reading what was printed: values

A value that is printed over several lines is read back as it was, if its integers have at most 64
bits, no numeral is kept as text, and it is not nested too deeply.  The reader takes just what was
printed and leaves what follows, which only has to end a numeral.  A value that is no array and no
object is printed alike in both forms, and read alike at every depth.

Items after the first are read alike, each with the comma in front of it; the first one is read as
if a comma stood in front of it too.  What limits their number is the text itself, and each of them
has at least its new line there.

A record is read back when its fields are (`recordFrom_printed`).
-/

namespace FrenchTarot.Json

/-- Values that are nested at most `depth` deep and hold no numeral but integers of 64 bits. -/
inductive Readable : (depth : Nat) → Json → Prop where
  | null {depth : Nat} : Readable depth null
  | boolean {depth : Nat} (b : Bool) : Readable depth (boolean b)
  | integer {depth : Nat} {value : Int} : Fits value → Readable depth (integer value)
  | string {depth : Nat} (text : String) : Readable depth (string text)
  | array {depth : Nat} {items : List Json} :
      (∀ i ∈ items, Readable depth i) → Readable (depth + 1) (array items)
  | object {depth : Nat} {entries : List (String × Json)} :
      (∀ e ∈ entries, Readable depth e.2) → Readable (depth + 1) (object entries)

/-! ## Spaces -/

theorem skipSpace_newLine (level : Nat) (cs : List Char) :
    skipSpace (newLine level ++ cs) = skipSpace cs := skipSpace_append (newLine_blank level) cs

/-- A value may have spaces in front. -/
theorem valueFrom_skipSpace {depth : Nat} {cs cs' : List Char} (h : skipSpace cs = skipSpace cs') :
    valueFrom depth cs = valueFrom depth cs' := by
  cases depth with
  | zero =>
    unfold valueFrom valueWith
    rw [h]
  | succ depth =>
    unfold valueFrom valueWith
    rw [h]

/-! ## How a value starts -/

/-- A text starts with a character that is neither a space nor the end of an array. -/
def Starts (cs : List Char) : Prop := ∃ c rest, cs = c :: rest ∧ isSpace c = false ∧ c ≠ ']'

theorem Starts.skipSpace {cs : List Char} (h : Starts cs) (rest : List Char) :
    skipSpace (cs ++ rest) = cs ++ rest := by
  obtain ⟨c, cs, rfl, hspace, _⟩ := h
  exact skipSpace_cons hspace (cs ++ rest)

theorem ne_of_isDigit {c d : Char} (hc : c.isDigit) (hd : d.isDigit = false) : c ≠ d := by
  rintro rfl
  rw [hd] at hc
  cases hc

/-- An integer starts with a sign or a digit. -/
theorem digits_eq_cons (value : Int) :
    ∃ c cs, digits value = c :: cs ∧ (c = '-' ∨ c.isDigit) := by
  cases value with
  | negSucc n => exact ⟨'-', _, rfl, Or.inl rfl⟩
  | ofNat n =>
    obtain ⟨d, ds, hcons⟩ := List.exists_cons_of_ne_nil (Nat.toDigits_ne_nil (n := n) (b := 10))
    refine ⟨d, ds, hcons, Or.inr ?_⟩
    exact Nat.isDigit_of_mem_toDigits (by decide) (by decide)
      (hcons ▸ List.mem_cons_self : d ∈ Nat.toDigits 10 n)

/-- A sign or a digit is no other character. -/
theorem ne_of_signOrDigit {c d : Char} (hc : c = '-' ∨ c.isDigit) (hsign : d ≠ '-')
    (hdigit : d.isDigit = false) : c ≠ d := by
  rcases hc with rfl | hc
  · exact hsign.symm
  · exact ne_of_isDigit hc hdigit

theorem isSpace_signOrDigit {c : Char} (hc : c = '-' ∨ c.isDigit) : isSpace c = false := by
  simp [isSpace, ne_of_signOrDigit hc (by decide : ' ' ≠ '-') rfl,
    ne_of_signOrDigit hc (by decide : '\t' ≠ '-') rfl,
    ne_of_signOrDigit hc (by decide : '\n' ≠ '-') rfl,
    ne_of_signOrDigit hc (by decide : '\r' ≠ '-') rfl]

/-- A value that is no array and no object is printed alike in both forms. -/
theorem Readable.pretty_scalar {j : Json} (h : Readable 0 j) (level : Nat) :
    prettyChars level j = compactChars j := by
  cases h with
  | null => rfl
  | boolean b => cases b <;> rfl
  | integer _ => rfl
  | string _ => rfl

/-- It starts with a character that is no space and opens or closes nothing. -/
theorem Readable.scalar_starts {j : Json} (h : Readable 0 j) :
    ∃ c cs, compactChars j = c :: cs ∧ isSpace c = false ∧ c ≠ ']' ∧ c ≠ '[' ∧ c ≠ '\x7b' := by
  cases h with
  | null => exact ⟨'n', _, rfl, rfl, by decide⟩
  | boolean b =>
    cases b with
    | false => exact ⟨'f', _, rfl, rfl, by decide⟩
    | true => exact ⟨'t', _, rfl, rfl, by decide⟩
  | @integer _ value _ =>
    obtain ⟨c, cs, hcons, hc⟩ := digits_eq_cons value
    exact ⟨c, cs, hcons, isSpace_signOrDigit hc, ne_of_signOrDigit hc (by decide) rfl,
      ne_of_signOrDigit hc (by decide) rfl, ne_of_signOrDigit hc (by decide) rfl⟩
  | string text => exact ⟨'"', _, rfl, rfl, by decide⟩

theorem Readable.starts {depth : Nat} {j : Json} (h : Readable depth j) (level : Nat) :
    Starts (prettyChars level j) := by
  have hscalar : ∀ {j}, Readable 0 j → Starts (prettyChars level j) := by
    intro j hj
    obtain ⟨c, cs, hcons, hspace, hclose, _⟩ := hj.scalar_starts
    exact ⟨c, cs, (hj.pretty_scalar level).trans hcons, hspace, hclose⟩
  cases h with
  | null => exact hscalar .null
  | boolean b => exact hscalar (.boolean b)
  | integer fits => exact hscalar (.integer fits)
  | string text => exact hscalar (.string text)
  | @array _ items _ =>
    cases items with
    | nil => exact ⟨'[', _, rfl, rfl, by decide⟩
    | cons i items => exact ⟨'[', _, rfl, rfl, by decide⟩
  | @object _ entries _ =>
    cases entries with
    | nil => exact ⟨'\x7b', _, rfl, rfl, by decide⟩
    | cons e entries => exact ⟨'\x7b', _, rfl, rfl, by decide⟩

/-! ## Values without items -/

/-- A value that is no array and no object is read at any depth. -/
theorem valueFrom_scalar (depth : Nat) {c : Char} (hspace : isSpace c = false) (harray : c ≠ '[')
    (hobject : c ≠ '\x7b') (cs : List Char) :
    valueFrom depth (c :: cs) = scalarFrom true (c :: cs) := by
  cases depth with
  | zero =>
    unfold valueFrom valueWith
    rw [skipSpace_cons hspace]
    dsimp only
    rw [if_neg harray, if_neg hobject]
  | succ depth =>
    unfold valueFrom valueWith
    rw [skipSpace_cons hspace]
    dsimp only
    rw [if_neg harray, if_neg hobject]

theorem scalarFrom_quote (text : String) (rest : List Char) :
    scalarFrom true (quote text ++ rest) = .ok (.string text, rest) := by
  unfold scalarFrom
  rw [quote_append]
  dsimp only
  rw [if_pos rfl, stringBody_quoted]
  rfl

theorem scalarFrom_digits {value : Int} (h : Fits value) {rest : List Char}
    (ends : EndsNumeral rest) :
    scalarFrom true (digits value ++ rest) = .ok (.integer value, rest) := by
  have hread := numeralFrom_digits true value ends
  obtain ⟨c, cs, hcons, hc⟩ := digits_eq_cons value
  rw [hcons, List.cons_append] at hread ⊢
  have hsign : (c = '-' || c.isDigit) = true := by simpa using hc
  unfold scalarFrom
  dsimp only
  rw [if_neg (ne_of_signOrDigit hc (by decide) rfl), if_pos hsign, hread]
  show (if (true && (Numeral.ofInt value).outOfRange) = true then _ else
    Except.ok ((Numeral.ofInt value).toJson, rest)) = _
  rw [Numeral.outOfRange_ofInt h, Numeral.toJson_ofInt h]
  rfl

/-- **A value that is no array and no object is read from what is printed for it.** -/
theorem Readable.scalarFrom_compact {j : Json} (h : Readable 0 j) {rest : List Char}
    (ends : EndsNumeral rest) : scalarFrom true (compactChars j ++ rest) = .ok (j, rest) := by
  cases h with
  | null => rfl
  | boolean b => cases b <;> rfl
  | integer fits => exact scalarFrom_digits fits ends
  | string text => exact scalarFrom_quote text rest

/-- It may be read at any depth. -/
theorem Readable.valueFrom_compact {j : Json} (h : Readable 0 j) (depth : Nat) {rest : List Char}
    (ends : EndsNumeral rest) : valueFrom depth (compactChars j ++ rest) = .ok (j, rest) := by
  have hread := h.scalarFrom_compact ends
  obtain ⟨c, cs, hcons, hspace, _, harray, hobject⟩ := h.scalar_starts
  rw [hcons, List.cons_append] at hread ⊢
  rw [valueFrom_scalar depth hspace harray hobject, hread]

/-! ## Items -/

/-- What is printed after an item: the others, with a comma in front of each. -/
def moreItems (level : Nat) : List Json → List Char
  | [] => []
  | item :: items => ',' :: prettyItems level (item :: items)

theorem prettyItems_cons (level : Nat) (item : Json) (items : List Json) :
    prettyItems level (item :: items) =
      newLine level ++ (prettyChars level item ++ moreItems level items) := by
  cases items with
  | nil => simp [prettyItems, moreItems]
  | cons next items => simp [prettyItems, moreItems]

theorem endsNumeral_moreItems (level outer : Nat) (items : List Json) (rest : List Char) :
    EndsNumeral (moreItems level items ++ (newLine outer ++ rest)) := by
  cases items with
  | nil => exact endsNumeral_cons (by decide) _
  | cons item items => exact endsNumeral_cons (by decide) _

theorem length_moreItems (level : Nat) (items : List Json) :
    items.length ≤ (moreItems level items).length := by
  induction items with
  | nil => exact Nat.le_refl 0
  | cons item items ih =>
    rw [moreItems, prettyItems_cons, List.length_cons, List.length_cons, List.length_append,
      List.length_append]
    omega

/-- A value is read back at this depth, in front of everything that ends a numeral. -/
def ReadBack (depth : Nat) (j : Json) : Prop :=
  ∀ level rest, EndsNumeral rest → valueFrom depth (prettyChars level j ++ rest) = .ok (j, rest)

theorem itemsFrom_moreItems {depth : Nat} (level outer : Nat) (rest : List Char) :
    ∀ {items : List Json} {limit : List Char}, (∀ i ∈ items, ReadBack depth i) →
      items.length < limit.length →
      itemsFrom (valueFrom depth) limit false
        (moreItems level items ++ (newLine outer ++ ']' :: rest)) = .ok (items, rest)
  | [], _ :: limit, _, _ => by
    unfold itemsFrom
    rw [moreItems, List.nil_append, skipSpace_newLine, skipSpace_cons rfl]
    rfl
  | item :: items, _ :: limit, hread, hlimit => by
    have hitem : valueFrom depth (prettyItems level (item :: items) ++
        (newLine outer ++ ']' :: rest)) =
        .ok (item, moreItems level items ++ (newLine outer ++ ']' :: rest)) := by
      rw [prettyItems_cons, List.append_assoc, List.append_assoc,
        valueFrom_skipSpace (skipSpace_newLine level _)]
      exact hread item List.mem_cons_self level _ (endsNumeral_moreItems level outer items _)
    have hitems := itemsFrom_moreItems level outer rest
      (fun i hi => hread i (List.mem_cons_of_mem item hi)) (Nat.lt_of_succ_lt_succ hlimit)
    unfold itemsFrom
    rw [moreItems, List.cons_append, skipSpace_cons rfl]
    dsimp only
    rw [if_neg (by decide), if_neg (by decide), if_neg (by decide), hitem]
    show (itemsFrom (valueFrom depth) limit false _ >>= _) = _
    rw [hitems]
    rfl

/-- The first item is read as if it had a comma in front. -/
theorem itemsFrom_first {depth level : Nat} {item : Json} {items : List Json} {limit : List Char}
    (hstarts : Starts (prettyChars level item)) (rest : List Char) :
    itemsFrom (valueFrom depth) limit true (prettyItems level (item :: items) ++ rest) =
      itemsFrom (valueFrom depth) limit false (moreItems level (item :: items) ++ rest) := by
  cases limit with
  | nil => rfl
  | cons l limit =>
    have hskip : skipSpace (prettyItems level (item :: items) ++ rest) =
        prettyChars level item ++ (moreItems level items ++ rest) := by
      rw [prettyItems_cons, List.append_assoc, List.append_assoc, skipSpace_newLine,
        hstarts.skipSpace]
    have hvalue : valueFrom depth (prettyItems level (item :: items) ++ rest) =
        valueFrom depth (prettyChars level item ++ (moreItems level items ++ rest)) :=
      valueFrom_skipSpace (hskip.trans (hstarts.skipSpace (moreItems level items ++ rest)).symm)
    obtain ⟨c, cs, hcons, _, hclose⟩ := hstarts
    rw [hcons, List.cons_append] at hskip hvalue
    unfold itemsFrom
    rw [hskip, moreItems, List.cons_append, skipSpace_cons rfl]
    simp [hclose, hvalue]

/-! ## Entries -/

/-- How an entry that is kept is read on from its colon. -/
def keepEntry (item : Reader Json) (name : String) (entries : List (String × Json)) :
    Reader (List (String × Json)) := fun cs => do
  let (value, rest) ← item (← expectColon cs)
  return ((name, value) :: entries, rest)

/-- The value of an entry is read from its colon on. -/
theorem keepEntry_printed {depth : Nat} {j : Json} (hread : ReadBack depth j) (level : Nat)
    (name : String) (entries : List (String × Json)) {rest : List Char} (ends : EndsNumeral rest) :
    keepEntry (valueFrom depth) name entries (':' :: ' ' :: (prettyChars level j ++ rest)) =
      .ok ((name, j) :: entries, rest) := by
  have hskip : skipSpace (' ' :: (prettyChars level j ++ rest)) =
      skipSpace (prettyChars level j ++ rest) := rfl
  show (valueFrom depth (' ' :: (prettyChars level j ++ rest)) >>= _) = _
  rw [valueFrom_skipSpace hskip, hread level rest ends]
  rfl

/-- Entries that are kept are collected, the last one first. -/
theorem takes_keepEntry {depth : Nat} (level : Nat) {entries : List (String × Json)}
    (hread : ∀ e ∈ entries, ReadBack depth e.2) (seen : List (String × Json)) :
    Takes (keepEntry (valueFrom depth)) (.pretty level) entries seen (entries.reverse ++ seen) := by
  induction entries generalizing seen with
  | nil => exact .nil
  | cons entry entries ih =>
    have hothers := ih (fun e he => hread e (List.mem_cons_of_mem entry he)) (entry :: seen)
    rw [List.reverse_cons, List.append_assoc]
    have hentry := hread entry List.mem_cons_self
    exact .cons (fun rest => keepEntry_printed hentry (level + 1) entry.1 seen) hothers

/-! ## Values -/

/-- **A value is read from what is printed for it**, and what follows is left. -/
theorem Readable.readBack {depth : Nat} {j : Json} (h : Readable depth j) : ReadBack depth j := by
  have hscalar : ∀ {depth j}, Readable 0 j → ReadBack depth j := by
    intro depth j hj level rest ends
    rw [hj.pretty_scalar]
    exact hj.valueFrom_compact depth ends
  induction h with
  | null => exact hscalar .null
  | boolean b => exact hscalar (.boolean b)
  | integer fits => exact hscalar (.integer fits)
  | string text => exact hscalar (.string text)
  | @array depth items hitems ih =>
    intro level rest _
    cases items with
    | nil => rfl
    | cons item items =>
      have hlimit : (item :: items).length <
          ('[' :: (prettyItems (level + 1) (item :: items) ++
            (newLine level ++ ']' :: rest))).length := by
        have := length_moreItems (level + 1) (item :: items)
        simp only [moreItems, List.length_cons, List.length_append] at this ⊢
        omega
      have hread := itemsFrom_moreItems (level + 1) level rest ih hlimit
      rw [← itemsFrom_first ((hitems item List.mem_cons_self).starts (level + 1))] at hread
      have hprint : prettyChars level (Json.array (item :: items)) ++ rest =
          '[' :: (prettyItems (level + 1) (item :: items) ++ (newLine level ++ ']' :: rest)) := by
        simp [prettyChars]
      rw [hprint]
      show (itemsFrom (valueFrom depth) _ true _ >>= _) = _
      rw [hread]
      rfl
  | @object depth entries _ ih =>
    intro level rest _
    cases entries with
    | nil => rfl
    | cons entry entries =>
      have hread := entriesFrom_braced (takes_keepEntry level ih []) rest
      rw [prettyChars_object]
      show (entriesFrom true (keepEntry (valueFrom depth)) _ true [] _ >>= _) = _
      rw [hread, List.append_nil]
      show Except.ok (Json.object (entry :: entries).reverse.reverse, rest) = _
      rw [List.reverse_reverse]

/-- A reader that leaves nothing reads the whole text. -/
theorem readAll_ofList {α : Type} {read : Reader α} {cs : List Char} {a : α}
    (h : read cs = .ok (a, [])) : readAll read (String.ofList cs) = .ok a := by
  unfold readAll
  rw [String.toList_ofList, h]
  rfl

/-- **The text of a value is read as that value.** -/
theorem Readable.parse_pretty {j : Json} (h : Readable maxDepth j) : parse j.pretty = .ok j := by
  have hread := h.readBack 0 [] endsNumeral_nil
  rw [List.append_nil] at hread
  exact readAll_ofList hread

/-! ## Records in one pass -/

section Records

variable {δ α : Type} {fields : List (Field δ)}

/-- **A value that is not nested is decoded from what is printed for it.** -/
theorem plainFrom_printed {decode : Decoder α} {j : Json} {a : α} (h : Readable 0 j)
    (decoded : decode j = .ok a) {rest : List Char} (ends : EndsNumeral rest) :
    plainFrom decode (compactChars j ++ rest) = .ok (a, rest) := by
  have hread := h.scalarFrom_compact ends
  obtain ⟨c, cs, hcons, hspace, _, harray, hobject⟩ := h.scalar_starts
  rw [hcons, List.cons_append] at hread ⊢
  unfold plainFrom
  rw [skipSpace_cons hspace]
  dsimp only
  rw [if_neg (by simp [harray, hobject]), hread]
  show (decode j >>= _) = _
  rw [decoded]
  rfl

/-- A field that the draft does not have yet is put into it. -/
theorem takeEntry_stored {name : String} {get : δ → Option α} {put : δ → α → δ} {read : Reader α}
    {draft : δ} {a : α} {cs rest : List Char}
    (known : fields.find? (fun f => f.name = name) = some (.stored name get put read))
    (fresh : get draft = none) (hread : read cs = .ok (a, rest)) :
    takeEntry fields name draft (':' :: cs) = .ok (put draft a, rest) := by
  have hgiven : ¬ (Field.stored name get put read).given draft := by simp [Field.stored, fresh]
  unfold takeEntry
  rw [known]
  dsimp only
  rw [if_neg hgiven]
  show (read cs >>= _) = _
  rw [hread]
  rfl

/-- It may be taken from what is printed for a string over several lines. -/
theorem takeEntry_quote {name text : String} {get : δ → Option α} {put : δ → α → δ}
    {decode : Decoder α} {draft : δ} {a : α}
    (known : fields.find? (fun f => f.name = name) =
      some (.stored name get put (plainFrom decode)))
    (fresh : get draft = none) (decoded : decode (.string text) = .ok a) {rest : List Char}
    (ends : EndsNumeral rest) :
    takeEntry fields name draft (':' :: ' ' :: (quote text ++ rest)) = .ok (put draft a, rest) :=
  takeEntry_stored known fresh (plainFrom_printed (.string text) decoded ends)

/-- A record is read from an object if its entries fill the draft from which it is made. -/
theorem recordFrom_braced {l : Layout} {blank draft : δ} {make : δ → Except JsonError α} {a : α}
    {entry : String × Json} {others : List (String × Json)}
    (filled : Takes (takeEntry fields) l (entry :: others) blank draft)
    (made : make draft = .ok a) (rest : List Char) :
    recordFrom fields blank make ('\x7b' :: l.braced entry others rest) = .ok (a, rest) := by
  unfold recordFrom
  rw [skipSpace_cons rfl]
  dsimp only
  rw [if_neg (by decide), if_pos rfl, entriesFrom_braced filled rest]
  show (make draft >>= _) = _
  rw [made]
  rfl

/-- **A record is read from the text of an object in either form.** -/
theorem recordFrom_printed {l : Layout} {blank draft : δ} {make : δ → Except JsonError α} {a : α}
    {entry : String × Json} {others : List (String × Json)} {cs : List Char}
    (printed : ∀ rest, cs ++ rest = '\x7b' :: l.braced entry others rest)
    (filled : Takes (takeEntry fields) l (entry :: others) blank draft)
    (made : make draft = .ok a) :
    readAll (recordFrom fields blank make) (String.ofList cs) = .ok a := by
  have hcs := printed []
  rw [List.append_nil] at hcs
  exact readAll_ofList (hcs ▸ recordFrom_braced filled made [])

end Records

end FrenchTarot.Json
