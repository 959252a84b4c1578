import FrenchTarot.Json.Numeral

/-!
# Reading JSON

A reader takes a value from the front of a text and gives the rest, or fails with the first problem
that it meets.  There are two ways to read a value.  A value that is kept is read strictly: it may
be nested no deeper than a limit, escapes must stand for characters, and numerals must be
representable.  A value that is skipped only has to have the right form.  In both cases a text that
ends inside a value is told apart from one that is malformed, except that a numeral cut short in a
skipped value counts as malformed.
-/

namespace FrenchTarot.Json

/-- The limit of nesting for values that are kept. -/
def maxDepth : Nat := 127

/-! ## Blanks and words -/

/-- The four characters that may stand between tokens. -/
def isSpace (c : Char) : Bool := c = ' ' || c = '\t' || c = '\n' || c = '\r'

/-- The text after the spaces at its front. -/
def skipSpace (cs : List Char) : List Char := cs.dropWhile isSpace

/-- Expects the characters of a word. -/
def expect : List Char → List Char → Except JsonError (List Char)
  | [], cs => .ok cs
  | _ :: _, [] => .error .incomplete
  | w :: ws, c :: cs => if w = c then expect ws cs else .error .malformed

/-- Expects the colon between the name and the value of an entry. -/
def expectColon (cs : List Char) : Except JsonError (List Char) :=
  match skipSpace cs with
  | [] => .error .incomplete
  | c :: rest => if c = ':' then .ok rest else .error .malformed

/-! ## Strings -/

def hexValue? (c : Char) : Option Nat :=
  if c.isDigit then some (c.toNat - 48)
  else if 'a' ≤ c ∧ c ≤ 'f' then some (c.toNat - 87)
  else if 'A' ≤ c ∧ c ≤ 'F' then some (c.toNat - 55)
  else none

/-- The character of an escape of one letter. -/
def plainEscape? (c : Char) : Option Char :=
  match c with
  | '"' => some '"'
  | '\\' => some '\\'
  | '/' => some '/'
  | 'b' => some '\x08'
  | 'f' => some '\x0c'
  | 'n' => some '\n'
  | 'r' => some '\r'
  | 't' => some '\t'
  | _ => none

/-- Codes of the first half of a surrogate pair. -/
def isHighSurrogate (code : Nat) : Bool := 0xD800 ≤ code && code ≤ 0xDBFF

/-- Codes of the second half of a surrogate pair. -/
def isLowSurrogate (code : Nat) : Bool := 0xDC00 ≤ code && code ≤ 0xDFFF

/-- The character of a surrogate pair. -/
def ofSurrogates (high low : Nat) : Char :=
  Char.ofNat (0x10000 + (high - 0xD800) * 0x400 + (low - 0xDC00))

/-- Where the reading of a string stands. -/
inductive StringState where
  | plain
  | escaped
  /-- `left` digits of a code are still to come, after the digits that give `code`; `high` is the
  first half of a pair. -/
  | code (high : Option Nat) (left code : Nat)
  /-- After the first half of a pair, before the backslash of the second. -/
  | pairSlash (high : Nat)
  /-- After the first half of a pair and a backslash. -/
  | pairLetter (high : Nat)

/-- What a complete code stands for: a state to go on in, or a character. -/
def codeMeaning (strict : Bool) (high : Option Nat) (code : Nat) :
    Except JsonError (StringState ⊕ Char) :=
  if !strict then .ok (.inr (Char.ofNat code))
  else
    match high with
    | some high =>
      if isLowSurrogate code then .ok (.inr (ofSurrogates high code)) else .error .malformed
    | none =>
      if isLowSurrogate code then .error .malformed
      else if isHighSurrogate code then .ok (.inl (.pairSlash code))
      else .ok (.inr (Char.ofNat code))

def byteCount (cs : List Char) : Nat := cs.foldr (fun c total => c.utf8Size + total) 0

/-- Reads a string up to its closing quote.  A code of four digits is taken as a whole: if fewer
bytes than that are left, the text is incomplete, whatever they are. -/
def stringFrom (strict : Bool) : StringState → Reader (List Char)
  | _, [] => .error .incomplete
  | .plain, c :: cs =>
    if c = '"' then .ok ([], cs)
    else if c = '\\' then stringFrom strict .escaped cs
    else if c.toNat < 32 then .error .malformed
    else do
      let (text, rest) ← stringFrom strict .plain cs
      return (c :: text, rest)
  | .escaped, c :: cs =>
    if c = 'u' then stringFrom strict (.code none 4 0) cs
    else
      match plainEscape? c with
      | none => .error .malformed
      | some e => do
        let (text, rest) ← stringFrom strict .plain cs
        return (e :: text, rest)
  | .code high left code, c :: cs =>
    match hexValue? c with
    | none => .error (if byteCount (c :: cs) < left then .incomplete else .malformed)
    | some d =>
      if 1 < left then stringFrom strict (.code high (left - 1) (16 * code + d)) cs
      else
        match codeMeaning strict high (16 * code + d) with
        | .error e => .error e
        | .ok (.inl state) => stringFrom strict state cs
        | .ok (.inr e) => do
          let (text, rest) ← stringFrom strict .plain cs
          return (e :: text, rest)
  | .pairSlash high, c :: cs =>
    if c = '\\' then stringFrom strict (.pairLetter high) cs else .error .malformed
  | .pairLetter high, c :: cs =>
    if c = 'u' then stringFrom strict (.code (some high) 4 0) cs else .error .malformed

/-- Reads a string after its opening quote. -/
def stringBody (strict : Bool) : Reader String := fun cs => do
  let (text, rest) ← stringFrom strict .plain cs
  return (String.ofList text, rest)

/-! ## Values -/

/-- Reads a value that is neither an array nor an object and starts at once. -/
def scalarFrom (strict : Bool) : Reader Json
  | [] => .error .incomplete
  | c :: cs =>
    if c = '"' then do
      let (text, rest) ← stringBody strict cs
      return (.string text, rest)
    else if c = '-' || c.isDigit then do
      let (n, rest) ← numeralFrom strict (c :: cs)
      if strict && n.outOfRange then throw .malformed
      return (n.toJson, rest)
    else if c = 'n' then do return (.null, ← expect ['u', 'l', 'l'] cs)
    else if c = 't' then do return (.boolean true, ← expect ['r', 'u', 'e'] cs)
    else if c = 'f' then do return (.boolean false, ← expect ['a', 'l', 's', 'e'] cs)
    else .error .malformed

/-- Reads the items of an array up to its closing bracket: no more of them than `limit` has
characters, which is enough if `limit` is the text itself. -/
def itemsFrom {α : Type} (item : Reader α) : (limit : List Char) → Bool → Reader (List α)
  | [], _, _ => .error .incomplete
  | _ :: limit, first, cs =>
    match skipSpace cs with
    | [] => .error .incomplete
    | c :: rest =>
      if c = ']' then .ok ([], rest)
      else if !first && c ≠ ',' then .error .malformed
      else do
        let (a, rest) ← item (if first then c :: rest else rest)
        let (as, rest) ← itemsFrom item limit false rest
        return (a :: as, rest)

/-- Reads the entries of an object up to its closing brace.  After each name, `entry` reads on from
the colon and takes the entry into what was read so far.  There are no more entries than `limit` has
characters. -/
def entriesFrom {σ : Type} (strict : Bool) (entry : String → σ → Reader σ) :
    (limit : List Char) → Bool → σ → Reader σ
  | [], _, _, _ => .error .incomplete
  | _ :: limit, first, state, cs =>
    match skipSpace cs with
    | [] => .error .incomplete
    | c :: rest =>
      if c = '\x7d' then .ok (state, rest)
      else if !first && c ≠ ',' then .error .malformed
      else
        match skipSpace (if first then c :: rest else rest) with
        | [] => .error .incomplete
        | q :: rest =>
          if q ≠ '"' then .error .malformed
          else do
            let (name, rest) ← stringBody strict rest
            let (state, rest) ← entry name state rest
            entriesFrom strict entry limit false state rest

/-- Reads a value whose items and entries are read by `inner`; without it, a value that has none. -/
def valueWith (strict : Bool) (inner : Option (Reader Json)) : Reader Json := fun cs =>
  match skipSpace cs with
  | [] => .error .incomplete
  | c :: rest =>
    if c = '[' then
      match inner with
      | none => .error .malformed
      | some item => do
        let (items, rest) ← itemsFrom item (c :: rest) true rest
        return (.array items, rest)
    else if c = '\x7b' then
      match inner with
      | none => .error .malformed
      | some item => do
        let entry := fun name (entries : List (String × Json)) cs => do
          let (value, rest) ← item (← expectColon cs)
          return ((name, value) :: entries, rest)
        let (entries, rest) ← entriesFrom strict entry (c :: rest) true [] rest
        return (.object entries.reverse, rest)
    else scalarFrom strict (c :: rest)

/-- Reads a value that is kept and nested at most `depth` deep. -/
def valueFrom : (depth : Nat) → Reader Json
  | 0, cs => valueWith true none cs
  | depth + 1, cs => valueWith true (some (valueFrom depth)) cs

/-- Reads a value that is skipped and nested no deeper than `limit` has characters. -/
def skippedFrom : (limit : List Char) → Reader Json
  | [], cs => valueWith false none cs
  | _ :: limit, cs => valueWith false (some (skippedFrom limit)) cs

/-- Passes over a value, nested as deeply as it may be: no deeper than the text is long. -/
def skipValue : Reader Unit := fun cs => do
  let (_, rest) ← skippedFrom cs cs
  return ((), rest)

/-- Reads a whole text; nothing but spaces may follow the value. -/
def readAll {α : Type} (read : Reader α) (text : String) : Except JsonError α := do
  let (a, rest) ← read text.toList
  if skipSpace rest = [] then return a else throw .malformed

def parse (text : String) : Except JsonError Json := readAll (valueFrom maxDepth) text

end FrenchTarot.Json
