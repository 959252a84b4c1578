import FrenchTarot.Json.Basic

/-!
# Printing JSON

A value is printed compactly, without any space, or over several lines with an indentation of two
spaces for each level.  Strings escape the quote, the backslash and the control characters, and
nothing else.
-/

namespace FrenchTarot.Json

/-- The sixteen hexadecimal digits, in small letters. -/
def hexDigit (n : Nat) : Char := if n < 10 then Char.ofNat (48 + n) else Char.ofNat (87 + n)

/-- A character as it stands in a string. -/
def escape (c : Char) : List Char :=
  if c = '"' then ['\\', '"']
  else if c = '\\' then ['\\', '\\']
  else if c = '\x08' then ['\\', 'b']
  else if c = '\t' then ['\\', 't']
  else if c = '\n' then ['\\', 'n']
  else if c = '\x0c' then ['\\', 'f']
  else if c = '\r' then ['\\', 'r']
  else if c.toNat < 32 then ['\\', 'u', '0', '0', hexDigit (c.toNat / 16), hexDigit (c.toNat % 16)]
  else [c]

def quote (text : String) : List Char := '"' :: (text.toList.flatMap escape ++ ['"'])

def digits : Int → List Char
  | .ofNat n => Nat.toDigits 10 n
  | .negSucc n => '-' :: Nat.toDigits 10 (n + 1)

/-! ## The compact form -/

mutual

def compactChars : Json → List Char
  | null => ['n', 'u', 'l', 'l']
  | boolean true => ['t', 'r', 'u', 'e']
  | boolean false => ['f', 'a', 'l', 's', 'e']
  | integer value => digits value
  | decimal text => text.toList
  | string text => quote text
  | array items => '[' :: (compactItems items ++ [']'])
  | object entries => '\x7b' :: (compactEntries entries ++ ['\x7d'])

def compactItems : List Json → List Char
  | [] => []
  | [item] => compactChars item
  | item :: items => compactChars item ++ ',' :: compactItems items

def compactEntries : List (String × Json) → List Char
  | [] => []
  | [(name, value)] => quote name ++ ':' :: compactChars value
  | (name, value) :: entries =>
    quote name ++ ':' :: compactChars value ++ ',' :: compactEntries entries

end

def compact (j : Json) : String := String.ofList j.compactChars

/-! ## The form over several lines -/

/-- A new line at an indentation level. -/
def newLine (level : Nat) : List Char := '\n' :: List.replicate (2 * level) ' '

mutual

/-- Prints a value that stands at an indentation level. -/
def prettyChars (level : Nat) : Json → List Char
  | array [] => ['[', ']']
  | array items => '[' :: (prettyItems (level + 1) items ++ newLine level ++ [']'])
  | object [] => ['\x7b', '\x7d']
  | object entries => '\x7b' :: (prettyEntries (level + 1) entries ++ newLine level ++ ['\x7d'])
  | null => ['n', 'u', 'l', 'l']
  | boolean true => ['t', 'r', 'u', 'e']
  | boolean false => ['f', 'a', 'l', 's', 'e']
  | integer value => digits value
  | decimal text => text.toList
  | string text => quote text

/-- Prints the items of an array, each on a line of its own. -/
def prettyItems (level : Nat) : List Json → List Char
  | [] => []
  | [item] => newLine level ++ prettyChars level item
  | item :: items => newLine level ++ prettyChars level item ++ ',' :: prettyItems level items

/-- Prints the entries of an object, each on a line of its own. -/
def prettyEntries (level : Nat) : List (String × Json) → List Char
  | [] => []
  | [(name, value)] => newLine level ++ quote name ++ [':', ' '] ++ prettyChars level value
  | (name, value) :: entries =>
    newLine level ++ quote name ++ [':', ' '] ++ prettyChars level value
      ++ ',' :: prettyEntries level entries

end

/-- The form of a value over several lines. -/
def pretty (j : Json) : String := String.ofList (j.prettyChars 0)

end FrenchTarot.Json
