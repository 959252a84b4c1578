import FrenchTarot.Card.Basic
import FrenchTarot.Text.Blank

/-!
# The text of cards

A card is written as its rank in two digits, a dash and the letter of its suit, as in `14-S` or
`00-T`; a list of cards is written with `;` between them.  Reading allows blanks around a card and
around the letter, and takes the letter in either case; nothing else is allowed, and each way to
fail has its own error.
-/

namespace FrenchTarot

inductive SuitError where
  /-- The text is not one letter of a suit. -/
  | unknown (text : String)
  deriving DecidableEq, Repr

namespace SuitError

def message : SuitError → String
  | unknown text => "invalid suit: '" ++ text ++ "'"

end SuitError

inductive CardError where
  /-- There is no dash, or the deck has no such card. -/
  | unknown (text : String)
  /-- What stands before the dash is not two digits. -/
  | rank (text : String)
  /-- What stands after the dash is not a suit. -/
  | suit (cause : SuitError)
  deriving DecidableEq, Repr

namespace CardError

def message : CardError → String
  | unknown text => "invalid card: '" ++ text ++ "'"
  | rank text => "invalid rank in card: '" ++ text ++ "'"
  | suit cause => cause.message

end CardError

namespace Suit

def text (s : Suit) : String := s.letter.toString

/-- The suit of a letter; an error names that letter. -/
def ofLetter (c : Char) : Except SuitError Suit :=
  match ofLetter? c with
  | some s => .ok s
  | none => .error (.unknown c.toString)

/-- Reads a suit: one letter, with blanks around it or not. -/
def ofChars (cs : List Char) : Except SuitError Suit :=
  match Text.trim cs with
  | [c] => ofLetter c
  | _ => .error (.unknown (String.ofList cs))

def ofText (text : String) : Except SuitError Suit := ofChars text.toList

end Suit

namespace Text

/-- A number with at least two digits. -/
def twoDigits (n : Nat) : List Char :=
  let digits := Nat.toDigits 10 n
  if digits.length < 2 then '0' :: digits else digits

/-- The number written by exactly two digits. -/
def ofTwoDigits? : List Char → Option Nat
  | [a, b] =>
    if a.isDigit && b.isDigit then some (10 * (a.toNat - 48) + (b.toNat - 48)) else none
  | _ => none

end Text

namespace Card

def chars (c : Card) : List Char := Text.twoDigits c.rank ++ ['-', c.suit.letter]

def text (c : Card) : String := String.ofList c.chars

/-- The card of this rank and suit, if the deck holds it; an error names the text of the card. -/
def checked (rank : Nat) (suit : Suit) : Except CardError Card :=
  let card : Card := ⟨rank, suit⟩
  if card.valid then .ok card else .error (.unknown card.text)

/-- Reads a card.  An error names the text as given, with the blanks around it. -/
def ofChars (cs : List Char) : Except CardError Card :=
  let text := String.ofList cs
  match Text.cutAt '-' (Text.trim cs) with
  | none => .error (.unknown text)
  | some (rankText, suitText) =>
    match Text.ofTwoDigits? rankText with
    | none => .error (.rank text)
    | some rank =>
      match Suit.ofChars suitText with
      | .error e => .error (.suit e)
      | .ok suit =>
        let card : Card := ⟨rank, suit⟩
        if card.valid then .ok card else .error (.unknown text)

def ofText (text : String) : Except CardError Card := ofChars text.toList

end Card

/-- An ordered list of cards: a hand, the dog, a trick, a handle. -/
abbrev Cards := List Card

namespace Cards

def chars (cards : Cards) : List Char := [';'].intercalate (cards.map Card.chars)

/-- Text of a card list; the empty list has the empty text. -/
def text (cards : Cards) : String := String.ofList (chars cards)

/-- Reads a card list.  Blanks alone are the empty list; otherwise each part must be a card, and the
first that is not gives the error. -/
def ofChars (cs : List Char) : Except CardError Cards :=
  if Text.trim cs = [] then .ok []
  else (Text.segments ';' cs).mapM Card.ofChars

def ofText (text : String) : Except CardError Cards := ofChars text.toList

end Cards

end FrenchTarot
