import FrenchTarot.Json.Decode
import FrenchTarot.Proofs.Cards.Text

/-!
# Decoding what was written

A piece of the game is decoded from the value that is written for it: a card list from its text, as
far as the cards are cards of the deck, a seat and a contract from their names, and a number from
itself.
-/

namespace FrenchTarot

theorem Seat.ofTextOrNowhere_nameOf (s : Option Seat) : ofTextOrNowhere (nameOf s) = .ok s := by
  rcases s with _ | _ | _ | _ | _ | _ <;> rfl

namespace Json

theorem asCards_text {cards : Cards} (h : ∀ c ∈ cards, c.valid) :
    asCards (.string (Cards.text cards)) = .ok cards := by
  show reading .cards (Cards.ofText (Cards.text cards)) = _
  rw [Cards.ofText_text h]
  rfl

theorem asSeat_name (s : Seat) : asSeat (.string s.name) = .ok s := by
  show reading .seat (Seat.ofText s.name) = _
  rw [Seat.ofText_name]
  rfl

theorem asSeatOrNowhere_nameOf (s : Option Seat) :
    asSeatOrNowhere (.string (Seat.nameOf s)) = .ok s := by
  show reading .seat (Seat.ofTextOrNowhere (Seat.nameOf s)) = _
  rw [Seat.ofTextOrNowhere_nameOf]
  rfl

theorem asContract_name (c : Contract) : asContract (.string c.name) = .ok c := by
  show reading .contract (Contract.ofText c.name) = _
  rw [Contract.ofText_name]
  rfl

theorem asUInt8_toNat (n : UInt8) : asUInt8 (.integer n.toNat) = .ok n := by
  show (if n.toNat < UInt8.size then Except.ok n.toNat else unfit).map UInt8.ofNat = _
  rw [if_pos n.toNat_lt]
  exact congrArg Except.ok UInt8.ofNat_toNat

theorem asUInt64_toNat (n : UInt64) : asUInt64 (.integer n.toNat) = .ok n := by
  show (if n.toNat < UInt64.size then Except.ok n.toNat else unfit).map UInt64.ofNat = _
  rw [if_pos n.toNat_lt]
  exact congrArg Except.ok UInt64.ofNat_toNat

end Json

end FrenchTarot
