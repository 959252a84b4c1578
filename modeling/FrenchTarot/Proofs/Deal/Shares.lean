import FrenchTarot.Points
import FrenchTarot.Proofs.Seat.Round
import Mathlib.Algebra.BigOperators.Ring.List

/-!
# Who pays for a deal

What the seats win in a deal is the unit, times a number that depends on the bid only: the seat's
share.  A score adds up when the shares do, that is when the attack wins what the defense pays, and
when its seats together have what their side has.

Shares are made for a taker who sits at the table, and for a partner at a table of five.  Any other
bid splits the unit unevenly (`Bid.evenShares_iff`), and a deal with such a bid adds up only if
there is nothing to win (`Points.balanced_iff`).  With a bid of the rules both sides get what they
have won, and nobody beyond the table gets anything (`Points.settled`).
-/

namespace FrenchTarot

/-- No seat, and all seats. -/
def Seat.allOrNone : List (Option Seat) := none :: all.map some

theorem Seat.mem_allOrNone (s : Option Seat) : s ∈ allOrNone := by
  rcases s with _ | s
  · exact List.mem_cons_self
  · cases s <;> decide

/-- Where only the seats of the table count, a sum over all seats is one over the table. -/
theorem Seat.sum_taken {f : Seat → Int} {n : Nat} (hf : ∀ s : Seat, n ≤ s.index → f s = 0)
    (p : Seat → Bool) :
    (((taken n).filter p).map f).sum = ((all.filter p).map f).sum := by
  have hbeyond : (((all.drop n).filter p).map f).sum = 0 := by
    refine List.sum_eq_zero fun x hx => ?_
    obtain ⟨s, hs, rfl⟩ := List.mem_map.mp hx
    have hdrop := (List.mem_filter.mp hs).1
    have hout : s ∉ taken n := fun hin =>
      List.disjoint_take_drop (by decide) (Nat.le_refl n) hin hdrop
    rw [mem_taken] at hout
    exact hf s (by omega)
  have hall : all = taken n ++ all.drop n := (List.take_append_drop n all).symm
  rw [hall, List.filter_append, List.map_append, List.sum_append, hbeyond, Int.add_zero]

namespace Bid

/-- How many units a seat wins at a table of `n` players. -/
def share (b : Bid) (n : Nat) (s : Seat) : Int :=
  if s.index < n then
    if b.taker = some s then if b.hasPartner then 2 else n - 1
    else if b.partner = some s then 1
    else -1
  else 0

/-- The seats of the attack. -/
def attackers (b : Bid) : List Seat := Seat.all.filter b.isAttacker

/-- The seats of the table that do not belong to the attack. -/
def defenders (b : Bid) (n : Nat) : List Seat := (Seat.taken n).filter fun s => ¬ b.isAttacker s

/-- The shares add up to nothing, and those of the attack to the number of its opponents. -/
def EvenShares (b : Bid) (n : Nat) : Prop :=
  (Seat.all.map (b.share n)).sum = 0
    ∧ (b.attackers.map (b.share n)).sum = if b.hasPartner then 3 else (n : Int) - 1

instance (b : Bid) (n : Nat) : Decidable (b.EvenShares n) := inferInstanceAs (Decidable (_ ∧ _))

/-- The taker sits at the table, and plays with another seat at a table of five only. -/
def SeatedAt (b : Bid) (n : Nat) : Prop :=
  (∃ taker, b.taker = some taker ∧ taker.index < n) ∧ (b.hasPartner → n = 5)

/-- **The shares are even exactly for the bids of the rules.** -/
theorem evenShares_iff (b : Bid) {n : Nat} (hn : Rules.supported n) :
    b.EvenShares n ↔ b.SeatedAt n := by
  -- Only taker and partner matter, and there are no more than six choices for each.
  have hall : ∀ n ∈ [3, 4, 5], ∀ taker ∈ Seat.allOrNone, ∀ partner ∈ Seat.allOrNone,
        (⟨taker, partner, .noBid, false⟩ : Bid).EvenShares n ↔
          (taker.any fun s => s.index < n)
            ∧ ((⟨taker, partner, .noBid, false⟩ : Bid).hasPartner → n = 5) := by
    decide +kernel
  have hmem : n ∈ [3, 4, 5] := by
    rcases Rules.supported_iff.mp hn with rfl | rfl | rfl <;> decide
  refine (hall n hmem _ (Seat.mem_allOrNone b.taker) _ (Seat.mem_allOrNone b.partner)).trans ?_
  refine and_congr ?_ Iff.rfl
  cases b.taker <;> simp

end Bid

namespace Points

/-- The scores of the seats add up to nothing, and those of the attack to what the attack has. -/
def Balanced (p : Points) (b : Bid) (n : Nat) : Prop :=
  (Seat.all.map (p.seatScores b n).get).sum = 0
    ∧ (b.attackers.map (p.seatScores b n).get).sum = p.teamPoints .attack b n

instance (p : Points) (b : Bid) (n : Nat) : Decidable (p.Balanced b n) :=
  inferInstanceAs (Decidable (_ ∧ _))

/-- The scores of the seats are what their sides have won. -/
structure Settled (p : Points) (b : Bid) (n : Nat) : Prop where
  zero : (Seat.all.map (p.seatScores b n).get).sum = 0
  attack : (b.attackers.map (p.seatScores b n).get).sum = p.teamPoints .attack b n
  defense : ((b.defenders n).map (p.seatScores b n).get).sum = p.teamPoints .defense b n
  beyond : ∀ s : Seat, n ≤ s.index → (p.seatScores b n).get s = 0

/-- **A seat wins its share of units.** -/
theorem get_seatScores (p : Points) (b : Bid) (n : Nat) (s : Seat) :
    (p.seatScores b n).get s = p.unit b * b.share n s := by
  rw [seatScores, PerSeat.get_ofFn, Bid.share, seatScore]
  split
  · split
    · split <;> rw [Int.mul_comm]
    · split <;> simp
  · rw [Int.mul_zero]

theorem sum_seatScores (p : Points) (b : Bid) (n : Nat) (seats : List Seat) :
    (seats.map (p.seatScores b n).get).sum = p.unit b * (seats.map (b.share n)).sum := by
  rw [List.map_congr_left fun s _ => p.get_seatScores b n s, List.sum_map_mul_left]

/-- **A score adds up exactly if there is nothing to win or the bid is one of the rules.** -/
theorem balanced_iff (p : Points) (b : Bid) {n : Nat} (hn : Rules.supported n) :
    p.Balanced b n ↔ p.unit b = 0 ∨ b.SeatedAt n := by
  have hteam : p.teamPoints .attack b n =
      p.unit b * if b.hasPartner then 3 else (n : Int) - 1 := rfl
  rw [Balanced, sum_seatScores, sum_seatScores, hteam, ← b.evenShares_iff hn, Bid.EvenShares]
  by_cases hunit : p.unit b = 0
  · simp [hunit]
  · rw [Int.mul_eq_zero, Int.mul_eq_mul_left_iff hunit]
    simp [hunit]

theorem get_seatScores_beyond (p : Points) (b : Bid) {n : Nat} {s : Seat} (h : n ≤ s.index) :
    (p.seatScores b n).get s = 0 := by
  rw [seatScores, PerSeat.get_ofFn, if_neg (Nat.not_lt.mpr h)]

/-- **With a bid of the rules, the seats share what their sides have won.** -/
theorem settled (p : Points) {b : Bid} {n : Nat} (hn : Rules.supported n) (hb : b.SeatedAt n) :
    p.Settled b n := by
  obtain ⟨hzero, hattack⟩ := (p.balanced_iff b hn).mpr (.inr hb)
  have hbeyond : ∀ s : Seat, n ≤ s.index → (p.seatScores b n).get s = 0 :=
    fun s => p.get_seatScores_beyond b
  refine ⟨hzero, hattack, ?_, hbeyond⟩
  -- The defenders have what the attack lacks.
  have hsides := List.sum_map_filter_add_sum_map_filter_not (fun s => b.isAttacker s = true)
    (p.seatScores b n).get Seat.all
  have hdefense : ((b.defenders n).map (p.seatScores b n).get).sum =
      ((Seat.all.filter fun s => ¬ b.isAttacker s = true).map (p.seatScores b n).get).sum :=
    Seat.sum_taken hbeyond _
  have hattackers : b.attackers = Seat.all.filter fun s => b.isAttacker s = true := by
    simp [Bid.attackers]
  rw [hzero, ← hdefense, ← hattackers, hattack] at hsides
  show _ = -p.teamPoints .attack b n
  omega

end Points

end FrenchTarot
