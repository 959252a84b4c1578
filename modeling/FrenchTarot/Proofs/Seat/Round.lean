import FrenchTarot.Rules
import FrenchTarot.Seat
import Mathlib.Data.List.Nodup
import Mathlib.Tactic.IntervalCases

/-!
# Going around the table

A round is the list of the seats that act one after the other, from a leader on.  At a table of
three, four or five players nobody acts twice in a round, and a full round has every seat of the
table.  The seat in turn after `k` of them have acted is the leader moved on by `k`.
-/

namespace FrenchTarot

/-- The three sizes of a table. -/
theorem Rules.supported_iff {n : Nat} : Rules.supported n ↔ n = 3 ∨ n = 4 ∨ n = 5 := by
  simp only [Rules.supported, Bool.and_eq_true, decide_eq_true_eq]
  omega

theorem Rules.players_pos {n : Nat} (h : Rules.supported n) : 0 < n := by
  rcases Rules.supported_iff.mp h with rfl | rfl | rfl <;> decide

theorem Rules.handSize_pos {n : Nat} (h : Rules.supported n) : 0 < Rules.handSize n := by
  rcases Rules.supported_iff.mp h with rfl | rfl | rfl <;> decide

namespace Seat

/-- The first `k` seats to act when `leader` acts first. -/
def round (leader : Seat) (k n : Nat) : List Seat :=
  (List.range k).map fun i => leader.advance i n

theorem round_succ (leader : Seat) (k n : Nat) :
    leader.round (k + 1) n = leader.round k n ++ [leader.advance k n] := by
  simp [round, List.range_succ]

@[simp] theorem round_zero (leader : Seat) (n : Nat) : leader.round 0 n = [] := rfl

@[simp] theorem length_round (leader : Seat) (k n : Nat) : (leader.round k n).length = k := by
  simp [round]

theorem round_isPrefix {j k : Nat} (h : j ≤ k) (leader : Seat) (n : Nat) :
    leader.round j n <+: leader.round k n := by
  induction h with
  | refl => exact List.prefix_rfl
  | step _ ih =>
    rw [round_succ]
    exact ih.trans (List.prefix_append _ _)

/-! ## Seats of the table -/

theorem index_lt_five (s : Seat) : s.index < 5 := by
  cases s <;> decide

theorem mem_taken {s : Seat} {n : Nat} : s ∈ taken n ↔ s.index < n := by
  by_cases hn : n < 5
  · interval_cases n <;> cases s <;> decide
  · have hall : taken n = all := List.take_of_length_le (by simp [all]; omega)
    rw [hall]
    have := s.index_lt_five
    cases s <;> simp [all] <;> omega

theorem nodup_taken (n : Nat) : (taken n).Nodup :=
  List.Nodup.sublist (List.take_sublist n all) (by decide)

theorem length_taken {n : Nat} (h : Rules.supported n) : (taken n).length = n := by
  rcases Rules.supported_iff.mp h with rfl | rfl | rfl <;> rfl

theorem tableSize_of_supported {n : Nat} (h : Rules.supported n) : tableSize n = n := by
  rcases Rules.supported_iff.mp h with rfl | rfl | rfl <;> rfl

/-! ## Moving on -/

theorem index_around {n : Nat} (h : Rules.supported n) (k : Nat) : (around n k).index = k % n := by
  rw [around, tableSize_of_supported h]
  have hlt : k % n < n := Nat.mod_lt _ (Rules.players_pos h)
  have hn : n ≤ 5 := by
    rcases Rules.supported_iff.mp h with rfl | rfl | rfl <;> decide
  -- The remainder is one of the five indices.
  generalize k % n = r at hlt ⊢
  have hr : r < 5 := by omega
  interval_cases r <;> rfl

theorem around_lt {n : Nat} (h : Rules.supported n) (k : Nat) : (around n k).index < n := by
  rw [index_around h]
  exact Nat.mod_lt _ (Rules.players_pos h)

theorem next_lt {n : Nat} (h : Rules.supported n) (s : Seat) : (s.next n).index < n :=
  around_lt h _

theorem advance_lt {n : Nat} (h : Rules.supported n) (s : Seat) (k : Nat) :
    (s.advance k n).index < n :=
  around_lt h _

theorem eq_of_index_eq {s t : Seat} (h : s.index = t.index) : s = t := by
  cases s <;> cases t <;> simp_all [index]

theorem advance_zero {s : Seat} {n : Nat} (h : Rules.supported n) (hs : s.index < n) :
    s.advance 0 n = s := by
  apply eq_of_index_eq
  rw [advance, index_around h, Nat.add_zero, Nat.mod_eq_of_lt hs]

theorem next_advance {n : Nat} (h : Rules.supported n) (s : Seat) (k : Nat) :
    (s.advance k n).next n = s.advance (k + 1) n := by
  apply eq_of_index_eq
  rw [next, advance, advance, index_around h, index_around h, index_around h, Nat.mod_add_mod,
    Nat.add_assoc]

/-! ## Rounds -/

theorem advance_inj {s : Seat} {n i j : Nat} (h : Rules.supported n) (hi : i < n) (hj : j < n)
    (he : s.advance i n = s.advance j n) : i = j := by
  have hmod : (s.index + i) % n = (s.index + j) % n := by
    rw [← index_around h, ← index_around h]
    exact congrArg index he
  rcases Rules.supported_iff.mp h with rfl | rfl | rfl <;> omega

theorem lt_of_mem_round {n k : Nat} (h : Rules.supported n) {leader s : Seat}
    (hs : s ∈ leader.round k n) : s.index < n := by
  obtain ⟨i, _, rfl⟩ := List.mem_map.mp hs
  exact advance_lt h leader i

/-- A full round has every seat of the table. -/
theorem mem_round_self {n : Nat} (h : Rules.supported n) {leader s : Seat} :
    s ∈ leader.round n n ↔ s.index < n := by
  constructor
  · exact lt_of_mem_round h
  · intro hs
    refine List.mem_map.mpr ⟨(s.index + (n - leader.index % n)) % n, ?_, ?_⟩
    · exact List.mem_range.mpr (Nat.mod_lt _ (by omega))
    · apply eq_of_index_eq
      have hl : leader.index % n < n := Nat.mod_lt _ (by omega)
      rw [advance, index_around h, Nat.add_mod_mod, ← Nat.mod_add_mod]
      rw [show leader.index % n + (s.index + (n - leader.index % n)) = s.index + n by omega,
        Nat.add_mod_right, Nat.mod_eq_of_lt hs]

/-- The seat in turn has not acted yet, unless the round is full. -/
theorem advance_not_mem_round {n k : Nat} (h : Rules.supported n) (hk : k < n) (leader : Seat) :
    leader.advance k n ∉ leader.round k n := by
  intro hm
  obtain ⟨i, hi, he⟩ := List.mem_map.mp hm
  rw [List.mem_range] at hi
  have := advance_inj h (by omega) hk he
  omega

end Seat

end FrenchTarot
