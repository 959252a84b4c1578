import FrenchTarot.Proofs.Deal.Shares
import FrenchTarot.Score
import Mathlib.Data.List.Induction

/-!
# The standings of a game

The score of a game keeps its deals, and everything that it tells is computed from them.  A seat has
won as many units as its shares in the deals come to.  The total has 32 bits: it is the sum as long
as the sum is in that range, and wraps around beyond it (`total_after`).  Each deal is shared among
the seats of the table so that nothing is left, and so the sums always cancel out (`sum_won`).

The seats are ranked by a sort that compares totals only.  It is stable: putting a further entry in
front of a list places it in front of all those that it equals and leaves the others in their order
(`List.mergeSort_cons`).  So seats with equal totals stay in the order of the table, and the first
of the ranking has the greatest total.
-/

namespace FrenchTarot

/-- Integers of 32 bits with a sign. -/
def InInt32 (value : Int) : Prop := -2 ^ 31 ≤ value ∧ value < 2 ^ 31

instance (value : Int) : Decidable (InInt32 value) :=
  inferInstanceAs (Decidable (_ ∧ _))

/-- Such an integer does not wrap around. -/
theorem InInt32.bmod_eq {value : Int} (h : InInt32 value) : value.bmod (2 ^ 32) = value := by
  obtain ⟨hlow, hhigh⟩ := h
  apply Int.bmod_eq_of_le <;> omega

/-- **A sort by a value, the greatest first, keeps the order of entries with equal values.** -/
theorem pairwise_mergeSort_stable {α : Type} (value : α → Int) {earlier : α → α → Prop}
    {l : List α} (h : l.Pairwise earlier) :
    (l.mergeSort fun a b => value b ≤ value a).Pairwise
      fun a b => value b < value a ∨ value a = value b ∧ earlier a b := by
  have trans : ∀ a b c : α, decide (value b ≤ value a) → decide (value c ≤ value b) →
      decide (value c ≤ value a) := by
    intro a b c hab hbc
    simp only [decide_eq_true_eq] at hab hbc ⊢
    omega
  have total : ∀ a b : α, decide (value b ≤ value a) || decide (value a ≤ value b) := by
    intro a b
    simp only [Bool.or_eq_true, decide_eq_true_eq]
    omega
  induction l with
  | nil => simp
  | cons a l ih =>
    obtain ⟨hfirst, h⟩ := List.pairwise_cons.mp h
    have hsorted := List.pairwise_mergeSort trans total (a :: l)
    obtain ⟨before, behind, hcons, hl, hbefore⟩ := List.mergeSort_cons trans total a l
    have hrest := ih h
    rw [hl] at hrest
    rw [hcons] at hsorted ⊢
    obtain ⟨hleft, hright, hcross⟩ := List.pairwise_append.mp hrest
    obtain ⟨_, hbehind, _⟩ := List.pairwise_append.mp hsorted
    refine List.pairwise_append.mpr ⟨hleft, List.pairwise_cons.mpr ⟨?_, hright⟩, ?_⟩
    · intro c hc
      have hle := (List.pairwise_cons.mp hbehind).1 c hc
      have hmem : c ∈ l := List.mem_mergeSort.mp (hl ▸ List.mem_append_right before hc)
      have hearlier := hfirst c hmem
      simp only [decide_eq_true_eq] at hle
      rcases Int.lt_or_eq_of_le hle with hlt | heq
      · exact Or.inl hlt
      · exact Or.inr ⟨heq.symm, hearlier⟩
    · intro b hb c hc
      rcases List.mem_cons.mp hc with rfl | hc
      · -- The new entry is not in front of those that have more.
        have hlt := hbefore b hb
        simp only [Bool.not_eq_true', decide_eq_false_iff_not] at hlt
        exact Or.inl (by omega)
      · exact hcross b hb c hc

namespace Score

/-- The score of a game of `n` players after these deals. -/
def after (deals n : Nat) (results : List (Points × Bid)) : Score :=
  results.foldl (fun s r => s.add r.1 r.2 n) (new deals)

variable {n deals : Nat} {results : List (Points × Bid)}

/-! ## One more deal -/

theorem after_concat (deals n : Nat) (results : List (Points × Bid)) (r : Points × Bid) :
    after deals n (results ++ [r]) = (after deals n results).add r.1 r.2 n := by
  rw [after, List.foldl_append, List.foldl_cons, List.foldl_nil]
  rfl

/-- Adding up in 32 bits gives the sum, wrapped around. -/
theorem foldl_add_ofInt {α : Type} (value : α → Int) (l : List α) (start : Int) :
    l.foldl (fun total a => total + Int32.ofInt (value a)) (.ofInt start) =
      .ofInt (start + (l.map value).sum) := by
  induction l generalizing start with
  | nil => simp
  | cons a l ih =>
    rw [List.foldl_cons, ← Int32.ofInt_add, ih, List.map_cons, List.sum_cons, Int.add_assoc]

/-- The total of a seat is the sum of what it has won. -/
theorem total_eq (s : Score) (seat : Seat) :
    s.total seat = ((s.history.map fun e : ScoreEntry => e.seats.get seat).sum).bmod (2 ^ 32) := by
  have hfold := foldl_add_ofInt (fun e : ScoreEntry => e.seats.get seat) s.history 0
  rw [Int.zero_add] at hfold
  unfold total
  rw [show (0 : Int32) = .ofInt 0 from rfl, hfold, Int32.toInt_ofInt]
  rfl

theorem players_add (s : Score) (p : Points) (b : Bid) (n : Nat) : (s.add p b n).players = n := by
  rw [players, add, List.getLast?_concat]

/-- Nothing is left when the shares of the table are put together. -/
theorem sum_share_taken {b : Bid} (hn : Rules.supported n) (hb : b.SeatedAt n) :
    ((Seat.taken n).map (b.share n)).sum = 0 := by
  have hbeyond : ∀ s : Seat, n ≤ s.index → b.share n s = 0 := by
    intro s hs
    rw [Bid.share, if_neg (Nat.not_lt.mpr hs)]
  have hsum := Seat.sum_taken hbeyond fun _ => true
  rw [List.filter_true, List.filter_true] at hsum
  rw [hsum]
  exact ((b.evenShares_iff hn).mpr hb).1

/-! ## All deals -/

/-- What a seat has won in some deals. -/
def won (n : Nat) (results : List (Points × Bid)) (seat : Seat) : Int :=
  (results.map fun r => r.1.unit r.2 * r.2.share n seat).sum

theorem won_concat (n : Nat) (results : List (Points × Bid)) (r : Points × Bid) (seat : Seat) :
    won n (results ++ [r]) seat = won n results seat + r.1.unit r.2 * r.2.share n seat := by
  rw [won, List.map_append, List.sum_append, List.map_singleton, List.sum_singleton]
  rfl

theorem history_after (deals n : Nat) (results : List (Points × Bid)) :
    (after deals n results).history =
      results.map fun r => ⟨r.1, r.2, n, r.1.seatScores r.2 n⟩ := by
  induction results using List.reverseRecOn with
  | nil => rfl
  | append_singleton results r ih =>
    rw [after_concat, add, ih, List.map_append]
    rfl

/-- **The total of a seat is what it has won, wrapped around at 32 bits.** -/
theorem total_after (deals n : Nat) (results : List (Points × Bid)) (seat : Seat) :
    (after deals n results).total seat = (won n results seat).bmod (2 ^ 32) := by
  have hshare : ∀ r ∈ results,
      (r.1.seatScores r.2 n).get seat = r.1.unit r.2 * r.2.share n seat :=
    fun r _ => Points.get_seatScores r.1 r.2 n seat
  rw [total_eq, history_after, List.map_map, won, ← List.map_congr_left hshare]
  rfl

theorem isFinished_after (deals n : Nat) (results : List (Points × Bid)) :
    (after deals n results).isFinished ↔ deals ≤ results.length := by
  have hkept : (after deals n results).deals = deals
      ∧ (after deals n results).played = results.length := by
    induction results using List.reverseRecOn with
    | nil => exact ⟨rfl, rfl⟩
    | append_singleton results r ih =>
      rw [after_concat, List.length_append, List.length_singleton, ← ih.2]
      exact ⟨ih.1, List.length_append⟩
  rw [isFinished, hkept.1, hkept.2, decide_eq_true_eq]

theorem players_after (played : results ≠ []) : (after deals n results).players = n := by
  rcases List.eq_nil_or_concat' results with rfl | ⟨results, r, rfl⟩
  · exact absurd rfl played
  · rw [after_concat, players_add]

/-- **What the seats of the table have won cancels out.** -/
theorem sum_won (hn : Rules.supported n) (seated : ∀ r ∈ results, r.2.SeatedAt n) :
    ((Seat.taken n).map (won n results)).sum = 0 := by
  induction results using List.reverseRecOn with
  | nil =>
    refine List.sum_eq_zero fun x hx => ?_
    obtain ⟨_, _, rfl⟩ := List.mem_map.mp hx
    rfl
  | append_singleton results r ih =>
    have hbefore := ih fun r hr => seated r (List.mem_append_left _ hr)
    have hshares := sum_share_taken hn (seated r (List.mem_append_right _ List.mem_cons_self))
    calc ((Seat.taken n).map (won n (results ++ [r]))).sum
      _ = ((Seat.taken n).map fun s =>
          won n results s + r.1.unit r.2 * r.2.share n s).sum :=
        congrArg List.sum (List.map_congr_left fun s _ => won_concat n results r s)
      _ = ((Seat.taken n).map (won n results)).sum
          + r.1.unit r.2 * ((Seat.taken n).map (r.2.share n)).sum := by
        rw [List.sum_map_add, List.sum_map_mul_left]
      _ = 0 := by rw [hbefore, hshares, Int.mul_zero, Int.add_zero]

/-- Wrapping around changes a sum by a multiple of the range. -/
theorem dvd_sum_bmod_sub {α : Type} (value : α → Int) (l : List α) :
    2 ^ 32 ∣ (l.map fun a => (value a).bmod (2 ^ 32)).sum - (l.map value).sum := by
  induction l with
  | nil => exact Int.dvd_zero _
  | cons a l ih =>
    have hfirst : 2 ^ 32 ∣ (value a).bmod (2 ^ 32) - value a := Int.dvd_bmod_sub_self
    have hboth := Int.dvd_add hfirst ih
    rw [List.map_cons, List.map_cons, List.sum_cons, List.sum_cons]
    convert hboth using 1
    omega

/-! ## The ranking -/

/-- The seats of the table with their totals, in the order of the table. -/
def entries (s : Score) (n : Nat) : List (Seat × Int) :=
  (Seat.taken n).map fun seat => (seat, s.total seat)

/-- What a ranking of the entries of a table is. -/
structure Ranked (s : Score) (n : Nat) (ranking : List (Seat × Int)) : Prop where
  perm : ranking.Perm (s.entries n)
  /-- From the best to the worst, and in the order of the table where totals are equal. -/
  ordered : ranking.Pairwise fun a b => b.2 < a.2 ∨ a.2 = b.2 ∧ a.1.index < b.1.index

theorem pairwise_index_taken (n : Nat) : (Seat.taken n).Pairwise fun a b => a.index < b.index :=
  List.Pairwise.sublist (List.take_sublist n Seat.all) (by decide)

theorem ranked_podium (s : Score) : s.Ranked s.players s.podium where
  perm := List.mergeSort_perm _ _
  ordered := by
    refine pairwise_mergeSort_stable (fun e : Seat × Int => e.2) ?_
    exact List.pairwise_map.mpr (pairwise_index_taken s.players)

theorem mem_entries {s : Score} {n : Nat} {e : Seat × Int} :
    e ∈ s.entries n ↔ e.1.index < n ∧ e.2 = s.total e.1 := by
  rw [entries, List.mem_map]
  constructor
  · rintro ⟨seat, hseat, rfl⟩
    exact ⟨Seat.mem_taken.mp hseat, rfl⟩
  · rintro ⟨hseat, htotal⟩
    exact ⟨e.1, Seat.mem_taken.mpr hseat, Prod.ext rfl htotal.symm⟩

/-- **The first of a ranking has the greatest total.** -/
theorem Ranked.first {s : Score} {ranking : List (Seat × Int)} (h : s.Ranked n ranking)
    (hn : 0 < n) : ∃ seat, ranking.head?.map Prod.fst = some seat ∧ seat.index < n
      ∧ ∀ other : Seat, other.index < n → s.total other ≤ s.total seat := by
  cases ranking with
  | nil =>
    have hsouth : (Seat.south, s.total .south) ∈ s.entries n := mem_entries.mpr ⟨hn, rfl⟩
    exact absurd (h.perm.mem_iff.mpr hsouth) List.not_mem_nil
  | cons first ranking =>
    obtain ⟨hseat, htotal⟩ := mem_entries.mp (h.perm.mem_iff.mp List.mem_cons_self)
    refine ⟨first.1, rfl, hseat, ?_⟩
    intro other hother
    rw [← htotal]
    have hmem : (other, s.total other) ∈ first :: ranking :=
      h.perm.mem_iff.mpr (mem_entries.mpr ⟨hother, rfl⟩)
    rcases List.mem_cons.mp hmem with rfl | hmem
    · exact Int.le_refl _
    · rcases (List.pairwise_cons.mp h.ordered).1 _ hmem with hlt | ⟨heq, _⟩
      · exact Int.le_of_lt hlt
      · exact heq.ge

/-! ## The standings -/

/-- What the score of a game tells after some deals. -/
structure Standings (s : Score) (deals n : Nat) (results : List (Points × Bid)) : Prop where
  /-- A seat has won its shares of all deals; beyond 32 bits the sum wraps around. -/
  wraps : ∀ seat : Seat, s.total seat = (won n results seat).bmod (2 ^ 32)
  /-- Within 32 bits the sum is exact. -/
  total : ∀ seat : Seat, InInt32 (won n results seat) → s.total seat = won n results seat
  /-- The totals cancel out up to what is lost by wrapping around. -/
  cancels : 2 ^ 32 ∣ ((Seat.taken n).map s.total).sum
  zero : (∀ seat : Seat, seat.index < n → InInt32 (won n results seat)) →
    ((Seat.taken n).map s.total).sum = 0
  ranked : s.Ranked n s.podium
  winner : ∃ seat, s.winner? = some seat ∧ seat.index < n
    ∧ ∀ other : Seat, other.index < n → s.total other ≤ s.total seat
  finished : s.isFinished ↔ deals ≤ results.length

theorem standings_after (hn : Rules.supported n) (played : results ≠ [])
    (seated : ∀ r ∈ results, r.2.SeatedAt n) :
    (after deals n results).Standings deals n results := by
  have hranked := ranked_podium (after deals n results)
  rw [players_after played] at hranked
  have htotal : ∀ seat, InInt32 (won n results seat) →
      (after deals n results).total seat = won n results seat := by
    intro seat hrange
    rw [total_after, hrange.bmod_eq]
  exact {
    wraps := total_after deals n results
    total := htotal
    cancels := by
      have hdvd := dvd_sum_bmod_sub (won n results) (Seat.taken n)
      rw [sum_won hn seated, Int.sub_zero] at hdvd
      rwa [List.map_congr_left fun seat _ => total_after deals n results seat]
    zero := by
      intro hrange
      have hexact : ∀ seat ∈ Seat.taken n,
          (after deals n results).total seat = won n results seat :=
        fun seat hseat => htotal seat (hrange seat (Seat.mem_taken.mp hseat))
      rw [List.map_congr_left hexact]
      exact sum_won hn seated
    ranked := hranked
    winner := hranked.first (Rules.players_pos hn)
    finished := isFinished_after deals n results }

/-- **After each deal of a game the totals cancel out, as far as they have 32 bits; the seats are
ranked by them, a seat with the greatest total is in front, and the game is finished from the
planned number of deals on.** -/
theorem game_standings (hn : Rules.supported n) (deals : Nat)
    (seated : ∀ r ∈ results, r.2.SeatedAt n) :
    ∀ k, 0 < k → k ≤ results.length →
      (after deals n (results.take k)).Standings deals n (results.take k) := by
  intro k hpos hle
  refine standings_after hn ?_ fun r hr => seated r (List.mem_of_mem_take hr)
  refine List.ne_nil_of_length_pos ?_
  rw [List.length_take]
  omega

/-- Two deals at a table of five: one is won just so with a partner, and one alone. -/
def twoDeals : List (Points × Bid) :=
  [({ pointsAttack := 51, oudlers := 1 }, ⟨some .north, some .fifth, .take, false⟩),
    ({ pointsAttack := 41, oudlers := 2 }, ⟨some .south, none, .guard, false⟩)]

/-- East and West have lost the same. -/
theorem twoDeals_standings :
    (after 2 5 (twoDeals.take 1)).Standings 2 5 (twoDeals.take 1)
      ∧ (after 2 5 twoDeals).Standings 2 5 twoDeals
      ∧ ((Seat.taken 5).map (after 2 5 twoDeals).total).sum = 0
      ∧ (after 2 5 twoDeals).podium =
        [(.south, 175), (.north, 0), (.fifth, -25), (.east, -75), (.west, -75)] := by
  have seated : ∀ r ∈ twoDeals, r.2.SeatedAt 5 := by
    intro r hr
    rcases List.mem_pair.mp hr with rfl | rfl
    · exact ⟨⟨.north, rfl, by decide⟩, fun _ => rfl⟩
    · exact ⟨⟨.south, rfl, by decide⟩, fun _ => rfl⟩
  have standings := game_standings (by decide) 2 seated
  have both : (after 2 5 twoDeals).Standings 2 5 twoDeals := standings 2 (by decide) (by decide)
  have inRange : ∀ seat : Seat, InInt32 (won 5 twoDeals seat) := by
    intro seat
    cases seat <;> decide
  have hentries : (after 2 5 twoDeals).entries 5 =
      [(.south, 175), (.east, -75), (.north, 0), (.west, -75), (.fifth, -25)] := by decide
  refine ⟨standings 1 (by decide) (by decide), both, both.zero fun seat _ => inRange seat, ?_⟩
  show ((after 2 5 twoDeals).entries 5).mergeSort _ = _
  rw [hentries]
  simp [List.mergeSort, List.MergeSort.Internal.splitInTwo]

end Score

end FrenchTarot
