import FrenchTarot.Proofs.Table.Course

/-!
# What the bids of an auction come to

In an auction the seats ask for contracts, and a deal keeps the best of them only.  This module says
which one that is from the list of everything that was asked for: the highest contract, for the seat
that asked for it first, with a slam if that very bid announced one.  Under-bids and repeated
contracts leave no trace, and neither does a slam that was announced with one of them.

Whether a bid counts can be told in two ways.  The deal compares it with the best bid so far, and an
observer with all bids before it (`Offer.Tops`); `Settles.tops_iff` is that the two agree.
-/

namespace FrenchTarot

/-- A bid as a seat asks for it. -/
structure Offer where
  seat : Seat
  contract : Contract
  slam : Bool
  deriving DecidableEq, Repr

namespace Offer

/-- The offer is above every one before it, and above no bid at all. -/
def Tops (before : List Offer) (o : Offer) : Prop :=
  o.contract.outbids .noBid ∧ ∀ b ∈ before, o.contract.outbids b.contract

instance (before : List Offer) (o : Offer) : Decidable (o.Tops before) :=
  inferInstanceAs (Decidable (_ ∧ _))

/-- The contract that counts for the seat: what it has asked for if that is above every offer
before, and otherwise a pass. -/
def granted (before : List Offer) (o : Offer) : Contract :=
  if o.Tops before then o.contract else .pass

/-- The offer wins the auction with a slam, so that nobody is asked any more. -/
def EndsAuction (before : List Offer) (o : Offer) : Prop :=
  o.Tops before ∧ o.contract.isTaken ∧ o.slam

end Offer

namespace Contract

theorem outbids_iff {c best : Contract} : c.outbids best ↔ best.level < c.level := by
  rw [outbids, decide_eq_true_iff]

theorem eq_of_level_eq {c best : Contract} (h : c.level = best.level) : c = best := by
  revert h
  cases c <;> cases best <;> decide

end Contract

/-! ## The best bid -/

/-- The bid that some offers settle on. -/
structure Settles (offers : List Offer) (b : Bid) : Prop where
  /-- The contract is the highest that was asked for. -/
  highest : ∀ o ∈ offers, o.contract.level ≤ b.contract.level
  asked : b.contract = .noBid ∨ ∃ o ∈ offers, o.contract = b.contract
  /-- A contract that is played goes to the seat that has asked for it first, with the slam of that
  offer. -/
  taken : b.contract.isTaken → ∃ o, offers.find? (fun o => o.contract = b.contract) = some o
    ∧ b.taker = some o.seat ∧ b.partner = some o.seat ∧ b.slam = o.slam
  untaken : b.contract.isTaken = false → b.taker = none ∧ b.partner = none ∧ b.slam = false

theorem settles_none : Settles [] .none where
  highest := nofun
  asked := Or.inl rfl
  taken := nofun
  untaken := fun _ => ⟨rfl, rfl, rfl⟩

namespace Settles

variable {offers : List Offer} {b : Bid}

/-- **To outbid the best bid is to outbid all bids.** -/
theorem tops_iff (h : Settles offers b) (o : Offer) :
    o.Tops offers ↔ o.contract.outbids b.contract := by
  simp only [Offer.Tops, Contract.outbids_iff]
  constructor
  · rintro ⟨hnone, hall⟩
    rcases h.asked with hb | ⟨best, hmem, hbest⟩
    · rwa [hb]
    · rw [← hbest]
      exact hall best hmem
  · intro hout
    exact ⟨Nat.lt_of_le_of_lt (Nat.zero_le _) hout,
      fun x hx => Nat.lt_of_le_of_lt (h.highest x hx) hout⟩

/-- Somebody plays exactly if somebody has asked for a contract that is played. -/
theorem untaken_iff (h : Settles offers b) :
    b.contract.isTaken = false ↔ ∀ o ∈ offers, o.contract.isTaken = false := by
  constructor
  · intro hb o ho
    refine Bool.eq_false_iff.mpr fun taken => ?_
    rcases Nat.lt_or_eq_of_le (h.highest o ho) with hlt | heq
    · rw [Contract.isTaken_of_outbids (Contract.outbids_iff.mpr hlt) taken] at hb
      cases hb
    · rw [Contract.eq_of_level_eq heq, hb] at taken
      cases taken
  · intro hall
    rcases h.asked with hb | ⟨o, ho, hb⟩
    · rw [hb]
      rfl
    · rw [← hb]
      exact hall o ho

variable {d : DealState}

/-- **A deal grants an offer that is above all offers before.** -/
theorem recordBid_granted (h : Settles offers d.bid) (o : Offer) :
    (d.recordBid o.contract o.slam o.seat).2 = o.granted offers := by
  unfold DealState.recordBid Offer.granted
  by_cases hout : o.contract.outbids d.bid.contract
  · rw [if_pos hout, if_pos ((h.tops_iff o).mpr hout)]
  · rw [if_neg hout, if_neg fun htops => hout ((h.tops_iff o).mp htops)]

/-- **The next offer is settled on if it is granted, and otherwise it changes nothing.** -/
theorem recordBid_settles (h : Settles offers d.bid) (o : Offer) :
    Settles (offers ++ [o]) (d.recordBid o.contract o.slam o.seat).1.bid := by
  unfold DealState.recordBid
  by_cases hout : o.contract.outbids d.bid.contract
  · rw [if_pos hout]
    have hlt := Contract.outbids_iff.mp hout
    exact {
      highest := fun x hx => by
        rcases List.mem_append.mp hx with hx | hx
        · exact Nat.le_of_lt (Nat.lt_of_le_of_lt (h.highest x hx) hlt)
        · rw [List.mem_singleton.mp hx]
      asked := Or.inr ⟨o, List.mem_append_right _ List.mem_cons_self, rfl⟩
      taken := fun taken => by
        -- Nobody has asked for this contract before.
        have hnew : offers.find? (fun x => x.contract = o.contract) = none := by
          refine List.find?_eq_none.mpr fun x hx heq => ?_
          have hle := h.highest x hx
          rw [of_decide_eq_true heq] at hle
          omega
        refine ⟨o, ?_, if_pos taken, if_pos taken, ?_⟩
        · rw [List.find?_append, hnew, Option.none_or]
          exact List.find?_cons_of_pos (decide_eq_true rfl)
        · rw [show o.contract.isTaken = true from taken, Bool.and_true]
      untaken := fun untaken => by
        have hbest : d.bid.contract.isTaken = false := by
          refine Bool.eq_false_iff.mpr fun best => ?_
          rw [Contract.isTaken_of_outbids hout best] at untaken
          cases untaken
        obtain ⟨htaker, hpartner, _⟩ := h.untaken hbest
        have hnot : ¬ o.contract.isTaken := by simpa using untaken
        refine ⟨(if_neg hnot).trans htaker, (if_neg hnot).trans hpartner, ?_⟩
        rw [show o.contract.isTaken = false from untaken, Bool.and_false] }
  · rw [if_neg hout]
    rw [Contract.outbids_iff, Nat.not_lt] at hout
    exact {
      highest := fun x hx => by
        rcases List.mem_append.mp hx with hx | hx
        · exact h.highest x hx
        · rw [List.mem_singleton.mp hx]
          exact hout
      asked := h.asked.imp_right fun ⟨x, hx, hb⟩ => ⟨x, List.mem_append_left _ hx, hb⟩
      taken := fun taken => by
        obtain ⟨x, hfind, hx⟩ := h.taken taken
        refine ⟨x, ?_, hx⟩
        rw [List.find?_append, hfind, Option.some_or]
      untaken := h.untaken }

/-- **The auction is closed by the offer that ends it.** -/
theorem closed_recordBid_iff (h : Settles offers d.bid) (going : d.bid.closed = false) (o : Offer) :
    (d.recordBid o.contract o.slam o.seat).1.bid.closed ↔ o.EndsAuction offers := by
  rw [DealState.closed_recordBid going, h.recordBid_granted, Offer.EndsAuction, Offer.granted]
  by_cases htops : o.Tops offers
  · rw [if_pos htops, Bool.and_eq_true, Bool.and_eq_true]
    exact ⟨fun hc => ⟨htops, hc.2, hc.1.1⟩, fun he => ⟨⟨he.2.2, he.2.1⟩, he.2.1⟩⟩
  · rw [if_neg htops]
    constructor
    · intro hc
      simp [Contract.isTaken, Contract.multiplier] at hc
    · exact fun he => absurd he.1 htops

end Settles

end FrenchTarot
