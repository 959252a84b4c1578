import FrenchTarot.Config
import FrenchTarot.Proofs.Json.Decode
import FrenchTarot.Proofs.Json.Tagged

/-!
# Configurations that are written and read

The text of a configuration gives every field, so nothing is left to its usual value when the text
is read.  The reader makes the same configuration of it whatever the fields hold, and only then
checks it (`ofText_toText`).  A configuration that passes its check is therefore read back as it
was, and one that fails is refused for the very reason that the check gives.

A text may also leave fields out, put them in another order, or be an array; but what is read from
it has passed the check, and has a text of its own.
-/

namespace FrenchTarot.Config

open Json

/-! ## The fields -/

/-- A distribution is read from what is printed for it, with every seed and every path. -/
theorem distributionFrom_printed (d : Distribution) (rest : List Char) :
    distributionFrom (compactChars (distributionJson d) ++ rest) = .ok (d, rest) := by
  unfold distributionFrom
  cases d with
  | random =>
    rw [distributionJson, taggedFrom_bare (by simp)]
    rfl
  | numbered seed =>
    rw [distributionJson, taggedFrom_field (by simp) (by simp) (.integer (.of_lt seed.toNat_lt))]
    show (asUInt64 (.integer seed.toNat) >>= _) = _
    rw [asUInt64_toNat]
    rfl
  | custom path =>
    rw [distributionJson, taggedFrom_field (by simp) (by simp) (.string path)]
    rfl

/-- A mode is read from what is printed for it, with every number of deals. -/
theorem modeFrom_printed (m : GameMode) (rest : List Char) :
    modeFrom (compactChars (modeJson m) ++ rest) = .ok (m, rest) := by
  unfold modeFrom
  cases m with
  | quickDeal =>
    rw [modeJson, taggedFrom_bare (by simp)]
    rfl
  | tournament deals =>
    rw [modeJson, taggedFrom_field (by simp) (by simp) (.integer (.of_lt deals.toNat_lt))]
    show (asUInt64 (.integer deals.toNat) >>= _) = _
    rw [asUInt64_toNat]
    rfl

theorem readable_dealerJson (dealer : Option Seat) : Readable 0 (dealerJson dealer) := by
  cases dealer with
  | none => exact .null
  | some s => exact .string s.name

theorem orNull_dealerJson (dealer : Option Seat) :
    orNull asSeat (dealerJson dealer) = .ok dealer := by
  cases dealer with
  | none => rfl
  | some s =>
    show (asSeat (.string s.name)).map some = _
    rw [asSeat_name]
    rfl

/-! ## Writing, then reading -/

/-- The draft that the text of a configuration fills. -/
def drafted (c : Config) : Draft where
  players := some c.players
  distribution := some c.distribution
  dealer := some c.dealer
  mode := some c.mode

/-- The fields are taken one after the other. -/
theorem takes_drafted (c : Config) :
    ∃ entry others, c.toJson = .object (entry :: others)
      ∧ Takes (takeEntry fields) .compact (entry :: others) {} c.drafted := by
  have hplayers : Readable 0 (.integer c.players.toNat) :=
    .integer (.of_lt (Nat.lt_trans c.players.toNat_lt (by decide)))
  refine ⟨_, _, rfl, ?_⟩
  refine .cons (fun rest ends => takeEntry_stored rfl rfl
    (plainFrom_printed hplayers (asUInt8_toNat c.players) ends)) ?_
  refine .cons (fun rest _ => takeEntry_stored rfl rfl
    (distributionFrom_printed c.distribution rest)) ?_
  refine .cons (fun rest ends => takeEntry_stored rfl rfl
    (plainFrom_printed (readable_dealerJson c.dealer) (orNull_dealerJson c.dealer) ends)) ?_
  refine .cons (fun rest _ => takeEntry_stored rfl rfl (modeFrom_printed c.mode rest)) ?_
  exact .nil

/-- **A configuration is read from its text, and then checked.** -/
theorem ofText_toText (c : Config) : ofText c.toText = c.check.map fun _ => c := by
  obtain ⟨entry, others, hjson, htakes⟩ := c.takes_drafted
  have hread : readAll (recordFrom fields {} fun d => .ok d.finish) c.toText = .ok c := by
    rw [toText, hjson]
    exact recordFrom_printed (compactChars_object entry others) htakes rfl
  unfold ofText
  rw [hread]
  show (c.check >>= fun _ => Except.ok c) = _
  cases c.check <;> rfl

/-! ## What was read -/

/-- A configuration that was read has passed its check. -/
theorem check_of_ofText {text : String} {c : Config} (h : ofText text = .ok c) :
    c.check = .ok () := by
  unfold ofText at h
  obtain ⟨c', _, h⟩ := bind_eq_ok.mp h
  obtain ⟨_, hcheck, h⟩ := bind_eq_ok.mp h
  rw [pure_eq_ok] at h
  exact h ▸ hcheck

/-- **A configuration is read back from its text exactly if it passes its check**, and is refused
for the reason that the check gives otherwise.  Whatever is read from a text passes the check, and
is read back from a text of its own. -/
theorem written_roundTrip :
    (∀ c : Config, c.check = .ok () → ofText c.toText = .ok c)
      ∧ (∀ (c : Config) (e : ConfigError), c.check = .error e → ofText c.toText = .error e)
      ∧ ∀ (text : String) (c : Config), ofText text = .ok c →
          c.check = .ok () ∧ ofText c.toText = .ok c := by
  have hback : ∀ c : Config, c.check = .ok () → ofText c.toText = .ok c := by
    intro c hcheck
    rw [ofText_toText, hcheck]
    rfl
  refine ⟨hback, ?_, ?_⟩
  · intro c e hcheck
    rw [ofText_toText, hcheck]
    rfl
  · intro text c hread
    have hcheck := check_of_ofText hread
    exact ⟨hcheck, hback c hcheck⟩

/-- Five players, a path with signs that are escaped, the last seat as dealer, and as many deals as
there can be. -/
def widest : Config where
  players := 5
  distribution := .custom "deals\\\"mardi\"\n\t\x01é🂡.json"
  dealer := some .fifth
  mode := .tournament 18446744073709551615

theorem widest_roundTrip :
    widest.check = .ok () ∧ ofText widest.toText = .ok widest
      ∧ ofText { widest with players := 4 }.toText = .error (.dealer .fifth 4)
      ∧ ofText "[3]" = .ok { players := 3 }
      ∧ ofText (toText { players := 3 }) = .ok { players := 3 } := by
  obtain ⟨hback, hrefused, hread⟩ := written_roundTrip
  have hcheck : widest.check = .ok () := by rfl
  have hthree : ofText "[3]" = .ok { players := 3 } := by decide +kernel
  refine ⟨hcheck, hback widest hcheck, ?_, hthree, (hread "[3]" _ hthree).2⟩
  exact hrefused { widest with players := 4 } _ rfl

end FrenchTarot.Config
