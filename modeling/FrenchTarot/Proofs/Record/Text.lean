import FrenchTarot.Proofs.Deal.Complete
import FrenchTarot.Proofs.Json.Decode
import FrenchTarot.Proofs.Json.RoundTrip
import FrenchTarot.Record.Text

/-!
# Records that are written and read

A record of the current version, all of whose cards are cards of the deck, is read back from its
text as it was: whatever number of players it gives, whether it has a taker, a first lead and a
partner or not, and whatever its tricks are.  A record that was read is of that kind, from whatever
text, so writing it and reading it again changes nothing any more.

The information is read field by field into a draft.  Reading what was written fills the draft in
the order of the names, and no field that is read puts other cards into a draft than those of the
deck.
-/

namespace FrenchTarot

open Json

/-! ## The parts of a record -/

namespace Json

/-- An entry at the end does not matter to other names. -/
theorem get?_concat {name other : String} (h : name ≠ other) (entries : List (String × Json))
    (value : Json) :
    (object (entries ++ [(other, value)])).get? name = (object entries).get? name := by
  have hother : ¬ (fun e : String × Json => decide (e.1 = name)) (other, value) := by
    simpa using h.symm
  unfold get?
  dsimp only
  rw [List.reverse_append, List.reverse_singleton, List.singleton_append]
  exact congrArg (Option.map Prod.snd) (List.find?_cons_of_neg hother)

end Json

namespace DealInfo

/-- The cards of a record's information are cards of the deck. -/
structure Genuine (i : DealInfo) : Prop where
  dog : ∀ c ∈ i.dog, c.valid
  attackHandle : ∀ c ∈ i.attackHandle, c.valid
  defenseHandle : ∀ c ∈ i.defenseHandle, c.valid

/-! ## Writing, then reading -/

theorem readable_toJson (i : DealInfo) (depth : Nat) : Readable (depth + 1) i.toJson := by
  refine .object fun e he => ?_
  rcases List.mem_append.mp he with he | he
  · simp only [List.mem_cons, List.not_mem_nil, or_false] at he
    rcases he with rfl | rfl | rfl | rfl | rfl | rfl | rfl | rfl
    · have hplayers := i.players.toNat_lt
      exact .integer ⟨by omega, by omega⟩
    · exact .string _
    · exact .string _
    · exact .boolean _
    · exact .string _
    · exact .string _
    · exact .string _
    · exact .string _
  · split at he
    · rw [List.mem_singleton.mp he]
      exact .string _
    · cases he

/-- An entry with a name is decoded, and the value is put into the draft. -/
theorem takeEntries_some {α : Type} {decode : Decoder α} {put : Draft → α → Draft} {j value : Json}
    {name : String} {a : α} {d : Draft} {takes : List (String × Take)}
    (hget : j.get? name = some value) (hdecode : decode value = .ok a) :
    takeEntries j d ((name, fun d j => return put d (← decode j)) :: takes) =
      takeEntries j (put d a) takes := by
  rw [takeEntries, hget]
  dsimp only
  rw [hdecode]
  rfl

/-- The draft that the entries of written information fill. -/
def drafted (i : DealInfo) : Draft where
  players := some i.players
  taker := some i.taker
  contract := some i.contract
  slam := some i.slam
  firstLead := some i.firstLead
  dog := some i.dog
  attackHandle := some i.attackHandle
  defenseHandle := some i.defenseHandle
  partner := i.partner.map some

theorem finish_drafted (i : DealInfo) : i.drafted.finish = .ok i := by
  obtain ⟨players, taker, contract, slam, firstLead, dog, attackHandle, defenseHandle, partner⟩ := i
  cases partner with
  | none => rfl
  | some s => rfl

/-- The partner does not matter to the other names. -/
theorem get?_toJson {i : DealInfo} {name : String} {value : Json}
    (h : ({ i with partner := none } : DealInfo).toJson.get? name = some value)
    (hname : name ≠ "partner") : i.toJson.get? name = some value := by
  obtain ⟨players, taker, contract, slam, firstLead, dog, attackHandle, defenseHandle, partner⟩ := i
  cases partner with
  | none => exact h
  | some s => exact (get?_concat hname _ _).trans h

/-- Of the partner's name, nothing is taken into the draft if there is none. -/
theorem takeEntries_partner (i : DealInfo) {d : Draft} (h : d.partner = none)
    (takes : List (String × Take)) :
    takeEntries i.toJson d (("partner", takePartner) :: takes) =
      takeEntries i.toJson { d with partner := i.partner.map some } takes := by
  obtain ⟨players, taker, contract, slam, firstLead, dog, attackHandle, defenseHandle, partner⟩ := i
  cases partner with
  | none =>
    obtain ⟨⟩ := d
    cases h
    rfl
  | some s => exact takeEntries_some rfl (asSeatOrNowhere_nameOf (some s))

theorem takeEntries_toJson {i : DealInfo} (h : i.Genuine) :
    takeEntries i.toJson {} byName = .ok i.drafted := calc
  takeEntries i.toJson {} byName
  _ = takeEntries i.toJson { attackHandle := some i.attackHandle } (byName.drop 1) :=
    takeEntries_some (get?_toJson rfl (by decide)) (asCards_text h.attackHandle)
  _ = takeEntries i.toJson
      { attackHandle := some i.attackHandle, contract := some i.contract } (byName.drop 2) :=
    takeEntries_some (get?_toJson rfl (by decide)) (asContract_name i.contract)
  _ = takeEntries i.toJson
      { attackHandle := some i.attackHandle, contract := some i.contract,
        defenseHandle := some i.defenseHandle } (byName.drop 3) :=
    takeEntries_some (get?_toJson rfl (by decide)) (asCards_text h.defenseHandle)
  _ = takeEntries i.toJson
      { attackHandle := some i.attackHandle, contract := some i.contract,
        defenseHandle := some i.defenseHandle, dog := some i.dog } (byName.drop 4) :=
    takeEntries_some (get?_toJson rfl (by decide)) (asCards_text h.dog)
  _ = takeEntries i.toJson
      { attackHandle := some i.attackHandle, contract := some i.contract,
        defenseHandle := some i.defenseHandle, dog := some i.dog,
        firstLead := some i.firstLead } (byName.drop 5) :=
    takeEntries_some (get?_toJson rfl (by decide)) (asSeatOrNowhere_nameOf i.firstLead)
  _ = takeEntries i.toJson
      { attackHandle := some i.attackHandle, contract := some i.contract,
        defenseHandle := some i.defenseHandle, dog := some i.dog,
        firstLead := some i.firstLead, players := some i.players } (byName.drop 6) :=
    takeEntries_some (get?_toJson rfl (by decide)) (asUInt8_toNat i.players)
  _ = takeEntries i.toJson
      { attackHandle := some i.attackHandle, contract := some i.contract,
        defenseHandle := some i.defenseHandle, dog := some i.dog,
        firstLead := some i.firstLead, players := some i.players,
        partner := i.partner.map some } (byName.drop 7) :=
    takeEntries_partner i rfl _
  _ = takeEntries i.toJson
      { attackHandle := some i.attackHandle, contract := some i.contract,
        defenseHandle := some i.defenseHandle, dog := some i.dog,
        firstLead := some i.firstLead, players := some i.players,
        partner := i.partner.map some, slam := some i.slam } (byName.drop 8) :=
    takeEntries_some (get?_toJson rfl (by decide))
      (show asBool (.boolean i.slam) = .ok i.slam from rfl)
  _ = .ok i.drafted :=
    takeEntries_some (get?_toJson rfl (by decide)) (asSeatOrNowhere_nameOf i.taker)

/-- **The information is read from its value.** -/
theorem ofJson_toJson {i : DealInfo} (h : i.Genuine) : ofJson i.toJson = .ok i := by
  show (takeEntries i.toJson {} byName >>= Draft.finish) = _
  rw [takeEntries_toJson h]
  exact finish_drafted i

/-! ## What was read -/

/-- Drafts that have cards of the deck only. -/
structure Draft.Genuine (d : Draft) : Prop where
  dog : Deal.Genuine d.dog
  attackHandle : Deal.Genuine d.attackHandle
  defenseHandle : Deal.Genuine d.defenseHandle

/-- Taking this field puts no other cards into a draft. -/
def Take.Genuine (take : Take) : Prop := ∀ d j d', d.Genuine → take d j = .ok d' → d'.Genuine

theorem take_genuine {α : Type} {decode : Decoder α} {put : Draft → α → Draft}
    (h : ∀ d j a, d.Genuine → decode j = .ok a → (put d a).Genuine) :
    Take.Genuine fun d j => return put d (← decode j) := by
  intro d j d' hd htake
  rw [bind_eq_ok] at htake
  obtain ⟨a, hdecode, hput⟩ := htake
  rw [pure_eq_ok] at hput
  exact hput ▸ h d j a hd hdecode

theorem inOrder_genuine : ∀ take ∈ inOrder, take.Genuine := by
  intro take htake
  simp only [inOrder, List.mem_cons, List.not_mem_nil, or_false] at htake
  rcases htake with rfl | rfl | rfl | rfl | rfl | rfl | rfl | rfl | rfl <;> refine take_genuine ?_
  · exact fun _ _ _ h _ => ⟨h.dog, h.attackHandle, h.defenseHandle⟩
  · exact fun _ _ _ h _ => ⟨h.dog, h.attackHandle, h.defenseHandle⟩
  · exact fun _ _ _ h _ => ⟨h.dog, h.attackHandle, h.defenseHandle⟩
  · exact fun _ _ _ h _ => ⟨h.dog, h.attackHandle, h.defenseHandle⟩
  · exact fun _ _ _ h _ => ⟨h.dog, h.attackHandle, h.defenseHandle⟩
  · exact fun _ _ _ h hr => { h with dog := Deal.genuine_some hr }
  · exact fun _ _ _ h hr => { h with attackHandle := Deal.genuine_some hr }
  · exact fun _ _ _ h hr => { h with defenseHandle := Deal.genuine_some hr }
  · exact fun _ _ _ h _ => ⟨h.dog, h.attackHandle, h.defenseHandle⟩

theorem byName_genuine : ∀ e ∈ byName, e.2.Genuine := by
  intro e he
  refine inOrder_genuine e.2 ?_
  simp only [byName, List.mem_cons, List.not_mem_nil, or_false] at he
  rcases he with rfl | rfl | rfl | rfl | rfl | rfl | rfl | rfl | rfl <;> simp [inOrder]

theorem takeItems_genuine : ∀ {takes : List Take} {items : List Json} {d d' : Draft},
    (∀ take ∈ takes, take.Genuine) → d.Genuine → takeItems d takes items = .ok d' → d'.Genuine
  | _, [], d, d', _, hd, h => by
    unfold takeItems at h
    cases h
    exact hd
  | [], _ :: _, d, d', _, _, h => by
    unfold takeItems at h
    cases h
  | take :: takes, j :: items, d, d', htakes, hd, h => by
    unfold takeItems at h
    rw [bind_eq_ok] at h
    obtain ⟨d₁, htake, h⟩ := h
    have hd₁ := htakes take List.mem_cons_self d j d₁ hd htake
    exact takeItems_genuine (fun t ht => htakes t (List.mem_cons_of_mem take ht)) hd₁ h

theorem takeEntries_genuine {j : Json} : ∀ {takes : List (String × Take)} {d d' : Draft},
    (∀ e ∈ takes, e.2.Genuine) → d.Genuine → takeEntries j d takes = .ok d' → d'.Genuine
  | [], d, d', _, hd, h => by
    unfold takeEntries at h
    cases h
    exact hd
  | (name, take) :: takes, d, d', htakes, hd, h => by
    have hrest : ∀ e ∈ takes, e.2.Genuine := fun e he => htakes e (List.mem_cons_of_mem _ he)
    unfold takeEntries at h
    split at h
    · exact takeEntries_genuine hrest hd h
    · rename_i value _
      rw [bind_eq_ok] at h
      obtain ⟨d₁, htake, h⟩ := h
      have hd₁ := htakes (name, take) List.mem_cons_self d value d₁ hd htake
      exact takeEntries_genuine hrest hd₁ h

theorem Draft.genuine_finish {d : Draft} (hd : d.Genuine) {i : DealInfo} (h : d.finish = .ok i) :
    i.Genuine := by
  simp only [Draft.finish, bind_eq_ok] at h
  obtain ⟨_, _, _, _, _, _, _, _, _, _, dog, hdog, attack, hattack, defense, hdefense, h⟩ := h
  rw [pure_eq_ok] at h
  subst h
  exact ⟨hd.dog dog (Deal.required_eq_ok hdog), hd.attackHandle attack (Deal.required_eq_ok hattack),
    hd.defenseHandle defense (Deal.required_eq_ok hdefense)⟩

theorem blank_genuine : Draft.Genuine {} := by
  have hnone : Deal.Genuine none := by
    intro l hl
    cases hl
  exact ⟨hnone, hnone, hnone⟩

/-- **Information that is read has cards of the deck only.** -/
theorem genuine_of_ofJson {j : Json} {i : DealInfo} (h : ofJson j = .ok i) : i.Genuine := by
  unfold ofJson at h
  split at h
  · rw [bind_eq_ok] at h
    obtain ⟨d, htake, h⟩ := h
    exact Draft.genuine_finish (takeItems_genuine inOrder_genuine blank_genuine htake) h
  · rw [bind_eq_ok] at h
    obtain ⟨d, htake, h⟩ := h
    exact Draft.genuine_finish (takeEntries_genuine byName_genuine blank_genuine htake) h
  · cases h

end DealInfo

namespace Record

/-! ## Records -/

/-- Records of the current version whose cards are cards of the deck. -/
structure Genuine (r : Record) : Prop where
  version : r.version = currentVersion
  info : r.info.Genuine
  tricks : ∀ t ∈ r.tricks, ∀ c ∈ t, c.valid

theorem readable_toJson (r : Record) : Readable maxDepth r.toJson := by
  refine .object fun e he => ?_
  simp only [List.mem_cons, List.not_mem_nil, or_false] at he
  rcases he with rfl | rfl | rfl
  · exact .string _
  · exact r.info.readable_toJson _
  · refine .array fun j hj => ?_
    obtain ⟨t, _, rfl⟩ := List.mem_map.mp hj
    exact .string _

theorem ofJson_toJson {r : Record} (h : r.Genuine) : ofJson r.toJson = .ok r := by
  have hinfo : (r.toJson.get? "deal_info").mapM DealInfo.ofJson = .ok (some r.info) := by
    show (some r.info.toJson).mapM DealInfo.ofJson = _
    rw [Option.mapM_some, DealInfo.ofJson_toJson h.info]
    rfl
  have htricks : (r.toJson.get? "tricks").mapM (asList asCards) = .ok (some r.tricks) := by
    show (some (array (r.tricks.map fun t => string (Cards.text t)))).mapM (asList asCards) = _
    rw [Option.mapM_some, asList, mapM_map_eq_ok fun t ht => asCards_text (h.tricks t ht)]
    rfl
  have hversion : (r.toJson.get? "version").mapM asText = .ok (some r.version) := rfl
  unfold ofJson
  rw [hinfo, htricks, hversion]
  rfl

/-- **A record is read from its text.** -/
theorem ofText_toText {r : Record} (h : r.Genuine) : ofText r.toText = .ok r := by
  have hversion : versionOf r.toJson = currentVersion := h.version
  unfold ofText toText
  rw [(readable_toJson r).parse_pretty]
  show (if versionOf r.toJson ≠ currentVersion then _ else (ofJson r.toJson).mapError _) = _
  rw [if_neg (not_not_intro hversion), ofJson_toJson h]
  rfl

/-- A field that is given was decoded. -/
theorem eq_ok_of_mapM_eq_some {α : Type} {decode : Decoder α} {field : Option Json} {a : α}
    (h : field.mapM decode = .ok (some a)) : ∃ j, field = some j ∧ decode j = .ok a := by
  cases field with
  | none => cases h
  | some j =>
    rw [Option.mapM_some] at h
    cases hdecode : decode j with
    | error e =>
      rw [hdecode] at h
      cases h
    | ok b =>
      rw [hdecode] at h
      cases h
      exact ⟨j, rfl, hdecode⟩

theorem version_eq {j : Json} {version : String} (h : versionOf j = currentVersion)
    (hread : (j.get? "version").mapM asText = .ok (some version)) : version = currentVersion := by
  obtain ⟨value, hget, hvalue⟩ := eq_ok_of_mapM_eq_some hread
  cases value with
  | string text =>
    cases hvalue
    unfold versionOf at h
    rwa [hget] at h
  | null | boolean | integer | decimal | array | object => cases hvalue

theorem genuine_of_ofJson {j : Json} {r : Record} (h : ofJson j = .ok r)
    (hversion : versionOf j = currentVersion) : r.Genuine := by
  simp only [ofJson, bind_eq_ok] at h
  obtain ⟨info, hinfo, tricks, htricks, version, hread, version', hv, info', hi, tricks', ht, h⟩ := h
  cases Deal.required_eq_ok hv
  cases Deal.required_eq_ok hi
  cases Deal.required_eq_ok ht
  rw [pure_eq_ok] at h
  subst h
  obtain ⟨infoValue, _, hinfo⟩ := eq_ok_of_mapM_eq_some hinfo
  obtain ⟨trickValues, _, htricks⟩ := eq_ok_of_mapM_eq_some htricks
  refine ⟨version_eq hversion hread, DealInfo.genuine_of_ofJson hinfo, ?_⟩
  unfold asList at htricks
  split at htricks
  · exact forall_of_mapM_eq_ok (fun _ _ => Json.valid_of_asCards) htricks
  · cases htricks

/-- **A record that is read is of the current version and has cards of the deck only.** -/
theorem genuine_of_ofText {text : String} {r : Record} (h : ofText text = .ok r) : r.Genuine := by
  unfold ofText at h
  rw [bind_eq_ok] at h
  obtain ⟨j, _, h⟩ := h
  dsimp only at h
  split at h
  · cases h
  · rename_i hversion
    rw [mapError_eq_ok] at h
    exact genuine_of_ofJson h (not_not.mp hversion)

/-- **Writing and reading agree.**  A record of the current version with cards of the deck is read
back from its text.  A record that was read from any text is read back as well, and has the same
text again. -/
theorem text_roundTrip :
    (∀ r : Record, r.Genuine → ofText r.toText = .ok r)
    ∧ ∀ (text : String) (r : Record), ofText text = .ok r →
      ∃ again, ofText r.toText = .ok again ∧ again = r ∧ again.toText = r.toText := by
  refine ⟨fun r h => ofText_toText h, fun text r h => ?_⟩
  exact ⟨r, ofText_toText (genuine_of_ofText h), rfl, rfl⟩

/-- A record with the information as an array, blanks and small letters; no table has so many
players. -/
def looseText : String :=
  "\x7b\"tricks\": [\" 01-s ;14-H \", \"\"], \"deal_info\": [200, \"Nowhere\", \"\", true, \"Fifth\", "
    ++ "\"00-T\", \" \", \"\", \"South\"], \"version\": \"3\"\x7d"

/-- What that text says. -/
def looseRecord : Record where
  version := currentVersion
  info :=
    { players := 200
      taker := none
      contract := .noBid
      slam := true
      firstLead := some .fifth
      dog := [Card.fool]
      attackHandle := []
      defenseHandle := []
      partner := some .south }
  tricks := [[⟨1, .spades⟩, ⟨14, .hearts⟩], []]

theorem looseText_roundTrip :
    ofText looseRecord.toText = .ok looseRecord
    ∧ ∃ again, ofText looseRecord.toText = .ok again
      ∧ again = looseRecord ∧ again.toText = looseRecord.toText := by
  have hgenuine : looseRecord.Genuine := ⟨rfl, ⟨by decide, by decide, by decide⟩, by decide⟩
  have hread : ofText looseText = .ok looseRecord := by decide +kernel
  exact ⟨text_roundTrip.1 looseRecord hgenuine, text_roundTrip.2 looseText looseRecord hread⟩

end Record

end FrenchTarot
