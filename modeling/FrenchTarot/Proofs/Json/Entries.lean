import FrenchTarot.Proofs.Json.Tokens

/-!
# Reading what was printed: the entries of objects

The entries of an object are printed without any space, or each on a line of its own.  Both layouts
put the same signs in the same order, and differ in the spaces between them and in how the values
are printed (`Layout`).  A reader of entries skips the spaces, so one argument serves for both.

Entries after the first are read alike, each with the comma in front of it, and the first one is
read as if a comma stood in front of it too (`entriesFrom_first`).  What limits their number is the
text itself, and each of them has at least its comma there.

The entries are taken in one after the other, to be kept as they are or put into the draft of a
record.  What a reader makes of them depends on what it makes of each (`Takes`).
-/

namespace FrenchTarot.Json

/-! ## Spaces -/

theorem skipSpace_cons {c : Char} (h : isSpace c = false) (cs : List Char) :
    skipSpace (c :: cs) = c :: cs :=
  List.dropWhile_cons_of_neg (by simp [h])

/-- Spaces in front are passed over. -/
theorem skipSpace_append {blank : List Char} (h : ∀ c ∈ blank, isSpace c) (cs : List Char) :
    skipSpace (blank ++ cs) = skipSpace cs := List.dropWhile_append_of_pos h

theorem newLine_blank (level : Nat) : ∀ c ∈ newLine level, isSpace c := by
  intro c hc
  rcases List.mem_cons.mp hc with rfl | hc
  · rfl
  · rw [List.eq_of_mem_replicate hc]
    rfl

/-- A space does not go on with a numeral. -/
theorem endsNumeral_append {blank rest : List Char} (h : ∀ c ∈ blank, isSpace c)
    (ends : EndsNumeral rest) : EndsNumeral (blank ++ rest) := by
  intro c hc
  cases blank with
  | nil => exact ends c hc
  | cons b blank =>
    obtain rfl : b = c := Option.some.inj hc
    have hspace := h b List.mem_cons_self
    simp only [isSpace, Bool.or_eq_true, decide_eq_true_eq] at hspace
    rcases hspace with ((rfl | rfl) | rfl) | rfl <;> decide

theorem endsNumeral_nil : EndsNumeral [] := by
  intro c hc
  cases hc

theorem endsNumeral_cons {c : Char} (h : c.isDigit = false ∧ c ≠ '.' ∧ c ≠ 'e' ∧ c ≠ 'E')
    (cs : List Char) : EndsNumeral (c :: cs) := by
  intro d hd
  obtain rfl : c = d := Option.some.inj hd
  exact h

theorem quote_append (name : String) (rest : List Char) :
    quote name ++ rest = '"' :: (name.toList.flatMap escape ++ '"' :: rest) := by
  simp [quote]

/-! ## Layouts -/

/-- How the entries of an object are laid out. -/
structure Layout where
  /-- What stands in front of each name. -/
  lead : List Char
  /-- What stands between the colon and the value. -/
  gap : List Char
  /-- What stands in front of the closing brace. -/
  close : List Char
  value : Json → List Char
  lead_blank : ∀ c ∈ lead, isSpace c
  close_blank : ∀ c ∈ close, isSpace c

namespace Layout

/-- The layout over several lines, of an object at an indentation level. -/
def pretty (level : Nat) : Layout where
  lead := newLine (level + 1)
  gap := [' ']
  close := newLine level
  value := prettyChars (level + 1)
  lead_blank := newLine_blank (level + 1)
  close_blank := newLine_blank level

/-- The layout without any space. -/
def compact : Layout where
  lead := []
  gap := []
  close := []
  value := compactChars
  lead_blank := List.forall_mem_nil _
  close_blank := List.forall_mem_nil _

variable (l : Layout)

/-- What is printed for entries that follow another one: each with a comma in front. -/
def more : List (String × Json) → List Char
  | [] => []
  | (name, j) :: entries =>
    ',' :: (l.lead ++ (quote name ++ (':' :: (l.gap ++ (l.value j ++ more entries)))))

/-- What is printed for entries, of which the first has no comma in front. -/
def entries (entry : String × Json) (others : List (String × Json)) : List Char :=
  l.lead ++ (quote entry.1 ++ (':' :: (l.gap ++ (l.value entry.2 ++ l.more others))))

/-- What is printed for an object with entries, after its opening brace, and what follows it. -/
def braced (entry : String × Json) (others : List (String × Json)) (rest : List Char) : List Char :=
  l.entries entry others ++ (l.close ++ '\x7d' :: rest)

theorem more_cons (entry : String × Json) (others : List (String × Json)) :
    l.more (entry :: others) = ',' :: l.entries entry others := rfl

theorem length_more (others : List (String × Json)) : others.length ≤ (l.more others).length := by
  induction others with
  | nil => exact Nat.le_refl 0
  | cons entry others ih =>
    rw [more_cons, entries]
    simp only [List.length_cons, List.length_append]
    omega

theorem endsNumeral_more (others : List (String × Json)) (rest : List Char) :
    EndsNumeral (l.more others ++ (l.close ++ '\x7d' :: rest)) := by
  cases others with
  | nil =>
    show EndsNumeral (l.close ++ '\x7d' :: rest)
    exact endsNumeral_append l.close_blank (endsNumeral_cons (by decide) rest)
  | cons entry others => exact endsNumeral_cons (by decide) _

/-- After the spaces, entries start with the quote of the first name. -/
theorem skipSpace_entries (entry : String × Json) (others : List (String × Json))
    (rest : List Char) :
    skipSpace (l.entries entry others ++ rest) =
      '"' :: (entry.1.toList.flatMap escape ++ '"' ::
        (':' :: (l.gap ++ (l.value entry.2 ++ (l.more others ++ rest))))) := by
  rw [entries, List.append_assoc, skipSpace_append l.lead_blank, List.append_assoc, quote_append,
    skipSpace_cons rfl]
  simp

end Layout

/-! ## What is printed for an object -/

theorem prettyEntries_cons (level : Nat) (entry : String × Json) (others : List (String × Json)) :
    prettyEntries (level + 1) (entry :: others) = (Layout.pretty level).entries entry others := by
  induction others generalizing entry with
  | nil => simp [prettyEntries, Layout.entries, Layout.more, Layout.pretty]
  | cons next others ih =>
    rw [prettyEntries, ih]
    · simp [Layout.entries, Layout.more, Layout.pretty]
    · exact List.cons_ne_nil _ _

theorem prettyChars_object (level : Nat) (entry : String × Json) (others : List (String × Json))
    (rest : List Char) :
    prettyChars level (object (entry :: others)) ++ rest =
      '\x7b' :: (Layout.pretty level).braced entry others rest := by
  rw [Layout.braced, ← prettyEntries_cons]
  simp [prettyChars, Layout.pretty]

theorem compactEntries_cons (entry : String × Json) (others : List (String × Json)) :
    compactEntries (entry :: others) = Layout.compact.entries entry others := by
  induction others generalizing entry with
  | nil => simp [compactEntries, Layout.entries, Layout.more, Layout.compact]
  | cons next others ih =>
    rw [compactEntries, ih]
    · simp [Layout.entries, Layout.more, Layout.compact]
    · exact List.cons_ne_nil _ _

theorem compactChars_object (entry : String × Json) (others : List (String × Json))
    (rest : List Char) :
    compactChars (object (entry :: others)) ++ rest =
      '\x7b' :: Layout.compact.braced entry others rest := by
  rw [Layout.braced, ← compactEntries_cons]
  simp [compactChars, Layout.compact]

/-! ## Reading the entries -/

/-- Taking in printed entries one after the other leads from one state to another. -/
inductive Takes {σ : Type} (read : String → σ → Reader σ) (l : Layout) :
    List (String × Json) → σ → σ → Prop where
  | nil {state : σ} : Takes read l [] state state
  | cons {entry : String × Json} {entries : List (String × Json)} {before state after : σ}
      (taken : ∀ rest, EndsNumeral rest →
        read entry.1 before (':' :: (l.gap ++ (l.value entry.2 ++ rest))) = .ok (state, rest))
      (others : Takes read l entries state after) :
      Takes read l (entry :: entries) before after

section Reading

variable {σ : Type} {read : String → σ → Reader σ} {l : Layout}

theorem entriesFrom_more (rest : List Char) {others : List (String × Json)} {before after : σ}
    (h : Takes read l others before after) {limit : List Char}
    (hlimit : others.length < limit.length) :
    entriesFrom true read limit false before (l.more others ++ (l.close ++ '\x7d' :: rest)) =
      .ok (after, rest) := by
  induction h generalizing limit with
  | nil =>
    obtain ⟨_, limit, rfl⟩ := List.exists_cons_of_length_pos hlimit
    unfold entriesFrom
    rw [Layout.more, List.nil_append, skipSpace_append l.close_blank, skipSpace_cons rfl]
    rfl
  | @cons entry others before state after taken _ ih =>
    obtain ⟨_, limit, rfl⟩ := List.exists_cons_of_length_pos (Nat.zero_lt_of_lt hlimit)
    have hentry := taken _ (l.endsNumeral_more others rest)
    have hothers := ih (Nat.lt_of_succ_lt_succ hlimit)
    unfold entriesFrom
    rw [Layout.more_cons, List.cons_append, skipSpace_cons rfl]
    dsimp only
    rw [if_neg (by decide), if_neg (by decide), if_neg (by decide), l.skipSpace_entries]
    dsimp only
    rw [if_neg (by decide), stringBody_quoted]
    show (read entry.1 before _ >>= _) = _
    rw [hentry]
    exact hothers

/-- The first entry is read as if it had a comma in front. -/
theorem entriesFrom_first {state : σ} (l : Layout) (entry : String × Json)
    (others : List (String × Json)) (limit rest : List Char) :
    entriesFrom true read limit true state (l.entries entry others ++ rest) =
      entriesFrom true read limit false state (l.more (entry :: others) ++ rest) := by
  cases limit with
  | nil => rfl
  | cons c limit =>
    have hskip := l.skipSpace_entries entry others rest
    unfold entriesFrom
    rw [Layout.more_cons, List.cons_append, skipSpace_cons rfl, hskip]
    simp [hskip, skipSpace_cons (c := '"') rfl]

/-- **The entries of a printed object are taken in, and what follows is left.** -/
theorem entriesFrom_braced {entry : String × Json} {others : List (String × Json)}
    {before after : σ} (h : Takes read l (entry :: others) before after) (rest : List Char) :
    entriesFrom true read ('\x7b' :: l.braced entry others rest) true before
      (l.braced entry others rest) = .ok (after, rest) := by
  have hlimit : (entry :: others).length < ('\x7b' :: l.braced entry others rest).length := by
    have hlength := l.length_more (entry :: others)
    simp only [Layout.more_cons, Layout.braced, List.length_cons, List.length_append] at hlength ⊢
    omega
  have hread := entriesFrom_more rest h hlimit
  rwa [← entriesFrom_first] at hread

end Reading

end FrenchTarot.Json
