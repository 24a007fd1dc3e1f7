import Mathlib.Data.List.Infix

/-!
# Patterns of SQL's `LIKE`

In a pattern `%` stands for any text and `_` for any one character; a backslash takes the
character behind it at its word, and a pattern must not end with one that still waits for it.

A pattern is read into tokens, and what the tokens match is said by recursion on them
(`Matches`). The matcher `scan` decides that. Everything that is proved about patterns is a
fact about `Matches`, and the main one is about patterns that are put between two `%`: a text
matches when some piece of it matches what stands between them.
-/

namespace LikePattern

inductive Token (α : Type)
  | any
  | one
  | char (c : α)
deriving DecidableEq, Repr

/-- The texts that the tokens match. -/
def Matches {α : Type} : List (Token α) → List α → Prop
  | [], text => text = []
  | .any :: ts, text => ∃ front back, text = front ++ back ∧ Matches ts back
  | .one :: ts, text => ∃ c back, text = c :: back ∧ Matches ts back
  | .char c :: ts, text => ∃ back, text = c :: back ∧ Matches ts back

/-- The matcher: an `any` tries every end of the text. -/
def scan {α : Type} [DecidableEq α] : List (Token α) → List α → Bool
  | [], text => text.isEmpty
  | .any :: ts, text => text.tails.any (scan ts)
  | .one :: _, [] => false
  | .one :: ts, _ :: text => scan ts text
  | .char _ :: _, [] => false
  | .char c :: ts, d :: text => c = d && scan ts text

/-- The tokens of a pattern, and whether it ends with a backslash that waits for a character. -/
def read : List Char → List (Token Char) × Bool
  | [] => ([], false)
  | ['\\'] => ([], true)
  | '\\' :: c :: cs => (.char c :: (read cs).1, (read cs).2)
  | '%' :: cs => (.any :: (read cs).1, (read cs).2)
  | '_' :: cs => (.one :: (read cs).1, (read cs).2)
  | c :: cs => (.char c :: (read cs).1, (read cs).2)

/-- A pattern that ends with a waiting backslash is an error. -/
def parse (pattern : List Char) : Option (List (Token Char)) :=
  if (read pattern).2 then none else some (read pattern).1

/-- The characters that a pattern does not take at their word. -/
def special (c : Char) : Bool := c = '%' || c = '_' || c = '\\'

/-! ## Matching -/

section Matching

variable {α : Type} {ts us : List (Token α)} {text : List α}

theorem scan_iff [DecidableEq α] : scan ts text = true ↔ Matches ts text := by
  induction ts generalizing text with
  | nil => simp [scan, Matches]
  | cons t ts ih =>
    cases t with
    | any =>
      simp only [scan, Matches, List.any_eq_true, List.mem_tails, ih]
      constructor
      · rintro ⟨back, ⟨front, rfl⟩, hback⟩
        exact ⟨front, back, rfl, hback⟩
      · rintro ⟨front, back, rfl, hback⟩
        exact ⟨back, List.suffix_append front back, hback⟩
    | one => cases text <;> simp [scan, Matches, ih]
    | char c =>
      cases text with
      | nil => simp [scan, Matches]
      | cons d text =>
        simp only [scan, Matches, Bool.and_eq_true, decide_eq_true_eq, ih, List.cons.injEq]
        constructor
        · rintro ⟨rfl, hrest⟩
          exact ⟨text, ⟨rfl, rfl⟩, hrest⟩
        · rintro ⟨_, ⟨rfl, rfl⟩, hrest⟩
          exact ⟨rfl, hrest⟩

/-- Tokens one after the other match texts one after the other. -/
theorem matches_append :
    Matches (ts ++ us) text ↔ ∃ front back, text = front ++ back ∧ Matches ts front ∧
      Matches us back := by
  induction ts generalizing text with
  | nil => simp [Matches]
  | cons t ts ih =>
    cases t with
    | any =>
      simp only [List.cons_append, Matches, ih]
      constructor
      · rintro ⟨skipped, _, rfl, front, back, rfl, hfront, hback⟩
        exact ⟨skipped ++ front, back, (List.append_assoc ..).symm, ⟨skipped, front, rfl, hfront⟩,
          hback⟩
      · rintro ⟨_, back, rfl, ⟨skipped, front, rfl, hfront⟩, hback⟩
        exact ⟨skipped, front ++ back, List.append_assoc .., front, back, rfl, hfront, hback⟩
    | one =>
      simp only [List.cons_append, Matches, ih]
      constructor
      · rintro ⟨c, _, rfl, front, back, rfl, hfront, hback⟩
        exact ⟨c :: front, back, rfl, ⟨c, front, rfl, hfront⟩, hback⟩
      · rintro ⟨_, back, rfl, ⟨c, front, rfl, hfront⟩, hback⟩
        exact ⟨c, front ++ back, rfl, front, back, rfl, hfront, hback⟩
    | char c =>
      simp only [List.cons_append, Matches, ih]
      constructor
      · rintro ⟨_, rfl, front, back, rfl, hfront, hback⟩
        exact ⟨c :: front, back, rfl, ⟨front, rfl, hfront⟩, hback⟩
      · rintro ⟨_, back, rfl, ⟨front, rfl, hfront⟩, hback⟩
        exact ⟨front ++ back, rfl, front, back, rfl, hfront, hback⟩

/-- Characters match themselves. -/
theorem matches_chars {word : List α} : Matches (word.map .char) text ↔ text = word := by
  induction word generalizing text with
  | nil => rfl
  | cons c cs ih =>
    simp only [List.map_cons, Matches, ih]
    constructor
    · rintro ⟨_, rfl, rfl⟩
      rfl
    · rintro rfl
      exact ⟨cs, rfl, rfl⟩

theorem matches_char {c : α} : Matches [.char c] text ↔ text = [c] := by
  have hword : Matches ([c].map .char) text ↔ text = [c] := matches_chars
  exact hword

theorem matches_any : Matches [.any] text :=
  ⟨text, [], (List.append_nil text).symm, rfl⟩

/-- Some piece of the text matches what stands between two wildcards. -/
theorem matches_between :
    Matches (.any :: ts ++ [.any]) text ↔ ∃ piece, piece <:+: text ∧ Matches ts piece := by
  simp only [List.cons_append, Matches, matches_append]
  constructor
  · rintro ⟨front, _, rfl, piece, back, rfl, hpiece, -⟩
    exact ⟨piece, ⟨front, back, List.append_assoc ..⟩, hpiece⟩
  · rintro ⟨piece, ⟨front, back, rfl⟩, hpiece⟩
    exact ⟨front, piece ++ back, List.append_assoc .., piece, back, rfl, hpiece, matches_any⟩

/-- Some end of the text matches what stands behind a wildcard. -/
theorem matches_behind :
    Matches (.any :: ts) text ↔ ∃ piece, piece <:+ text ∧ Matches ts piece := by
  constructor
  · rintro ⟨front, back, rfl, hback⟩
    exact ⟨back, List.suffix_append front back, hback⟩
  · rintro ⟨piece, ⟨front, rfl⟩, hpiece⟩
    exact ⟨front, piece, rfl, hpiece⟩

end Matching

/-! ## Reading -/

section Reading

variable {front pattern : List Char} {c : Char}

theorem read_plain (h : special c = false) :
    read (c :: pattern) = (.char c :: (read pattern).1, (read pattern).2) := by
  simp only [special, Bool.or_eq_false_iff, decide_eq_false_iff_not] at h
  obtain ⟨⟨hpercent, hline⟩, hslash⟩ := h
  rw [read]
  · exact fun heq => absurd heq hslash
  · exact fun _ _ heq => absurd heq hslash
  · exact hpercent
  · exact hline

/-- What is left of the characters when the others are taken out. -/
theorem special_eq_false (hend : c = '\\' → pattern = [] → False)
    (hslash : ∀ d ds, c = '\\' → pattern = d :: ds → False) (hpercent : c = '%' → False)
    (hline : c = '_' → False) : special c = false := by
  have hne : c ≠ '\\' := by
    intro heq
    cases pattern with
    | nil => exact hend heq rfl
    | cons d ds => exact hslash d ds heq rfl
  simp only [special, Bool.or_eq_false_iff, decide_eq_false_iff_not]
  exact ⟨⟨hpercent, hline⟩, hne⟩

/-- A pattern that is complete is read apart from what follows. -/
theorem read_append (h : (read front).2 = false) :
    read (front ++ pattern) = ((read front).1 ++ (read pattern).1, (read pattern).2) := by
  fun_induction read front with
  | case1 => rfl
  | case2 => cases h
  | case3 c cs ih => simp only [List.cons_append, read, ih h]
  | case4 cs ih => simp only [List.cons_append, read, ih h]
  | case5 cs ih => simp only [List.cons_append, read, ih h]
  | case6 c cs hend hslash hpercent hline ih =>
    have hplain := special_eq_false hend hslash hpercent hline
    simp only [List.cons_append, read_plain hplain, ih h]

/-- A waiting backslash takes the next character at its word. -/
theorem read_append_waiting (h : (read front).2 = true) :
    read (front ++ c :: pattern) =
      ((read front).1 ++ .char c :: (read pattern).1, (read pattern).2) := by
  fun_induction read front with
  | case1 => cases h
  | case2 => rfl
  | case3 c cs ih => simp only [List.cons_append, read, ih h]
  | case4 cs ih => simp only [List.cons_append, read, ih h]
  | case5 cs ih => simp only [List.cons_append, read, ih h]
  | case6 c cs hend hslash hpercent hline ih =>
    have hplain := special_eq_false hend hslash hpercent hline
    simp only [List.cons_append, read_plain hplain, ih h]

/-- A pattern without special characters is itself. -/
theorem read_of_plain (h : ∀ c ∈ pattern, special c = false) :
    read pattern = (pattern.map .char, false) := by
  induction pattern with
  | nil => rfl
  | cons c cs ih =>
    obtain ⟨hc, hcs⟩ := List.forall_mem_cons.mp h
    rw [read_plain hc, ih hcs, List.map_cons]

end Reading

/-! ## A query between two wildcards -/

/-- The pattern that looks for the query anywhere. -/
def containing (query : List Char) : List Char := '%' :: query ++ ['%']

/-- The text has a piece that the query matches. A query that ends with a waiting backslash
takes the wildcard behind it at its word, and then the text ends with that piece and a percent
sign. -/
def Contains (query text : List Char) : Prop :=
  if (read query).2 then ∃ piece, piece ++ ['%'] <:+ text ∧ Matches (read query).1 piece
  else ∃ piece, piece <:+: text ∧ Matches (read query).1 piece

section Containing

variable {query text : List Char}

theorem parse_containing (query : List Char) : ∃ ts, parse (containing query) = some ts ∧
    ∀ text, scan ts text = true ↔ Contains query text := by
  cases hwaiting : (read query).2 with
  | true =>
    have hread : read (containing query) = (.any :: (read query).1 ++ [.char '%'], false) := by
      simp only [containing, List.cons_append, read, read_append_waiting hwaiting]
    refine ⟨_, by rw [parse, hread]; rfl, fun text => ?_⟩
    rw [scan_iff, List.cons_append, matches_behind, Contains, if_pos hwaiting]
    constructor
    · rintro ⟨_, hend, hmatches⟩
      obtain ⟨piece, back, rfl, hpiece, hback⟩ := matches_append.mp hmatches
      obtain rfl := matches_char.mp hback
      exact ⟨piece, hend, hpiece⟩
    · rintro ⟨piece, hend, hpiece⟩
      exact ⟨piece ++ ['%'], hend, matches_append.mpr
        ⟨piece, ['%'], rfl, hpiece, matches_char.mpr rfl⟩⟩
  | false =>
    have hread : read (containing query) = (.any :: (read query).1 ++ [.any], false) := by
      simp only [containing, List.cons_append, read, read_append hwaiting]
    refine ⟨_, by rw [parse, hread]; rfl, fun text => ?_⟩
    rw [scan_iff, matches_between, Contains, hwaiting, if_neg Bool.false_ne_true]

/-- A query without special characters is looked for as it is. -/
theorem contains_of_plain (h : ∀ c ∈ query, special c = false) :
    Contains query text ↔ query <:+: text := by
  rw [Contains, read_of_plain h, if_neg Bool.false_ne_true]
  simp only [matches_chars, exists_eq_right]

end Containing

end LikePattern
