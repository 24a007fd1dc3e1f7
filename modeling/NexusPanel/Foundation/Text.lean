import Mathlib.Algebra.Group.Nat.Defs
import Mathlib.Data.List.DropRight
import Mathlib.Data.List.TakeWhile

/-!
# Text

The few string operations the sources share, on lists of characters so that they compute.
-/

namespace Text

/-- White space in the sense of Unicode. -/
def isWhiteSpace (c : Char) : Bool :=
  c.val ∈ [0x9, 0xA, 0xB, 0xC, 0xD, 0x20, 0x85, 0xA0, 0x1680, 0x2028, 0x2029, 0x202F, 0x205F,
    0x3000] || (0x2000 ≤ c.val && c.val ≤ 0x200A)

theorem isAlpha_iff {c : Char} : c.isAlpha = true ↔
    (65 ≤ c.toNat ∧ c.toNat ≤ 90) ∨ 97 ≤ c.toNat ∧ c.toNat ≤ 122 := by
  show (decide (c.val ≥ 'A'.val ∧ c.val ≤ 'Z'.val) ||
    c.val ≥ 'a'.val && c.val ≤ 'z'.val) = true ↔ _
  simp only [Bool.or_eq_true, Bool.and_eq_true, decide_eq_true_eq, UInt32.le_iff_toNat_le,
    ge_iff_le]
  rfl

theorem isDigit_iff {c : Char} : c.isDigit = true ↔ 48 ≤ c.toNat ∧ c.toNat ≤ 57 := by
  show (c.val ≥ '0'.val && c.val ≤ '9'.val) = true ↔ _
  simp only [Bool.and_eq_true, decide_eq_true_eq, UInt32.le_iff_toNat_le, ge_iff_le]
  rfl

/-- The maximal runs that are not separated. -/
def wordsBy {α : Type} [DecidableEq α] (separates : α → Bool) (text : List α) : List (List α) :=
  (text.splitOnP separates).filter (· ≠ [])

section Words

variable {α : Type} {separates : α → Bool}

/-- The induction over the separators of a text. -/
theorem wordsBy_induction {P : List α → Prop}
    (word : ∀ text, (∀ c ∈ text, separates c = false) → P text)
    (separated : ∀ x c y, separates c = true → P x → P y → P (x ++ c :: y)) (text : List α) :
    P text := by
  induction hn : text.length using Nat.strong_induction_on generalizing text with
  | _ n ih =>
    by_cases h : ∀ c ∈ text, separates c = false
    · exact word text h
    · simp only [not_forall, Bool.not_eq_false] at h
      obtain ⟨c, hmem, hc⟩ := h
      obtain ⟨x, y, rfl⟩ := List.append_of_mem hmem
      rw [List.length_append, List.length_cons] at hn
      exact separated x c y hc (ih x.length (by omega) x rfl) (ih y.length (by omega) y rfl)

variable [DecidableEq α]

theorem wordsBy_append_cons (x y : List α) {c : α} (h : separates c = true) :
    wordsBy separates (x ++ c :: y) = wordsBy separates x ++ wordsBy separates y := by
  rw [wordsBy, List.splitOnP_append_cons x y h, List.filter_append]
  rfl

/-- A text without separators is one word, unless it is empty. -/
theorem wordsBy_of_forall {text : List α} (h : ∀ c ∈ text, separates c = false) :
    wordsBy separates text = if text = [] then [] else [text] := by
  rw [wordsBy, List.splitOnP_eq_singleton h]
  by_cases hempty : text = [] <;> simp [hempty]

theorem of_mem_wordsBy {text part : List α} (h : part ∈ wordsBy separates text) :
    part ≠ [] ∧ ∀ c ∈ part, separates c = false := by
  induction text using @wordsBy_induction α separates with
  | word text hfree =>
    rw [wordsBy_of_forall hfree] at h
    split at h
    next => cases h
    next hne =>
      obtain rfl := List.mem_singleton.mp h
      exact ⟨hne, hfree⟩
  | separated x c y hc hx hy =>
    rw [wordsBy_append_cons x y hc] at h
    exact (List.mem_append.mp h).elim hx hy

end Words

/-- `text.split_whitespace()`: the words of a text. -/
def splitWhitespace (text : String) : List String :=
  (wordsBy isWhiteSpace text.toList).map String.ofList

/-- The text after a prefix it starts with. -/
def stripPrefix? (p text : String) : Option String :=
  if p.toList.isPrefixOf text.toList then some (String.ofList (text.toList.drop p.toList.length))
  else none

/-- The text without the characters at its end that are the given one. -/
def trimEnd (c : Char) (text : String) : String :=
  String.ofList (text.toList.rdropWhile (· = c))

/-- The text before and after the first occurrence of a character. -/
def splitFirst? (c : Char) (text : String) : Option (String × String) :=
  if c ∈ text.toList then
    some (String.ofList (text.toList.takeWhile (· ≠ c)),
      String.ofList ((text.toList.dropWhile (· ≠ c)).drop 1))
  else none

/-- Put together again, the two parts of a split are the text. -/
theorem splitFirst?_eq_some {c : Char} {text before after : String}
    (h : splitFirst? c text = some (before, after)) :
    text = before ++ String.ofList [c] ++ after := by
  unfold splitFirst? at h
  split at h
  next hc =>
    cases h
    have hdrop : text.toList.dropWhile (· ≠ c) =
        c :: (text.toList.dropWhile (· ≠ c)).drop 1 := by
      cases hd : text.toList.dropWhile (· ≠ c) with
      | nil =>
        have hall := List.dropWhile_eq_nil_iff.mp hd c hc
        simp at hall
      | cons d ds =>
        have hhead := List.head?_dropWhile_not (fun x => decide (x ≠ c)) text.toList
        rw [hd] at hhead
        have hdc : d = c := by simpa using hhead
        rw [hdc]
        rfl
    rw [← String.toList_inj, String.toList_append, String.toList_append, String.toList_ofList,
      String.toList_ofList, String.toList_ofList, List.append_assoc, List.singleton_append,
      ← hdrop, List.takeWhile_append_dropWhile]
  next => cases h

/-- A text without the character is what stands before the first one behind it. -/
theorem splitFirst?_append {c : Char} {before after : String} (h : c ∉ before.toList) :
    splitFirst? c (before ++ String.ofList [c] ++ after) = some (before, after) := by
  have hall : ∀ x ∈ before.toList, decide (x ≠ c) = true := by
    intro x hx
    rw [decide_eq_true_eq]
    rintro rfl
    exact h hx
  unfold splitFirst?
  simp only [String.toList_append, String.toList_ofList, List.append_assoc, List.singleton_append,
    List.mem_append, List.mem_cons, true_or, or_true, if_true]
  rw [List.takeWhile_append_of_pos hall, List.dropWhile_append_of_pos hall]
  simp

theorem splitFirst?_eq_none {c : Char} {text : String} :
    splitFirst? c text = none ↔ c ∉ text.toList := by
  unfold splitFirst?
  split
  next h => exact ⟨fun heq => (by cases heq), fun hnot => absurd h hnot⟩
  next h => exact ⟨fun _ => h, fun _ => rfl⟩

/-- The character is not in the part before it. -/
theorem not_mem_of_splitFirst? {c : Char} {text before after : String}
    (h : splitFirst? c text = some (before, after)) : c ∉ before.toList := by
  unfold splitFirst? at h
  split at h
  next =>
    cases h
    intro hmem
    rw [String.toList_ofList] at hmem
    have hne := List.mem_takeWhile_imp hmem
    simp at hne
  next => cases h

/-- A prefix is stripped exactly from the texts it starts. -/
theorem stripPrefix?_eq_some {p text rest : String} :
    stripPrefix? p text = some rest ↔ text = p ++ rest := by
  unfold stripPrefix?
  rw [← String.toList_inj, String.toList_append]
  constructor
  · intro h
    split at h
    next hstarts =>
      cases h
      obtain ⟨tail, htail⟩ := List.isPrefixOf_iff_prefix.mp hstarts
      rw [← htail, List.drop_left, String.toList_ofList]
    next => cases h
  · intro h
    rw [h, if_pos (List.isPrefixOf_iff_prefix.mpr ⟨rest.toList, rfl⟩), List.drop_left,
      String.ofList_toList]

/-- What is in the parts of a split: everything but the separator. -/
theorem exists_mem_splitOn {a c : Char} {text : List Char} :
    (∃ part ∈ text.splitOn a, c ∈ part) ↔ c ∈ text ∧ c ≠ a := by
  induction text with
  | nil => simp
  | cons d text ih =>
    rw [List.splitOn_cons_eq_if_modifyHead]
    split
    next hd =>
      obtain rfl := beq_iff_eq.mp hd
      rw [List.exists_mem_cons_iff, ih, List.mem_cons]
      constructor
      · rintro (h | ⟨h, hne⟩)
        · exact absurd h List.not_mem_nil
        · exact ⟨.inr h, hne⟩
      · rintro ⟨h | h, hne⟩
        · exact absurd h hne
        · exact .inr ⟨h, hne⟩
    next hd =>
      cases hparts : text.splitOn a with
      | nil => exact absurd hparts (List.splitOn_ne_nil a text)
      | cons head tail =>
        rw [hparts, List.exists_mem_cons_iff] at ih
        rw [List.modifyHead_cons, List.exists_mem_cons_iff, List.mem_cons, List.mem_cons, or_assoc,
          ih, or_and_right]
        refine or_congr_left ⟨fun h => ⟨h, ?_⟩, And.left⟩
        rintro rfl
        exact hd (beq_iff_eq.mpr h.symm)

theorem not_mem_of_mem_splitOn {a : Char} {text part : List Char} (h : part ∈ text.splitOn a) :
    a ∉ part :=
  fun hmem => (exists_mem_splitOn.mp ⟨part, h, hmem⟩).2 rfl

/-- The lines of a text: a line feed ends one, with a carriage return before it; what stands
after the last line feed is a line when it is not empty. -/
def lines (text : String) : List String :=
  let parts := text.toList.splitOn '\n'
  let withoutReturn (part : List Char) : List Char :=
    if part.getLast? = some '\r' then part.dropLast else part
  (parts.dropLast.map withoutReturn ++ (parts.getLast?.filter (· ≠ [])).toList).map String.ofList

/-- `text.parse::<u64>()`: digits, with or without a plus sign, of a number that fits. -/
def parseU64 (text : String) : Option Nat :=
  let digits := match text.toList with
    | '+' :: rest => rest
    | all => all
  if digits ≠ [] ∧ digits.all Char.isDigit then
    let n := Nat.ofDigitChars 10 digits 0
    if n < 2 ^ 64 then some n else none
  else none

/-! ## Bytes -/

def isAscii (text : String) : Bool := text.toList.all fun c => c.val ≤ 127

/-- How many bytes the characters have in UTF-8. -/
def byteLength : List Char → Nat
  | [] => 0
  | c :: cs => c.utf8Size + byteLength cs

/-- The first bytes, if they end where a character ends. -/
def sliceTo : Nat → List Char → Option (List Char)
  | 0, _ => some []
  | _ + 1, [] => none
  | n + 1, c :: cs =>
    if c.utf8Size ≤ n + 1 then (sliceTo (n + 1 - c.utf8Size) cs).map (c :: ·) else none

/-- The bytes of characters that have one each are the characters. -/
theorem sliceTo_of_bytes {chars : List Char} (h : ∀ c ∈ chars, c.utf8Size = 1) (n : Nat) :
    sliceTo (min n (byteLength chars)) chars = some (chars.take n) := by
  induction chars generalizing n with
  | nil => simp [byteLength, sliceTo]
  | cons c cs ih =>
    obtain ⟨hc, hcs⟩ := List.forall_mem_cons.mp h
    cases n with
    | zero => simp [sliceTo]
    | succ n =>
      have hmin : min (n + 1) (byteLength (c :: cs)) = min n (byteLength cs) + 1 := by
        rw [byteLength, hc]
        omega
      rw [hmin, sliceTo, hc, if_pos (by omega), Nat.add_sub_cancel, ih hcs]
      rfl

/-- A number is known by its digits. -/
theorem toString_inj {m n : Nat} (h : toString m = toString n) : m = n := by
  rw [Nat.toString_eq_repr, Nat.toString_eq_repr] at h
  have hdigits := congrArg String.toList h
  rw [Nat.toList_repr, Nat.toList_repr] at hdigits
  rw [← Nat.ofDigitChars_ten_toDigits (n := m), hdigits, Nat.ofDigitChars_ten_toDigits]

end Text
