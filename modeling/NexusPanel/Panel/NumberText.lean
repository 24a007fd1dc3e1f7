import Mathlib.Data.List.TakeWhile
import Mathlib.Tactic.IntervalCases
import NexusPanel.Foundation.Rounding
import NexusPanel.Panel.JavaScript

/-!
# Numbers as text

`Number(text)` of JavaScript: blanks around the text do not count, an empty text is zero, and the
rest is an integer after `0x`, `0o` or `0b`, or a decimal number with a sign, a fraction and an
exponent, or the word `Infinity`. The value is rounded to a double, exactly; an implementation is
free in the digits after the twentieth, and this is what those in use do.

Most texts that stand for an integer are not literals of one. `integerLiteral?` reads those that
are: a sign perhaps, and digits.
-/

namespace Panel

/-! ## Doubles -/

/-- The least number that no double reaches. -/
def doubleLimit : Rat := 2 ^ 1024

/-- The double next to a number. -/
def JsNumber.ofRat (q : Rat) : JsNumber :=
  let rounded := Rounding.roundTo 53 (-1074) q
  if doubleLimit ≤ rounded then .infinity
  else if rounded ≤ -doubleLimit then .negInfinity
  else .finite rounded

/-! ## Literals -/

/-- The number that digits are written for. -/
def digits? (chars : List Char) : Option Nat :=
  if chars ≠ [] ∧ chars.all Char.isDigit then some (Nat.ofDigitChars 10 chars 0) else none

/-- Digits, with a sign or without. -/
def signedDigits? (chars : List Char) : Option Int :=
  match chars with
  | [] => none
  | c :: rest =>
    if c = '+' then (digits? rest).map Int.ofNat
    else if c = '-' then (digits? rest).map fun n => -Int.ofNat n
    else (digits? (c :: rest)).map Int.ofNat

def hexDigitValue (c : Char) : Nat :=
  if c.isDigit then c.toNat - '0'.toNat
  else if c.isLower then c.toNat - 'a'.toNat + 10
  else c.toNat - 'A'.toNat + 10

/-- Digits to a base after `0x`, `0o` or `0b`. -/
def basedLiteral? (chars : List Char) : Option Nat :=
  let digits (rest : List Char) (base : Nat) (isDigit : Char → Bool) : Option Nat :=
    if rest ≠ [] ∧ rest.all isDigit then
      some (rest.foldl (fun n c => base * n + hexDigitValue c) 0)
    else none
  match chars with
  | '0' :: c :: rest =>
    if c = 'x' ∨ c = 'X' then
      digits rest 16 fun d => d.isDigit || 'a' ≤ d && d ≤ 'f' || 'A' ≤ d && d ≤ 'F'
    else if c = 'o' ∨ c = 'O' then digits rest 8 fun d => '0' ≤ d && d ≤ '7'
    else if c = 'b' ∨ c = 'B' then digits rest 2 fun d => d = '0' || d = '1'
    else none
  | _ => none

/-- The exponent of a decimal number, if there is one. -/
def exponentPart? (chars : List Char) : Option Int :=
  match chars with
  | [] => some 0
  | c :: rest => if c = 'e' ∨ c = 'E' then signedDigits? rest else none

/-- Digits, a fraction and an exponent; there is a digit before or after the point. -/
def unsignedDecimal? (chars : List Char) : Option Rat :=
  let whole := chars.takeWhile Char.isDigit
  let (fraction, rest) := match chars.dropWhile Char.isDigit with
    | [] => ([], [])
    | c :: rest =>
      if c = '.' then (rest.takeWhile Char.isDigit, rest.dropWhile Char.isDigit)
      else ([], c :: rest)
  if whole ++ fraction = [] then none
  else (exponentPart? rest).map fun exponent : Int =>
    Nat.ofDigitChars 10 (whole ++ fraction) 0 * 10 ^ (exponent - (fraction.length : Int))

/-- A decimal number without its sign. -/
def unsignedNumber (negative : Bool) (chars : List Char) : JsNumber :=
  if chars = "Infinity".toList then if negative then .negInfinity else .infinity
  else match unsignedDecimal? chars with
    | some q => .ofRat (if negative then -q else q)
    | none => .nan

/-- `Number(text)`. -/
def stringToNumber (text : String) : JsNumber :=
  match (jsTrim text).toList with
  | [] => .finite 0
  | c :: rest =>
    match basedLiteral? (c :: rest) with
    | some n => .ofRat n
    | none =>
      if c = '+' then unsignedNumber false rest
      else if c = '-' then unsignedNumber true rest
      else unsignedNumber false (c :: rest)

/-- A decimal literal of an integer. -/
def integerLiteral? (text : String) : Option Int := signedDigits? text.toList

/-! ## Comparing doubles -/

namespace JsNumber

variable {x y : Rat} {m n : Int}

theorem infinity_lt (z : JsNumber) : infinity.lt z = false := by
  cases z <;> rfl

theorem lt_negInfinity (z : JsNumber) : z.lt negInfinity = false := by
  cases z <;> rfl

/-- What is not above rounds to what is not above. -/
theorem lt_ofRat (h : y ≤ x) : (ofRat x).lt (ofRat y) = false := by
  have hmono := Rounding.roundTo_mono (-1074) (show 0 < 53 by decide) h
  unfold ofRat
  dsimp only
  generalize Rounding.roundTo 53 (-1074) x = x' at hmono
  generalize Rounding.roundTo 53 (-1074) y = y' at hmono
  by_cases hx : doubleLimit ≤ x'
  · rw [if_pos hx, infinity_lt]
  have hy : ¬ doubleLimit ≤ y' := fun hy => hx (hy.trans hmono)
  rw [if_neg hx, if_neg hy]
  by_cases hy : y' ≤ -doubleLimit
  · rw [if_pos hy, lt_negInfinity]
  have hx : ¬ x' ≤ -doubleLimit := fun hx => hy (hmono.trans hx)
  rw [if_neg hy, if_neg hx]
  exact decide_eq_false (not_lt.mpr hmono)

/-- A small integer lies between the limits. -/
theorem small_lt_limit (h : |n| < 2 ^ 53) : -doubleLimit < (n : Rat) ∧ (n : Rat) < doubleLimit := by
  have hcast : |(n : Rat)| < 2 ^ 53 := by exact_mod_cast h
  exact abs_lt.mp (hcast.trans (pow_lt_pow_right₀ one_lt_two (by decide)))

/-- Integers below 2^53 are doubles. -/
theorem ofRat_intCast (h : |n| < 2 ^ 53) : ofRat n = .finite n := by
  obtain ⟨hlow, hhigh⟩ := small_lt_limit h
  unfold ofRat
  dsimp only
  rw [Rounding.roundTo_intCast (by decide) h, if_neg (not_le.mpr hhigh), if_neg (not_le.mpr hlow)]

/-- The double of an integer is one, unless the integer is too large for a double. -/
theorem isInteger_ofRat_intCast :
    (ofRat n).isInteger = true ↔ |Rounding.roundTo 53 (-1074) n| < doubleLimit := by
  obtain ⟨m, hm⟩ := Rounding.exists_roundTo_intCast 53 (-1074) n
  unfold ofRat
  dsimp only
  rw [hm, abs_lt]
  split
  next h => exact iff_of_false (by simp [isInteger]) (by simp [not_lt.mpr h])
  next hhigh =>
    split
    next h => exact iff_of_false (by simp [isInteger]) (by simp [not_lt.mpr h])
    next hlow => exact iff_of_true (by simp [isInteger]) ⟨not_le.mp hlow, not_le.mp hhigh⟩

/-- Above a small integer every integer rounds to a greater double. -/
theorem small_lt_ofRat (hm : |m| < 2 ^ 53 - 1) (h : m < n) : (ofRat m).lt (ofRat n) = true := by
  obtain ⟨hlow, hhigh⟩ := abs_lt.mp hm
  have hsmall : |m| < 2 ^ 53 := by omega
  have hsucc : |m + 1| < 2 ^ 53 := abs_lt.mpr ⟨by omega, by omega⟩
  have hmono := Rounding.roundTo_mono (-1074) (show 0 < 53 by decide)
    (show ((m + 1 : Int) : Rat) ≤ n by exact_mod_cast h)
  rw [Rounding.roundTo_intCast (by decide) hsucc] at hmono
  have hlt : (m : Rat) < Rounding.roundTo 53 (-1074) n := by
    push_cast at hmono
    linarith
  rw [ofRat_intCast hsmall]
  unfold ofRat
  dsimp only
  split
  · rfl
  · rw [if_neg (not_le.mpr ((small_lt_limit hsmall).1.trans hlt))]
    exact decide_eq_true hlt

/-- And below it to a lesser one. -/
theorem ofRat_lt_small (hm : |m| < 2 ^ 53 - 1) (h : n < m) : (ofRat n).lt (ofRat m) = true := by
  obtain ⟨hlow, hhigh⟩ := abs_lt.mp hm
  have hsmall : |m| < 2 ^ 53 := by omega
  have hpred : |m - 1| < 2 ^ 53 := abs_lt.mpr ⟨by omega, by omega⟩
  have hmono := Rounding.roundTo_mono (-1074) (show 0 < 53 by decide)
    (show (n : Rat) ≤ ((m - 1 : Int) : Rat) by exact_mod_cast Int.le_sub_one_of_lt h)
  rw [Rounding.roundTo_intCast (by decide) hpred] at hmono
  have hlt : Rounding.roundTo 53 (-1074) n < (m : Rat) := by
    push_cast at hmono
    linarith
  rw [ofRat_intCast hsmall]
  unfold ofRat
  dsimp only
  rw [if_neg (not_le.mpr (hlt.trans (small_lt_limit hsmall).2))]
  split
  · rfl
  · exact decide_eq_true hlt

end JsNumber

/-! ## Reading a literal -/

section Literal

variable {text : String} {chars : List Char} {n : Int} {k : Nat}

theorem digits?_eq_some (h : digits? chars = some k) :
    chars ≠ [] ∧ (∀ c ∈ chars, c.isDigit = true) ∧ Nat.ofDigitChars 10 chars 0 = k := by
  unfold digits? at h
  split at h
  next hc => exact ⟨hc.1, List.all_eq_true.mp hc.2, Option.some.inj h⟩
  next => cases h

theorem isJsSpace_of_isDigit {c : Char} (h : c.isDigit = true) : isJsSpace c = false := by
  have hrange : 48 ≤ c.toNat ∧ c.toNat ≤ 57 := by
    unfold Char.isDigit at h
    simp only [Bool.and_eq_true, decide_eq_true_eq] at h
    exact h
  obtain ⟨hlow, hhigh⟩ := hrange
  rw [← Char.ofNat_toNat c]
  generalize c.toNat = k at hlow hhigh
  interval_cases k <;> rfl

/-- There is nothing to trim where no character is a blank. -/
theorem jsTrim_eq_self (h : ∀ c ∈ text.toList, isJsSpace c = false) : jsTrim text = text := by
  have hfront {chars : List Char} (h : ∀ c ∈ chars, isJsSpace c = false) :
      chars.dropWhile isJsSpace = chars := by
    cases chars with
    | nil => rfl
    | cons c rest => rw [List.dropWhile_cons_of_neg (by simp [h c List.mem_cons_self])]
  unfold jsTrim
  rw [hfront h, hfront (fun c hc => h c (List.mem_reverse.mp hc)), List.reverse_reverse,
    String.ofList_toList]

/-- The number of a literal is the double next to the integer it stands for. -/
theorem unsignedNumber_digits (h : digits? chars = some k) (negative : Bool) :
    unsignedNumber negative chars = .ofRat (if negative then -(k : Rat) else k) := by
  obtain ⟨hne, hdigits, hvalue⟩ := digits?_eq_some h
  have hword : chars ≠ "Infinity".toList := by
    rintro rfl
    exact absurd (hdigits 'I' (by decide)) (by decide)
  have htake : chars.takeWhile Char.isDigit = chars := List.takeWhile_eq_self_iff.mpr hdigits
  have hdrop : chars.dropWhile Char.isDigit = [] := List.dropWhile_eq_nil_iff.mpr hdigits
  have hdecimal : unsignedDecimal? chars = some (k : Rat) := by
    unfold unsignedDecimal?
    rw [htake, hdrop]
    simp [hne, exponentPart?, hvalue]
  unfold unsignedNumber
  rw [if_neg hword, hdecimal]

/-- Digits, after a sign perhaps, are no number with a base. -/
theorem basedLiteral?_eq_none (h : ∀ c ∈ chars.tail, c.isDigit = true) :
    basedLiteral? chars = none := by
  unfold basedLiteral?
  dsimp only
  split
  next c rest =>
    have hdigit : c.isDigit = true := h c (by simp)
    have hne (letter : Char) (hletter : letter.isDigit = false) : c ≠ letter := by
      rintro rfl
      rw [hletter] at hdigit
      cases hdigit
    rw [if_neg (not_or.mpr ⟨hne _ rfl, hne _ rfl⟩), if_neg (not_or.mpr ⟨hne _ rfl, hne _ rfl⟩),
      if_neg (not_or.mpr ⟨hne _ rfl, hne _ rfl⟩)]
  next => rfl

/-- The number of a literal is the double next to the integer it stands for. -/
theorem stringToNumber_literal (h : integerLiteral? text = some n) :
    stringToNumber text = .ofRat n := by
  unfold integerLiteral? signedDigits? at h
  split at h
  next => cases h
  next c rest htext =>
    have hrest (hdigits : ∀ d ∈ rest, d.isDigit = true) (hc : isJsSpace c = false) :
        (jsTrim text).toList = c :: rest ∧ basedLiteral? (c :: rest) = none := by
      refine ⟨?_, basedLiteral?_eq_none hdigits⟩
      rw [jsTrim_eq_self, htext]
      intro d hd
      rw [htext] at hd
      rcases List.mem_cons.mp hd with rfl | hd
      · exact hc
      · exact isJsSpace_of_isDigit (hdigits d hd)
    unfold stringToNumber
    by_cases hplus : c = '+'
    · subst hplus
      rw [if_pos rfl] at h
      obtain ⟨k, hk, rfl⟩ := Option.map_eq_some_iff.mp h
      obtain ⟨htrim, hbased⟩ := hrest (digits?_eq_some hk).2.1 rfl
      simp only [htrim, hbased, if_true, unsignedNumber_digits hk]
      rfl
    by_cases hminus : c = '-'
    · subst hminus
      rw [if_neg hplus, if_pos rfl] at h
      obtain ⟨k, hk, rfl⟩ := Option.map_eq_some_iff.mp h
      obtain ⟨htrim, hbased⟩ := hrest (digits?_eq_some hk).2.1 rfl
      simp only [htrim, hbased, if_neg hplus, if_true, unsignedNumber_digits hk]
      simp
    · rw [if_neg hplus, if_neg hminus] at h
      obtain ⟨k, hk, rfl⟩ := Option.map_eq_some_iff.mp h
      have hdigits := (digits?_eq_some hk).2.1
      obtain ⟨htrim, hbased⟩ := hrest (fun d hd => hdigits d (List.mem_cons_of_mem _ hd))
        (isJsSpace_of_isDigit (hdigits c List.mem_cons_self))
      simp only [htrim, hbased, if_neg hplus, if_neg hminus, unsignedNumber_digits hk]
      rfl

theorem digits?_toDigits (k : Nat) : digits? (Nat.toDigits 10 k) = some k := by
  have hdigits : ∀ c ∈ Nat.toDigits 10 k, c.isDigit = true := fun c hc =>
    Nat.isDigit_of_mem_toDigits (by decide) (by decide) hc
  unfold digits?
  rw [if_pos ⟨Nat.toDigits_ne_nil, List.all_eq_true.mpr hdigits⟩, Nat.ofDigitChars_ten_toDigits]

theorem signedDigits?_digits (h : digits? chars = some k) :
    signedDigits? chars = some (k : Int) := by
  obtain ⟨hne, hdigits, -⟩ := digits?_eq_some h
  cases chars with
  | nil => exact absurd rfl hne
  | cons c rest =>
    have hc := hdigits c List.mem_cons_self
    have hplus : c ≠ '+' := by
      rintro rfl
      exact absurd hc (by decide)
    have hminus : c ≠ '-' := by
      rintro rfl
      exact absurd hc (by decide)
    unfold signedDigits?
    dsimp only
    rw [if_neg hplus, if_neg hminus, h]
    rfl

/-- An integer is printed as a literal of itself. -/
theorem integerLiteral?_toString (n : Int) : integerLiteral? (toString n) = some n := by
  unfold integerLiteral?
  cases n with
  | ofNat k =>
    rw [show (toString (Int.ofNat k)).toList = Nat.toDigits 10 k from Nat.toList_repr]
    exact signedDigits?_digits (digits?_toDigits k)
  | negSucc k =>
    have hlist : (toString (Int.negSucc k)).toList = '-' :: Nat.toDigits 10 (k + 1) := by
      show ("-" ++ Nat.repr (k + 1)).toList = _
      rw [String.toList_append, Nat.toList_repr]
      rfl
    rw [hlist]
    unfold signedDigits?
    dsimp only
    rw [if_neg (show ¬ '-' = '+' by decide), if_pos rfl, digits?_toDigits]
    rfl

/-- A literal is made of digits and a sign. -/
theorem mem_literal (h : integerLiteral? text = some n) {c : Char} (hc : c ∈ text.toList) :
    c.isDigit = true ∨ c = '+' ∨ c = '-' := by
  unfold integerLiteral? signedDigits? at h
  split at h
  next htext => simp [htext] at hc
  next d rest htext =>
    rw [htext] at hc
    rcases List.mem_cons.mp hc with rfl | hrest
    · split at h
      next hplus => exact .inr (.inl hplus)
      next =>
        split at h
        next hminus => exact .inr (.inr hminus)
        next =>
          obtain ⟨k, hk, -⟩ := Option.map_eq_some_iff.mp h
          exact .inl ((digits?_eq_some hk).2.1 c List.mem_cons_self)
    · split at h
      next =>
        obtain ⟨k, hk, -⟩ := Option.map_eq_some_iff.mp h
        exact .inl ((digits?_eq_some hk).2.1 c hrest)
      next =>
        split at h
        next =>
          obtain ⟨k, hk, -⟩ := Option.map_eq_some_iff.mp h
          exact .inl ((digits?_eq_some hk).2.1 c hrest)
        next =>
          obtain ⟨k, hk, -⟩ := Option.map_eq_some_iff.mp h
          exact .inl ((digits?_eq_some hk).2.1 c (List.mem_cons_of_mem _ hrest))

end Literal

end Panel
