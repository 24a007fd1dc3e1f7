import Mathlib.Data.List.Basic

/-!
# Decoding UTF-8 with replacement

The decoder of the Encoding Standard, one byte at a time. It knows how many bytes of a character
are still missing and between which bounds the next one has to be. A byte outside the bounds ends
the character with U+FFFD and is looked at once more as a first byte; so nothing but the bytes of a
character is ever taken for one (`decode_encode`).

The decoder loses what it replaces: what it reads is encoded as the bytes it was read from exactly
when those are the encoding of a text (`encode_decode_iff`).
-/

namespace Utf8

/-- The bytes of a character that are missing: how many behind the next one, what has been read of
the value, and the bounds of the next byte. -/
structure Partial where
  behind : Nat
  value : Nat
  lower : Nat
  upper : Nat
deriving DecidableEq, Repr

/-- U+FFFD. -/
def replacement : Char := '\uFFFD'

/-- A first byte: a character, the beginning of one, or none of either. -/
def lead (b : Nat) : Char ⊕ Partial :=
  if b ≤ 0x7F then .inl (.ofNat b)
  else if 0xC2 ≤ b ∧ b ≤ 0xDF then .inr ⟨0, b % 32, 0x80, 0xBF⟩
  else if 0xE0 ≤ b ∧ b ≤ 0xEF then
    .inr ⟨1, b % 16, if b = 0xE0 then 0xA0 else 0x80, if b = 0xED then 0x9F else 0xBF⟩
  else if 0xF0 ≤ b ∧ b ≤ 0xF4 then
    .inr ⟨2, b % 8, if b = 0xF0 then 0x90 else 0x80, if b = 0xF4 then 0x8F else 0xBF⟩
  else .inl replacement

/-- What a byte within the bounds makes of a partial character. -/
def Partial.add (p : Partial) (b : Nat) : Char ⊕ Partial :=
  match p.behind with
  | 0 => .inl (.ofNat (p.value * 64 + b % 64))
  | behind + 1 => .inr ⟨behind, p.value * 64 + b % 64, 0x80, 0xBF⟩

/-- Decode, behind a partial character or between two characters. -/
def decodeFrom : Option Partial → List UInt8 → List Char
  | none, [] => []
  | some _, [] => [replacement]
  | none, b :: bs =>
    match lead b.toNat with
    | .inl c => c :: decodeFrom none bs
    | .inr p => decodeFrom (some p) bs
  | some p, b :: bs =>
    if p.lower ≤ b.toNat ∧ b.toNat ≤ p.upper then
      match p.add b.toNat with
      | .inl c => c :: decodeFrom none bs
      | .inr p' => decodeFrom (some p') bs
    else
      replacement :: match lead b.toNat with
        | .inl c => c :: decodeFrom none bs
        | .inr p' => decodeFrom (some p') bs

/-- Decode a sequence of bytes. -/
def decode (bytes : ByteArray) : String := .ofList (decodeFrom none bytes.data.toList)

/-! ## The bytes of a character -/

/-- The first byte of a longer character. -/
theorem decodeFrom_lead {b : UInt8} {bs : List UInt8} {p : Partial} (h : lead b.toNat = .inr p) :
    decodeFrom none (b :: bs) = decodeFrom (some p) bs := by
  simp only [decodeFrom, h]

/-- A byte within the bounds, and not the last one. -/
theorem decodeFrom_add {b : UInt8} {bs : List UInt8} {behind value lower upper : Nat}
    (hlower : lower ≤ b.toNat) (hupper : b.toNat ≤ upper) :
    decodeFrom (some ⟨behind + 1, value, lower, upper⟩) (b :: bs) =
      decodeFrom (some ⟨behind, value * 64 + b.toNat % 64, 0x80, 0xBF⟩) bs := by
  simp only [decodeFrom, Partial.add, if_pos (And.intro hlower hupper)]

/-- The last byte. -/
theorem decodeFrom_last {b : UInt8} {bs : List UInt8} {value lower upper : Nat} {c : Char}
    (hlower : lower ≤ b.toNat) (hupper : b.toNat ≤ upper)
    (hvalue : value * 64 + b.toNat % 64 = c.toNat) :
    decodeFrom (some ⟨0, value, lower, upper⟩) (b :: bs) = c :: decodeFrom none bs := by
  simp only [decodeFrom, Partial.add, if_pos (And.intro hlower hupper), hvalue, Char.ofNat_toNat]

theorem toNat_ofNat_of_lt {n : Nat} (h : n < 256) : (UInt8.ofNat n).toNat = n :=
  Nat.mod_eq_of_lt h

theorem lead_two {b : Nat} (hlow : 0xC2 ≤ b) (hhigh : b ≤ 0xDF) :
    lead b = .inr ⟨0, b % 32, 0x80, 0xBF⟩ := by
  rw [lead, if_neg (by omega), if_pos ⟨hlow, hhigh⟩]

theorem lead_three {b : Nat} (hlow : 0xE0 ≤ b) (hhigh : b ≤ 0xEF) :
    lead b = .inr ⟨1, b % 16, if b = 0xE0 then 0xA0 else 0x80,
      if b = 0xED then 0x9F else 0xBF⟩ := by
  rw [lead, if_neg (by omega), if_neg (by omega), if_pos ⟨hlow, hhigh⟩]

theorem lead_four {b : Nat} (hlow : 0xF0 ≤ b) (hhigh : b ≤ 0xF4) :
    lead b = .inr ⟨2, b % 8, if b = 0xF0 then 0x90 else 0x80,
      if b = 0xF4 then 0x8F else 0xBF⟩ := by
  rw [lead, if_neg (by omega), if_neg (by omega), if_neg (by omega), if_pos ⟨hlow, hhigh⟩]

/-- A character is no surrogate. -/
theorem scalar (c : Char) : c.toNat < 0xD800 ∨ 0xDFFF < c.toNat ∧ c.toNat < 0x110000 := c.valid

/-- The bytes of a character are read as the character. -/
theorem decodeFrom_encodeChar (c : Char) (bs : List UInt8) :
    decodeFrom none (String.utf8EncodeChar c ++ bs) = c :: decodeFrom none bs := by
  have hscalar := scalar c
  fun_cases String.utf8EncodeChar c with
  | case1 v h =>
    have hv : v = c.toNat := rfl
    have hlead : lead (UInt8.ofNat v).toNat = .inl c := by
      rw [toNat_ofNat_of_lt (by omega), lead, if_pos h, hv, Char.ofNat_toNat]
    simp only [List.cons_append, List.nil_append, decodeFrom, hlead]
  | case2 v hone h =>
    have hv : v = c.toNat := rfl
    have hlead := lead_two (b := v / 64 % 32 + 0xC0) (by omega) (by omega)
    have hfirst : (UInt8.ofNat (v / 64 % 32 + 0xC0)).toNat = _ := toNat_ofNat_of_lt (by omega)
    have hlast : (UInt8.ofNat (v % 64 + 0x80)).toNat = _ := toNat_ofNat_of_lt (by omega)
    rw [← hfirst] at hlead
    rw [List.cons_append, decodeFrom_lead hlead, List.cons_append, List.nil_append]
    exact decodeFrom_last (by omega) (by omega) (by omega)
  | case3 v hone htwo h =>
    have hv : v = c.toNat := rfl
    have hlead := lead_three (b := v / 4096 % 16 + 0xE0) (by omega) (by omega)
    have hfirst : (UInt8.ofNat (v / 4096 % 16 + 0xE0)).toNat = _ := toNat_ofNat_of_lt (by omega)
    have hsecond : (UInt8.ofNat (v / 64 % 64 + 0x80)).toNat = _ := toNat_ofNat_of_lt (by omega)
    have hlast : (UInt8.ofNat (v % 64 + 0x80)).toNat = _ := toNat_ofNat_of_lt (by omega)
    rw [← hfirst] at hlead
    simp only [List.cons_append, List.nil_append]
    rw [decodeFrom_lead hlead, decodeFrom_add (by split <;> omega) (by split <;> omega)]
    exact decodeFrom_last (by omega) (by omega) (by omega)
  | case4 v hone htwo hthree =>
    have hv : v = c.toNat := rfl
    have hlead := lead_four (b := v / 262144 % 8 + 0xF0) (by omega) (by omega)
    have hfirst : (UInt8.ofNat (v / 262144 % 8 + 0xF0)).toNat = _ := toNat_ofNat_of_lt (by omega)
    have hsecond : (UInt8.ofNat (v / 4096 % 64 + 0x80)).toNat = _ := toNat_ofNat_of_lt (by omega)
    have hthird : (UInt8.ofNat (v / 64 % 64 + 0x80)).toNat = _ := toNat_ofNat_of_lt (by omega)
    have hlast : (UInt8.ofNat (v % 64 + 0x80)).toNat = _ := toNat_ofNat_of_lt (by omega)
    rw [← hfirst] at hlead
    simp only [List.cons_append, List.nil_append]
    rw [decodeFrom_lead hlead, decodeFrom_add (by split <;> omega) (by split <;> omega),
      decodeFrom_add (by omega) (by omega)]
    exact decodeFrom_last (by omega) (by omega) (by omega)

theorem decodeFrom_flatMap (text : List Char) :
    decodeFrom none (text.flatMap String.utf8EncodeChar) = text := by
  induction text with
  | nil => rfl
  | cons c text ih => rw [List.flatMap_cons, decodeFrom_encodeChar, ih]

/-- The encoding of a text is read as the text. -/
theorem decode_encode (text : String) : decode text.toUTF8 = text := by
  have hbytes : text.toUTF8 = (text.toList.flatMap String.utf8EncodeChar).toByteArray := by
    have h := String.toByteArray_ofList (l := text.toList)
    rwa [String.ofList_toList] at h
  rw [decode, hbytes, List.data_toByteArray]
  simp [decodeFrom_flatMap]

/-- Bytes survive being decoded and encoded again exactly when they are the encoding of a text. -/
theorem encode_decode_iff (bytes : ByteArray) :
    (decode bytes).toUTF8 = bytes ↔ ∃ text : String, text.toUTF8 = bytes := by
  constructor
  · intro h
    exact ⟨_, h⟩
  · rintro ⟨text, rfl⟩
    rw [decode_encode]

/-! ## The mark in front -/

/-- The bytes of U+FEFF. -/
def mark : List UInt8 := [0xEF, 0xBB, 0xBF]

/-- Decode what may have a byte order mark in front, which is no part of the text. -/
def decodeText (bytes : ByteArray) : String :=
  .ofList (decodeFrom none
    (if mark.isPrefixOf bytes.data.toList then bytes.data.toList.drop 3 else bytes.data.toList))

/-- The text without U+FEFF in front. -/
def withoutMark (text : String) : String :=
  if text.toList.head? = some '\uFEFF' then .ofList text.toList.tail else text

/-- The encoding of a text is read as the text, without the mark. -/
theorem decodeText_encode (text : String) : decodeText text.toUTF8 = withoutMark text := by
  have hbytes : text.toUTF8.data.toList = text.toList.flatMap String.utf8EncodeChar := by
    have h := String.toByteArray_ofList (l := text.toList)
    rw [String.ofList_toList] at h
    change text.toByteArray.data.toList = _
    rw [h]
    exact congrArg Array.toList (List.data_toByteArray ..)
  have hmark : String.utf8EncodeChar '\uFEFF' = mark := by decide
  rw [decodeText, withoutMark, hbytes]
  cases hlist : text.toList with
  | nil =>
    rw [← String.ofList_toList (s := text), hlist]
    rfl
  | cons c rest =>
    by_cases hc : c = '\uFEFF'
    · subst hc
      rw [List.flatMap_cons, hmark, if_pos (List.isPrefixOf_iff_prefix.mpr (List.prefix_append ..)),
        List.head?_cons, if_pos rfl, List.tail_cons]
      change String.ofList (decodeFrom none (rest.flatMap String.utf8EncodeChar)) = _
      rw [decodeFrom_flatMap]
    · have hno : ¬ mark.isPrefixOf ((c :: rest).flatMap String.utf8EncodeChar) = true := by
        intro hpre
        obtain ⟨more, hmore⟩ := List.isPrefixOf_iff_prefix.mp hpre
        -- Both are read, and they begin with different characters.
        have hread := decodeFrom_flatMap (c :: rest)
        rw [← hmore, ← hmark, decodeFrom_encodeChar] at hread
        exact hc (List.cons.inj hread).1.symm
      rw [if_neg hno, List.head?_cons, if_neg (by simpa using hc), decodeFrom_flatMap, ← hlist,
        String.ofList_toList]

/-- A text has the mark in front or is read as it is. -/
theorem withoutMark_eq_iff {text : String} :
    withoutMark text = text ↔ text.toList.head? ≠ some '\uFEFF' := by
  unfold withoutMark
  split
  next h =>
    refine iff_of_false (fun heq => ?_) (fun hne => hne h)
    have hlength := congrArg (fun t : String => t.toList.length) heq
    cases hlist : text.toList with
    | nil =>
      rw [hlist] at h
      cases h
    | cons c rest => simp [hlist] at hlength
  next h => exact iff_of_true rfl h

end Utf8
