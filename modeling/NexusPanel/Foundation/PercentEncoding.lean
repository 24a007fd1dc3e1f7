import NexusPanel.Foundation.Utf8

/-!
# Percent-encoding

A byte that may not stand for itself in a URL is written as `%` and two hexadecimal digits. Which
bytes may is a parameter, the set of bytes that are kept. Decoding undoes every encoding that does
not keep `%` (`decode_encode`), and it undoes two encodings in a row when the second one leaves
what the first one writes (`encode_encode`).

A query is a sequence of pairs, joined by `&`, each a name and a value, joined by `=`. It is parsed
back into the pairs it was written from (`parse_serialize`), whatever their texts are.
-/

namespace PercentEncoding

/-! ## Bytes -/

def percent : UInt8 := 0x25
def ampersand : UInt8 := 0x26
def plus : UInt8 := 0x2B
def equals : UInt8 := 0x3D

/-- The digit of a number below 16, in upper case. -/
def hexDigit (n : Nat) : UInt8 := if n < 10 then .ofNat (0x30 + n) else .ofNat (0x37 + n)

/-- The number that a hexadecimal digit stands for, in either case. -/
def digitValue (b : UInt8) : Option Nat :=
  if 0x30 ≤ b.toNat ∧ b.toNat ≤ 0x39 then some (b.toNat - 0x30)
  else if 0x41 ≤ b.toNat ∧ b.toNat ≤ 0x46 then some (b.toNat - 0x37)
  else if 0x61 ≤ b.toNat ∧ b.toNat ≤ 0x66 then some (b.toNat - 0x57)
  else none

def encodeByte (keep : UInt8 → Bool) (b : UInt8) : List UInt8 :=
  if keep b then [b] else [percent, hexDigit (b.toNat / 16), hexDigit (b.toNat % 16)]

def encode (keep : UInt8 → Bool) (bytes : List UInt8) : List UInt8 :=
  bytes.flatMap (encodeByte keep)

/-- The byte that is written with these three. -/
def escaped (b high low : UInt8) : Option UInt8 :=
  if b = percent then do
    let h ← digitValue high
    let l ← digitValue low
    return .ofNat (h * 16 + l)
  else none

/-- A `%` that is not followed by two digits stands for itself. -/
def decode : List UInt8 → List UInt8
  | b :: high :: low :: rest =>
    match escaped b high low with
    | some byte => byte :: decode rest
    | none => b :: decode (high :: low :: rest)
  | short => short

/-! ## Decoding an encoding -/

section Encoding

variable {keep keep' : UInt8 → Bool} {b : UInt8} {bytes rest : List UInt8}

theorem toNat_hexDigit {n : Nat} (h : n < 16) :
    (hexDigit n).toNat = if n < 10 then 0x30 + n else 0x37 + n := by
  unfold hexDigit
  split
  · exact Utf8.toNat_ofNat_of_lt (by omega)
  · exact Utf8.toNat_ofNat_of_lt (by omega)

theorem digitValue_hexDigit {n : Nat} (h : n < 16) : digitValue (hexDigit n) = some n := by
  rw [digitValue, toNat_hexDigit h]
  by_cases hten : n < 10
  · rw [if_pos hten, if_pos (by omega)]
    simp
  · rw [if_neg hten, if_neg (by omega), if_pos (by omega)]
    simp

/-- What is no `%` stands for itself. -/
theorem decode_cons (h : b ≠ percent) (rest : List UInt8) :
    decode (b :: rest) = b :: decode rest := by
  match rest with
  | [] => rfl
  | [_] => rfl
  | high :: low :: rest => rw [decode, escaped, if_neg h]

theorem decode_encodeByte (hkeep : keep percent = false) (b : UInt8) (rest : List UInt8) :
    decode (encodeByte keep b ++ rest) = b :: decode rest := by
  unfold encodeByte
  split
  next hkept =>
    refine decode_cons ?_ rest
    rintro rfl
    rw [hkeep] at hkept
    cases hkept
  next =>
    have hb := b.toNat_lt
    have hescaped : escaped percent (hexDigit (b.toNat / 16)) (hexDigit (b.toNat % 16)) = some b := by
      rw [escaped, if_pos rfl, digitValue_hexDigit (by omega), digitValue_hexDigit (by omega)]
      have hsum : b.toNat / 16 * 16 + b.toNat % 16 = b.toNat := by omega
      change some (UInt8.ofNat (b.toNat / 16 * 16 + b.toNat % 16)) = some b
      rw [hsum, UInt8.ofNat_toNat]
    simp only [List.cons_append, List.nil_append]
    rw [decode, hescaped]

theorem decode_encode (hkeep : keep percent = false) (bytes : List UInt8) :
    decode (encode keep bytes) = bytes := by
  induction bytes with
  | nil => rfl
  | cons b bytes ih =>
    rw [encode, List.flatMap_cons, decode_encodeByte hkeep]
    exact congrArg (b :: ·) ih

/-- A byte of an encoding is kept, or it is one of those that an encoding is written with. -/
theorem mem_encode (h : b ∈ encode keep bytes) :
    (keep b = true ∧ b ∈ bytes) ∨ b = percent ∨ ∃ n < 16, b = hexDigit n := by
  obtain ⟨a, ha, hb⟩ := List.mem_flatMap.mp h
  unfold encodeByte at hb
  split at hb
  next hkept =>
    rw [List.mem_singleton] at hb
    subst hb
    exact .inl ⟨hkept, ha⟩
  next =>
    have hlt := a.toNat_lt
    simp only [List.mem_cons, List.not_mem_nil, or_false] at hb
    rcases hb with rfl | rfl | rfl
    · exact .inr (.inl rfl)
    · exact .inr (.inr ⟨_, by omega, rfl⟩)
    · exact .inr (.inr ⟨_, by omega, rfl⟩)

/-- Bytes that are all kept are not changed. -/
theorem encode_of_forall (h : ∀ b ∈ bytes, keep b = true) : encode keep bytes = bytes := by
  induction bytes with
  | nil => rfl
  | cons b bytes ih =>
    rw [encode, List.flatMap_cons, encodeByte, if_pos (h b List.mem_cons_self)]
    exact congrArg (b :: ·) (ih fun a ha => h a (List.mem_cons_of_mem _ ha))

theorem encode_append (bytes rest : List UInt8) :
    encode keep (bytes ++ rest) = encode keep bytes ++ encode keep rest :=
  List.flatMap_append

/-- A second encoding that leaves what encodings are written with encodes some more bytes of the
text. -/
theorem encode_encode (hpercent : keep' percent = true)
    (hdigits : ∀ n < 16, keep' (hexDigit n) = true) (bytes : List UInt8) :
    encode keep' (encode keep bytes) = encode (fun b => keep b && keep' b) bytes := by
  induction bytes with
  | nil => rfl
  | cons b bytes ih =>
    have hbyte : encode keep' (encodeByte keep b) = encodeByte (fun b => keep b && keep' b) b := by
      unfold encodeByte
      by_cases hkept : keep b = true
      · rw [if_pos hkept, encode, List.flatMap_singleton, encodeByte]
        simp only [hkept, Bool.true_and]
      · have hb := b.toNat_lt
        rw [if_neg hkept, if_neg (by simp [hkept])]
        refine encode_of_forall fun a ha => ?_
        simp only [List.mem_cons, List.not_mem_nil, or_false] at ha
        rcases ha with rfl | rfl | rfl
        · exact hpercent
        · exact hdigits _ (by omega)
        · exact hdigits _ (by omega)
    have hsplit : encode keep' (encodeByte keep b ++ encode keep bytes) =
        encodeByte (fun b => keep b && keep' b) b ++
          encode (fun b => keep b && keep' b) bytes := by
      rw [encode_append, hbyte, ih]
    exact hsplit

end Encoding

/-! ## Queries -/

/-- The text that a part of a query stands for: a `+` is a space, and what is no UTF-8 is
replaced. -/
def formText (part : List UInt8) : String :=
  .ofList (Utf8.decodeFrom none (decode (part.map fun b => if b = plus then 0x20 else b)))

/-- A name and a value; without `=` the value is empty. -/
def formPair (part : List UInt8) : String × String :=
  (formText (part.takeWhile (· ≠ equals)), formText ((part.dropWhile (· ≠ equals)).drop 1))

/-- The pairs of a query. -/
def parse (query : List UInt8) : List (String × String) :=
  ((query.splitOn ampersand).filter (· ≠ [])).map formPair

def utf8 (text : String) : List UInt8 := text.toUTF8.data.toList

def serializePair (keep : UInt8 → Bool) (pair : String × String) : List UInt8 :=
  encode keep (utf8 pair.1) ++ equals :: encode keep (utf8 pair.2)

/-- A query with these pairs. -/
def serialize (keep : UInt8 → Bool) (pairs : List (String × String)) : List UInt8 :=
  [ampersand].intercalate (pairs.map (serializePair keep))

/-- A set of bytes that may be kept in a query: none of them means something there. -/
structure FormSafe (keep : UInt8 → Bool) : Prop where
  percent : keep percent = false
  ampersand : keep ampersand = false
  equals : keep equals = false
  plus : keep plus = false

section Forms

variable {keep keep' : UInt8 → Bool}

/-- The bytes that a digit of an encoding is not. -/
theorem hexDigit_ne {n : Nat} (h : n < 16) :
    hexDigit n ≠ ampersand ∧ hexDigit n ≠ equals ∧ hexDigit n ≠ plus := by
  have hdigit := toNat_hexDigit h
  have hne (b : UInt8) (hb : b.toNat < 0x30 ∨ b.toNat = 0x3D) : hexDigit n ≠ b := by
    rintro rfl
    split at hdigit <;> omega
  exact ⟨hne _ (.inl (by decide)), hne _ (.inr (by decide)), hne _ (.inl (by decide))⟩

/-- What an encoding has of the bytes that mean something in a query. -/
theorem encode_ne {b : UInt8} {bytes : List UInt8} (hkeep : FormSafe keep)
    (hb : b ∈ encode keep bytes) : b ≠ ampersand ∧ b ≠ equals ∧ b ≠ plus := by
  rcases mem_encode hb with ⟨hkept, -⟩ | rfl | ⟨n, hn, rfl⟩
  · have hne (a : UInt8) (ha : keep a = false) : b ≠ a := by
      rintro rfl
      rw [ha] at hkept
      cases hkept
    exact ⟨hne _ hkeep.ampersand, hne _ hkeep.equals, hne _ hkeep.plus⟩
  · decide
  · exact hexDigit_ne hn

/-- A part of a query is read as the text it was written from. -/
theorem formText_encode (hkeep : FormSafe keep) (text : String) :
    formText (encode keep (utf8 text)) = text := by
  have hplus : (encode keep (utf8 text)).map (fun b => if b = plus then 0x20 else b) =
      encode keep (utf8 text) := by
    conv_rhs => rw [← List.map_id (encode keep (utf8 text))]
    exact List.map_congr_left fun b hb => if_neg (encode_ne hkeep hb).2.2
  rw [formText, hplus, decode_encode hkeep.percent]
  exact Utf8.decode_encode text

theorem formPair_serializePair (hkeep : FormSafe keep) (pair : String × String) :
    formPair (serializePair keep pair) = pair := by
  have hname : ∀ b ∈ encode keep (utf8 pair.1), (decide (b ≠ equals)) = true := by
    intro b hb
    exact decide_eq_true (encode_ne hkeep hb).2.1
  have hstop : (decide (equals ≠ equals)) = false := by decide
  rw [formPair, serializePair, List.takeWhile_append_of_pos hname, List.dropWhile_append_of_pos hname,
    List.takeWhile_cons_of_neg (by rw [hstop]; exact Bool.false_ne_true),
    List.dropWhile_cons_of_neg (by rw [hstop]; exact Bool.false_ne_true),
    List.append_nil, List.drop_one, List.tail_cons, formText_encode hkeep, formText_encode hkeep]

/-- A query is parsed into the pairs it was written from. -/
theorem parse_serialize (hkeep : FormSafe keep) (pairs : List (String × String)) :
    parse (serialize keep pairs) = pairs := by
  rcases List.eq_nil_or_concat' pairs with rfl | hne
  · rfl
  have hpairs : pairs.map (serializePair keep) ≠ [] := by
    obtain ⟨init, last, rfl⟩ := hne
    simp
  have hfree : ∀ part ∈ pairs.map (serializePair keep), ampersand ∉ part := by
    intro part hpart hmem
    obtain ⟨pair, -, rfl⟩ := List.mem_map.mp hpart
    rcases List.mem_append.mp hmem with hmem | hmem
    · exact (encode_ne hkeep hmem).1 rfl
    · rcases List.mem_cons.mp hmem with heq | hmem
      · revert heq
        decide
      · exact (encode_ne hkeep hmem).1 rfl
  have hfull : (pairs.map (serializePair keep)).filter (· ≠ []) =
      pairs.map (serializePair keep) := by
    refine List.filter_eq_self.mpr fun part hpart => ?_
    obtain ⟨pair, -, rfl⟩ := List.mem_map.mp hpart
    exact decide_eq_true (List.append_ne_nil_of_right_ne_nil _ (List.cons_ne_nil _ _))
  rw [parse, serialize, List.splitOn_intercalate ampersand hfree hpairs, hfull, List.map_map]
  conv_rhs => rw [← List.map_id pairs]
  exact List.map_congr_left fun pair _ => formPair_serializePair hkeep pair

theorem serialize_cons_cons (pair next : String × String) (pairs : List (String × String)) :
    serialize keep (pair :: next :: pairs) =
      serializePair keep pair ++ ampersand :: serialize keep (next :: pairs) := by
  rw [serialize, List.map_cons, List.map_cons, List.intercalate_cons_cons, List.append_assoc]
  rfl

/-- A second encoding that leaves the signs of a query as well. -/
theorem encode_serialize (hpercent : keep' percent = true)
    (hdigits : ∀ n < 16, keep' (hexDigit n) = true) (hampersand : keep' ampersand = true)
    (hequals : keep' equals = true) (pairs : List (String × String)) :
    encode keep' (serialize keep pairs) = serialize (fun b => keep b && keep' b) pairs := by
  have hcons (b : UInt8) (hb : keep' b = true) (rest : List UInt8) :
      encode keep' (b :: rest) = b :: encode keep' rest := by
    rw [encode, List.flatMap_cons, encodeByte, if_pos hb]
    rfl
  have hpair (pair : String × String) : encode keep' (serializePair keep pair) =
      serializePair (fun b => keep b && keep' b) pair := by
    rw [serializePair, encode_append, hcons _ hequals, encode_encode hpercent hdigits,
      encode_encode hpercent hdigits]
    rfl
  induction pairs with
  | nil => rfl
  | cons pair pairs ih =>
    cases pairs with
    | nil => simpa [serialize] using hpair pair
    | cons next pairs =>
      rw [serialize_cons_cons, serialize_cons_cons, encode_append, hpair, hcons _ hampersand, ih]

/-- What a query is written with. -/
theorem mem_serialize {b : UInt8} {pairs : List (String × String)} (h : b ∈ serialize keep pairs) :
    keep b = true ∨ b = percent ∨ b = ampersand ∨ b = equals ∨ ∃ n < 16, b = hexDigit n := by
  have hencoded {text : String} (hb : b ∈ encode keep (utf8 text)) : keep b = true ∨ b = percent ∨
      b = ampersand ∨ b = equals ∨ ∃ n < 16, b = hexDigit n := by
    rcases mem_encode hb with ⟨hkept, -⟩ | hpercent | hdigit
    · exact .inl hkept
    · exact .inr (.inl hpercent)
    · exact .inr (.inr (.inr (.inr hdigit)))
  have hpair {pair : String × String} (hb : b ∈ serializePair keep pair) : keep b = true ∨
      b = percent ∨ b = ampersand ∨ b = equals ∨ ∃ n < 16, b = hexDigit n := by
    rcases List.mem_append.mp hb with hb | hb
    · exact hencoded hb
    · rcases List.mem_cons.mp hb with rfl | hb
      · exact .inr (.inr (.inr (.inl rfl)))
      · exact hencoded hb
  induction pairs with
  | nil => cases h
  | cons pair pairs ih =>
    cases pairs with
    | nil => exact hpair (by simpa [serialize] using h)
    | cons next pairs =>
      rw [serialize_cons_cons] at h
      rcases List.mem_append.mp h with hb | hb
      · exact hpair hb
      · rcases List.mem_cons.mp hb with rfl | hb
        · exact .inr (.inr (.inl rfl))
        · exact ih hb

end Forms

end PercentEncoding
