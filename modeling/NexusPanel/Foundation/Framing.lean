import Mathlib.Data.List.Basic
import Mathlib.Data.List.TakeWhile

/-!
# Framed fields

A list of fields written one after the other, each behind its length in unary, so that it can
be read back whatever characters the fields have. Numbers are fields too.
-/

namespace Framing

/-- The length, a separator, and the field. -/
def frame (field : List Char) : List Char :=
  List.replicate field.length '1' ++ '0' :: field

/-- The first field, and what follows it. -/
def unframe (text : List Char) : Option (List Char × List Char) :=
  let n := (text.takeWhile (· = '1')).length
  match text.drop n with
  | '0' :: rest => if n ≤ rest.length then some (rest.take n, rest.drop n) else none
  | _ => none

theorem unframe_frame (field rest : List Char) :
    unframe (frame field ++ rest) = some (field, rest) := by
  have hlen : ((frame field ++ rest).takeWhile (· = '1')).length = field.length := by
    rw [frame, List.append_assoc, List.takeWhile_append_of_pos (by simp)]
    simp
  have hdrop : (frame field ++ rest).drop field.length = '0' :: (field ++ rest) := by
    rw [frame, List.append_assoc, List.drop_append_of_le_length (by simp)]
    simp
  simp only [unframe, hlen, hdrop]
  simp

def pack (fields : List (List Char)) : List Char := fields.flatMap frame

/-- At most the given number of fields. -/
def unpackN : Nat → List Char → List (List Char)
  | 0, _ => []
  | n + 1, text =>
    match unframe text with
    | some (field, rest) => field :: unpackN n rest
    | none => []

def unpack (text : List Char) : List (List Char) := unpackN text.length text

theorem unpackN_pack {fields : List (List Char)} {n : Nat} (hn : fields.length ≤ n) :
    unpackN n (pack fields) = fields := by
  induction fields generalizing n with
  | nil => cases n <;> rfl
  | cons field fields ih =>
    cases n with
    | zero => simp at hn
    | succ n =>
      rw [pack, List.flatMap_cons, unpackN, unframe_frame]
      have hrest := ih (Nat.le_of_succ_le_succ hn)
      rw [pack] at hrest
      simp only [hrest]

theorem length_le_pack (fields : List (List Char)) : fields.length ≤ (pack fields).length := by
  induction fields with
  | nil => exact Nat.zero_le _
  | cons field fields ih =>
    rw [pack, List.flatMap_cons, List.length_append, List.length_cons, frame,
      List.length_append, List.length_cons]
    rw [pack] at ih
    omega

/-- What was packed is unpacked. -/
theorem unpack_pack (fields : List (List Char)) : unpack (pack fields) = fields :=
  unpackN_pack (length_le_pack fields)

/-- A number as a field. -/
def ofNat (n : Nat) : List Char := List.replicate n '1'

@[simp] theorem length_ofNat (n : Nat) : (ofNat n).length = n := List.length_replicate

/-- Pairs of fields in a row. -/
def flatten (pairs : List (List Char × List Char)) : List (List Char) :=
  pairs.flatMap fun p => [p.1, p.2]

def pairUp : List (List Char) → List (List Char × List Char)
  | a :: b :: rest => (a, b) :: pairUp rest
  | _ => []

theorem pairUp_flatten (pairs : List (List Char × List Char)) :
    pairUp (flatten pairs) = pairs := by
  induction pairs with
  | nil => rfl
  | cons p pairs ih =>
    change (p.1, p.2) :: pairUp (flatten pairs) = _
    rw [ih]

end Framing
