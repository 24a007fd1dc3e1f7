import Mathlib.Data.List.Sort
import Mathlib.Data.Rat.Floor

/-!
# What the panel uses of JavaScript

Strings, records and numbers as the panel's code handles them. `Number(text)`, the printing
of a number and regular expressions are a parameter, `Js`: nothing here depends on how they
parse. A replacement whose pattern is literal text is defined outright.
-/

namespace Panel

/-! ## Records -/

/-- An object used as a dictionary, in insertion order. -/
abbrev Record (α : Type) := List (String × α)

namespace Record

variable {α : Type}

def get (r : Record α) (key : String) : Option α := r.lookup key

/-- `r[key] = value`: a key that is there keeps its place. -/
def set (r : Record α) (key : String) (value : α) : Record α :=
  if r.any fun e => e.1 == key then r.map fun e => if e.1 == key then (key, value) else e
  else r ++ [(key, value)]

theorem get_cons (e : String × α) (r : Record α) (key : String) :
    get (e :: r) key = if key = e.1 then some e.2 else r.get key := by
  obtain ⟨k, value⟩ := e
  by_cases h : key = k
  · simp [get, h]
  · simp [get, List.lookup_cons, h, beq_eq_false_iff_ne.mpr h]

theorem isSome_get (r : Record α) (key : String) :
    (r.get key).isSome = r.any fun e => e.1 == key := by
  induction r with
  | nil => rfl
  | cons e r ih =>
    rw [get_cons, List.any_cons, ← ih]
    by_cases h : e.1 = key
    · simp [h]
    · have hne : key ≠ e.1 := fun heq => h heq.symm
      simp [h, hne]

theorem get_replace (r : Record α) (key other : String) (value : α) :
    get (r.map fun e => if e.1 == key then (key, value) else e) other =
      if other = key then (r.get key).map fun _ => value else r.get other := by
  induction r with
  | nil => simp [get]
  | cons e r ih =>
    rw [List.map_cons, get_cons, get_cons, get_cons, ih]
    by_cases he : e.1 = key
    · by_cases ho : other = key <;> simp [he, ho]
    · have hne : key ≠ e.1 := fun heq => he heq.symm
      by_cases ho : other = key <;> simp [he, ho, hne]

/-- A property that is set is read back, and the others stay. -/
theorem get_set (r : Record α) (key other : String) (value : α) :
    (r.set key value).get other = if other = key then some value else r.get other := by
  unfold set
  split
  next hany =>
    rw [get_replace]
    obtain ⟨old, hold⟩ := Option.isSome_iff_exists.mp ((isSome_get r key).trans hany)
    rw [hold, Option.map_some]
  next hany =>
    have hnone : r.get key = none := by
      rw [← Option.not_isSome_iff_eq_none, isSome_get]
      exact hany
    have happend : get (r ++ [(key, value)]) other = (r.get other).or (get [(key, value)] other) :=
      List.lookup_append
    rw [happend, get_cons]
    by_cases ho : other = key
    · rw [if_pos ho, ho, hnone, Option.none_or]
      simp
    · simp [ho, get]

theorem keys_set (r : Record α) (key : String) (value : α) :
    (r.set key value).map Prod.fst =
      if key ∈ r.map Prod.fst then r.map Prod.fst else r.map Prod.fst ++ [key] := by
  have hany : (r.any fun e => e.1 == key) = true ↔ key ∈ r.map Prod.fst := by
    simp [List.any_eq_true, List.mem_map]
  unfold set
  split
  next h =>
    rw [if_pos (hany.mp h), List.map_map]
    refine List.map_congr_left fun e _ => ?_
    simp only [Function.comp_apply]
    split
    next heq => exact (beq_iff_eq.mp heq).symm
    next => rfl
  next h =>
    rw [if_neg fun hmem => h (hany.mpr hmem), List.map_append]
    rfl

theorem mem_keys_set {r : Record α} {key other : String} {value : α} :
    other ∈ (r.set key value).map Prod.fst ↔ other = key ∨ other ∈ r.map Prod.fst := by
  rw [keys_set]
  split
  next h => exact ⟨.inr, fun hor => hor.elim (fun heq => heq ▸ h) id⟩
  next => rw [List.mem_append, List.mem_singleton, or_comm]

theorem nodup_keys_set {r : Record α} (h : (r.map Prod.fst).Nodup) (key : String) (value : α) :
    ((r.set key value).map Prod.fst).Nodup := by
  rw [keys_set]
  split
  next => exact h
  next hnew =>
    rw [← List.concat_eq_append]
    exact h.concat hnew

theorem exists_get {r : Record α} {key : String} (h : key ∈ r.map Prod.fst) :
    ∃ value, r.get key = some value := by
  rw [← Option.isSome_iff_exists, isSome_get, List.any_eq_true]
  obtain ⟨e, he, hkey⟩ := List.mem_map.mp h
  exact ⟨e, he, beq_iff_eq.mpr hkey⟩

theorem get_of_mem {r : Record α} (h : (r.map Prod.fst).Nodup) {e : String × α} (he : e ∈ r) :
    r.get e.1 = some e.2 := by
  induction r with
  | nil => cases he
  | cons d r ih =>
    obtain ⟨hnew, hnodup⟩ := List.nodup_cons.mp h
    rw [get_cons]
    rcases List.mem_cons.mp he with rfl | he
    · exact if_pos rfl
    · rw [if_neg ?_, ih hnodup he]
      intro heq
      exact hnew (heq ▸ List.mem_map_of_mem he)

/-- The number a key is the text of, when it is one that may be an index of an array. -/
def arrayIndex? (key : String) : Option Nat :=
  let n := Nat.ofDigitChars 10 key.toList 0
  if toString n = key ∧ n < 2 ^ 32 - 1 then some n else none

/-- `Object.entries(r)`: the indices in their order, then the other keys as they were inserted. -/
def entries (r : Record α) : Record α :=
  let index (e : String × α) : Nat := (arrayIndex? e.1).getD 0
  (r.filter fun e => (arrayIndex? e.1).isSome).insertionSort (fun e e' => index e ≤ index e') ++
    r.filter fun e => !(arrayIndex? e.1).isSome

theorem entries_perm (r : Record α) : r.entries.Perm r :=
  ((List.perm_insertionSort _ _).append_right _).trans (List.filter_append_perm _ r)

/-- `k` comes before `l` in whatever order they were inserted. -/
def AlwaysBefore (k l : String) : Prop :=
  ∃ i, arrayIndex? k = some i ∧ ∀ j, arrayIndex? l = some j → i < j

theorem not_alwaysBefore_self (k : String) : ¬AlwaysBefore k k := by
  rintro ⟨i, hk, hlt⟩
  exact Nat.lt_irrefl i (hlt i hk)

theorem entries_pairwise (r : Record α) :
    r.entries.Pairwise fun e e' => ¬AlwaysBefore e'.1 e.1 := by
  let index (e : String × α) : Nat := (arrayIndex? e.1).getD 0
  let indexed := r.filter fun e => (arrayIndex? e.1).isSome
  have htotal : Std.Total fun e e' : String × α => index e ≤ index e' :=
    ⟨fun e e' => Nat.le_total (index e) (index e')⟩
  have htrans : IsTrans (String × α) fun e e' => index e ≤ index e' :=
    ⟨fun _ _ _ => Nat.le_trans⟩
  have hsorted : (indexed.insertionSort fun e e' => index e ≤ index e').Pairwise
      fun e e' => index e ≤ index e' := List.pairwise_insertionSort _ _
  have hsome : ∀ e ∈ indexed.insertionSort fun e e' => index e ≤ index e',
      (arrayIndex? e.1).isSome := by
    intro e he
    exact (List.mem_filter.mp ((List.mem_insertionSort _).mp he)).2
  have hnone : ∀ e ∈ r.filter fun e => !(arrayIndex? e.1).isSome, arrayIndex? e.1 = none := by
    intro e he
    simpa using (List.mem_filter.mp he).2
  refine List.pairwise_append.mpr ⟨hsorted.imp_of_mem ?_, ?_, ?_⟩
  · rintro e e' he - hle ⟨i, hi, hlt⟩
    obtain ⟨j, hj⟩ := Option.isSome_iff_exists.mp (hsome e he)
    have hij := hlt j hj
    simp only [index, hi, hj, Option.getD_some] at hle
    omega
  · refine List.pairwise_of_forall_mem_list fun e _ e' he' => ?_
    rintro ⟨i, hi, -⟩
    rw [hnone e' he'] at hi
    cases hi
  · rintro e - e' he' ⟨i, hi, -⟩
    rw [hnone e' he'] at hi
    cases hi

end Record

/-! ## Numbers -/

/-- A value of the number type; the two zeros are one. -/
inductive JsNumber
  | nan
  | negInfinity
  | infinity
  | finite (q : Rat)
deriving DecidableEq

namespace JsNumber

/-- `a < b`; a comparison with `NaN` is false. -/
def lt : JsNumber → JsNumber → Bool
  | .nan, _ | _, .nan => false
  | .finite a, .finite b => decide (a < b)
  | .negInfinity, .negInfinity | .infinity, _ | _, .negInfinity => false
  | .negInfinity, _ | _, .infinity => true

def isNaN : JsNumber → Bool
  | .nan => true
  | _ => false

/-- `Number.isInteger`. -/
def isInteger : JsNumber → Bool
  | .finite q => q.den == 1
  | _ => false

def ofNat (n : Nat) : JsNumber := .finite n

end JsNumber

/-- The parts of the runtime that are not defined here: `Number(text)`, the printing of a
number, `new RegExp(source).test(text)` and `text.replace(new RegExp(source, 'g'), value)`,
where a source that is not a regular expression gives `none`. -/
structure Js where
  number : String → JsNumber
  printed : JsNumber → String
  test : (source text : String) → Option Bool
  replace : (source value text : String) → Option String

/-- A runtime that reads and prints whole numbers and has no regular expressions. -/
def Js.plain : Js where
  number text := match text.toInt? with
    | some i => .finite i
    | none => .nan
  printed n := match n with
    | .finite q => toString q
    | .nan => "NaN"
    | .infinity => "Infinity"
    | .negInfinity => "-Infinity"
  test _ _ := none
  replace _ _ _ := none

/-! ## Strings -/

/-- What `trim` removes. -/
def isJsSpace (c : Char) : Bool :=
  c.val ∈ [0x9, 0xA, 0xB, 0xC, 0xD, 0x20, 0xA0, 0x1680, 0x2028, 0x2029, 0x202F, 0x205F, 0x3000,
    0xFEFF] || (0x2000 ≤ c.val && c.val ≤ 0x200A)

/-- `text.trim()`. -/
def jsTrim (text : String) : String :=
  String.ofList (((text.toList.dropWhile isJsSpace).reverse.dropWhile isJsSpace).reverse)

/-- `text.length`: the number of UTF-16 units. -/
def utf16Length (text : String) : Nat :=
  (text.toList.map fun c => if c.val < 0x10000 then 1 else 2).sum

/-- `text.split(c)` for a separator of one character. -/
def splitOn (c : Char) (text : String) : List String :=
  (text.toList.splitOn c).map String.ofList

/-- The value of a replacement, with the `$` patterns of a match without groups. -/
def expandReplacement (before matched after : List Char) : List Char → List Char
  | '$' :: '$' :: rest => '$' :: expandReplacement before matched after rest
  | '$' :: '&' :: rest => matched ++ expandReplacement before matched after rest
  | '$' :: '\x60' :: rest => before ++ expandReplacement before matched after rest
  | '$' :: '\x27' :: rest => after ++ expandReplacement before matched after rest
  | c :: rest => c :: expandReplacement before matched after rest
  | [] => []

/-- Every match of literal text, from left to right; `before` is the part already passed and
`skip` the number of characters of the last match still to pass. -/
def replaceLiteral (literal value : List Char) (before : List Char) (skip : Nat) :
    List Char → List Char
  | [] => []
  | c :: rest =>
    if skip ≠ 0 then replaceLiteral literal value (before ++ [c]) (skip - 1) rest
    else if literal.isPrefixOf (c :: rest) then
      expandReplacement before literal ((c :: rest).drop literal.length) value ++
        replaceLiteral literal value (before ++ [c]) (literal.length - 1) rest
    else c :: replaceLiteral literal value (before ++ [c]) 0 rest

/-- A letter, a digit or an underscore: a character that stands for itself in a pattern. -/
def isWordChar (c : Char) : Bool := c.isAlphanum || c == '_'

end Panel
