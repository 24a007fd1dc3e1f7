import Mathlib.Data.List.Basic
import Mathlib.Tactic.IntervalCases

/-!
# JSON

Values, the text they are written as, and how a text is read. Writing is pretty-printing with
two spaces a level. Reading is done in two passes, each a machine that takes its input one
item at a time: characters to tokens (`lex`), where white space goes, and tokens to a value
(`build`), with the arrays and objects that are still open on a stack.

Natural numbers are values of their own; any other number is kept as it is written. An escaped
surrogate is not read. What is written from natural numbers is read back (`read_write`).
-/

namespace Json

/-! ## Values -/

inductive Value
  | null
  | bool (b : Bool)
  | nat (n : Nat)
  | number (literal : String)
  | str (text : String)
  | arr (items : List Value)
  | obj (entries : List (String × Value))

inductive Token
  | lbrace
  | rbrace
  | lbracket
  | rbracket
  | colon
  | comma
  | str (text : List Char)
  | word (text : List Char)
deriving DecidableEq

/-! ## Characters to tokens -/

def punctuation : Char → Option Token
  | '\x7b' => some .lbrace
  | '\x7d' => some .rbrace
  | '[' => some .lbracket
  | ']' => some .rbracket
  | ':' => some .colon
  | ',' => some .comma
  | _ => none

def isSpace (c : Char) : Bool := c == ' ' || c == '\n' || c == '\t' || c == '\r'

def hexValue (c : Char) : Option Nat :=
  if '0' ≤ c ∧ c ≤ '9' then some (c.toNat - 48)
  else if 'a' ≤ c ∧ c ≤ 'f' then some (c.toNat - 87)
  else if 'A' ≤ c ∧ c ≤ 'F' then some (c.toNat - 55)
  else none

/-- What the character after a backslash stands for. -/
def unescape : Char → Option Char
  | '"' => some '"'
  | '\\' => some '\\'
  | '/' => some '/'
  | 'b' => some '\x08'
  | 'f' => some '\x0c'
  | 'n' => some '\n'
  | 'r' => some '\r'
  | 't' => some '\t'
  | _ => none

/-- Where the lexer is: between tokens, in a string (with what has been read of it, newest
first), behind a backslash, in the digits of a code, or in a number or a literal. -/
inductive Mode
  | gap
  | text (rev : List Char)
  | escape (rev : List Char)
  | code (rev : List Char) (left value : Nat)
  | word (rev : List Char)

def lex : Mode → List Char → Option (List Token)
  | .gap, [] => some []
  | .word rev, [] => some [.word rev.reverse]
  | _, [] => none
  | .gap, c :: cs =>
    if c = '"' then lex (.text []) cs
    else if isSpace c then lex .gap cs
    else
      match punctuation c with
      | some t => (lex .gap cs).map (t :: ·)
      | none => lex (.word [c]) cs
  | .text rev, c :: cs =>
    if c = '"' then (lex .gap cs).map (.str rev.reverse :: ·)
    else if c = '\\' then lex (.escape rev) cs
    else if c.toNat < 32 then none
    else lex (.text (c :: rev)) cs
  | .escape rev, c :: cs =>
    if c = 'u' then lex (.code rev 3 0) cs
    else (unescape c).bind fun d => lex (.text (d :: rev)) cs
  | .code rev left value, c :: cs =>
    (hexValue c).bind fun d =>
      match left with
      | 0 =>
        if Nat.isValidChar (value * 16 + d) then
          lex (.text (Char.ofNat (value * 16 + d) :: rev)) cs
        else none
      | left + 1 => lex (.code rev left (value * 16 + d)) cs
  | .word rev, c :: cs =>
    if c = '"' then none
    else if isSpace c then (lex .gap cs).map (.word rev.reverse :: ·)
    else
      match punctuation c with
      | some t => (lex .gap cs).map fun ts => .word rev.reverse :: t :: ts
      | none => lex (.word (c :: rev)) cs

/-! ## Tokens to a value -/

/-- Drop the digits at the front; there must be one, and no zero in front of another digit
where `canonical` asks for that. -/
def dropDigits (canonical : Bool) (text : List Char) : Option (List Char) :=
  match text.takeWhile Char.isDigit with
  | [] => none
  | '0' :: _ :: _ => if canonical then none else some (text.dropWhile Char.isDigit)
  | _ => some (text.dropWhile Char.isDigit)

/-- Whether a literal is a number. -/
def isNumber (literal : List Char) : Bool :=
  let unsigned := match literal with
    | '-' :: rest => rest
    | _ => literal
  match dropDigits true unsigned with
  | none => false
  | some rest =>
    let exponent := match rest with
      | '.' :: digits => dropDigits false digits
      | _ => some rest
    match exponent with
    | some [] => true
    | some (e :: '+' :: digits) | some (e :: '-' :: digits) | some (e :: digits) =>
      (e == 'e' || e == 'E') && dropDigits false digits == some []
    | none => false

/-- The value a number or a literal stands for. A natural number has no sign, no fraction and
no zero in front. -/
def readWord (word : List Char) : Option Value :=
  if word = ['n', 'u', 'l', 'l'] then some .null
  else if word = ['t', 'r', 'u', 'e'] then some (.bool true)
  else if word = ['f', 'a', 'l', 's', 'e'] then some (.bool false)
  else if Nat.toDigits 10 (Nat.ofDigitChars 10 word 0) = word then
    some (.nat (Nat.ofDigitChars 10 word 0))
  else if isNumber word then some (.number (String.ofList word))
  else none

/-- An array or an object that is still open; in an object, before a key or behind one. -/
inductive Frame
  | arr (rev : List Value)
  | obj (rev : List (String × Value))
  | field (rev : List (String × Value)) (key : String)

/-- What has to come next. -/
inductive Expect
  | value
  | itemOrEnd
  | key
  | keyOrEnd
  | colon
  | done (v : Value)

def build : Expect → List Frame → List Token → Option Value
  | .done v, [], [] => some v
  | .done v, .arr rev :: stack, .comma :: ts => build .value (.arr (v :: rev) :: stack) ts
  | .done v, .arr rev :: stack, .rbracket :: ts =>
    build (.done (.arr (v :: rev).reverse)) stack ts
  | .done v, .field rev key :: stack, .comma :: ts =>
    build .key (.obj ((key, v) :: rev) :: stack) ts
  | .done v, .field rev key :: stack, .rbrace :: ts =>
    build (.done (.obj ((key, v) :: rev).reverse)) stack ts
  | .itemOrEnd, .arr _ :: stack, .rbracket :: ts => build (.done (.arr [])) stack ts
  | .keyOrEnd, .obj _ :: stack, .rbrace :: ts => build (.done (.obj [])) stack ts
  | .key, .obj rev :: stack, .str k :: ts | .keyOrEnd, .obj rev :: stack, .str k :: ts =>
    build .colon (.field rev (String.ofList k) :: stack) ts
  | .colon, stack, .colon :: ts => build .value stack ts
  | .value, stack, t :: ts | .itemOrEnd, stack, t :: ts =>
    match t with
    | .lbrace => build .keyOrEnd (.obj [] :: stack) ts
    | .lbracket => build .itemOrEnd (.arr [] :: stack) ts
    | .str text => build (.done (.str (String.ofList text))) stack ts
    | .word word => (readWord word).bind fun v => build (.done v) stack ts
    | _ => none
  | _, _, _ => none

/-- Read a text. -/
def read (text : String) : Option Value := (lex .gap text.toList).bind (build .value [])

/-! ## Writing -/

/-- The characters that are escaped are the quote, the backslash and those below the space. -/
def escapeChar (c : Char) : List Char :=
  if c = '"' then ['\\', '"']
  else if c = '\\' then ['\\', '\\']
  else if c = '\x08' then ['\\', 'b']
  else if c = '\x0c' then ['\\', 'f']
  else if c = '\n' then ['\\', 'n']
  else if c = '\r' then ['\\', 'r']
  else if c = '\t' then ['\\', 't']
  else if c.toNat < 32 then
    ['\\', 'u', '0', '0', Nat.digitChar (c.toNat / 16), Nat.digitChar (c.toNat % 16)]
  else [c]

def quoted (text : String) : List Char := '"' :: text.toList.flatMap escapeChar ++ ['"']

/-- The end of a line and the indentation of the next one. -/
def newline (level : Nat) : List Char := '\n' :: List.replicate (2 * level) ' '

mutual

def Value.pretty (level : Nat) : Value → List Char
  | .null => ['n', 'u', 'l', 'l']
  | .bool true => ['t', 'r', 'u', 'e']
  | .bool false => ['f', 'a', 'l', 's', 'e']
  | .nat n => Nat.toDigits 10 n
  | .number literal => literal.toList
  | .str text => quoted text
  | .arr items => '[' :: prettyItems level true items
  | .obj entries => '\x7b' :: prettyEntries level true entries

def prettyItems (level : Nat) (first : Bool) : List Value → List Char
  | [] => (if first then [] else newline level) ++ [']']
  | v :: vs =>
    (if first then [] else [',']) ++ newline (level + 1) ++ v.pretty (level + 1) ++
      prettyItems level false vs

def prettyEntries (level : Nat) (first : Bool) : List (String × Value) → List Char
  | [] => (if first then [] else newline level) ++ ['\x7d']
  | (key, v) :: entries =>
    (if first then [] else [',']) ++ newline (level + 1) ++ quoted key ++ ':' :: ' ' ::
      v.pretty (level + 1) ++ prettyEntries level false entries

end

/-- Write a value. -/
def write (v : Value) : String := String.ofList (v.pretty 0)

/-! ## What is written is read back -/

mutual

/-- Every number in the value is natural. -/
def Value.Natural : Value → Prop
  | .number _ => False
  | .arr items => NaturalItems items
  | .obj entries => NaturalEntries entries
  | _ => True

def NaturalItems : List Value → Prop
  | [] => True
  | v :: vs => v.Natural ∧ NaturalItems vs

def NaturalEntries : List (String × Value) → Prop
  | [] => True
  | (_, v) :: entries => v.Natural ∧ NaturalEntries entries

end

mutual

def Value.tokens : Value → List Token
  | .null => [.word ['n', 'u', 'l', 'l']]
  | .bool true => [.word ['t', 'r', 'u', 'e']]
  | .bool false => [.word ['f', 'a', 'l', 's', 'e']]
  | .nat n => [.word (Nat.toDigits 10 n)]
  | .number literal => [.word literal.toList]
  | .str text => [.str text.toList]
  | .arr items => .lbracket :: itemTokens true items
  | .obj entries => .lbrace :: entryTokens true entries

def itemTokens (first : Bool) : List Value → List Token
  | [] => [.rbracket]
  | v :: vs => (if first then [] else [.comma]) ++ v.tokens ++ itemTokens false vs

def entryTokens (first : Bool) : List (String × Value) → List Token
  | [] => [.rbrace]
  | (key, v) :: entries =>
    (if first then [] else [.comma]) ++ .str key.toList :: .colon :: v.tokens ++
      entryTokens false entries

end

section Lexing

variable {cs rest : List Char} {rev : List Char} {c : Char}

-- The equations of `lex` are derived here, once for all the lemmas below.
attribute [local simp] lex

/-- What ends a number or a literal. -/
def Delimited (rest : List Char) : Prop :=
  ∀ c cs, rest = c :: cs → c ≠ '"' ∧ (isSpace c = true ∨ punctuation c ≠ none)

/-- What a number or a literal is made of. -/
def IsWordChar (c : Char) : Prop := c ≠ '"' ∧ isSpace c = false ∧ punctuation c = none

theorem lex_escapeChar (rev cs : List Char) (c : Char) :
    lex (.text rev) (escapeChar c ++ cs) = lex (.text (c :: rev)) cs := by
  have hcontrol : ∀ n < 32, ∀ rev cs, lex (.text rev)
      (['\\', 'u', '0', '0', Nat.digitChar (n / 16), Nat.digitChar (n % 16)] ++ cs) =
        lex (.text (Char.ofNat n :: rev)) cs := by
    intro n hn
    interval_cases n <;> intro rev cs <;> rfl
  unfold escapeChar
  split_ifs with h₁ h₂ h₃ h₄ h₅ h₆ h₇ h₈
  · rw [h₁]; rfl
  · rw [h₂]; rfl
  · rw [h₃]; rfl
  · rw [h₄]; rfl
  · rw [h₅]; rfl
  · rw [h₆]; rfl
  · rw [h₇]; rfl
  · rw [hcontrol _ h₈, Char.ofNat_toNat]
  · rw [List.singleton_append, lex, if_neg h₁, if_neg h₂, if_neg h₈]

theorem lex_escaped (text rev rest : List Char) :
    lex (.text rev) (text.flatMap escapeChar ++ '"' :: rest) =
      (lex .gap rest).map (.str (rev.reverse ++ text) :: ·) := by
  induction text generalizing rev with
  | nil => simp
  | cons c text ih =>
    rw [List.flatMap_cons, List.append_assoc, lex_escapeChar, ih, List.reverse_cons,
      List.append_assoc]
    rfl

theorem lex_quoted (text : String) (rest : List Char) :
    lex .gap (quoted text ++ rest) = (lex .gap rest).map (.str text.toList :: ·) := by
  rw [quoted, List.cons_append, List.cons_append, lex, if_pos rfl, List.append_assoc]
  exact lex_escaped text.toList [] rest

theorem lex_spaces (n : Nat) (rest : List Char) :
    lex .gap (List.replicate n ' ' ++ rest) = lex .gap rest := by
  induction n with
  | zero => rfl
  | succ n ih =>
    rw [List.replicate_succ, List.cons_append, lex, if_neg (by decide), if_pos (by decide), ih]

theorem lex_newline (level : Nat) (rest : List Char) :
    lex .gap (newline level ++ rest) = lex .gap rest := by
  rw [newline, List.cons_append, lex, if_neg (by decide), if_pos (by decide), lex_spaces]

theorem lex_punctuation {t : Token} (hquote : c ≠ '"') (hspace : isSpace c = false)
    (h : punctuation c = some t) : lex .gap (c :: rest) = (lex .gap rest).map (t :: ·) := by
  rw [lex, if_neg hquote, if_neg (by rw [hspace]; exact Bool.false_ne_true), h]

theorem lex_word_rest (word : List Char) (hword : ∀ c ∈ word, IsWordChar c) (hrest : Delimited rest) :
    lex (.word rev) (word ++ rest) = (lex .gap rest).map (.word (rev.reverse ++ word) :: ·) := by
  induction word generalizing rev with
  | nil =>
    rw [List.nil_append, List.append_nil]
    cases rest with
    | nil => rfl
    | cons c cs =>
      obtain ⟨hquote, hdelimiter⟩ := hrest c cs rfl
      rw [lex, if_neg hquote, lex, if_neg hquote]
      by_cases hspace : isSpace c = true
      · rw [if_pos hspace, if_pos hspace]
      · rw [if_neg hspace, if_neg hspace]
        obtain ⟨t, ht⟩ := Option.ne_none_iff_exists'.mp (hdelimiter.resolve_left hspace)
        rw [ht, Option.map_map]
        rfl
  | cons c word ih =>
    obtain ⟨hquote, hspace, hpunctuation⟩ := hword c List.mem_cons_self
    rw [List.cons_append, lex, if_neg hquote, if_neg (by rw [hspace]; exact Bool.false_ne_true),
      hpunctuation]
    dsimp only
    rw [ih fun d hd => hword d (List.mem_cons_of_mem c hd), List.reverse_cons, List.append_assoc]
    rfl

theorem lex_word {word : List Char} (hne : word ≠ []) (hword : ∀ c ∈ word, IsWordChar c)
    (hrest : Delimited rest) :
    lex .gap (word ++ rest) = (lex .gap rest).map (.word word :: ·) := by
  cases word with
  | nil => exact absurd rfl hne
  | cons c word =>
    obtain ⟨hquote, hspace, hpunctuation⟩ := hword c List.mem_cons_self
    rw [List.cons_append, lex, if_neg hquote, if_neg (by rw [hspace]; exact Bool.false_ne_true),
      hpunctuation]
    exact lex_word_rest word (fun d hd => hword d (List.mem_cons_of_mem c hd)) hrest

theorem isWordChar_of_isDigit (h : c.isDigit = true) : IsWordChar c := by
  have hcases : ∀ n < 58, 48 ≤ n → IsWordChar (Char.ofNat n) := by
    intro n hn hle
    interval_cases n <;> exact ⟨by decide, by decide, by decide⟩
  rw [Char.isDigit, Bool.and_eq_true, decide_eq_true_iff, decide_eq_true_iff] at h
  rw [← Char.ofNat_toNat c]
  have hlow : 48 ≤ c.toNat := h.1
  have hhigh : c.toNat ≤ 57 := h.2
  exact hcases _ (by omega) hlow

theorem delimited_newline (level : Nat) (cs : List Char) : Delimited (newline level ++ cs) := by
  rintro c cs' ⟨⟩
  exact ⟨by decide, .inl rfl⟩

theorem delimited_prettyItems (level : Nat) (vs : List Value) (rest : List Char) :
    Delimited (prettyItems level false vs ++ rest) := by
  cases vs with
  | nil =>
    rw [prettyItems, if_neg Bool.false_ne_true, List.append_assoc]
    exact delimited_newline level _
  | cons v vs =>
    rw [prettyItems]
    rintro c cs ⟨⟩
    exact ⟨by decide, .inr (by decide)⟩

theorem delimited_prettyEntries (level : Nat) (entries : List (String × Value))
    (rest : List Char) : Delimited (prettyEntries level false entries ++ rest) := by
  cases entries with
  | nil =>
    rw [prettyEntries, if_neg Bool.false_ne_true, List.append_assoc]
    exact delimited_newline level _
  | cons entry entries =>
    rw [prettyEntries]
    rintro c cs ⟨⟩
    exact ⟨by decide, .inr (by decide)⟩

mutual

/-- The text of a value is read as the tokens of the value. -/
theorem lex_pretty (level : Nat) {rest : List Char} (hrest : Delimited rest) : (v : Value) →
    v.Natural → lex .gap (v.pretty level ++ rest) = (lex .gap rest).map (v.tokens ++ ·)
  | .null, _ => by
    rw [Value.pretty, Value.tokens]
    exact lex_word (by decide) (by simp [IsWordChar, isSpace, punctuation]) hrest
  | .bool true, _ => by
    rw [Value.pretty, Value.tokens]
    exact lex_word (by decide) (by simp [IsWordChar, isSpace, punctuation]) hrest
  | .bool false, _ => by
    rw [Value.pretty, Value.tokens]
    exact lex_word (by decide) (by simp [IsWordChar, isSpace, punctuation]) hrest
  | .nat n, _ => by
    rw [Value.pretty, Value.tokens]
    refine lex_word Nat.toDigits_ne_nil (fun c hc => isWordChar_of_isDigit ?_) hrest
    exact Nat.isDigit_of_mem_toDigits (by decide) (by decide) hc
  | .number _, h => by
    rw [Value.Natural] at h
    exact h.elim
  | .str text, _ => by
    rw [Value.pretty, Value.tokens]
    exact lex_quoted text rest
  | .arr items, h => by
    rw [Value.Natural] at h
    rw [Value.pretty, Value.tokens, List.cons_append,
      lex_punctuation (t := .lbracket) (by decide) (by decide) rfl, lex_prettyItems level true items h,
      Option.map_map]
    rfl
  | .obj entries, h => by
    rw [Value.Natural] at h
    rw [Value.pretty, Value.tokens, List.cons_append,
      lex_punctuation (t := .lbrace) (by decide) (by decide) rfl,
      lex_prettyEntries level true entries h, Option.map_map]
    rfl

theorem lex_prettyItems (level : Nat) (first : Bool) {rest : List Char} : (vs : List Value) →
    NaturalItems vs → lex .gap (prettyItems level first vs ++ rest) =
      (lex .gap rest).map (itemTokens first vs ++ ·)
  | [], _ => by
    have hclose : lex .gap (']' :: rest) = (lex .gap rest).map (Token.rbracket :: ·) :=
      lex_punctuation (by decide) (by decide) rfl
    rw [prettyItems, itemTokens]
    cases first with
    | true => exact hclose
    | false =>
      rw [if_neg Bool.false_ne_true, List.append_assoc, lex_newline]
      exact hclose
  | v :: vs, h => by
    rw [NaturalItems] at h
    have hitem : lex .gap (newline (level + 1) ++ (v.pretty (level + 1) ++
        (prettyItems level false vs ++ rest))) =
          (lex .gap rest).map fun ts => v.tokens ++ (itemTokens false vs ++ ts) := by
      rw [lex_newline, lex_pretty (level + 1) (delimited_prettyItems level vs rest) v h.1,
        lex_prettyItems level false vs h.2, Option.map_map]
      rfl
    rw [prettyItems, itemTokens]
    simp only [List.append_assoc]
    cases first with
    | true => exact hitem
    | false =>
      rw [if_neg Bool.false_ne_true, List.singleton_append,
        lex_punctuation (t := .comma) (by decide) (by decide) rfl, hitem, Option.map_map]
      rfl

theorem lex_prettyEntries (level : Nat) (first : Bool) {rest : List Char} :
    (entries : List (String × Value)) → NaturalEntries entries →
      lex .gap (prettyEntries level first entries ++ rest) =
        (lex .gap rest).map (entryTokens first entries ++ ·)
  | [], _ => by
    have hclose : lex .gap ('\x7d' :: rest) = (lex .gap rest).map (Token.rbrace :: ·) :=
      lex_punctuation (by decide) (by decide) rfl
    rw [prettyEntries, entryTokens]
    cases first with
    | true => exact hclose
    | false =>
      rw [if_neg Bool.false_ne_true, List.append_assoc, lex_newline]
      exact hclose
  | (key, v) :: entries, h => by
    rw [NaturalEntries] at h
    have hentry : lex .gap (newline (level + 1) ++ (quoted key ++ (':' :: ' ' ::
        (v.pretty (level + 1) ++ (prettyEntries level false entries ++ rest))))) =
          (lex .gap rest).map fun ts =>
            .str key.toList :: .colon :: (v.tokens ++ (entryTokens false entries ++ ts)) := by
      have hspace : ∀ cs, lex .gap (' ' :: cs) = lex .gap cs := lex_spaces 1
      rw [lex_newline, lex_quoted, lex_punctuation (t := .colon) (by decide) (by decide) rfl,
        hspace, lex_pretty (level + 1) (delimited_prettyEntries level entries rest) v h.1,
        lex_prettyEntries level false entries h.2, Option.map_map, Option.map_map, Option.map_map]
      rfl
    rw [prettyEntries, entryTokens]
    simp only [List.append_assoc, List.cons_append]
    cases first with
    | true => exact hentry
    | false =>
      rw [if_neg Bool.false_ne_true, List.singleton_append,
        lex_punctuation (t := .comma) (by decide) (by decide) rfl, hentry, Option.map_map]
      rfl

end

end Lexing

section Building

variable {stack : List Frame} {ts : List Token}

theorem readWord_nat (n : Nat) : readWord (Nat.toDigits 10 n) = some (.nat n) := by
  have hdigits : ∀ c ∈ Nat.toDigits 10 n, c.isDigit = true :=
    fun c hc => Nat.isDigit_of_mem_toDigits (by decide) (by decide) hc
  have hne : ∀ c cs, c.isDigit = false → Nat.toDigits 10 n ≠ c :: cs := by
    intro c cs hc heq
    have hdigit := hdigits c (heq ▸ List.mem_cons_self)
    rw [hc] at hdigit
    cases hdigit
  rw [readWord, if_neg (hne _ _ (by decide)), if_neg (hne _ _ (by decide)),
    if_neg (hne _ _ (by decide)), Nat.ofDigitChars_ten_toDigits, if_pos rfl]

/-- In an array that has just been opened a value may come. -/
theorem build_itemOrEnd (rev : List Value) (v : Value) :
    build .itemOrEnd (.arr rev :: stack) (v.tokens ++ ts) =
      build .value (.arr rev :: stack) (v.tokens ++ ts) := by
  cases v with
  | bool b => cases b <;> rfl
  | _ => rfl

mutual

/-- The tokens of a value build the value. -/
theorem build_tokens (stack : List Frame) (ts : List Token) : (v : Value) → v.Natural →
    build .value stack (v.tokens ++ ts) = build (.done v) stack ts
  | .null, _ => rfl
  | .bool true, _ => rfl
  | .bool false, _ => rfl
  | .nat n, _ => by
    rw [Value.tokens, List.singleton_append, build, readWord_nat]
    rfl
  | .number _, h => by
    rw [Value.Natural] at h
    exact h.elim
  | .str text, _ => by
    rw [Value.tokens, List.singleton_append, build, String.ofList_toList]
  | .arr [], _ => rfl
  | .arr (v :: vs), h => by
    rw [Value.Natural, NaturalItems] at h
    rw [Value.tokens, itemTokens, if_pos rfl, List.nil_append, List.cons_append, build,
      List.append_assoc, build_itemOrEnd, build_tokens _ _ v h.1, build_itemTokens stack ts [] v vs h.2]
    rfl
  | .obj [], _ => rfl
  | .obj ((key, v) :: entries), h => by
    rw [Value.Natural, NaturalEntries] at h
    rw [Value.tokens, entryTokens, if_pos rfl]
    simp only [List.nil_append, List.cons_append, List.append_assoc]
    rw [build, build, build, build_tokens _ _ v h.1,
      build_entryTokens stack ts [] _ v entries h.2, String.ofList_toList]
    rfl

theorem build_itemTokens (stack : List Frame) (ts : List Token) (rev : List Value) (v : Value) :
    (vs : List Value) → NaturalItems vs →
      build (.done v) (.arr rev :: stack) (itemTokens false vs ++ ts) =
        build (.done (.arr (rev.reverse ++ v :: vs))) stack ts
  | [], _ => by
    rw [itemTokens, List.singleton_append, build, List.reverse_cons]
  | w :: vs, h => by
    rw [NaturalItems] at h
    rw [itemTokens, if_neg Bool.false_ne_true, List.append_assoc, List.append_assoc,
      List.singleton_append, build, build_tokens _ _ w h.1,
      build_itemTokens stack ts (v :: rev) w vs h.2, List.reverse_cons, List.append_assoc]
    rfl

theorem build_entryTokens (stack : List Frame) (ts : List Token) (rev : List (String × Value))
    (key : String) (v : Value) : (entries : List (String × Value)) → NaturalEntries entries →
      build (.done v) (.field rev key :: stack) (entryTokens false entries ++ ts) =
        build (.done (.obj (rev.reverse ++ (key, v) :: entries))) stack ts
  | [], _ => by
    rw [entryTokens, List.singleton_append, build, List.reverse_cons]
  | (k, w) :: entries, h => by
    rw [NaturalEntries] at h
    rw [entryTokens, if_neg Bool.false_ne_true]
    simp only [List.nil_append, List.cons_append, List.append_assoc]
    rw [build, build, build, build_tokens _ _ w h.1,
      build_entryTokens stack ts ((key, v) :: rev) _ w entries h.2, String.ofList_toList,
      List.reverse_cons, List.append_assoc]
    rfl

end

/-- A value without other numbers is read back from its text. -/
theorem read_write {v : Value} (h : v.Natural) : read (write v) = some v := by
  have hlex : lex .gap (v.pretty 0 ++ []) = (lex .gap []).map (v.tokens ++ ·) :=
    lex_pretty 0 (fun c cs heq => by cases heq) v h
  have hbuild := build_tokens [] [] v h
  rw [List.append_nil] at hlex
  rw [read, write, String.toList_ofList, hlex]
  exact hbuild

end Building

/-! ## Objects of strings

The text of an object without white space, as a request body has it.
-/

def compactFields (first : Bool) : List (String × String) → List Char
  | [] => ['\x7d']
  | (key, text) :: fields =>
    (if first then [] else [',']) ++ quoted key ++ ':' :: quoted text ++ compactFields false fields

def stringify (fields : List (String × String)) : String :=
  String.ofList ('\x7b' :: compactFields true fields)

/-- The value such a text stands for. -/
def ofStrings (fields : List (String × String)) : Value :=
  .obj (fields.map fun field => (field.1, .str field.2))

theorem natural_strings (fields : List (String × String)) :
    NaturalEntries (fields.map fun field => (field.1, .str field.2)) := by
  induction fields with
  | nil => rw [List.map_nil, NaturalEntries]; trivial
  | cons field fields ih =>
    rw [List.map_cons, NaturalEntries]
    refine ⟨?_, ih⟩
    rw [Value.Natural] <;> simp

theorem lex_compactFields (first : Bool) (fields : List (String × String)) :
    lex .gap (compactFields first fields) =
      some (entryTokens first (fields.map fun field => (field.1, .str field.2))) := by
  induction fields generalizing first with
  | nil =>
    rw [compactFields, List.map_nil, entryTokens,
      lex_punctuation (t := .rbrace) (by decide) (by decide) rfl]
    cases first <;> rfl
  | cons field fields ih =>
    obtain ⟨key, text⟩ := field
    have hentry : lex .gap (quoted key ++ (':' :: (quoted text ++ compactFields false fields))) =
        some (.str key.toList :: .colon :: .str text.toList ::
          entryTokens false (fields.map fun field => (field.1, .str field.2))) := by
      rw [lex_quoted, lex_punctuation (t := .colon) (by decide) (by decide) rfl, lex_quoted, ih]
      rfl
    rw [compactFields, List.map_cons, entryTokens, Value.tokens]
    simp only [List.append_assoc, List.cons_append, List.nil_append]
    cases first with
    | true => exact hentry
    | false =>
      rw [if_neg Bool.false_ne_true, List.singleton_append,
        lex_punctuation (t := .comma) (by decide) (by decide) rfl, hentry]
      rfl

/-- An object of strings is read back from its text. -/
theorem read_stringify (fields : List (String × String)) :
    read (stringify fields) = some (ofStrings fields) := by
  have hlex : lex .gap ('\x7b' :: compactFields true fields) =
      some (Value.tokens (ofStrings fields)) := by
    rw [lex_punctuation (t := .lbrace) (by decide) (by decide) rfl, lex_compactFields, ofStrings,
      Value.tokens]
    rfl
  have hbuild := build_tokens [] [] (ofStrings fields) (by
    rw [ofStrings, Value.Natural]
    exact natural_strings fields)
  rw [List.append_nil] at hbuild
  rw [read, stringify, String.toList_ofList, hlex]
  exact hbuild

/-! ## Sizes

No text is shorter in JSON than it is.
-/

theorem size_append (front back : List Char) : (String.ofList (front ++ back)).utf8ByteSize =
    (String.ofList front).utf8ByteSize + (String.ofList back).utf8ByteSize := by
  rw [String.ofList_append, String.utf8ByteSize_append]

theorem size_escapeChar (c : Char) :
    (String.ofList [c]).utf8ByteSize ≤ (String.ofList (escapeChar c)).utf8ByteSize := by
  have hsingle : (String.ofList [c]).utf8ByteSize = c.utf8Size := String.utf8ByteSize_singleton
  have hfour : c.utf8Size ≤ 4 := c.utf8Size_le_four
  unfold escapeChar
  split_ifs with h₁ h₂ h₃ h₄ h₅ h₆ h₇ h₈
  · rw [h₁]; decide
  · rw [h₂]; decide
  · rw [h₃]; decide
  · rw [h₄]; decide
  · rw [h₅]; decide
  · rw [h₆]; decide
  · rw [h₇]; decide
  · have hfront : (String.ofList ['\\', 'u', '0', '0']).utf8ByteSize = 4 := by decide
    have hsplit := size_append ['\\', 'u', '0', '0']
      [Nat.digitChar (c.toNat / 16), Nat.digitChar (c.toNat % 16)]
    rw [hfront] at hsplit
    change _ ≤ (String.ofList (['\\', 'u', '0', '0'] ++
      [Nat.digitChar (c.toNat / 16), Nat.digitChar (c.toNat % 16)])).utf8ByteSize
    omega
  · exact Nat.le_refl _

theorem size_quoted (text : String) :
    text.utf8ByteSize ≤ (String.ofList (quoted text)).utf8ByteSize := by
  have hescaped (chars : List Char) : (String.ofList chars).utf8ByteSize ≤
      (String.ofList (chars.flatMap escapeChar)).utf8ByteSize := by
    induction chars with
    | nil => exact Nat.le_refl _
    | cons c chars ih =>
      have hc := size_escapeChar c
      have hsplit := size_append [c] chars
      rw [List.singleton_append] at hsplit
      rw [List.flatMap_cons, size_append]
      omega
  have htext := hescaped text.toList
  rw [String.ofList_toList] at htext
  have hopen := size_append ['"'] (text.toList.flatMap escapeChar ++ ['"'])
  rw [size_append (text.toList.flatMap escapeChar)] at hopen
  change _ ≤ (String.ofList (['"'] ++ (text.toList.flatMap escapeChar ++ ['"']))).utf8ByteSize
  omega

/-- An object of strings is at least as long as each of them. -/
theorem size_stringify {fields : List (String × String)} {key text : String}
    (h : (key, text) ∈ fields) : text.utf8ByteSize ≤ (stringify fields).utf8ByteSize := by
  have hfields (first : Bool) (fields : List (String × String)) (h : (key, text) ∈ fields) :
      text.utf8ByteSize ≤ (String.ofList (compactFields first fields)).utf8ByteSize := by
    induction fields generalizing first with
    | nil => cases h
    | cons field fields ih =>
      obtain ⟨k, t⟩ := field
      have hsplit : compactFields first ((k, t) :: fields) =
          ((if first then [] else [',']) ++ quoted k ++ [':']) ++
            (quoted t ++ compactFields false fields) := by
        rw [compactFields]
        simp only [List.append_assoc, List.cons_append, List.nil_append]
      rw [hsplit, size_append, size_append (quoted t)]
      rcases List.mem_cons.mp h with heq | hrest
      · cases heq
        have ht := size_quoted text
        omega
      · have hrest := ih false hrest
        omega
  have hall := hfields true fields h
  have hopen := size_append ['\x7b'] (compactFields true fields)
  change _ ≤ (String.ofList (['\x7b'] ++ compactFields true fields)).utf8ByteSize
  omega

end Json
