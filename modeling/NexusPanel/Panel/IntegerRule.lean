import NexusPanel.Panel.JoinedRules
import NexusPanel.Panel.NumberText

/-!
# Integers in a range

The rule `integer` asks `Number` whether the value is an integer, and the bounds compare doubles.
So a text passes that `Number` reads as an integer in the range, however it is written, and an
integer beyond a bound that is rounded onto it.
-/

namespace Panel

/-- A runtime with the `Number` of the language. -/
def Js.withNumbers (js : Js) : Js := { js with number := stringToNumber }

/-- The rules of an integer between two bounds, both ways to write them. -/
def rangeRules (a b : Int) : List (List String) :=
  [["required", "integer", "min:" ++ toString a, "max:" ++ toString b],
    ["required", "integer", "between:" ++ toString a ++ "," ++ toString b]]

/-- The rules of an integer between the bounds are among these. -/
def HasRange (a b : Int) (rules : List String) : Prop :=
  ∃ range ∈ rangeRules a b, ∀ rule ∈ range, rule ∈ rules

/-- A literal of an integer in the range. -/
def LiteralIn (value : String) (a b : Int) : Prop :=
  ∃ n, integerLiteral? value = some n ∧ a ≤ n ∧ n ≤ b

/-- A value that is accepted for a range is a literal of an integer in it, and the literal that such an
integer is printed as is accepted. -/
structure AcceptsIntegers (js : Js) (value : String) (a b : Int) : Prop where
  sound : ∀ variableName rules, HasRange a b (ruleList rules) →
    (validateVariableValue js.withNumbers variableName (some value) rules).valid = true →
      LiteralIn value a b
  complete : ∀ n : Int, value = toString n → a ≤ n → n ≤ b →
    ∀ variableName, ∀ range ∈ rangeRules a b,
      (validateVariableValue js.withNumbers variableName (some value)
        (joinRules range)).valid = true

/-- An integer that no bound is beyond. -/
def InRange (x low high : JsNumber) : Prop :=
  x.isInteger = true ∧ x.lt low = false ∧ high.lt x = false

instance (x low high : JsNumber) : Decidable (InRange x low high) :=
  inferInstanceAs (Decidable (_ ∧ _ ∧ _))

/-- The value is no other notation of a number in the range; a literal of an integer outside is
not rounded into the range; and an integer in the range is small enough for a double. -/
def ReadAsWritten (value : String) (a b : Int) : Prop :=
  match integerLiteral? value with
  | none => value = "" ∨ ¬ InRange (stringToNumber value) (.ofRat a) (.ofRat b)
  | some n =>
    if a ≤ n ∧ n ≤ b then
      value = toString n → |Rounding.roundTo 53 (-1074) n| < doubleLimit
    else ¬ InRange (.ofRat n) (.ofRat a) (.ofRat b)

/-! ## What the rules ask -/

section Range

variable {js : Js} {numericType : Bool} {variableName value : String} {a b n : Int}

theorem not_isNaN {x : JsNumber} (h : x.isInteger = true) : x.isNaN = false := by
  cases x with
  | finite q => rfl
  | nan | infinity | negInfinity => cases h

theorem not_mem_toString {c : Char} (hc : c.isDigit = false) (hminus : c ≠ '-') (hplus : c ≠ '+')
    (n : Int) : c ∉ (toString n).toList := by
  intro hmem
  rcases mem_literal (integerLiteral?_toString n) hmem with hdigit | h | h
  · rw [hc] at hdigit
    cases hdigit
  · exact hplus h
  · exact hminus h

theorem parse_between : VariableRule.parse js ("between:" ++ toString a ++ "," ++ toString b) =
    some (.between (js.number (toString a)) (js.number (toString b))) := by
  have hsplit : splitOn ',' (toString a ++ "," ++ toString b) = [toString a, toString b] := by
    unfold splitOn
    rw [String.toList_append, String.toList_append, List.append_assoc,
      show ",".toList = [','] from rfl, List.singleton_append, List.splitOn_append_cons_self,
      List.splitOn_eq_singleton (not_mem_toString rfl (by decide) (by decide) a),
      List.splitOn_eq_singleton (not_mem_toString rfl (by decide) (by decide) b)]
    simp
  have hwhole : "between:" ++ toString a ++ "," ++ toString b =
      "between:" ++ (toString a ++ "," ++ toString b) := by
    rw [String.append_assoc, String.append_assoc, String.append_assoc]
  rw [hwhole, parse_parameter (by simp)]
  unfold VariableRule.parseParameter
  rw [Text.stripPrefix?_eq_some.mpr rfl]
  dsimp only
  rw [hsplit]

/-- What is let through is a number between the numbers of the bounds. -/
theorem inRange_of_valid {rules : String} (hrange : HasRange a b (ruleList rules))
    (h : (validateVariableValue js variableName (some value) rules).valid = true) :
    value ≠ "" ∧
      InRange (js.number value) (js.number (toString a)) (js.number (toString b)) := by
  obtain ⟨range, hmem, hrules⟩ := hrange
  have hrequired : "required" ∈ ruleList rules := by
    rcases List.mem_pair.mp hmem with rfl | rfl
    · exact hrules _ (by simp)
    · exact hrules _ (by simp)
  have hinteger : "integer" ∈ ruleList rules := by
    rcases List.mem_pair.mp hmem with rfl | rfl
    · exact hrules _ (by simp)
    · exact hrules _ (by simp)
  have hvalue : value ≠ "" := by
    rintro rfl
    exact (validateVariableValue_empty (.inr rfl)).mp h hrequired
  have hnumeric : isNumericType (ruleList rules) = true := by
    unfold isNumericType
    rw [decide_eq_true hinteger, Bool.or_true]
  have hsatisfies := (validateVariableValue_some hvalue).2.mp h
  rw [hnumeric] at hsatisfies
  have hwhole : (js.number value).isInteger = true :=
    (parse_eq_some (r := .integer) rfl).mp (hsatisfies _ hinteger)
  refine ⟨hvalue, hwhole, ?_⟩
  rcases List.mem_pair.mp hmem with rfl | rfl
  · have hmin := hsatisfies _ (hrules ("min:" ++ toString a) (by simp))
    have hmax := hsatisfies _ (hrules ("max:" ++ toString b) (by simp))
    exact ⟨((parse_eq_some parse_min).mp hmin).2, ((parse_eq_some parse_max).mp hmax).2⟩
  · have hrule := hsatisfies _ (hrules ("between:" ++ toString a ++ "," ++ toString b) (by simp))
    exact ((parse_eq_some parse_between).mp hrule).2

/-- Neither a blank nor a bar. -/
def IsSolid (text : String) : Prop := ∀ c ∈ text.toList, isJsSpace c = false ∧ c ≠ '|'

instance (text : String) : Decidable (IsSolid text) :=
  List.decidableBAll (fun c => isJsSpace c = false ∧ c ≠ '|') text.toList

theorem IsSolid.append {text text' : String} (h : IsSolid text) (h' : IsSolid text') :
    IsSolid (text ++ text') := by
  intro c hc
  rw [String.toList_append] at hc
  exact (List.mem_append.mp hc).elim (h c) (h' c)

theorem isSolid_toString (n : Int) : IsSolid (toString n) := by
  intro c hc
  rcases mem_literal (integerLiteral?_toString n) hc with hdigit | rfl | rfl
  · refine ⟨isJsSpace_of_isDigit hdigit, ?_⟩
    rintro rfl
    cases hdigit
  · decide
  · decide

theorem ruleList_range {range : List String} (h : range ∈ rangeRules a b) :
    ruleList (joinRules range) = range := by
  have hsolid : ∀ rule ∈ range, IsSolid rule := by
    have hwords : IsSolid "required" ∧ IsSolid "integer" := by decide
    rcases List.mem_pair.mp h with rfl | rfl
    · have hmin : IsSolid ("min:" ++ toString a) := IsSolid.append (by decide) (isSolid_toString a)
      have hmax : IsSolid ("max:" ++ toString b) := IsSolid.append (by decide) (isSolid_toString b)
      simp only [List.forall_mem_cons, List.not_mem_nil, false_imp_iff, implies_true, and_true]
      exact ⟨hwords.1, hwords.2, hmin, hmax⟩
    · have hbetween : IsSolid ("between:" ++ toString a ++ "," ++ toString b) :=
        ((IsSolid.append (by decide) (isSolid_toString a)).append (by decide)).append
          (isSolid_toString b)
      simp only [List.forall_mem_cons, List.not_mem_nil, false_imp_iff, implies_true, and_true]
      exact ⟨hwords.1, hwords.2, hbetween⟩
  apply ruleList_joinRules
  · exact fun rule hrule => jsTrim_eq_self fun c hc => (hsolid rule hrule c hc).1
  · exact fun rule hrule hbar => (hsolid rule hrule _ hbar).2 rfl
  · rcases List.mem_pair.mp h with rfl | rfl <;> simp

/-- And a number between them is let through. -/
theorem valid_of_inRange (hvalue : value ≠ "")
    (h : InRange (js.number value) (js.number (toString a)) (js.number (toString b)))
    {range : List String} (hrange : range ∈ rangeRules a b) :
    (validateVariableValue js variableName (some value) (joinRules range)).valid = true := by
  obtain ⟨hinteger, hbounds⟩ := h
  have hnan := not_isNaN hinteger
  have hnumeric : isNumericType range = true := by
    rcases List.mem_pair.mp hrange with rfl | rfl <;> rfl
  have hrequired : Satisfies js true value "required" :=
    (parse_eq_some (r := .presence) rfl).mpr trivial
  have hwhole : Satisfies js true value "integer" :=
    (parse_eq_some (r := .integer) rfl).mpr hinteger
  rw [(validateVariableValue_some hvalue).2, ruleList_range hrange, hnumeric]
  rcases List.mem_pair.mp hrange with rfl | rfl
  · have hmin : Satisfies js true value ("min:" ++ toString a) :=
      (parse_eq_some parse_min).mpr ⟨hnan, hbounds.1⟩
    have hmax : Satisfies js true value ("max:" ++ toString b) :=
      (parse_eq_some parse_max).mpr ⟨hnan, hbounds.2⟩
    simp only [List.forall_mem_cons, List.not_mem_nil, false_imp_iff, implies_true, and_true]
    exact ⟨hrequired, hwhole, hmin, hmax⟩
  · have hbetween : Satisfies js true value ("between:" ++ toString a ++ "," ++ toString b) :=
      (parse_eq_some parse_between).mpr ⟨hnan, hbounds⟩
    simp only [List.forall_mem_cons, List.not_mem_nil, false_imp_iff, implies_true, and_true]
    exact ⟨hrequired, hwhole, hbetween⟩

end Range

/-! ## Doubles and literals -/

section Literals

variable {js : Js} {variableName value : String} {a b n : Int}

theorem number_withNumbers : js.withNumbers.number = stringToNumber := by
  simp only [Js.withNumbers]

/-- The double of an integer in the range is between the doubles of the bounds. -/
theorem inRange_ofRat (ha : a ≤ n) (hb : n ≤ b) : InRange (.ofRat n) (.ofRat a) (.ofRat b) ↔
    |Rounding.roundTo 53 (-1074) n| < doubleLimit := by
  rw [← JsNumber.isInteger_ofRat_intCast]
  refine ⟨And.left, fun h => ⟨h, ?_, ?_⟩⟩
  · exact JsNumber.lt_ofRat (by exact_mod_cast ha)
  · exact JsNumber.lt_ofRat (by exact_mod_cast hb)

theorem literalIn_iff (h : integerLiteral? value = some n) :
    LiteralIn value a b ↔ a ≤ n ∧ n ≤ b := by
  unfold LiteralIn
  rw [h]
  simp

/-- The same, put in terms of numbers. -/
theorem acceptsIntegers_iff : AcceptsIntegers js value a b ↔
    (value ≠ "" → InRange (stringToNumber value) (.ofRat a) (.ofRat b) → LiteralIn value a b) ∧
      ∀ n : Int, value = toString n → a ≤ n → n ≤ b →
        |Rounding.roundTo 53 (-1074) n| < doubleLimit := by
  have hnumbers : InRange (js.withNumbers.number value) (js.withNumbers.number (toString a))
      (js.withNumbers.number (toString b)) ↔
        InRange (stringToNumber value) (.ofRat a) (.ofRat b) := by
    simp only [number_withNumbers, stringToNumber_literal (integerLiteral?_toString _)]
  have hfirst : ["required", "integer", "min:" ++ toString a, "max:" ++ toString b] ∈
      rangeRules a b := List.mem_cons_self
  have hprinted (n : Int) (hn : value = toString n) : value ≠ "" ∧
      stringToNumber value = .ofRat n := by
    have hliteral := integerLiteral?_toString n
    rw [← hn] at hliteral
    refine ⟨?_, stringToNumber_literal hliteral⟩
    rintro rfl
    cases hliteral
  constructor
  · intro h
    refine ⟨fun hvalue hin => ?_, fun n hn ha hb => ?_⟩
    · refine h.sound "" _ ⟨_, hfirst, fun rule hrule => ?_⟩
        (valid_of_inRange hvalue (hnumbers.mpr hin) hfirst)
      rw [ruleList_range hfirst]
      exact hrule
    · have hvalid := h.complete n hn ha hb "" _ hfirst
      have hrange : HasRange a b (ruleList (joinRules
          ["required", "integer", "min:" ++ toString a, "max:" ++ toString b])) := by
        refine ⟨_, hfirst, fun rule hrule => ?_⟩
        rw [ruleList_range hfirst]
        exact hrule
      have hin := hnumbers.mp (inRange_of_valid hrange hvalid).2
      rw [(hprinted n hn).2] at hin
      exact (inRange_ofRat ha hb).mp hin
  · rintro ⟨hsound, hcomplete⟩
    constructor
    · intro variableName rules hrange hvalid
      obtain ⟨hvalue, hin⟩ := inRange_of_valid hrange hvalid
      exact hsound hvalue (hnumbers.mp hin)
    · intro n hn ha hb variableName range hrange
      obtain ⟨hvalue, hnumber⟩ := hprinted n hn
      refine valid_of_inRange hvalue (hnumbers.mpr ?_) hrange
      rw [hnumber]
      exact (inRange_ofRat ha hb).mpr (hcomplete n hn ha hb)

theorem readAsWritten_iff : ReadAsWritten value a b ↔
    (value ≠ "" → InRange (stringToNumber value) (.ofRat a) (.ofRat b) → LiteralIn value a b) ∧
      ∀ n : Int, value = toString n → a ≤ n → n ≤ b →
        |Rounding.roundTo 53 (-1074) n| < doubleLimit := by
  unfold ReadAsWritten
  split
  next hliteral =>
    have hnot : ¬ LiteralIn value a b := by
      rintro ⟨n, hn, -⟩
      rw [hliteral] at hn
      cases hn
    have hprinted : ∀ n : Int, value ≠ toString n := by
      rintro n rfl
      rw [integerLiteral?_toString] at hliteral
      cases hliteral
    constructor
    · intro h
      refine ⟨fun hvalue hin => absurd hin (h.resolve_left hvalue), fun n hn => ?_⟩
      exact absurd hn (hprinted n)
    · rintro ⟨h, -⟩
      by_cases hvalue : value = ""
      · exact .inl hvalue
      · exact .inr fun hin => hnot (h hvalue hin)
  next n hliteral =>
    have hvalue : value ≠ "" := by
      rintro rfl
      cases hliteral
    have hprinted {m : Int} (hm : value = toString m) : m = n := by
      rw [hm, integerLiteral?_toString] at hliteral
      exact Option.some.inj hliteral
    rw [stringToNumber_literal hliteral, literalIn_iff hliteral]
    split
    next hin =>
      constructor
      · intro h
        refine ⟨fun _ _ => hin, fun m hm _ _ => ?_⟩
        obtain rfl := hprinted hm
        exact h hm
      · rintro ⟨-, h⟩ hn
        exact h n hn hin.1 hin.2
    next hout =>
      constructor
      · intro h
        refine ⟨fun _ hin => absurd hin h, fun m hm ha hb => ?_⟩
        obtain rfl := hprinted hm
        exact absurd ⟨ha, hb⟩ hout
      · rintro ⟨h, -⟩ hin
        exact hout (h hvalue hin)

/-- A literal is read as it is written when the bounds are well within what doubles tell apart. -/
theorem readAsWritten_of_small (h : integerLiteral? value = some n) (ha : |a| < 2 ^ 53 - 1)
    (hb : |b| < 2 ^ 53 - 1) : ReadAsWritten value a b := by
  rw [readAsWritten_iff, stringToNumber_literal h, literalIn_iff h]
  refine ⟨fun _ hin => ⟨?_, ?_⟩, fun m _ hlow hhigh => ?_⟩
  · by_contra hlt
    have hbelow := JsNumber.ofRat_lt_small ha (not_le.mp hlt)
    rw [hin.2.1] at hbelow
    cases hbelow
  · by_contra hlt
    have habove := JsNumber.small_lt_ofRat hb (not_le.mp hlt)
    rw [hin.2.2] at habove
    cases habove
  · have hsmall : |m| < 2 ^ 53 := by
      rw [abs_lt] at ha hb ⊢
      omega
    rw [← JsNumber.isInteger_ofRat_intCast, JsNumber.ofRat_intCast hsmall]
    simp [JsNumber.isInteger]

end Literals

/-- The rules of an integer in a range accept exactly the literals of integers in the range, as
far as the value is read as it is written. -/
theorem acceptsIntegers_iff_readAsWritten (js : Js) (value : String) (a b : Int) :
    AcceptsIntegers js value a b ↔ ReadAsWritten value a b :=
  acceptsIntegers_iff.trans readAsWritten_iff.symm

/-- A blank is not empty, and its number is zero. -/
theorem blank_accepted : ¬ AcceptsIntegers .plain " " 0 100 := by
  intro h
  have hvalid := h.sound "Players" "required|integer|min:0|max:100"
    ⟨_, List.mem_cons_self, by decide⟩ (by decide +kernel)
  obtain ⟨n, hn, -⟩ := hvalid
  rw [show integerLiteral? " " = none by decide] at hn
  cases hn

end Panel
