import NexusPanel.Foundation.Text
import NexusPanel.Panel.EggVariables

/-!
# What the rules of a variable mean

A rules string is split at the bars, and each part is a rule of its own. `VariableRule` is a
rule as the author of an egg means it, and `Accepts` is what it asks of a value. The validator
agrees with them: a value that is not empty is valid when every rule it knows accepts it, and
there is one error for each rule that does not.
-/

namespace Panel

/-! ## Rules -/

/-- A rule the validator knows. -/
inductive VariableRule
  | presence
  | string
  | numeric
  | integer
  | boolean
  | between (low high : JsNumber)
  | oneOf (options : List String)
  | regex (source : String)
  | min (bound : JsNumber)
  | max (bound : JsNumber)

/-- A rule with a parameter. A `between` without two of them is none. -/
def VariableRule.parseParameter (js : Js) (text : String) : Option VariableRule :=
  if let some parameters := Text.stripPrefix? "between:" text then
    match splitOn ',' parameters with
    | [low, high] => some (.between (js.number low) (js.number high))
    | _ => none
  else if let some options := Text.stripPrefix? "in:" text then some (.oneOf (splitOn ',' options))
  else if let some pattern := Text.stripPrefix? "regex:" text then
    some (.regex (String.ofList (stripDelimiters pattern.toList)))
  else if let some bound := Text.stripPrefix? "min:" text then some (.min (js.number bound))
  else if let some bound := Text.stripPrefix? "max:" text then some (.max (js.number bound))
  else none

/-- The rule that is written so. -/
def VariableRule.parse (js : Js) (text : String) : Option VariableRule :=
  if text = "required" ∨ text = "nullable" then some .presence
  else if text = "string" then some .string
  else if text = "numeric" then some .numeric
  else if text = "integer" then some .integer
  else if text = "boolean" then some .boolean
  else VariableRule.parseParameter js text

/-- What a rule asks of a value that is not empty. A bound is one on the number among numeric
rules, and one on the length otherwise. -/
def VariableRule.Accepts (js : Js) (numericType : Bool) (value : String) : VariableRule → Prop
  | .presence | .string => True
  | .numeric => (js.number value).isNaN = false
  | .integer => (js.number value).isInteger = true
  | .boolean => value ∈ ["true", "false", "1", "0"]
  | .between low high => (js.number value).isNaN = false ∧ (js.number value).lt low = false ∧
      high.lt (js.number value) = false
  | .oneOf options => value ∈ options
  | .regex source => js.test source value = some true
  | .min bound =>
    if numericType then (js.number value).isNaN = false ∧ (js.number value).lt bound = false
    else (JsNumber.ofNat (utf16Length value)).lt bound = false
  | .max bound =>
    if numericType then (js.number value).isNaN = false ∧ bound.lt (js.number value) = false
    else bound.lt (.ofNat (utf16Length value)) = false

instance (js : Js) (numericType : Bool) (value : String) :
    (rule : VariableRule) → Decidable (rule.Accepts js numericType value)
  | .presence | .string => inferInstanceAs (Decidable True)
  | .numeric | .integer | .regex _ => inferInstanceAs (Decidable (_ = _))
  | .boolean | .oneOf _ => inferInstanceAs (Decidable (_ ∈ _))
  | .between _ _ => inferInstanceAs (Decidable (_ ∧ _ ∧ _))
  | .min _ | .max _ => inferInstanceAs (Decidable (if numericType = true then _ ∧ _ else _ = _))

/-- A rule that is not known asks nothing. -/
def Satisfies (js : Js) (numericType : Bool) (value rule : String) : Prop :=
  ∀ r ∈ VariableRule.parse js rule, r.Accepts js numericType value

instance (js : Js) (numericType : Bool) (value rule : String) :
    Decidable (Satisfies js numericType value rule) :=
  inferInstanceAs (Decidable (∀ r ∈ VariableRule.parse js rule, _))

/-- The rules a rules string is made of. -/
def ruleList (rules : String) : List String := (splitOn '|' rules).map jsTrim

/-- Whether bounds are on the number. -/
def isNumericType (rules : List String) : Bool :=
  decide ("numeric" ∈ rules) || decide ("integer" ∈ rules)

/-! ## One rule -/

section OneRule

variable {js : Js} {variableName value rule : String} {numericType : Bool}

theorem parse_eq_some {r : VariableRule} (h : VariableRule.parse js rule = some r) :
    Satisfies js numericType value rule ↔ r.Accepts js numericType value := by
  unfold Satisfies
  rw [h]
  simp

theorem parse_eq_none (h : VariableRule.parse js rule = none) :
    Satisfies js numericType value rule := by
  unfold Satisfies
  rw [h]
  simp

/-! How the rules with one parameter are read. -/

/-- A rule whose keyword is none of the words is one with a parameter. -/
theorem parse_parameter {rule : String} (h : ':' ∈ rule.toList) :
    VariableRule.parse js rule = VariableRule.parseParameter js rule := by
  have hne (word : String) (hword : ':' ∉ word.toList) : rule ≠ word := by
    rintro rfl
    exact hword h
  unfold VariableRule.parse
  rw [if_neg (not_or.mpr ⟨hne _ (by decide), hne _ (by decide)⟩), if_neg (hne _ (by decide)),
    if_neg (hne _ (by decide)), if_neg (hne _ (by decide)), if_neg (hne _ (by decide))]

/-- A keyword that does not start the text. -/
theorem stripPrefix?_eq_none {keyword other rest : String}
    (h : keyword.toList.isPrefixOf (other.toList ++ rest.toList) = false) :
    Text.stripPrefix? keyword (other ++ rest) = none := by
  unfold Text.stripPrefix?
  rw [String.toList_append, h]
  rfl

theorem parse_min {bound : String} : VariableRule.parse js ("min:" ++ bound) =
    some (.min (js.number bound)) := by
  rw [parse_parameter (by simp)]
  unfold VariableRule.parseParameter
  rw [stripPrefix?_eq_none rfl, stripPrefix?_eq_none rfl, stripPrefix?_eq_none rfl,
    Text.stripPrefix?_eq_some.mpr rfl]

theorem parse_max {bound : String} : VariableRule.parse js ("max:" ++ bound) =
    some (.max (js.number bound)) := by
  rw [parse_parameter (by simp)]
  unfold VariableRule.parseParameter
  rw [stripPrefix?_eq_none rfl, stripPrefix?_eq_none rfl, stripPrefix?_eq_none rfl,
    stripPrefix?_eq_none rfl, Text.stripPrefix?_eq_some.mpr rfl]

/-- The errors of a rule that is known. -/
theorem length_fail {r : VariableRule} {bad : Bool} {text : String}
    (hr : VariableRule.parse js rule = some r)
    (hbad : bad = true ↔ ¬ r.Accepts js numericType value) :
    (if bad = true then [variableName ++ text] else []).length =
      if Satisfies js numericType value rule then 0 else 1 := by
  rw [if_congr (parse_eq_some hr) rfl rfl]
  by_cases h : r.Accepts js numericType value
  · rw [if_pos h, if_neg fun hb => hbad.mp hb h, List.length_nil]
  · rw [if_neg h, if_pos (hbad.mpr h), List.length_singleton]

/-- One error when the rule does not accept the value, and none when it does. -/
theorem length_ruleErrors : (ruleErrors js variableName value numericType rule).length =
    if Satisfies js numericType value rule then 0 else 1 := by
  have hparameter (keyword : String) : (if keyword.toList.isPrefixOf rule.toList then
      some (String.ofList (rule.toList.drop keyword.length)) else none) =
        Text.stripPrefix? keyword rule := rfl
  unfold ruleErrors
  simp only [hparameter]
  split
  next h =>
    have hsat : Satisfies js numericType value rule := by
      rcases h with rfl | rfl | rfl
      · exact (parse_eq_some (r := .presence) rfl).mpr trivial
      · exact (parse_eq_some (r := .presence) rfl).mpr trivial
      · exact (parse_eq_some (r := .string) rfl).mpr trivial
    rw [if_pos hsat, List.length_nil]
  split
  next h => exact length_fail (r := .numeric) (by rw [h]; rfl) (by simp [VariableRule.Accepts])
  split
  next h => exact length_fail (r := .integer) (by rw [h]; rfl) (by simp [VariableRule.Accepts])
  split
  next h => exact length_fail (r := .boolean) (by rw [h]; rfl) (by simp [VariableRule.Accepts])
  next hpresence hnumeric hinteger hboolean =>
  have hparse : VariableRule.parse js rule = VariableRule.parseParameter js rule := by
    unfold VariableRule.parse
    rw [if_neg (by tauto), if_neg (by tauto), if_neg hnumeric, if_neg hinteger, if_neg hboolean]
  unfold VariableRule.parseParameter at hparse
  cases hbetween : Text.stripPrefix? "between:" rule with
  | some parameters =>
    simp only [hbetween] at hparse ⊢
    split
    next low high hsplit =>
      rw [hsplit] at hparse
      refine length_fail hparse ?_
      simp only [VariableRule.Accepts, Bool.or_eq_true, not_and_or, Bool.not_eq_false, or_assoc]
    next hsplit =>
      have hnone : VariableRule.parse js rule = none := by
        rw [hparse]
        split
        next low high heq => exact absurd heq (hsplit low high)
        next => rfl
      rw [if_pos (parse_eq_none hnone), List.length_nil]
  | none =>
  simp only [hbetween] at hparse ⊢
  cases hin : Text.stripPrefix? "in:" rule with
  | some options =>
    simp only [hin] at hparse ⊢
    exact length_fail hparse (by simp [VariableRule.Accepts])
  | none =>
  simp only [hin] at hparse ⊢
  cases hregex : Text.stripPrefix? "regex:" rule with
  | some pattern =>
    simp only [hregex] at hparse ⊢
    split
    next passed htest => exact length_fail hparse (by simp [VariableRule.Accepts, htest])
    next htest =>
      have hbad : true = true ↔ ¬ VariableRule.Accepts js numericType value
          (.regex (String.ofList (stripDelimiters pattern.toList))) := by
        simp [VariableRule.Accepts, htest]
      exact length_fail hparse hbad
  | none =>
  simp only [hregex] at hparse ⊢
  cases hmin : Text.stripPrefix? "min:" rule with
  | some bound =>
    simp only [hmin] at hparse ⊢
    split
    next h =>
      refine length_fail hparse ?_
      simp only [VariableRule.Accepts, h, if_true, Bool.or_eq_true, not_and_or, Bool.not_eq_false]
    next h => exact length_fail hparse (by simp [VariableRule.Accepts, h])
  | none =>
  simp only [hmin] at hparse ⊢
  cases hmax : Text.stripPrefix? "max:" rule with
  | some bound =>
    simp only [hmax] at hparse ⊢
    split
    next h =>
      refine length_fail hparse ?_
      simp only [VariableRule.Accepts, h, if_true, Bool.or_eq_true, not_and_or, Bool.not_eq_false]
    next h => exact length_fail hparse (by simp [VariableRule.Accepts, h])
  | none =>
    simp only [hmax] at hparse ⊢
    rw [if_pos (parse_eq_none hparse), List.length_nil]

/-- No errors exactly when the rule accepts the value. -/
theorem ruleErrors_eq_nil : ruleErrors js variableName value numericType rule = [] ↔
    Satisfies js numericType value rule := by
  rw [← List.length_eq_zero_iff, length_ruleErrors]
  split
  next h => exact iff_of_true rfl h
  next h => exact iff_of_false (by simp) h

end OneRule

/-! ## A rules string -/

section RulesString

variable {js : Js} {variableName value : String} {rules rules' : String}

/-- The number of rules that do not accept a value that is not empty. -/
def failing (js : Js) (value rules : String) : Nat :=
  (ruleList rules).countP fun rule =>
    ¬ Satisfies js (isNumericType (ruleList rules)) value rule

/-- What the verdict should be. -/
def Passes (js : Js) (value : Option String) (rules : String) : Prop :=
  jsTrim rules = "" ∨ (value = none ∨ value = some "") ∧ "required" ∉ ruleList rules ∨
    ∃ text, value = some text ∧ text ≠ "" ∧
      ∀ rule ∈ ruleList rules, Satisfies js (isNumericType (ruleList rules)) text rule

theorem dropWhile_eq_nil_of_append {p : Char → Bool} {chars : List Char}
    (h : ((chars.dropWhile p).reverse.dropWhile p).reverse = []) : ∀ c ∈ chars, p c = true := by
  rw [List.reverse_eq_nil_iff, List.dropWhile_eq_nil_iff] at h
  have hdropped : chars.dropWhile p = [] := by
    cases hd : chars.dropWhile p with
    | nil => rfl
    | cons c rest =>
      have hhead := List.head?_dropWhile_not p chars
      rw [hd] at h hhead
      have hc := h c (by simp)
      simp [hc] at hhead
  exact List.dropWhile_eq_nil_iff.mp hdropped

/-- A blank rules string is one empty rule. -/
theorem ruleList_blank (h : jsTrim rules = "") : ruleList rules = [""] := by
  have hblank : ∀ c ∈ rules.toList, isJsSpace c = true := by
    unfold jsTrim at h
    rw [← String.toList_inj, String.toList_ofList] at h
    exact dropWhile_eq_nil_of_append h
  have hbar : '|' ∉ rules.toList := by
    intro hmem
    exact absurd (hblank _ hmem) (by decide)
  unfold ruleList splitOn
  rw [List.splitOn_eq_singleton hbar, List.map_singleton, List.map_singleton,
    String.ofList_toList, h]

theorem satisfies_empty {numericType : Bool} : Satisfies js numericType value "" :=
  parse_eq_none rfl

/-- The verdict on a value that is not empty, blank rules or not. -/
theorem validateVariableValue_some (htext : value ≠ "") :
    (validateVariableValue js variableName (some value) rules).errors =
        (ruleList rules).flatMap
          (ruleErrors js variableName value (isNumericType (ruleList rules))) ∧
      ((validateVariableValue js variableName (some value) rules).valid = true ↔
        ∀ rule ∈ ruleList rules, Satisfies js (isNumericType (ruleList rules)) value rule) := by
  have htruthy : truthy (some value) = some value := by
    unfold truthy
    split
    next heq => exact absurd (Option.some.inj heq) htext
    next => rfl
  have hnone : (ruleList rules).flatMap
      (ruleErrors js variableName value (isNumericType (ruleList rules))) = [] ↔
        ∀ rule ∈ ruleList rules, Satisfies js (isNumericType (ruleList rules)) value rule := by
    simp only [List.flatMap_eq_nil_iff, ruleErrors_eq_nil]
  unfold validateVariableValue
  split
  next hblank =>
    have hsat : ∀ rule ∈ ruleList rules,
        Satisfies js (isNumericType (ruleList rules)) value rule := by
      rw [ruleList_blank hblank]
      simp [satisfies_empty]
    exact ⟨(hnone.mpr hsat).symm, iff_of_true rfl hsat⟩
  next =>
    rw [htruthy]
    refine ⟨rfl, ?_⟩
    rw [← hnone, ← List.isEmpty_iff]
    exact Iff.rfl

/-- The verdict on a value that is not there or empty. -/
theorem validateVariableValue_empty {value : Option String} (h : value = none ∨ value = some "") :
    (validateVariableValue js variableName value rules).valid = true ↔
      "required" ∉ ruleList rules := by
  have htruthy : truthy value = none := by
    rcases h with rfl | rfl
    all_goals rfl
  unfold validateVariableValue
  split
  next hblank =>
    rw [ruleList_blank hblank]
    simp
  next =>
    rw [htruthy]
    show (if "required" ∈ ruleList rules then _ else _ : ValidationResult).valid = true ↔ _
    split
    next hrequired => simp [hrequired]
    next hrequired => simp [hrequired]

theorem valid_iff_passes {value : Option String} :
    (validateVariableValue js variableName value rules).valid = true ↔ Passes js value rules := by
  unfold Passes
  cases value with
  | none =>
    rw [validateVariableValue_empty (.inl rfl)]
    constructor
    · exact fun h => .inr (.inl ⟨.inl rfl, h⟩)
    · rintro (hblank | ⟨-, h⟩ | ⟨text, htext, -⟩)
      · rw [ruleList_blank hblank]
        simp
      · exact h
      · cases htext
  | some text =>
    by_cases htext : text = ""
    · subst htext
      rw [validateVariableValue_empty (.inr rfl)]
      constructor
      · exact fun h => .inr (.inl ⟨.inr rfl, h⟩)
      · rintro (hblank | ⟨-, h⟩ | ⟨text, htext, hne, -⟩)
        · rw [ruleList_blank hblank]
          simp
        · exact h
        · exact absurd (Option.some.inj htext).symm hne
    · rw [(validateVariableValue_some htext).2]
      constructor
      · exact fun h => .inr (.inr ⟨text, rfl, htext, h⟩)
      · rintro (hblank | ⟨h | h, -⟩ | ⟨_, heq, -, h⟩)
        · rw [ruleList_blank hblank]
          simp [satisfies_empty]
        · cases h
        · exact absurd (Option.some.inj h) htext
        · obtain rfl := Option.some.inj heq
          exact h

/-- The verdict depends on which rules there are, not on their order or number. -/
theorem valid_congr {value : Option String}
    (h : ∀ rule, rule ∈ ruleList rules ↔ rule ∈ ruleList rules') :
    (validateVariableValue js variableName value rules).valid =
      (validateVariableValue js variableName value rules').valid := by
  have hnumeric : isNumericType (ruleList rules) = isNumericType (ruleList rules') := by
    unfold isNumericType
    rw [decide_eq_decide.mpr (h "numeric"), decide_eq_decide.mpr (h "integer")]
  rw [Bool.eq_iff_iff]
  by_cases hempty : value = none ∨ value = some ""
  · rw [validateVariableValue_empty hempty, validateVariableValue_empty hempty, h]
  · cases value with
    | none => exact absurd (.inl rfl) hempty
    | some text =>
      have htext : text ≠ "" := fun heq => hempty (.inr (congrArg some heq))
      rw [(validateVariableValue_some htext).2, (validateVariableValue_some htext).2, hnumeric]
      simp only [h]

/-- One error for each rule that does not accept the value. -/
theorem length_errors (htext : value ≠ "") :
    (validateVariableValue js variableName (some value) rules).errors.length =
      failing js value rules := by
  rw [(validateVariableValue_some htext).1, failing]
  generalize isNumericType (ruleList rules) = numericType
  induction ruleList rules with
  | nil => rfl
  | cons rule rest ih =>
    rw [List.flatMap_cons, List.length_append, ih, length_ruleErrors, List.countP_cons, add_comm]
    congr 1
    by_cases h : Satisfies js numericType value rule
    · simp [h]
    · simp [h]

end RulesString

/-! ## The variables of a server -/

section Validator

variable (js : Js) (values : Record String)

/-- The value of a variable, or its default, passes the rules of the variable. -/
def PassesRules (eggVar : EggVariable) : Prop :=
  (validateVariableValue js eggVar.name
    (some ((values.get eggVar.envVariable).getD eggVar.defaultValue)) eggVar.rules).valid = true

variable {js values}

/-- The errors are under the names of the variables that do not pass. -/
theorem mem_keys_validateServerVariables {eggVariables : List EggVariable} {key : String} :
    key ∈ (validateServerVariables js values eggVariables).map Prod.fst ↔
      ∃ eggVar ∈ eggVariables, eggVar.envVariable = key ∧ ¬ PassesRules js values eggVar := by
  have hfold (errors : Record (List String)) :
      key ∈ (eggVariables.foldl (fun errors eggVar =>
        let value := (values.get eggVar.envVariable).getD eggVar.defaultValue
        let result := validateVariableValue js eggVar.name (some value) eggVar.rules
        if result.valid then errors else errors.set eggVar.envVariable result.errors)
          errors).map Prod.fst ↔
        key ∈ errors.map Prod.fst ∨
          ∃ eggVar ∈ eggVariables, eggVar.envVariable = key ∧ ¬ PassesRules js values eggVar := by
    induction eggVariables generalizing errors with
    | nil => simp
    | cons eggVar rest ih =>
      rw [List.foldl_cons, ih, List.exists_mem_cons_iff, ← or_assoc]
      refine or_congr_left ?_
      unfold PassesRules
      dsimp only
      split
      next hvalid => simp [hvalid]
      next hinvalid =>
        rw [Record.mem_keys_set, or_comm, eq_comm]
        exact or_congr_right ⟨fun h => ⟨h, hinvalid⟩, And.left⟩
  rw [validateServerVariables, hfold]
  simp

/-- There are no errors exactly when every variable passes its rules. -/
theorem validateServerVariables_isEmpty (eggVariables : List EggVariable) :
    (validateServerVariables js values eggVariables).isEmpty = true ↔
      ∀ eggVar ∈ eggVariables, PassesRules js values eggVar := by
  rw [List.isEmpty_iff, ← List.map_eq_nil_iff (f := Prod.fst), List.eq_nil_iff_forall_not_mem]
  simp only [mem_keys_validateServerVariables, not_exists, not_and, not_not]
  exact ⟨fun h eggVar hmem => h _ eggVar hmem rfl, fun h _ eggVar hmem _ => h eggVar hmem⟩

end Validator

/-- What the validator says of one value, and of the variables of a server, is what the rules
say. -/
theorem rules_semantics (js : Js) :
    (∀ variableName value rules,
      (validateVariableValue js variableName value rules).valid = true ↔ Passes js value rules) ∧
    (∀ variableName value rules rules', (∀ rule, rule ∈ ruleList rules ↔ rule ∈ ruleList rules') →
      (validateVariableValue js variableName value rules).valid =
        (validateVariableValue js variableName value rules').valid) ∧
    (∀ variableName value rules, value ≠ "" →
      (validateVariableValue js variableName (some value) rules).errors.length =
        failing js value rules) ∧
    ∀ values eggVariables,
      ((validateServerVariables js values eggVariables).isEmpty = true ↔
        ∀ eggVar ∈ eggVariables, PassesRules js values eggVar) ∧
      ∀ key, key ∈ (validateServerVariables js values eggVariables).map Prod.fst ↔
        ∃ eggVar ∈ eggVariables, eggVar.envVariable = key ∧ ¬ PassesRules js values eggVar :=
  ⟨fun _ _ _ => valid_iff_passes, fun _ _ _ _ => valid_congr, fun _ _ _ => length_errors,
    fun _ eggVariables => ⟨validateServerVariables_isEmpty eggVariables,
      fun _ => mem_keys_validateServerVariables⟩⟩

end Panel
