import NexusPanel.Panel.VariableRules

/-!
# Rules joined to a string

The author of an egg joins rules with bars, and the validator splits them again. What comes out
is what went in as long as no rule has a bar in it, and a pattern or a list of options may well
have one: then the rule is cut in two.
-/

namespace Panel

/-- `rules.join('|')`. -/
def joinRules (rules : List String) : String := "|".intercalate rules

/-- A value is valid under the joined rules when each rule accepts it, and only then. -/
def JoinedMeansEach (js : Js) (variableName : String) (rules : List String) (value : String) :
    Prop :=
  (validateVariableValue js variableName (some value) (joinRules rules)).valid = true ↔
    ∀ rule ∈ rules, Satisfies js (isNumericType rules) value rule

instance (js : Js) (variableName : String) (rules : List String) (value : String) :
    Decidable (JoinedMeansEach js variableName rules value) := inferInstanceAs (Decidable (_ ↔ _))

section Join

variable {js : Js} {variableName value : String} {rules : List String}

/-- Without a bar in a rule, the rules come apart as they were put together. -/
theorem ruleList_joinRules (hblanks : ∀ rule ∈ rules, jsTrim rule = rule)
    (hbar : ∀ rule ∈ rules, '|' ∉ rule.toList) (hne : rules ≠ []) :
    ruleList (joinRules rules) = rules := by
  have hsplit : splitOn '|' (joinRules rules) = rules := by
    unfold splitOn joinRules
    rw [String.toList_intercalate]
    have hbars : ∀ part ∈ rules.map String.toList, '|' ∉ part := by
      intro part hpart
      obtain ⟨rule, hrule, rfl⟩ := List.mem_map.mp hpart
      exact hbar rule hrule
    rw [show "|".toList = ['|'] from rfl, List.splitOn_intercalate '|' hbars (by simpa using hne),
      List.map_map]
    refine (List.map_congr_left fun rule _ => ?_).trans (List.map_id rules)
    exact String.ofList_toList
  unfold ruleList
  rw [hsplit]
  exact (List.map_congr_left hblanks).trans (List.map_id rules)

theorem joined_of_no_bar (hblanks : ∀ rule ∈ rules, jsTrim rule = rule)
    (hbar : ∀ rule ∈ rules, '|' ∉ rule.toList) (hvalue : value ≠ "") :
    JoinedMeansEach js variableName rules value := by
  unfold JoinedMeansEach
  rw [(validateVariableValue_some hvalue).2]
  cases hrules : rules with
  | nil =>
    have hblank : ruleList (joinRules []) = [""] := by decide
    rw [hblank]
    simp [satisfies_empty]
  | cons rule rest =>
    rw [← hrules, ruleList_joinRules hblanks hbar (by simp [hrules])]

end Join

/-! ## A list of options with a bar -/

section Options

variable {js : Js} {variableName value options : String}

theorem parse_in : VariableRule.parse js ("in:" ++ options) =
    some (.oneOf (splitOn ',' options)) := by
  rw [parse_parameter (by simp)]
  unfold VariableRule.parseParameter
  rw [stripPrefix?_eq_none rfl, Text.stripPrefix?_eq_some.mpr rfl]

theorem satisfies_in {numericType : Bool} :
    Satisfies js numericType value ("in:" ++ options) ↔ value ∈ splitOn ',' options :=
  parse_eq_some parse_in

/-- Blanks at the end of the options go; the rest stays. -/
theorem jsTrim_in (options : List Char) : ∃ rest, (∀ c ∈ rest, c ∈ options) ∧
    jsTrim (String.ofList ('i' :: 'n' :: ':' :: options)) = "in:" ++ String.ofList rest := by
  have hfront : ('i' :: 'n' :: ':' :: options).dropWhile isJsSpace =
      'i' :: 'n' :: ':' :: options := rfl
  have hback : ('i' :: 'n' :: ':' :: options).reverse.dropWhile isJsSpace =
      options.reverse.dropWhile isJsSpace ++ [':', 'n', 'i'] := by
    rw [show ('i' :: 'n' :: ':' :: options).reverse = options.reverse ++ [':', 'n', 'i'] by simp,
      List.dropWhile_append]
    split
    next h =>
      rw [List.isEmpty_iff.mp h]
      rfl
    next => rfl
  refine ⟨(options.reverse.dropWhile isJsSpace).reverse, fun c hc => ?_, ?_⟩
  · exact List.mem_reverse.mp ((List.dropWhile_suffix _).mem (List.mem_reverse.mp hc))
  · unfold jsTrim
    rw [String.toList_ofList, hfront, hback, List.reverse_append, ← String.toList_inj,
      String.toList_append, String.toList_ofList]
    exact congrArg _ String.toList_ofList.symm

/-- Cut at the bar, the list never holds the option that had it. -/
theorem joined_options_fail (hbar : '|' ∈ options.toList) :
    ∃ value, value ≠ "" ∧ ¬ JoinedMeansEach js variableName ["in:" ++ options] value := by
  obtain ⟨option, hoption, hmem⟩ := Text.exists_mem_splitOn.mpr ⟨hbar, show '|' ≠ ',' by decide⟩
  have hvalue : String.ofList option ≠ "" := by
    intro h
    rw [← String.toList_inj, String.toList_ofList] at h
    rw [h] at hmem
    exact absurd hmem List.not_mem_nil
  refine ⟨String.ofList option, hvalue, fun hmeans => ?_⟩
  have haccepts : ∀ rule ∈ ["in:" ++ options],
      Satisfies js (isNumericType ["in:" ++ options]) (String.ofList option) rule := by
    simp only [List.forall_mem_singleton, satisfies_in]
    exact List.mem_map_of_mem hoption
  have hpieces := (validateVariableValue_some hvalue).2.mp (hmeans.mpr haccepts)
  cases hsplit : options.toList.splitOn '|' with
  | nil => exact List.splitOn_ne_nil _ _ hsplit
  | cons head tail =>
    obtain ⟨rest, hrest, htrim⟩ := jsTrim_in head
    have hfirst : "in:" ++ String.ofList rest ∈ ruleList (joinRules ["in:" ++ options]) := by
      have hwhole : ("in:" ++ options).toList.splitOn '|' =
          ('i' :: 'n' :: ':' :: head) :: tail := by
        rw [String.toList_append, show "in:".toList = ['i', 'n', ':'] from rfl]
        simp [List.splitOn_cons_eq_if_modifyHead, hsplit]
      unfold ruleList splitOn joinRules
      rw [String.intercalate_singleton, hwhole, ← htrim]
      exact List.mem_cons_self
    have hlisted := satisfies_in.mp (hpieces _ hfirst)
    obtain ⟨part, hpart, hsame⟩ := List.mem_map.mp hlisted
    obtain rfl := String.ofList_inj.mp hsame
    have hin : '|' ∈ (String.ofList rest).toList :=
      (Text.exists_mem_splitOn.mp ⟨part, hpart, hmem⟩).1
    rw [String.toList_ofList] at hin
    exact Text.not_mem_of_mem_splitOn (hsplit ▸ List.mem_cons_self) (hrest _ hin)

end Options

/-- Rules without blanks around them mean joined what they mean one by one when no rule has a
bar in it; and no list of options may have one, however few rules there are. -/
theorem joined_rules_mean_each (js : Js) (variableName : String) :
    (∀ rules : List String, (∀ rule ∈ rules, jsTrim rule = rule) →
      (∀ rule ∈ rules, '|' ∉ rule.toList) →
        ∀ value, value ≠ "" → JoinedMeansEach js variableName rules value) ∧
    ∀ options : String, '|' ∈ options.toList →
      ∃ value, value ≠ "" ∧ ¬ JoinedMeansEach js variableName ["in:" ++ options] value :=
  ⟨fun _ hblanks hbar _ hvalue => joined_of_no_bar hblanks hbar hvalue,
    fun _ hbar => joined_options_fail hbar⟩

/-- An option that the rule has, and that no joined string accepts. -/
theorem option_with_bar_refused :
    ¬ JoinedMeansEach .plain "Difficulty" ["required", "in:easy|hard"] "easy|hard" := by
  decide +kernel

end Panel
