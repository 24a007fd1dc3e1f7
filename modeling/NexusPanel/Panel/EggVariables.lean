import NexusPanel.Panel.Entities
import NexusPanel.Panel.JavaScript

/-!
# Egg variables

The validator of `variable-validator.ts` and the two uses `ServersService.create` makes of an
egg's variables: the environment of the new server, and its startup command.
-/

namespace Panel

structure ValidationResult where
  valid : Bool
  errors : List String
deriving DecidableEq, Repr

variable (js : Js)

/-- A pattern without the slashes around it. -/
def stripDelimiters (pattern : List Char) : List Char :=
  match pattern with
  | '/' :: rest =>
    match rest.reverse.dropWhile (· ≠ '/') with
    | _ :: inner => inner.reverse
    | [] => pattern
  | _ => pattern

/-- The errors of one rule on a value that is not empty. -/
def ruleErrors (variableName value : String) (isNumericType : Bool) (rule : String) :
    List String :=
  let fail (bad : Bool) (text : String) : List String := if bad then [variableName ++ text] else []
  let parameter (keyword : String) : Option String :=
    if keyword.toList.isPrefixOf rule.toList then
      some (String.ofList (rule.toList.drop keyword.length))
    else none
  let num := js.number value
  if rule = "required" ∨ rule = "nullable" ∨ rule = "string" then []
  else if rule = "numeric" then fail num.isNaN " must be numeric."
  else if rule = "integer" then fail (!num.isInteger) " must be an integer."
  else if rule = "boolean" then
    fail (value ∉ ["true", "false", "1", "0"]) " must be a boolean (true, false, 1, or 0)."
  else if let some text := parameter "between:" then
    match splitOn ',' text with
    | [low, high] =>
      let min := js.number low
      let max := js.number high
      fail (num.isNaN || num.lt min || max.lt num)
        s!" must be between {js.printed min} and {js.printed max}."
    | _ => []
  else if let some text := parameter "in:" then
    let options := splitOn ',' text
    fail (value ∉ options) (" must be one of: " ++ ", ".intercalate options ++ ".")
  else if let some text := parameter "regex:" then
    match js.test (String.ofList (stripDelimiters text.toList)) value with
    | some passed => fail (!passed) " does not match the required pattern."
    | none => fail true " has an invalid regex rule."
  else if let some text := parameter "min:" then
    let min := js.number text
    if isNumericType then fail (num.isNaN || num.lt min) s!" must be at least {js.printed min}."
    else fail ((JsNumber.ofNat (utf16Length value)).lt min)
      s!" must be at least {js.printed min} characters."
  else if let some text := parameter "max:" then
    let max := js.number text
    if isNumericType then
      fail (num.isNaN || max.lt num) s!" must be no more than {js.printed max}."
    else fail (max.lt (.ofNat (utf16Length value)))
      s!" must be no more than {js.printed max} characters."
  else []

/-- `null` and `undefined` are `none`. -/
def validateVariableValue (variableName : String) (value : Option String) (rules : String) :
    ValidationResult :=
  if jsTrim rules = "" then ⟨true, []⟩
  else
    let ruleList := (splitOn '|' rules).map jsTrim
    match truthy value with
    | none =>
      if "required" ∈ ruleList then ⟨false, [s!"{variableName} is required."]⟩ else ⟨true, []⟩
    | some text =>
      let isNumericType := decide ("numeric" ∈ ruleList) || decide ("integer" ∈ ruleList)
      let errors := ruleList.flatMap (ruleErrors js variableName text isNumericType)
      ⟨errors.isEmpty, errors⟩

/-- The errors by variable; the variables are valid when there are none. -/
def validateServerVariables (values : Record String) (eggVariables : List EggVariable) :
    Record (List String) :=
  eggVariables.foldl (fun errors eggVar =>
    let value := (values.get eggVar.envVariable).getD eggVar.defaultValue
    let result := validateVariableValue js eggVar.name (some value) eggVar.rules
    if result.valid then errors else errors.set eggVar.envVariable result.errors) []

/-- The value given for each variable of the egg, or its default. -/
def resolveVariables (given : Option (Record String)) (eggVariables : List EggVariable) :
    Record String :=
  eggVariables.foldl (fun env v =>
    env.set v.envVariable ((given.bind fun r => r.get v.envVariable).getD v.defaultValue)) []

/-- The name in double braces. -/
def placeholder (key : String) : String := String.ofList ('{' :: '{' :: key.toList ++ ['}', '}'])

/-- One placeholder replaced everywhere. A name of word characters is literal in the pattern;
any other goes into it unescaped. -/
def substituteVariable (key value startup : String) : Option String :=
  if key.toList.all isWordChar then
    some (String.ofList
      (replaceLiteral (placeholder key).toList value.toList [] 0 startup.toList))
  else js.replace ("\\\x7b\\\x7b" ++ key ++ "\\\x7d\\\x7d") value startup

/-- The placeholders replaced one variable after the other; `none` when a name does not make
a pattern. -/
def renderStartup (env : Record String) (startup : String) : Option String :=
  env.entries.foldlM (fun text (key, value) => substituteVariable js key value text) startup

end Panel
