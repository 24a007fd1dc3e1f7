import NexusPanel.Panel.JavaScript

/-!
# What the panel accepts as a heartbeat

`HeartbeatDto` with the decorators of its properties, checked as the global `ValidationPipe`
checks a body: undeclared properties are errors, each property has to satisfy its decorators,
and the elements of `servers` are checked against a class of their own, with the path to them
in front of their messages.
-/

namespace Panel

/-- A parsed body. -/
inductive JsValue
  | null
  | bool (b : Bool)
  | number (n : JsNumber)
  | str (text : String)
  | arr (items : List JsValue)
  | obj (entries : List (String × JsValue))

namespace HeartbeatDto

/-! ## Decorators -/

inductive Decorator
  | isString
  | isNumber
  | min (n : Int)
  | max (n : Int)
  | isArray
deriving DecidableEq, Repr

namespace Decorator

def holds : Decorator → Option JsValue → Bool
  | .isString, some (.str _) => true
  | .isNumber, some (.number (.finite _)) => true
  | .min n, some (.number x) => !x.isNaN && !x.lt (.finite n)
  | .max n, some (.number x) => !x.isNaN && !(JsNumber.finite n).lt x
  | .isArray, some (.arr _) => true
  | _, _ => false

def message (name : String) : Decorator → String
  | .isString => s!"{name} must be a string"
  | .isNumber => s!"{name} must be a number conforming to the specified constraints"
  | .min n => s!"{name} must not be less than {n}"
  | .max n => s!"{name} must not be greater than {n}"
  | .isArray => s!"{name} must be an array"

end Decorator

/-- A declared property; `@IsOptional()` lets it be absent or `null`. -/
structure Property where
  name : String
  optional : Bool
  decorators : List Decorator
deriving DecidableEq, Repr

/-- `HeartbeatDto`, without the nested check of `servers`. -/
def properties : List Property :=
  [⟨"version", false, [.isString]⟩,
    ⟨"totalMemory", false, [.isNumber, .min 0]⟩,
    ⟨"usedMemory", false, [.isNumber, .min 0]⟩,
    ⟨"totalDisk", false, [.isNumber, .min 0]⟩,
    ⟨"usedDisk", false, [.isNumber, .min 0]⟩,
    ⟨"cpuPercent", false, [.isNumber, .min 0, .max 100]⟩,
    ⟨"servers", false, [.isArray]⟩]

/-- `ServerHeartbeatDto`. -/
def serverProperties : List Property :=
  [⟨"uuid", false, [.isString]⟩, ⟨"state", false, [.isString]⟩, ⟨"resources", true, []⟩]

/-! ## Checking -/

def propertyErrors (body : List (String × JsValue)) (p : Property) : List String :=
  match p.optional, body.lookup p.name with
  | true, none | true, some .null => []
  | _, value => (p.decorators.filter fun d => !d.holds value).map (Decorator.message p.name)

def undeclared (declared : List Property) (body : List (String × JsValue)) : List String :=
  (body.filter fun entry => !declared.any fun p => p.name == entry.1).map
    fun entry => s!"property {entry.1} should not exist"

/-- The errors of an object, apart from those of nested ones. -/
def classErrors (declared : List Property) (body : List (String × JsValue)) : List String :=
  undeclared declared body ++ declared.flatMap (propertyErrors body)

def notNested : String := "each value in nested property servers must be either object or array"

mutual

/-- `@ValidateNested({ each: true })` at the path. A missing value is passed over, an array is
gone through, where no element may be missing. -/
def nestedErrors (path : String) : JsValue → List String
  | .null => []
  | .obj entries => (classErrors serverProperties entries).map fun message => path ++ "." ++ message
  | .arr items => elementErrors path 0 items
  | _ => [notNested]

def elementErrors (path : String) (index : Nat) : List JsValue → List String
  | [] => []
  | .null :: items => notNested :: elementErrors path (index + 1) items
  | item :: items =>
    nestedErrors (path ++ "." ++ toString index) item ++ elementErrors path (index + 1) items

end

/-- The messages with which a body is refused. -/
def errors (body : List (String × JsValue)) : List String :=
  classErrors properties body ++ ((body.lookup "servers").map (nestedErrors "servers")).getD []

/-! ## A body that is accepted -/

/-- A property is in order when all its decorators hold. -/
theorem propertyErrors_eq_nil {body : List (String × JsValue)} {p : Property}
    (hp : p.optional = false) :
    propertyErrors body p = [] ↔ ∀ d ∈ p.decorators, d.holds (body.lookup p.name) = true := by
  rw [propertyErrors, hp]
  simp only [List.map_eq_nil_iff, List.filter_eq_nil_iff, Bool.not_eq_true', Bool.not_eq_false]

theorem classErrors_eq_nil {declared : List Property} {body : List (String × JsValue)} :
    classErrors declared body = [] ↔ undeclared declared body = [] ∧
      ∀ p ∈ declared, propertyErrors body p = [] := by
  rw [classErrors, List.append_eq_nil_iff, List.flatMap_eq_nil_iff]

/-- Elements that are in order wherever they stand. -/
theorem elementErrors_eq_nil {items : List JsValue}
    (h : ∀ item ∈ items, ∃ entries, item = .obj entries ∧ classErrors serverProperties entries = [])
    (path : String) (index : Nat) : elementErrors path index items = [] := by
  induction items generalizing index with
  | nil => rfl
  | cons item items ih =>
    obtain ⟨entries, rfl, hentries⟩ := h item List.mem_cons_self
    rw [elementErrors, nestedErrors, hentries, List.map_nil, List.nil_append]
    · exact ih (fun x hx => h x (List.mem_cons_of_mem _ hx)) (index + 1)
    · simp

theorem holds_min_ofNat (n : Nat) : Decorator.holds (.min 0) (some (.number (.ofNat n))) = true := by
  have hlt : ¬ ((n : Rat) < 0) := not_lt.mpr (Nat.cast_nonneg n)
  simp [Decorator.holds, JsNumber.ofNat, JsNumber.isNaN, JsNumber.lt, hlt]

theorem holds_min {n : Int} {q : Rat} :
    Decorator.holds (.min n) (some (.number (.finite q))) = true ↔ n ≤ q := by
  simp [Decorator.holds, JsNumber.isNaN, JsNumber.lt]

theorem holds_max {n : Int} {q : Rat} :
    Decorator.holds (.max n) (some (.number (.finite q))) = true ↔ q ≤ n := by
  simp [Decorator.holds, JsNumber.isNaN, JsNumber.lt]

end HeartbeatDto

end Panel
