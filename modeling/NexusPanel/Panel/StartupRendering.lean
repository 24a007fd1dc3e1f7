import NexusPanel.Foundation.Substitution
import NexusPanel.Panel.ServersSystem

/-!
# The startup command of a new server

`create` renders the startup template of the egg: one variable after the other, each placeholder
is replaced everywhere in the text it has come to. So a value may bring in the placeholder of a
variable that comes later, and a `$` in a value may have the meaning it has in a replacement.

Where neither happens the command is the template with all placeholders replaced at once, in
whatever order the variables stand.
-/

namespace Panel

open ServersService

/-! ## What the command should be -/

/-- The value of a variable: the one that is given, or its default. -/
def EggVariable.valueIn (v : EggVariable) (given : Option (Record String)) : String :=
  (given.bind fun r => r.get v.envVariable).getD v.defaultValue

/-- The value of the variable with this name. -/
def assigned (given : Option (Record String)) (eggVariables : List EggVariable) (name : String) :
    String :=
  ((eggVariables.find? fun v => v.envVariable == name).map fun v => v.valueIn given).getD ""

/-- The placeholder of a name, as a text. -/
def placeholderOf (name : String) : List Char := (placeholder name).toList

/-- The template with the placeholders of the variables replaced at once. -/
def substituted (eggVariables : List EggVariable) (value : String → List Char) (template : String) :
    List Char :=
  Substitution.substitute placeholderOf (eggVariables.map EggVariable.envVariable) value
    template.toList

/-- How often the placeholder of a name is found in a text. -/
def timesIn (name : String) (text : List Char) : Nat :=
  Substitution.occurrences (placeholderOf name) 0 text

/-- The variables of the egg that a request names. -/
def variablesFor (p : ServersState) (dto : CreateServerDto) : List EggVariable :=
  p.db.eggVariables.find fun v => v.eggId == dto.eggId

/-- In whatever order the variables are found, the row that is stored has the template with the
placeholders replaced at once. The transaction may find the database in another state. -/
def StoresSubstituted (js : Js) (p : ServersState) (dto : CreateServerDto) (gen : Generated)
    (egg : Egg) : Prop :=
  ∀ p' q server task, (variablesFor p' dto).Perm (variablesFor p dto) →
    (CreateTask.turn js p' .ok (.findVariables dto gen egg)).next = some (.insert server) →
    (CreateTask.turn js q .ok (.insert server)).next = some task →
    ∃ row ∈ (CreateTask.turn js q .ok (.insert server)).store.db.servers, row.id = gen.id ∧
      row.startup.toList = substituted (variablesFor p dto)
        (fun name => (assigned dto.envVariables (variablesFor p dto) name).toList) egg.startup

/-! ## When it is that -/

/-- A name in the pattern `[A-Za-z0-9_]+`. -/
def IsVariableName (name : String) : Prop := name ≠ "" ∧ name.toList.all isWordChar = true

/-- No `$` of the value has a meaning in a replacement. -/
def Literal (value : List Char) : Prop :=
  ∀ c ∈ ['$', '&', '\x60', '\x27'], ¬['$', c] <:+: value

instance (value : List Char) : Decidable (Literal value) :=
  List.decidableBAll (fun c => ¬['$', c] <:+: value) _

/-- The names that every object has a property for. -/
def inheritedNames : List String :=
  ["__defineGetter__", "__defineSetter__", "__lookupGetter__", "__lookupSetter__", "__proto__",
    "constructor", "hasOwnProperty", "isPrototypeOf", "propertyIsEnumerable", "toLocaleString",
    "toString", "valueOf"]

/-- The names that may have been replaced when it is a variable's turn: those that come first in
any case are, and those that come later in any case are not. -/
structure Earlier (eggVariables : List EggVariable) (name : String) (done : List String) :
    Prop where
  other : name ∉ done
  first : ∀ v ∈ eggVariables, Record.AlwaysBefore v.envVariable name → v.envVariable ∈ done
  later : ∀ name' ∈ done, ¬Record.AlwaysBefore name name'

/-- The variables whose placeholders occur are told apart by their names, have values that stand
for themselves, and are not mistaken for what every object has. And whatever has been put in
earlier, the placeholder of a variable is found as often as in the template, or stands for
itself. -/
structure Independent (given : Option (Record String)) (eggVariables : List EggVariable)
    (template : String) : Prop where
  single : ∀ v ∈ eggVariables, ∀ w ∈ eggVariables, v.envVariable = w.envVariable →
    timesIn v.envVariable template.toList ≠ 0 → v.valueIn given = w.valueIn given
  literal : ∀ v ∈ eggVariables, timesIn v.envVariable template.toList ≠ 0 →
    Literal (v.valueIn given).toList
  own : ∀ v ∈ eggVariables, timesIn v.envVariable template.toList ≠ 0 →
    v.envVariable ∈ inheritedNames → v.envVariable ≠ "__proto__" ∧
      ∀ r, given = some r → r.get v.envVariable ≠ none
  found : ∀ v ∈ eggVariables, ∀ done, Earlier eggVariables v.envVariable done →
    timesIn v.envVariable (substituted eggVariables (Substitution.partly placeholderOf
      (fun name => (assigned given eggVariables name).toList) done) template) =
        timesIn v.envVariable template.toList ∨
      (v.valueIn given).toList = placeholderOf v.envVariable

/-! ## Placeholders -/

section Placeholders

theorem brace_not_mem {name : String} (h : name.toList.all isWordChar = true) :
    '{' ∉ name.toList ∧ '}' ∉ name.toList := by
  rw [List.all_eq_true] at h
  constructor
  · intro hmem
    cases h _ hmem
  · intro hmem
    cases h _ hmem

theorem placeholderOf_eq (name : String) :
    placeholderOf name = '{' :: '{' :: (name.toList ++ ['}', '}']) := by
  rw [placeholderOf, placeholder, String.toList_ofList]
  rfl

theorem head_not_brace {name : String} (h : name.toList.all isWordChar = true) {c : Char}
    {x y : List Char} (hsplit : x ++ c :: y = name.toList ++ ['}', '}']) : c ≠ '{' := by
  rintro rfl
  have hmem : '{' ∈ name.toList ++ ['}', '}'] := hsplit ▸ by simp
  rcases List.mem_append.mp hmem with hname | hend
  · exact (brace_not_mem h).1 hname
  · simp at hend

/-- No placeholder begins with a proper end of one, nor the other way round: a placeholder begins
with two braces, and no end does. -/
theorem not_prefix_of_end {name other : String} (h : name.toList.all isWordChar = true)
    {x y : List Char} (hsplit : placeholderOf name = x ++ y) (hx : x ≠ []) (hy : y ≠ []) :
    ¬placeholderOf other <+: y ∧ ¬y <+: placeholderOf other := by
  obtain ⟨c, y, rfl⟩ := List.exists_cons_of_ne_nil hy
  obtain ⟨b, x, rfl⟩ := List.exists_cons_of_ne_nil hx
  rw [placeholderOf_eq] at hsplit ⊢
  obtain ⟨-, hsplit⟩ := List.cons.inj hsplit
  cases x with
  | cons d x =>
    have hhead := head_not_brace h (List.cons.inj hsplit).2.symm
    exact ⟨fun hpre => hhead (List.cons_prefix_cons.mp hpre).1.symm,
      fun hpre => hhead (List.cons_prefix_cons.mp hpre).1⟩
  | nil =>
    obtain ⟨-, hrest⟩ := List.cons.inj hsplit
    cases y with
    | nil => simp at hrest
    | cons d y =>
      have hsecond := head_not_brace h (x := []) hrest.symm
      exact ⟨fun hpre =>
          hsecond (List.cons_prefix_cons.mp (List.cons_prefix_cons.mp hpre).2).1.symm,
        fun hpre => hsecond (List.cons_prefix_cons.mp (List.cons_prefix_cons.mp hpre).2).1⟩

theorem takeWhile_name {name : String} (h : name.toList.all isWordChar = true)
    (rest : List Char) : (name.toList ++ '}' :: rest).takeWhile (· ≠ '}') = name.toList := by
  have hname : ∀ c ∈ name.toList, decide (c ≠ '}') = true := by
    intro c hc
    rw [decide_eq_true_eq]
    rintro rfl
    exact (brace_not_mem h).2 hc
  rw [List.takeWhile_append_of_pos hname, List.takeWhile_cons_of_neg (by simp), List.append_nil]

theorem placeholderOf_distinct {name other : String} (hname : name.toList.all isWordChar = true)
    (hother : other.toList.all isWordChar = true)
    (h : placeholderOf name <+: placeholderOf other) : name = other := by
  rw [placeholderOf_eq, placeholderOf_eq] at h
  obtain ⟨rest, hrest⟩ := (List.cons_prefix_cons.mp (List.cons_prefix_cons.mp h).2).2
  rw [List.append_assoc] at hrest
  have hnames := congrArg (List.takeWhile (· ≠ '}')) hrest
  rw [List.cons_append, takeWhile_name hname, takeWhile_name hother] at hnames
  exact String.toList_inj.mp hnames

theorem literal_placeholderOf {name : String} (h : name.toList.all isWordChar = true) :
    Literal (placeholderOf name) := by
  intro c _ within
  have hmem : '$' ∈ placeholderOf name := within.subset List.mem_cons_self
  rw [placeholderOf_eq] at hmem
  simp only [List.mem_cons, List.mem_append] at hmem
  obtain hbrace | hbrace | hname | hend | hend | hend := hmem
  · cases hbrace
  · cases hbrace
  · cases List.all_eq_true.mp h _ hname
  · cases hend
  · cases hend
  · cases hend

/-- The placeholders of word names do not overlap. -/
theorem separated_placeholders {names : List String}
    (h : ∀ name ∈ names, name.toList.all isWordChar = true) :
    Substitution.Separated placeholderOf names where
  nonempty name _ := by
    rw [placeholderOf_eq]
    exact List.cons_ne_nil _ _
  apart _ _ name hname _ _ hsplit hx hy := not_prefix_of_end (h name hname) hsplit hx hy
  distinct name hname other hother hprefix :=
    placeholderOf_distinct (h name hname) (h other hother) hprefix

end Placeholders

/-! ## Literal replacement -/

section Replacement

variable {value : List Char}

theorem Literal.tail {c : Char} (h : Literal (c :: value)) : Literal value :=
  fun d hd within => h d hd (within.trans (List.suffix_cons c value).isInfix)

theorem expandReplacement_of_literal (h : Literal value) (before matched after : List Char) :
    expandReplacement before matched after value = value := by
  fun_induction expandReplacement before matched after value with
  | case1 rest ih => exact absurd ⟨[], rest, rfl⟩ (h '$' (by simp))
  | case2 rest ih => exact absurd ⟨[], rest, rfl⟩ (h '&' (by simp))
  | case3 rest ih => exact absurd ⟨[], rest, rfl⟩ (h '\x60' (by simp))
  | case4 rest ih => exact absurd ⟨[], rest, rfl⟩ (h '\x27' (by simp))
  | case5 c rest _ _ _ _ ih => rw [ih h.tail]
  | case6 => rfl

/-- A literal value is put in as it is. -/
theorem replaceLiteral_of_literal {literal : List Char} (h : Literal value) (before : List Char)
    (skip : Nat) (text : List Char) :
    replaceLiteral literal value before skip text =
      Substitution.replaceAll literal value skip text := by
  induction text generalizing before skip with
  | nil => cases skip <;> rfl
  | cons c text ih =>
    cases skip with
    | succ skip => exact ih _ _
    | zero =>
      rw [replaceLiteral, Substitution.replaceAll, if_neg (by simp), ih, ih,
        expandReplacement_of_literal h]
      simp only [List.isPrefixOf_iff_prefix]

/-- Where the text is not found, it does not matter what would be put in. -/
theorem replaceLiteral_of_absent {literal : List Char} {text : List Char}
    (h : Substitution.occurrences literal 0 text = 0) (before : List Char) :
    replaceLiteral literal value before 0 text = text := by
  induction text generalizing before with
  | nil => rfl
  | cons c text ih =>
    have hmatch : ¬literal <+: c :: text := by
      intro hmatch
      rw [Substitution.occurrences, if_pos hmatch] at h
      exact Nat.succ_ne_zero _ h
    rw [Substitution.occurrences_letter hmatch] at h
    rw [replaceLiteral, if_neg (by simp), if_neg (List.isPrefixOf_iff_prefix.not.mpr hmatch), ih h]

end Replacement

/-! ## The environment -/

section Environment

variable {given : Option (Record String)} {eggVariables : List EggVariable}

/-- An entry of the environment for each name, with the value of a variable of that name. -/
structure Resolves (given : Option (Record String)) (eggVariables : List EggVariable)
    (env : Record String) : Prop where
  nodup : (env.map Prod.fst).Nodup
  names : ∀ name, name ∈ env.map Prod.fst ↔ ∃ v ∈ eggVariables, v.envVariable = name
  values : ∀ name value, env.get name = some value →
    ∃ v ∈ eggVariables, v.envVariable = name ∧ v.valueIn given = value

theorem Resolves.concat {env : Record String} (h : Resolves given eggVariables env)
    (v : EggVariable) :
    Resolves given (eggVariables ++ [v]) (env.set v.envVariable (v.valueIn given)) where
  nodup := Record.nodup_keys_set h.nodup _ _
  names name := by
    rw [Record.mem_keys_set, h.names]
    simp [or_comm, eq_comm]
  values name value hget := by
    rw [Record.get_set] at hget
    split at hget
    next hname =>
      cases hget
      exact ⟨v, by simp, hname.symm, rfl⟩
    next =>
      obtain ⟨w, hw, hfound⟩ := h.values name value hget
      exact ⟨w, List.mem_append_left _ hw, hfound⟩

theorem resolves_resolveVariables (given : Option (Record String))
    (eggVariables : List EggVariable) :
    Resolves given eggVariables (resolveVariables given eggVariables) := by
  induction eggVariables using List.reverseRecOn with
  | nil =>
    refine ⟨List.nodup_nil, fun name => ?_, fun name value hget => ?_⟩
    · simp [resolveVariables]
    · cases hget
  | append_singleton eggVariables v ih =>
    rw [resolveVariables, List.foldl_append, ← resolveVariables]
    exact ih.concat v

/-- A permutation of the variables is resolved by the same environments. -/
theorem Resolves.perm {eggVariables' : List EggVariable} {env : Record String}
    (h : Resolves given eggVariables env) (hperm : eggVariables.Perm eggVariables') :
    Resolves given eggVariables' env where
  nodup := h.nodup
  names name := by
    rw [h.names]
    exact exists_congr fun v => and_congr_left fun _ => hperm.mem_iff
  values name value hget := by
    obtain ⟨v, hv, hfound⟩ := h.values name value hget
    exact ⟨v, hperm.mem_iff.mp hv, hfound⟩

/-- The value of a name in the environment, as a text. -/
def valueOf (env : Record String) (name : String) : List Char := ((env.get name).getD "").toList

theorem Resolves.valueOf_eq {env : Record String} (h : Resolves given eggVariables env)
    {v : EggVariable} (hv : v ∈ eggVariables) : ∃ w ∈ eggVariables,
      w.envVariable = v.envVariable ∧ valueOf env v.envVariable = (w.valueIn given).toList := by
  obtain ⟨value, hget⟩ := Record.exists_get ((h.names v.envVariable).mpr ⟨v, hv, rfl⟩)
  obtain ⟨w, hw, hname, hvalue⟩ := h.values _ _ hget
  refine ⟨w, hw, hname, ?_⟩
  rw [valueOf, hget, hvalue, Option.getD_some]

theorem assigned_eq {v : EggVariable} (hv : v ∈ eggVariables) : ∃ w ∈ eggVariables,
    w.envVariable = v.envVariable ∧
      assigned given eggVariables v.envVariable = w.valueIn given := by
  cases hfind : eggVariables.find? fun w => w.envVariable == v.envVariable with
  | none => simpa using List.find?_eq_none.mp hfind v hv
  | some w =>
    refine ⟨w, List.mem_of_find?_eq_some hfind, by simpa using List.find?_some hfind, ?_⟩
    rw [assigned, hfind, Option.map_some, Option.getD_some]

end Environment

/-! ## Rendering -/

section Rendering

variable {js : Js} {given : Option (Record String)} {eggVariables : List EggVariable}
  {env : Record String} {template : String}

/-- One placeholder after the other. -/
def replaceEntry (text : List Char) (e : String × String) : List Char :=
  replaceLiteral (placeholderOf e.1) e.2.toList [] 0 text

theorem foldlM_substituteVariable {entries : Record String}
    (h : ∀ e ∈ entries, e.1.toList.all isWordChar = true) (text : List Char) :
    entries.foldlM (fun text (key, value) => substituteVariable js key value text)
      (String.ofList text) = some (String.ofList (entries.foldl replaceEntry text)) := by
  induction entries generalizing text with
  | nil => rfl
  | cons e entries ih =>
    obtain ⟨hname, hrest⟩ := List.forall_mem_cons.mp h
    have hstep : substituteVariable js e.1 e.2 (String.ofList text) =
        some (String.ofList (replaceEntry text e)) := by
      rw [substituteVariable, if_pos hname, String.toList_ofList]
      rfl
    rw [List.foldlM_cons]
    dsimp only
    rw [hstep]
    exact ih hrest _

theorem renderStartup_eq (h : ∀ e ∈ env, e.1.toList.all isWordChar = true) :
    renderStartup js env template =
      some (String.ofList (env.entries.foldl replaceEntry template.toList)) := by
  have hentries : ∀ e ∈ env.entries, e.1.toList.all isWordChar = true :=
    fun e he => h e (env.entries_perm.mem_iff.mp he)
  have hrender := @foldlM_substituteVariable js _ hentries template.toList
  rwa [String.ofList_toList] at hrender

theorem foldl_entries (hnodup : (env.map Prod.fst).Nodup) (text : List Char) :
    env.entries.foldl replaceEntry text = (env.entries.map Prod.fst).foldl
      (fun text name => replaceLiteral (placeholderOf name) (valueOf env name) [] 0 text) text := by
  rw [List.foldl_map]
  refine List.foldl_ext _ _ _ fun text e he => ?_
  rw [valueOf, Record.get_of_mem hnodup (env.entries_perm.mem_iff.mp he)]
  rfl

/-- The entries are replaced in an order that any insertion may have led to. -/
theorem Resolves.earlier (h : Resolves given eggVariables env) {done rest : List String}
    {name : String} (hkeys : env.entries.map Prod.fst = done ++ name :: rest) :
    Earlier eggVariables name done := by
  have hnodup : (env.entries.map Prod.fst).Nodup :=
    (env.entries_perm.map Prod.fst).nodup_iff.mpr h.nodup
  have hpairwise : (env.entries.map Prod.fst).Pairwise fun k l => ¬Record.AlwaysBefore l k :=
    List.pairwise_map.mpr env.entries_pairwise
  have hmem (name' : String) : name' ∈ done ++ name :: rest ↔
      ∃ v ∈ eggVariables, v.envVariable = name' := by
    rw [← hkeys, (env.entries_perm.map Prod.fst).mem_iff, h.names]
  rw [hkeys] at hnodup hpairwise
  obtain ⟨-, hrest, hacross⟩ := List.pairwise_append.mp hpairwise
  constructor
  · intro hdone
    exact (List.nodup_append.mp hnodup).2.2 name hdone name List.mem_cons_self rfl
  · intro v hv hbefore
    rcases List.mem_append.mp ((hmem _).mpr ⟨v, hv, rfl⟩) with hdone | hlater
    · exact hdone
    · rcases List.mem_cons.mp hlater with heq | hlater
      · rw [heq] at hbefore
        exact absurd hbefore (Record.not_alwaysBefore_self name)
      · exact absurd hbefore (List.rel_of_pairwise_cons hrest hlater)
  · intro name' hdone
    exact hacross name' hdone name List.mem_cons_self

theorem separated_names (hnames : ∀ v ∈ eggVariables, IsVariableName v.envVariable) :
    Substitution.Separated placeholderOf (eggVariables.map EggVariable.envVariable) := by
  refine separated_placeholders fun name hname => ?_
  obtain ⟨v, hv, rfl⟩ := List.mem_map.mp hname
  exact (hnames v hv).2

/-- The environment has the values that are assigned, as far as they matter. -/
theorem Resolves.valueOf_assigned (h : Resolves given eggVariables env)
    (hind : Independent given eggVariables template) {v : EggVariable} (hv : v ∈ eggVariables)
    (hoccurs : timesIn v.envVariable template.toList ≠ 0) :
    valueOf env v.envVariable = (assigned given eggVariables v.envVariable).toList := by
  obtain ⟨w, hw, hname, hvalue⟩ := h.valueOf_eq hv
  obtain ⟨u, hu, hname', hassigned⟩ := @assigned_eq given _ _ hv
  rw [hvalue, hassigned, hind.single w hw u hu (hname.trans hname'.symm) (hname ▸ hoccurs)]

/-- The text some steps have come to. -/
def partlyRendered (eggVariables : List EggVariable) (env : Record String) (done : List String)
    (template : String) : List Char :=
  substituted eggVariables (Substitution.partly placeholderOf (valueOf env) done) template

theorem Resolves.partlyRendered_eq (h : Resolves given eggVariables env)
    (hnames : ∀ v ∈ eggVariables, IsVariableName v.envVariable)
    (hind : Independent given eggVariables template) (done : List String) :
    partlyRendered eggVariables env done template =
      substituted eggVariables (Substitution.partly placeholderOf
        (fun name => (assigned given eggVariables name).toList) done) template := by
  refine Substitution.substitute_congr (separated_names hnames) fun name hname hoccurs => ?_
  obtain ⟨v, hv, rfl⟩ := List.mem_map.mp hname
  simp only [Substitution.partly, h.valueOf_assigned hind hv hoccurs]

theorem Resolves.found (h : Resolves given eggVariables env)
    (hnames : ∀ v ∈ eggVariables, IsVariableName v.envVariable)
    (hind : Independent given eggVariables template) {v : EggVariable} (hv : v ∈ eggVariables)
    {done : List String} (hdone : Earlier eggVariables v.envVariable done) :
    timesIn v.envVariable (partlyRendered eggVariables env done template) =
        timesIn v.envVariable template.toList ∨
      valueOf env v.envVariable = placeholderOf v.envVariable := by
  obtain ⟨w, hw, hname, hvalue⟩ := h.valueOf_eq hv
  rw [h.partlyRendered_eq hnames hind, hvalue, ← hname]
  exact hind.found w hw done (hname ▸ hdone)

/-- A step puts the value in as it is. -/
theorem Resolves.replaceLiteral_eq (h : Resolves given eggVariables env)
    (hnames : ∀ v ∈ eggVariables, IsVariableName v.envVariable)
    (hind : Independent given eggVariables template) {v : EggVariable} (hv : v ∈ eggVariables)
    {done : List String} (hdone : Earlier eggVariables v.envVariable done) :
    replaceLiteral (placeholderOf v.envVariable) (valueOf env v.envVariable) [] 0
        (partlyRendered eggVariables env done template) =
      Substitution.replaceAll (placeholderOf v.envVariable) (valueOf env v.envVariable) 0
        (partlyRendered eggVariables env done template) := by
  by_cases habsent : timesIn v.envVariable (partlyRendered eggVariables env done template) = 0
  · rw [replaceLiteral_of_absent habsent, Substitution.replaceAll_of_absent habsent]
  · refine replaceLiteral_of_literal ?_ [] 0 _
    rcases h.found hnames hind hv hdone with hcount | hself
    · obtain ⟨w, hw, hname, hvalue⟩ := h.valueOf_eq hv
      rw [hcount, ← hname] at habsent
      rw [hvalue]
      exact hind.literal w hw habsent
    · rw [hself]
      exact literal_placeholderOf (hnames v hv).2

/-- Any environment that resolves the variables renders the template as a substitution. -/
theorem Resolves.rendered (h : Resolves given eggVariables env)
    (hnames : ∀ v ∈ eggVariables, IsVariableName v.envVariable)
    (hind : Independent given eggVariables template) :
    env.entries.foldl replaceEntry template.toList = substituted eggVariables
      (fun name => (assigned given eggVariables name).toList) template := by
  have hsep := separated_names hnames
  have hkeys (name : String) : name ∈ env.entries.map Prod.fst ↔
      name ∈ eggVariables.map EggVariable.envVariable := by
    rw [(env.entries_perm.map Prod.fst).mem_iff, h.names, List.mem_map]
  have hassigned : substituted eggVariables (valueOf env) template = substituted eggVariables
      (fun name => (assigned given eggVariables name).toList) template := by
    refine Substitution.substitute_congr hsep fun name hname hoccurs => ?_
    obtain ⟨v, hv, rfl⟩ := List.mem_map.mp hname
    exact h.valueOf_assigned hind hv hoccurs
  rw [foldl_entries h.nodup, ← hassigned]
  refine Substitution.foldl_eq_substitute hsep
    ((env.entries_perm.map Prod.fst).nodup_iff.mpr h.nodup) (fun name => (hkeys name).mp)
    (fun name => (hkeys name).mpr) ?_ ?_
  · intro done name rest hsplit
    obtain ⟨v, hv, rfl⟩ := List.mem_map.mp ((hkeys name).mp (hsplit ▸ by simp))
    exact h.found hnames hind hv (h.earlier hsplit)
  · intro done name rest hsplit
    obtain ⟨v, hv, rfl⟩ := List.mem_map.mp ((hkeys name).mp (hsplit ▸ by simp))
    exact h.replaceLiteral_eq hnames hind hv (h.earlier hsplit)

end Rendering

/-! ## The row that is stored -/

section Stored

variable {js : Js} {p q : ServersState} {dto : CreateServerDto} {gen : Generated} {egg : Egg}
  {server : Server} {task : CreateTask}

/-- What `create` hands to its transaction. -/
theorem inserted_of_findVariables
    (h : (CreateTask.turn js p .ok (.findVariables dto gen egg)).next = some (.insert server)) :
    server.id = gen.id ∧
      renderStartup js (resolveVariables dto.envVariables (variablesFor p dto)) egg.startup =
        some server.startup := by
  unfold variablesFor
  simp only [CreateTask.turn, ServersTurn.read, ServersTurn.throwIf] at h
  split at h
  next => cases h
  next =>
    cases hrender : renderStartup js (resolveVariables dto.envVariables
        (p.db.eggVariables.find fun v => v.eggId == dto.eggId)) egg.startup with
    | none =>
      rw [hrender] at h
      cases h
    | some startup =>
      rw [hrender] at h
      cases h
      exact ⟨rfl, rfl⟩

/-- The command of the row that `create` hands to its transaction. -/
theorem rendered_startup (hnames : ∀ v ∈ variablesFor p dto, IsVariableName v.envVariable)
    (hind : Independent dto.envVariables (variablesFor p dto) egg.startup) {p' : ServersState}
    (hperm : (variablesFor p' dto).Perm (variablesFor p dto))
    (h : (CreateTask.turn js p' .ok (.findVariables dto gen egg)).next = some (.insert server)) :
    server.startup.toList = substituted (variablesFor p dto)
      (fun name => (assigned dto.envVariables (variablesFor p dto) name).toList) egg.startup := by
  obtain ⟨-, hrender⟩ := inserted_of_findVariables h
  have hresolves := (resolves_resolveVariables dto.envVariables (variablesFor p' dto)).perm hperm
  have hwords : ∀ e ∈ resolveVariables dto.envVariables (variablesFor p' dto),
      e.1.toList.all isWordChar = true := by
    intro e he
    obtain ⟨v, hv, hname⟩ := (hresolves.names e.1).mp (List.mem_map_of_mem he)
    exact hname ▸ (hnames v hv).2
  rw [renderStartup_eq hwords] at hrender
  rw [← Option.some.inj hrender, String.toList_ofList]
  exact hresolves.rendered hnames hind

/-- What the transaction stores. -/
theorem stored_of_insert (h : (CreateTask.turn js q .ok (.insert server)).next = some task) :
    server ∈ (CreateTask.turn js q .ok (.insert server)).store.db.servers := by
  simp only [CreateTask.turn, ServersTurn.execute] at h ⊢
  cases hexec : q.db.exec (.createServer server) with
  | none =>
    rw [hexec] at h
    cases h
  | some db =>
    exact (mem_servers_createServer hexec).2.mpr (.inl rfl)

end Stored

/-- The startup that is stored is the template with its placeholders replaced at once, in whatever
order the variables stand. -/
theorem startup_substituted (js : Js) (p : ServersState) (dto : CreateServerDto) (gen : Generated)
    (egg : Egg) (hnames : ∀ v ∈ variablesFor p dto, IsVariableName v.envVariable)
    (hind : Independent dto.envVariables (variablesFor p dto) egg.startup) :
    StoresSubstituted js p dto gen egg := by
  intro p' q server task hperm hnext hstored
  refine ⟨server, stored_of_insert hstored, (inserted_of_findVariables hnext).1, ?_⟩
  exact rendered_startup hnames hind hperm hnext

/-- An egg with one variable, and a free allocation. -/
def Database.jarEgg : Database where
  nodes := .single ⟨"n", 4096, 0, 4096, 0⟩
  eggs := .single ⟨"e", "image", "java -jar \x7b\x7bJAR\x7d\x7d", none, "alpine:latest"⟩
  eggVariables := .single ⟨"v", "e", "Jar file", "JAR", "server.jar", "required|string"⟩
  users := .single (.withDefaults "owner" "owner@nexus.local" "owner" "")
  servers := .empty
  allocations := .single ⟨"b", "n", "0.0.0.0", none, 25566, none, none⟩
  constraints := by decide

def jarState : ServersState := ⟨.jarEgg, ["n"], []⟩

/-- The row of the egg. -/
def jarEgg : Egg := ⟨"e", "image", "java -jar \x7b\x7bJAR\x7d\x7d", none, "alpine:latest"⟩

/-- A request that gives the variable a value. -/
def jarRequest (value : String) : CreateServerDto :=
  { secondServer with envVariables := some [("JAR", value)] }

theorem jarRequest_names (value : String) :
    ∀ v ∈ variablesFor jarState (jarRequest value), IsVariableName v.envVariable := by
  intro v hv
  obtain rfl := List.mem_singleton.mp hv
  exact ⟨by decide, by decide⟩

/-- One variable depends on no other. -/
theorem independent_single {given : Option (Record String)} {v : EggVariable} {template : String}
    (hliteral : Literal (v.valueIn given).toList) (hown : v.envVariable ∉ inheritedNames) :
    Independent given [v] template where
  single w hw u hu _ _ := by rw [List.mem_singleton.mp hw, List.mem_singleton.mp hu]
  literal w hw _ := List.mem_singleton.mp hw ▸ hliteral
  own w hw _ hmem := absurd (List.mem_singleton.mp hw ▸ hmem) hown
  found w hw done hdone := by
    obtain rfl := List.mem_singleton.mp hw
    have hne : ∀ name ∈ [w.envVariable], placeholderOf name ≠ [] := by
      intro name _
      rw [placeholderOf_eq]
      exact List.cons_ne_nil _ _
    refine .inl (congrArg _ ((Substitution.fill_congr fun name hname => ?_).trans
      (Substitution.fill_parse hne template.toList)))
    rw [List.mem_singleton.mp (Substitution.mem_of_mem_holes hne hname)]
    exact if_neg hdone.other

theorem jar_substituted :
    StoresSubstituted Js.plain jarState (jarRequest "server-1.jar") ⟨"1", "u", "u"⟩ jarEgg :=
  startup_substituted _ _ _ _ _ (jarRequest_names _) (independent_single (by decide) (by decide))

/-- What `create` makes of the value `a$$b.jar`. -/
def jarServer : Server :=
  newServer (jarRequest "a$$b.jar") ⟨"1", "u", "u"⟩ "java -jar a$b.jar" "image"
    [("JAR", "a$$b.jar")]

/-- A dollar is lost from the value `a$$b.jar`. -/
theorem dollar_lost : ¬ ∀ (js : Js) (p : ServersState) (dto : CreateServerDto) (gen : Generated)
    (egg : Egg), (∀ v ∈ variablesFor p dto, IsVariableName v.envVariable) →
    StoresSubstituted js p dto gen egg := by
  intro h
  obtain ⟨row, hrow, -, hstartup⟩ := h Js.plain jarState (jarRequest "a$$b.jar") ⟨"1", "u", "u"⟩
    jarEgg (jarRequest_names _) jarState jarState jarServer (.load "1") (.refl _) (by decide +kernel)
    (by decide +kernel)
  have hrows : ∀ row ∈
      (CreateTask.turn Js.plain jarState .ok (.insert jarServer)).store.db.servers.rows,
      row.startup = "java -jar a$b.jar" := by decide +kernel
  rw [hrows row hrow] at hstartup
  revert hstartup
  decide +kernel

end Panel
