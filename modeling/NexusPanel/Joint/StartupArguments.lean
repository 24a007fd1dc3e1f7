import NexusPanel.Joint.System
import NexusPanel.Panel.StartupRendering

/-!
# The arguments of a started server

The panel renders the startup template as one text, and Wings cuts the text at its white space to
get the arguments of the container. Nothing is quoted. So the value of a variable brings its own
white space in, and a token of the template becomes as many arguments as it has words after the
replacement.
-/

namespace Joint

open Panel Wings ServersService Text

/-- The arguments of the container that Wings makes for a server. -/
def arguments (server : Server) (allocation : Allocation) : List String :=
  (DockerManager.gameSpec (Grpc.toDockerConfig (toProto (wingsConfig server allocation)))).cmd

/-- A token of the template with its placeholders replaced. -/
def replacedToken (p : ServersState) (dto : CreateServerDto) (token : String) : String :=
  String.ofList (substituted (variablesFor p dto)
    (fun name => (assigned dto.envVariables (variablesFor p dto) name).toList) token)

/-- One word: not empty, and without white space. -/
def IsWord (text : String) : Prop :=
  text ≠ "" ∧ ∀ c ∈ text.toList, isWhiteSpace c = false

/-- One argument for each token of the template. -/
def OneArgumentAToken (js : Js) (p : ServersState) (dto : CreateServerDto) (gen : Generated)
    (egg : Egg) : Prop :=
  ∀ server allocation,
    (CreateTask.turn js p .ok (.findVariables dto gen egg)).next = some (.insert server) →
    arguments server allocation = (splitWhitespace egg.startup).map (replacedToken p dto)

/-! ## Words of a rendered template -/

section Words

theorem not_isWhiteSpace_of_isWordChar {c : Char} (h : isWordChar c = true) :
    isWhiteSpace c = false := by
  have hrange : (65 ≤ c.toNat ∧ c.toNat ≤ 90) ∨ (97 ≤ c.toNat ∧ c.toNat ≤ 122) ∨
      (48 ≤ c.toNat ∧ c.toNat ≤ 57) ∨ c.toNat = 95 := by
    rcases (Bool.or_eq_true _ _).mp h with halphanum | hunderscore
    · rcases (Bool.or_eq_true _ _).mp halphanum with halpha | hdigit
      · have := isAlpha_iff.mp halpha
        omega
      · have := isDigit_iff.mp hdigit
        omega
    · rw [eq_of_beq hunderscore]
      decide
  simp only [isWhiteSpace, Bool.or_eq_false_iff, Bool.and_eq_false_iff, decide_eq_false_iff_not,
    List.mem_cons, List.not_mem_nil, or_false, ← UInt32.toNat_inj, UInt32.le_iff_toNat_le,
    UInt32.reduceToNat, Char.toNat_val]
  omega

/-- A white space is in no placeholder. -/
theorem not_mem_placeholderOf {name : String} (h : name.toList.all isWordChar = true) {c : Char}
    (hc : isWhiteSpace c = true) : c ∉ placeholderOf name := by
  intro hmem
  rw [placeholderOf_eq] at hmem
  simp only [List.mem_cons, List.mem_append, List.not_mem_nil, or_false] at hmem
  obtain rfl | rfl | hname | rfl | rfl := hmem
  · cases hc
  · cases hc
  · have hword := List.all_eq_true.mp h _ hname
    rw [not_isWhiteSpace_of_isWordChar hword] at hc
    cases hc
  · cases hc
  · cases hc

variable {names : List String}

/-- The words of a rendered template are those of its rendered tokens. -/
theorem wordsBy_substitute (hnames : ∀ name ∈ names, name.toList.all isWordChar = true)
    (value : String → List Char) (text : List Char) :
    wordsBy isWhiteSpace (Substitution.substitute placeholderOf names value text) =
      (wordsBy isWhiteSpace text).flatMap fun token =>
        wordsBy isWhiteSpace (Substitution.substitute placeholderOf names value token) := by
  induction text using @wordsBy_induction Char isWhiteSpace with
  | word text hfree =>
    rw [wordsBy_of_forall hfree]
    split
    next hempty =>
      rw [hempty]
      rfl
    next => rw [List.flatMap_singleton]
  | separated x c y hc hx hy =>
    have hne := (separated_placeholders hnames).nonempty
    have hout : ∀ name ∈ names, c ∉ placeholderOf name :=
      fun name hname => not_mem_placeholderOf (hnames name hname) hc
    rw [Substitution.substitute_append_cons hne hout, wordsBy_append_cons _ _ hc,
      wordsBy_append_cons _ _ hc, List.flatMap_append, hx, hy]

end Words

/-! ## The arguments -/

section Arguments

variable {js : Js} {p : ServersState} {dto : CreateServerDto} {gen : Generated} {egg : Egg}

theorem splitWhitespace_ofList (text : List Char) :
    splitWhitespace (String.ofList text) = (wordsBy isWhiteSpace text).map String.ofList := by
  rw [splitWhitespace, String.toList_ofList]

theorem isWord_of_mem_splitWhitespace {text word : String} (h : word ∈ splitWhitespace text) :
    IsWord word := by
  obtain ⟨part, hpart, rfl⟩ := List.mem_map.mp h
  obtain ⟨hne, hfree⟩ := of_mem_wordsBy hpart
  constructor
  · intro hempty
    exact hne (String.ofList_eq_empty_iff.mp hempty)
  · rwa [String.toList_ofList]

theorem splitWhitespace_of_isWord {word : String} (h : IsWord word) :
    splitWhitespace word = [word] := by
  have hne : word.toList ≠ [] := fun hnil => h.1 (String.toList_eq_nil_iff.mp hnil)
  rw [splitWhitespace, wordsBy_of_forall h.2, if_neg hne, List.map_singleton, String.ofList_toList]

/-- Texts are their own words exactly when each of them is one word. -/
theorem flatMap_splitWhitespace_eq_iff (texts : List String) :
    texts.flatMap splitWhitespace = texts ↔ ∀ text ∈ texts, IsWord text := by
  constructor
  · intro h text htext
    rw [← h] at htext
    obtain ⟨_, -, hmem⟩ := List.mem_flatMap.mp htext
    exact isWord_of_mem_splitWhitespace hmem
  · intro h
    induction texts with
    | nil => rfl
    | cons text texts ih =>
      obtain ⟨hword, hrest⟩ := List.forall_mem_cons.mp h
      rw [List.flatMap_cons, splitWhitespace_of_isWord hword, ih hrest]
      rfl

/-- The arguments are the words of the replaced tokens. -/
theorem arguments_eq_flatMap (hnames : ∀ v ∈ variablesFor p dto, IsVariableName v.envVariable)
    (hind : Independent dto.envVariables (variablesFor p dto) egg.startup) {server : Server}
    (h : (CreateTask.turn js p .ok (.findVariables dto gen egg)).next = some (.insert server))
    (allocation : Allocation) :
    arguments server allocation =
      ((splitWhitespace egg.startup).map (replacedToken p dto)).flatMap splitWhitespace := by
  have hwords : ∀ name ∈ (variablesFor p dto).map EggVariable.envVariable,
      name.toList.all isWordChar = true := by
    intro name hname
    obtain ⟨v, hv, rfl⟩ := List.mem_map.mp hname
    exact (hnames v hv).2
  have hstartup := rendered_startup hnames hind (.refl _) h
  show splitWhitespace server.startup = _
  rw [splitWhitespace, hstartup, substituted, wordsBy_substitute hwords, List.map_flatMap,
    List.flatMap_map, splitWhitespace, List.flatMap_map]
  refine List.flatMap_congr fun token _ => ?_
  rw [replacedToken, splitWhitespace_ofList, substituted, String.toList_ofList]

end Arguments

/-- Wings starts the container with the words of the replaced tokens, so with one argument for each
token exactly when each token is one word when it is replaced. -/
theorem arguments_of_tokens (js : Js) (p : ServersState) (dto : CreateServerDto) (gen : Generated)
    (egg : Egg) (hnames : ∀ v ∈ variablesFor p dto, IsVariableName v.envVariable)
    (hind : Independent dto.envVariables (variablesFor p dto) egg.startup) (server : Server)
    (allocation : Allocation)
    (h : (CreateTask.turn js p .ok (.findVariables dto gen egg)).next = some (.insert server)) :
    arguments server allocation =
        ((splitWhitespace egg.startup).map (replacedToken p dto)).flatMap splitWhitespace ∧
      (arguments server allocation = (splitWhitespace egg.startup).map (replacedToken p dto) ↔
        ∀ token ∈ splitWhitespace egg.startup, IsWord (replacedToken p dto token)) := by
  have harguments := arguments_eq_flatMap hnames hind h allocation
  refine ⟨harguments, ?_⟩
  rw [harguments, flatMap_splitWhitespace_eq_iff, List.forall_mem_map]

/-- What `create` makes of a value. -/
def startedServer (value : String) : Server :=
  newServer (jarRequest value) ⟨"1", "u", "u"⟩ ("java -jar " ++ value) "image" [("JAR", value)]

/-- The port of that server. -/
def jarAllocation : Allocation := ⟨"b", "n", "0.0.0.0", none, 25566, none, none⟩

theorem three_arguments :
    arguments (startedServer "server-1.jar") jarAllocation = ["java", "-jar", "server-1.jar"] := by
  have harguments := arguments_of_tokens Js.plain jarState (jarRequest "server-1.jar")
    ⟨"1", "u", "u"⟩ jarEgg (jarRequest_names _)
    (independent_single (by decide) (by decide)) (startedServer "server-1.jar")
    jarAllocation (by decide +kernel)
  rw [harguments.1]
  decide +kernel

/-- A value with a space becomes two arguments. -/
theorem two_arguments : ¬ ∀ (js : Js) (p : ServersState) (dto : CreateServerDto) (gen : Generated)
    (egg : Egg), (∀ v ∈ variablesFor p dto, IsVariableName v.envVariable) →
    OneArgumentAToken js p dto gen egg := by
  intro h
  have harguments := h Js.plain jarState (jarRequest "my server.jar") ⟨"1", "u", "u"⟩ jarEgg
    (jarRequest_names _) (startedServer "my server.jar") jarAllocation (by decide +kernel)
  revert harguments
  decide +kernel

end Joint
