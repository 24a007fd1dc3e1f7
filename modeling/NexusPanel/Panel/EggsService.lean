import NexusPanel.Foundation.Connection
import NexusPanel.Foundation.Json
import NexusPanel.Panel.Entities
import NexusPanel.Panel.JavaScript

/-!
# Eggs

`EggsService`: creating, updating, importing and exporting an egg with its variables, statement
by statement. A property of a request body may be missing, `null` or a value, and the three go
different ways: a missing one takes the default of the column or is left alone, and `null` is
written as it is, which a column that is not nullable refuses.

The ids of variables are left out, as nothing looks at them. A JSON column holds an object.
-/

namespace Panel

open StateAction Connection

/-! ## Rows -/

/-- A property of a request body: missing, `null`, or a value. -/
abbrev Field (α : Type) := Option (Option α)

/-- `field || value` for a string. -/
def Field.orElse (field : Field String) (value : String) : String := (truthy field.join).getD value

abbrev JsonObject := Record Json.Value

structure Nest where
  id : String
  name : String
  description : String
deriving DecidableEq, Repr

structure EggEntity where
  id : String
  nestId : String
  name : String
  description : Option String
  author : String
  dockerImage : String
  dockerImages : JsonObject
  startup : String
  configFiles : Option JsonObject
  configStartup : Option JsonObject
  configStop : Option String
  configLogs : Option JsonObject
  scriptInstall : Option String
  scriptEntry : String
  scriptContainer : String
  copyScriptFrom : Option String

structure EggVariableEntity where
  eggId : String
  name : String
  description : String
  envVariable : String
  defaultValue : String
  userViewable : Bool
  userEditable : Bool
  rules : String
deriving DecidableEq, Repr

instance : Keyed String Nest := ⟨Nest.id⟩
instance : Keyed String EggEntity := ⟨EggEntity.id⟩

structure EggTables where
  nests : Table Nest
  eggs : Table EggEntity
  eggVariables : List EggVariableEntity

/-- The foreign keys. -/
def EggTables.Consistent (t : EggTables) : Prop :=
  (∀ e ∈ t.eggs.rows, (∃ n ∈ t.nests.rows, n.id = e.nestId) ∧
    ∀ source ∈ e.copyScriptFrom, ∃ e' ∈ t.eggs.rows, e'.id = source) ∧
  ∀ v ∈ t.eggVariables, ∃ e ∈ t.eggs.rows, e.id = v.eggId

instance (t : EggTables) : Decidable t.Consistent := inferInstanceAs (Decidable (_ ∧ _))

structure EggCatalog extends EggTables where
  consistent : toEggTables.Consistent

abbrev EggAction (α : Type) := StateAction (Connection EggCatalog HttpException) HttpException α

/-- Tables that keep the foreign keys. -/
def EggCatalog.ofTables (t : EggTables) : Except HttpException EggCatalog :=
  if h : t.Consistent then .ok { toEggTables := t, consistent := h }
  else .error (.internal "violates foreign key constraint")

/-- A row, unless a column that is not nullable got `null`. -/
def notNull {α : Type} (row : Option α) : Except HttpException α :=
  match row with
  | some row => .ok row
  | none => .error (.internal "violates not-null constraint")

/-! ## Requests -/

/-- The properties of an egg in a request body. -/
structure EggData where
  name : Field String
  description : Field String
  author : Field String
  dockerImage : Field String
  dockerImages : Field JsonObject
  startup : Field String
  configFiles : Field JsonObject
  configStartup : Field JsonObject
  configStop : Field String
  configLogs : Field JsonObject
  scriptInstall : Field String
  scriptEntry : Field String
  scriptContainer : Field String
  copyScriptFrom : Field String

structure EggVariableDto where
  name : String
  description : String
  envVariable : String
  defaultValue : String
  userViewable : Bool
  userEditable : Bool
  rules : String
deriving DecidableEq, Repr

structure CreateEggDto where
  nestId : String
  data : EggData
  eggVariables : Field (List EggVariableDto)

structure UpdateEggDto where
  data : EggData
  eggVariables : Field (List EggVariableDto)

/-- The row that is inserted: a missing column takes its default. -/
def EggData.insert (d : EggData) (id : String) (nestId : Field String) : Option EggEntity := do
  let nestId ← nestId.join
  let name ← d.name.join
  let author ← d.author.join
  let dockerImage ← d.dockerImage.join
  let dockerImages ← d.dockerImages.getD (some [])
  let startup ← d.startup.join
  let scriptEntry ← d.scriptEntry.getD (some "bash")
  let scriptContainer ← d.scriptContainer.getD (some "alpine:latest")
  return {
    id, nestId, name, author, dockerImage, dockerImages, startup, scriptEntry, scriptContainer
    description := d.description.join
    configFiles := d.configFiles.join
    configStartup := d.configStartup.join
    configStop := d.configStop.join
    configLogs := d.configLogs.join
    scriptInstall := d.scriptInstall.join
    copyScriptFrom := d.copyScriptFrom.join }

/-- The row that is saved: a missing property leaves its column alone. -/
def EggData.assign (d : EggData) (egg : EggEntity) : Option EggEntity := do
  let name ← d.name.getD (some egg.name)
  let author ← d.author.getD (some egg.author)
  let dockerImage ← d.dockerImage.getD (some egg.dockerImage)
  let dockerImages ← d.dockerImages.getD (some egg.dockerImages)
  let startup ← d.startup.getD (some egg.startup)
  let scriptEntry ← d.scriptEntry.getD (some egg.scriptEntry)
  let scriptContainer ← d.scriptContainer.getD (some egg.scriptContainer)
  return { egg with
    name, author, dockerImage, dockerImages, startup, scriptEntry, scriptContainer
    description := d.description.getD egg.description
    configFiles := d.configFiles.getD egg.configFiles
    configStartup := d.configStartup.getD egg.configStartup
    configStop := d.configStop.getD egg.configStop
    configLogs := d.configLogs.getD egg.configLogs
    scriptInstall := d.scriptInstall.getD egg.scriptInstall
    copyScriptFrom := d.copyScriptFrom.getD egg.copyScriptFrom }

/-- `eggVariableRepo.create({ ...v, eggId })`. -/
def EggVariableDto.create (v : EggVariableDto) (eggId : String) : EggVariableEntity where
  eggId := eggId
  name := v.name
  description := v.description
  envVariable := v.envVariable
  defaultValue := v.defaultValue
  userViewable := v.userViewable
  userEditable := v.userEditable
  rules := v.rules

/-! ## Statements -/

namespace EggCatalog

/-- Insert a new egg; the id is the one the database gives it. -/
def insertEgg (row : Option EggEntity) (t : EggCatalog) : Except HttpException EggCatalog := do
  let row ← notNull row
  match t.eggs.insert row with
  | some eggs => ofTables { t.toEggTables with eggs }
  | none => .error (.internal "duplicate key value")

def saveEgg (row : Option EggEntity) (t : EggCatalog) : Except HttpException EggCatalog := do
  let row ← notNull row
  ofTables { t.toEggTables with eggs := t.eggs.save row }

def deleteVariables (eggId : String) (t : EggCatalog) : Except HttpException EggCatalog :=
  ofTables { t.toEggTables with eggVariables := t.eggVariables.filter fun v => v.eggId ≠ eggId }

/-- `eggVariableRepo.save(varEntities)`: one transaction. -/
def insertVariables (rows : List EggVariableEntity) (t : EggCatalog) :
    Except HttpException EggCatalog :=
  ofTables { t.toEggTables with eggVariables := t.eggVariables ++ rows }

def egg (t : EggCatalog) (id : String) : Option EggEntity := t.eggs.findOne fun e => e.id == id

def variablesOf (t : EggCatalog) (eggId : String) : List EggVariableEntity :=
  t.eggVariables.filter fun v => v.eggId = eggId

end EggCatalog

/-! ## The service -/

namespace EggsService

/-- Nothing is sent to the database for an empty list. -/
def saveVariables (rows : List EggVariableEntity) : EggAction Unit :=
  if rows = [] then pure () else statement (EggCatalog.insertVariables rows)

def findEgg (id : String) : EggAction EggEntity := do
  let egg ← query fun t => t.egg id
  ofOption egg (.notFound "Egg not found")

def createEgg (id : String) (dto : CreateEggDto) : EggAction String := do
  let nest ← query fun t => t.nests.findOne fun n => n.id == dto.nestId
  let _ ← ofOption nest (.notFound "Nest not found")
  statement (EggCatalog.insertEgg (dto.data.insert id (some (some dto.nestId))))
  saveVariables ((dto.eggVariables.join.getD []).map fun v => v.create id)
  return id

/-- `variables !== undefined`: the old ones are deleted when the request says `null`, and then
there is nothing to map over. -/
def updateEgg (id : String) (dto : UpdateEggDto) : EggAction Unit := do
  let egg ← findEgg id
  statement (EggCatalog.saveEgg (dto.data.assign egg))
  match dto.eggVariables with
  | none => return ()
  | some eggVariables =>
    statement (EggCatalog.deleteVariables id)
    let eggVariables ← ofOption eggVariables
      (.internal "Cannot read properties of null (reading 'map')")
    saveVariables (eggVariables.map fun v => v.create id)

/-! ### Export and import -/

structure ExportedVariable where
  name : String
  description : String
  envVariable : String
  defaultValue : String
  userViewable : Bool
  userEditable : Bool
  rules : String
deriving DecidableEq, Repr

structure ExportedEgg where
  name : String
  description : Option String
  author : String
  dockerImage : String
  dockerImages : JsonObject
  startup : String
  configFiles : Option JsonObject
  configStartup : Option JsonObject
  configStop : Option String
  configLogs : Option JsonObject
  scriptInstall : Option String
  scriptEntry : String
  scriptContainer : String
  copyScriptFrom : Option String
  eggVariables : List ExportedVariable
  nestId : String
  exportVersion : String

/-- One variable of an imported file. -/
structure ImportedVariable where
  name : Field String
  description : Field String
  envVariable : Field String
  defaultValue : Field String
  userViewable : Field Bool
  userEditable : Field Bool
  rules : Field String

/-- The properties `importEgg` reads of a file. -/
structure ImportedEgg where
  nestId : Field String
  data : EggData
  eggVariables : Field (List ImportedVariable)

def exportVariable (v : EggVariableEntity) : ExportedVariable where
  name := v.name
  description := v.description
  envVariable := v.envVariable
  defaultValue := v.defaultValue
  userViewable := v.userViewable
  userEditable := v.userEditable
  rules := v.rules

def exported (egg : EggEntity) (eggVariables : List EggVariableEntity) : ExportedEgg where
  name := egg.name
  description := egg.description
  author := egg.author
  dockerImage := egg.dockerImage
  dockerImages := egg.dockerImages
  startup := egg.startup
  configFiles := egg.configFiles
  configStartup := egg.configStartup
  configStop := egg.configStop
  configLogs := egg.configLogs
  scriptInstall := egg.scriptInstall
  scriptEntry := egg.scriptEntry
  scriptContainer := egg.scriptContainer
  copyScriptFrom := egg.copyScriptFrom
  eggVariables := eggVariables.map exportVariable
  nestId := egg.nestId
  exportVersion := "1.0"

def exportEgg (id : String) : EggAction ExportedEgg := do
  let found ← query fun t => (t.egg id).map (·, t.variablesOf id)
  let (egg, eggVariables) ← ofOption found (.notFound "Egg not found")
  return exported egg eggVariables

/-- `JSON.stringify`, and the text read back: every property is there. -/
def ExportedVariable.file (v : ExportedVariable) : ImportedVariable where
  name := some v.name
  description := some v.description
  envVariable := some v.envVariable
  defaultValue := some v.defaultValue
  userViewable := some v.userViewable
  userEditable := some v.userEditable
  rules := some v.rules

def ExportedEgg.file (e : ExportedEgg) : ImportedEgg where
  nestId := some e.nestId
  data :=
    { name := some e.name
      description := some e.description
      author := some e.author
      dockerImage := some e.dockerImage
      dockerImages := some e.dockerImages
      startup := some e.startup
      configFiles := some e.configFiles
      configStartup := some e.configStartup
      configStop := some e.configStop
      configLogs := some e.configLogs
      scriptInstall := some e.scriptInstall
      scriptEntry := some e.scriptEntry
      scriptContainer := some e.scriptContainer
      copyScriptFrom := some e.copyScriptFrom }
  eggVariables := some (some (e.eggVariables.map ExportedVariable.file))

/-- The defaults of `importEgg`: `||` replaces `null` and the empty string, and the other
properties go through as they are. -/
def importedData (d : EggData) : EggData :=
  { d with
    description := some (d.description.orElse "")
    author := some (d.author.orElse "")
    dockerImages := some (d.dockerImages.join.getD [])
    scriptInstall := some (d.scriptInstall.orElse "")
    scriptEntry := some (d.scriptEntry.orElse "bash")
    scriptContainer := some (d.scriptContainer.orElse "alpine:latest") }

/-- `??` replaces `null` only. -/
def importedVariable (eggId : String) (v : ImportedVariable) : Option EggVariableEntity := do
  let name ← v.name.join
  let envVariable ← v.envVariable.join
  return {
    eggId, name, envVariable
    description := v.description.orElse ""
    defaultValue := v.defaultValue.orElse ""
    userViewable := v.userViewable.join.getD true
    userEditable := v.userEditable.join.getD true
    rules := v.rules.orElse "" }

def importEgg (id : String) (json : ImportedEgg) : EggAction String := do
  statement (EggCatalog.insertEgg ((importedData json.data).insert id json.nestId))
  let rows := (json.eggVariables.join.getD []).mapM (importedVariable id)
  if json.eggVariables.join.getD [] = [] then return id
  else
    statement fun t => do EggCatalog.insertVariables (← notNull rows) t
    return id

/-! ### What the statements do -/

section Statements

variable {t t' : EggCatalog} {id other : String} {row egg : EggEntity}
  {rows : List EggVariableEntity}

theorem ofTables_consistent {t : EggTables} (h : t.Consistent) :
    EggCatalog.ofTables t = .ok { toEggTables := t, consistent := h } := dif_pos h

theorem id_of_egg (h : t.egg id = some egg) : egg ∈ t.eggs ∧ egg.id = id := by
  unfold EggCatalog.egg at h
  have hsat := Table.findOne_sat h
  exact ⟨Table.findOne_mem h, by simpa using hsat⟩

/-- An update writes neither the id nor the nest. -/
theorem assign_keeps {d : EggData} (h : d.assign egg = some row) :
    row.id = egg.id ∧ row.nestId = egg.nestId := by
  simp only [EggData.assign, Option.bind_eq_bind, Option.bind_eq_some_iff, Option.pure_def,
    Option.some.injEq] at h
  obtain ⟨_, -, _, -, _, -, _, -, _, -, _, -, _, -, rfl⟩ := h
  exact ⟨rfl, rfl⟩

/-- The eggs that are there after a save of one of them. -/
theorem exists_save (hegg : egg ∈ t.eggs) (hid : row.id = egg.id) {source : String} :
    (∃ e ∈ t.eggs.save row, e.id = source) ↔ ∃ e ∈ t.eggs, e.id = source := by
  constructor
  · rintro ⟨e, he, rfl⟩
    rcases Table.mem_save.mp he with rfl | ⟨he, -⟩
    · exact ⟨egg, hegg, hid.symm⟩
    · exact ⟨e, he, rfl⟩
  · rintro ⟨e, he, rfl⟩
    by_cases hsame : e.id = row.id
    · exact ⟨row, Table.mem_save.mpr (.inl rfl), hsame.symm⟩
    · exact ⟨e, Table.mem_save.mpr (.inr ⟨he, hsame⟩), rfl⟩

theorem saveEgg_ok (hegg : egg ∈ t.eggs) {d : EggData} (hrow : d.assign egg = some row)
    (hsource : ∀ source ∈ row.copyScriptFrom, ∃ e ∈ t.eggs, e.id = source) :
    ∃ t', EggCatalog.saveEgg (some row) t = .ok t' ∧ t'.eggs = t.eggs.save row ∧
      t'.eggVariables = t.eggVariables := by
  obtain ⟨hid, hnest⟩ := assign_keeps hrow
  refine ⟨_, ofTables_consistent ⟨fun e he => ?_, fun v hv => ?_⟩, rfl, rfl⟩
  · rcases Table.mem_save.mp he with rfl | ⟨he, -⟩
    · refine ⟨?_, fun source hs => (exists_save hegg hid).mpr (hsource source hs)⟩
      rw [hnest]
      exact (t.consistent.1 egg hegg).1
    · obtain ⟨hn, hs⟩ := t.consistent.1 e he
      exact ⟨hn, fun source hsource => (exists_save hegg hid).mpr (hs source hsource)⟩
  · exact (exists_save hegg hid).mpr (t.consistent.2 v hv)

/-- A save touches no other egg. -/
theorem egg_save {t t' : EggCatalog} {row : EggEntity} (hsave : t'.eggs = t.eggs.save row)
    {other : String} (hother : other ≠ row.id) : t'.egg other = t.egg other := by
  unfold EggCatalog.egg
  rw [hsave]
  exact Table.findOne_save_of_ne (Ne.symm hother)

theorem deleteVariables_ok (t : EggCatalog) (id : String) :
    ∃ t', EggCatalog.deleteVariables id t = .ok t' ∧ t'.eggs = t.eggs ∧
      t'.eggVariables = t.eggVariables.filter fun v => v.eggId ≠ id := by
  have hkeeps : EggTables.Consistent { t.toEggTables with
      eggVariables := t.eggVariables.filter fun v => v.eggId ≠ id } :=
    ⟨t.consistent.1, fun v hv => t.consistent.2 v (List.mem_of_mem_filter hv)⟩
  exact ⟨_, ofTables_consistent hkeeps, rfl, rfl⟩

/-- Variables of an egg that is there can be inserted. -/
theorem insertVariables_ok (hegg : ∃ e ∈ t.eggs, e.id = id) (hrows : ∀ v ∈ rows, v.eggId = id) :
    ∃ t', EggCatalog.insertVariables rows t = .ok t' ∧ t'.eggs = t.eggs ∧
      t'.eggVariables = t.eggVariables ++ rows := by
  have hkeeps : EggTables.Consistent { t.toEggTables with
      eggVariables := t.eggVariables ++ rows } := by
    refine ⟨t.consistent.1, fun v hv => ?_⟩
    rcases List.mem_append.mp hv with hold | hnew
    · exact t.consistent.2 v hold
    · obtain ⟨e, he, hid⟩ := hegg
      exact ⟨e, he, hid.trans (hrows v hnew).symm⟩
  exact ⟨_, ofTables_consistent hkeeps, rfl, rfl⟩

theorem variablesOf_deleteVariables
    (h : t'.eggVariables = t.eggVariables.filter fun v => v.eggId ≠ id) (other : String) :
    t'.variablesOf other = if other = id then [] else t.variablesOf other := by
  unfold EggCatalog.variablesOf
  rw [h, List.filter_filter]
  split
  next heq =>
    subst heq
    refine List.filter_eq_nil_iff.mpr fun v _ => ?_
    simp
  next hne =>
    refine List.filter_congr fun v _ => ?_
    by_cases hv : v.eggId = other
    · simp [hv, hne]
    · simp [hv]

theorem variablesOf_insertVariables (h : t'.eggVariables = t.eggVariables ++ rows)
    (hrows : ∀ v ∈ rows, v.eggId = id) (other : String) :
    t'.variablesOf other = t.variablesOf other ++ if other = id then rows else [] := by
  unfold EggCatalog.variablesOf
  rw [h, List.filter_append]
  congr 1
  split
  next heq =>
    subst heq
    exact List.filter_eq_self.mpr fun v hv => decide_eq_true (hrows v hv)
  next hne =>
    refine List.filter_eq_nil_iff.mpr fun v hv => ?_
    rw [hrows v hv, decide_eq_true_eq]
    exact Ne.symm hne

end Statements

end EggsService

end Panel
