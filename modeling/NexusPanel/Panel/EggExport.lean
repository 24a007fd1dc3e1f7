import NexusPanel.Foundation.Fallible
import NexusPanel.Panel.EggsService

/-!
# Exporting an egg and importing it again

`exportEgg` hands out every column as it is, and `importEgg` puts a default in the place of
what is falsy. For most columns the default is what the column would have held anyway. A
description or an install script that is not there comes back as an empty one, and an empty
entry point or container comes back as the usual one.
-/

namespace Panel

namespace EggsService

open StateAction Connection

/-- Equal field by field, the variables in any order. -/
def ExportedEgg.Same (e e' : ExportedEgg) : Prop :=
  { e with eggVariables := [] } = { e' with eggVariables := [] } ∧
    e.eggVariables.Perm e'.eggVariables

/-- Exporting an egg, importing the file as `newId` and exporting that one gives the same egg. -/
def RoundTrips (c : Connection EggCatalog HttpException) (id newId : String) : Prop :=
  ∃ first c₁ c₂ second c₃, exportEgg id c = (.ok first, c₁) ∧
    importEgg newId first.file c₁ = (.ok newId, c₂) ∧ exportEgg newId c₂ = (.ok second, c₃) ∧
      first.Same second

/-! ## Defaults -/

section Defaults

variable {egg : EggEntity} {id newId : String}

theorem orElse_some (text value : String) :
    Field.orElse (some (some text)) value = if text = "" then value else text := by
  unfold Field.orElse
  by_cases h : text = ""
  · subst h
    rfl
  · rw [if_neg h]
    simp only [Option.join_some, truthy]
    split
    next heq => exact absurd (Option.some.inj heq) h
    next => rfl

/-- A default that is empty changes nothing but `null`. -/
theorem orElse_empty (o : Option String) : Field.orElse (some o) "" = o.getD "" := by
  cases o with
  | none => rfl
  | some text =>
    rw [orElse_some]
    split
    next h => exact h.symm
    next => rfl

/-- The row that an exported egg is imported as. -/
def reimported (egg : EggEntity) (newId : String) : EggEntity :=
  { egg with
    id := newId
    description := some (egg.description.getD "")
    scriptInstall := some (egg.scriptInstall.getD "")
    scriptEntry := if egg.scriptEntry = "" then "bash" else egg.scriptEntry
    scriptContainer :=
      if egg.scriptContainer = "" then "alpine:latest" else egg.scriptContainer }

/-- What is inserted for an exported egg. -/
theorem insert_exported (egg : EggEntity) (rows : List EggVariableEntity) (newId : String) :
    (importedData (exported egg rows).file.data).insert newId (exported egg rows).file.nestId =
      some (reimported egg newId) := by
  simp only [importedData, exported, ExportedEgg.file, EggData.insert, reimported, orElse_some,
    orElse_empty]
  rfl

/-- No default changes a variable. -/
theorem imported_variables (rows : List EggVariableEntity) (newId : String) :
    ((rows.map exportVariable).map ExportedVariable.file).mapM (importedVariable newId) =
      some (rows.map fun v => { v with eggId := newId }) := by
  induction rows with
  | nil => rfl
  | cons v rows ih =>
    have hv : importedVariable newId (exportVariable v).file = some { v with eggId := newId } := by
      simp only [importedVariable, exportVariable, ExportedVariable.file, orElse_empty]
      rfl
    rw [List.map_cons, List.map_cons, List.mapM_cons, hv, ih]
    rfl

/-- The columns that come back changed are those the defaults stand in for. -/
theorem same_reimported (egg : EggEntity) (rows : List EggVariableEntity) (newId : String) :
    (exported egg rows).Same (exported (reimported egg newId)
        (rows.map fun v => { v with eggId := newId })) ↔
      egg.description ≠ none ∧ egg.scriptInstall ≠ none ∧ egg.scriptEntry ≠ "" ∧
        egg.scriptContainer ≠ "" := by
  have hvariables : (rows.map fun v : EggVariableEntity => { v with eggId := newId }).map
      exportVariable = rows.map exportVariable := by
    rw [List.map_map]
    rfl
  have hoptional : ∀ o : Option String, o = some (o.getD "") ↔ o ≠ none := by
    intro o
    cases o <;> simp
  have hdefault : ∀ text value : String, value ≠ "" →
      ((text = if text = "" then value else text) ↔ text ≠ "") := by
    intro text value hvalue
    split
    next h =>
      subst h
      exact iff_of_false (Ne.symm hvalue) (by simp)
    next h => exact iff_of_true rfl h
  simp only [ExportedEgg.Same, exported, reimported, hvariables, List.Perm.refl, and_true,
    ExportedEgg.mk.injEq, true_and, hoptional, hdefault _ "bash" (by decide),
    hdefault _ "alpine:latest" (by decide)]

end Defaults

/-! ## The import -/

section Import

variable {c : Connection EggCatalog HttpException} {egg : EggEntity} {id newId : String}

theorem exportEgg_eq (hfailure : c.failure c.issued = none) (hegg : c.tables.egg id = some egg) :
    exportEgg id c = (.ok (exported egg (c.tables.variablesOf id)), c.next) := by
  unfold exportEgg
  rw [bind_ok (query_done hfailure), hegg]
  rfl

/-- A new egg on the nest of one that is there can be inserted, and has no variables. -/
theorem insertEgg_reimported {t : EggCatalog} (hegg : t.egg id = some egg)
    (hnew : ∀ e ∈ t.eggs, e.id ≠ newId) :
    ∃ t', EggCatalog.insertEgg (some (reimported egg newId)) t = .ok t' ∧
      t'.egg newId = some (reimported egg newId) ∧ t'.variablesOf newId = [] := by
  obtain ⟨hmem, -⟩ := id_of_egg hegg
  obtain ⟨eggs, hinsert⟩ := Table.exists_insert (r := reimported egg newId) hnew
  obtain ⟨-, heggs⟩ := Table.insert_eq_some hinsert
  have hstays : ∀ {source : String}, (∃ e ∈ t.eggs, e.id = source) → ∃ e ∈ eggs, e.id = source :=
    fun ⟨e, he, hsource⟩ => ⟨e, (heggs e).mpr (.inr he), hsource⟩
  have hconsistent : EggTables.Consistent { t.toEggTables with eggs } := by
    refine ⟨fun e he => ?_, fun v hv => hstays (t.consistent.2 v hv)⟩
    rcases (heggs e).mp he with rfl | he
    · obtain ⟨hnest, hsource⟩ := t.consistent.1 egg hmem
      exact ⟨hnest, fun source hs => hstays (hsource source hs)⟩
    · obtain ⟨hnest, hsource⟩ := t.consistent.1 e he
      exact ⟨hnest, fun source hs => hstays (hsource source hs)⟩
  refine ⟨{ toEggTables := { t.toEggTables with eggs }, consistent := hconsistent }, ?_, ?_, ?_⟩
  · unfold EggCatalog.insertEgg
    rw [show notNull (some (reimported egg newId)) = .ok (reimported egg newId) from rfl,
      Fallible.ok_bind, hinsert]
    exact ofTables_consistent hconsistent
  · refine Table.findOne_eq_some ((heggs _).mpr (.inl rfl)) (beq_iff_eq.mpr rfl) fun e _ he => ?_
    exact beq_iff_eq.mp he
  · refine List.filter_eq_nil_iff.mpr fun v hv => ?_
    obtain ⟨e, he, hid⟩ := t.consistent.2 v hv
    rw [decide_eq_true_eq, ← hid]
    exact hnew e he

/-- Importing what was exported: the egg and its variables are there under the new id. -/
theorem importEgg_exported (rows : List EggVariableEntity) (hfailure : ∀ k, c.failure k = none)
    (hegg : c.tables.egg id = some egg) (hnew : ∀ e ∈ c.tables.eggs, e.id ≠ newId) :
    ∃ c', importEgg newId (exported egg rows).file c = (.ok newId, c') ∧
      (∀ k, c'.failure k = none) ∧ c'.tables.egg newId = some (reimported egg newId) ∧
        c'.tables.variablesOf newId = rows.map fun v => { v with eggId := newId } := by
  obtain ⟨t', hinsert, hthere, hnone⟩ := insertEgg_reimported hegg hnew
  unfold importEgg
  rw [insert_exported, bind_ok (statement_done (hfailure _) hinsert)]
  have hvariables : (exported egg rows).file.eggVariables.join.getD [] =
      (rows.map exportVariable).map ExportedVariable.file := rfl
  rw [hvariables]
  cases rows with
  | nil => exact ⟨c.put t', rfl, hfailure, hthere, hnone⟩
  | cons v rows =>
    rw [if_neg (by simp), imported_variables]
    have hids : ∀ row ∈ (v :: rows).map fun v => { v with eggId := newId }, row.eggId = newId := by
      intro row hrow
      obtain ⟨v, -, rfl⟩ := List.mem_map.mp hrow
      rfl
    obtain ⟨t'', hrows, heggs, hinserted⟩ :=
      insertVariables_ok ⟨_, Table.findOne_mem hthere, rfl⟩ hids
    refine ⟨(c.put t').put t'', bind_ok (statement_done (hfailure _) hrows), hfailure, ?_, ?_⟩
    · exact (congrArg (Table.findOne · _) heggs).trans hthere
    · rw [tables_put, variablesOf_insertVariables hinserted hids, if_pos rfl, hnone,
        List.nil_append]

/-- Both exports are there, whatever they hold. -/
theorem roundTrips_same (egg : EggEntity) (hfailure : ∀ k, c.failure k = none)
    (hegg : c.tables.egg id = some egg)
    (hnew : ∀ e ∈ c.tables.eggs, e.id ≠ newId) :
    RoundTrips c id newId ↔ (exported egg (c.tables.variablesOf id)).Same
      (exported (reimported egg newId)
        ((c.tables.variablesOf id).map fun v => { v with eggId := newId })) := by
  have hfirst := exportEgg_eq (hfailure _) hegg
  obtain ⟨d, himport, hfailure', hthere, hvariables⟩ :=
    importEgg_exported (c := c.next) (c.tables.variablesOf id) hfailure hegg hnew
  have hsecond := exportEgg_eq (hfailure' _) hthere
  rw [hvariables] at hsecond
  constructor
  · rintro ⟨first, c₁, c₂, second, c₃, h₁, h₂, h₃, hsame⟩
    cases hfirst.symm.trans h₁
    cases himport.symm.trans h₂
    cases hsecond.symm.trans h₃
    exact hsame
  · exact fun hsame => ⟨_, _, _, _, _, hfirst, himport, hsecond, hsame⟩

end Import

/-- On a database that does not fail: an egg that is exported and imported again is exported as
before exactly when it has a description and an install script, possibly empty, and an entry
point and a container that are not empty. -/
theorem roundTrips_iff (c : Connection EggCatalog HttpException) (egg : EggEntity)
    {id newId : String} (hfailure : ∀ k, c.failure k = none) (hegg : c.tables.egg id = some egg)
    (hnew : ∀ e ∈ c.tables.eggs, e.id ≠ newId) :
    RoundTrips c id newId ↔ egg.description ≠ none ∧ egg.scriptInstall ≠ none ∧
      egg.scriptEntry ≠ "" ∧ egg.scriptContainer ≠ "" :=
  (roundTrips_same egg hfailure hegg hnew).trans
    (same_reimported egg (c.tables.variablesOf id) newId)

section Paper

/-- A nest without eggs, and a database that does not fail. -/
def emptyNest : Connection EggCatalog HttpException where
  tables :=
    { nests := ⟨[⟨"minecraft", "Minecraft", ""⟩], by decide⟩
      eggs := ⟨[], by decide⟩
      eggVariables := []
      consistent := by decide }
  issued := 0
  failure _ := none

/-- A request with the fields that have to be there, and what else the caller gives. -/
def paper (description scriptInstall : Field String) : CreateEggDto where
  nestId := "minecraft"
  data :=
    { name := some "Paper", description, author := some "panel"
      dockerImage := some "java:21", dockerImages := none, startup := some "java -jar paper.jar"
      configFiles := none, configStartup := none, configStop := none, configLogs := none
      scriptInstall, scriptEntry := none, scriptContainer := none, copyScriptFrom := none }
  eggVariables := some (some [⟨"Memory", "", "MEMORY", "", true, false, "required"⟩])

/-- What is stored for it. -/
def paperEgg (description scriptInstall : Field String) : EggEntity where
  id := "paper"
  nestId := "minecraft"
  name := "Paper"
  description := description.join
  author := "panel"
  dockerImage := "java:21"
  dockerImages := []
  startup := "java -jar paper.jar"
  configFiles := none
  configStartup := none
  configStop := none
  configLogs := none
  scriptInstall := scriptInstall.join
  scriptEntry := "bash"
  scriptContainer := "alpine:latest"
  copyScriptFrom := none

/-- Given a description and an install script, the egg comes back as it was. -/
theorem described_egg_round_trips :
    RoundTrips (createEgg "paper" (paper (some "") (some "")) emptyNest).2 "paper" "copy" :=
  (roundTrips_iff _ (paperEgg (some "") (some "")) (fun _ => rfl) rfl (by decide)).mpr
    (by decide)

/-- Created without a description, it comes back with an empty one. -/
theorem undescribed_egg_changes :
    (createEgg "paper" (paper none (some "")) emptyNest).1 = .ok "paper" ∧
      ¬ RoundTrips (createEgg "paper" (paper none (some "")) emptyNest).2 "paper" "copy" := by
  refine ⟨rfl, fun h => ?_⟩
  have hsame := (roundTrips_same (paperEgg none (some "")) (fun _ => rfl) rfl
    (by decide)).mp h
  exact absurd ((same_reimported _ _ _).mp hsame).1 (by decide)

end Paper

end EggsService

end Panel
