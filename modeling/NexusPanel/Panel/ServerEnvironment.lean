import NexusPanel.Panel.ServersFlow
import NexusPanel.Panel.VariableRules

/-!
# The environment of a server and the variables of its egg

`create` fills in defaults, validates the environment and stores it. `update` stores what it is
given. The variables of an egg may be edited at any time, and then nobody looks at the servers
again; so what can be asked of a server is asked as long as the variables of its egg are the ones
it was created with. Which servers these are is kept beside the panel, in `unedited`.
-/

namespace Panel

open Transition ServersTurn ServersService

/-- The environment of the server against the variables its egg has in the database. -/
def EnvValid (js : Js) (db : Database) (server : Server) : Prop :=
  (validateServerVariables js server.envVariables
    (db.eggVariables.find fun v => v.eggId == server.eggId)).isEmpty = true

instance (js : Js) (db : Database) (server : Server) : Decidable (EnvValid js db server) :=
  inferInstanceAs (Decidable (_ = true))

theorem envValid_iff {js : Js} {db : Database} {server : Server} :
    EnvValid js db server ↔
      ∀ v ∈ db.eggVariables, v.eggId = server.eggId → PassesRules js server.envVariables v := by
  refine (validateServerVariables_isEmpty _).trans (forall_congr' fun v => ?_)
  rw [Table.mem_find, beq_iff_eq, and_imp]

/-! ## Servers whose egg was not edited since -/

/-- The egg has the same variables in both tables. -/
def sameVariables (old new : Table EggVariable) (eggId : String) : Bool :=
  decide ((∀ v ∈ old.rows, v.eggId = eggId → v ∈ new) ∧ ∀ v ∈ new.rows, v.eggId = eggId → v ∈ old)

/-- Operations in flight, and the ids of servers with those of their eggs, as long as the egg has
the variables it had when the server was created. -/
structure Watched where
  pool : ServersPool
  unedited : List (String × String)

/-- The statement that the step issues and that goes through. -/
def goneThrough (p : ServersPool) (l : ServersLabel) : Option Statement :=
  (issued p l).filter fun st => (p.store.db.exec st).isSome

/-- A server that is created joins the list. -/
def Statement.joins (unedited : List (String × String)) : Statement → List (String × String)
  | .createServer server => (server.id, server.eggId) :: unedited
  | _ => unedited

def Watched.watch (w : Watched) : ServersLabel → List (String × String)
  | .outside (.edit _ _ eggVariables _) =>
    w.unedited.filter fun e => sameVariables w.pool.store.db.eggVariables eggVariables e.2
  | l =>
    match goneThrough w.pool l with
    | some st => st.joins w.unedited
    | none => w.unedited

def Watched.step (js : Js) (w : Watched) (l : ServersLabel) : Option Watched :=
  (serversStep js w.pool l).map fun pool => ⟨pool, w.watch l⟩

/-- At the beginning, the servers that are there count when their environment is valid. -/
def Watched.idle (js : Js) (db : Database) (online : List String) : Watched where
  pool := .idle db online
  unedited := (db.servers.rows.filter fun s => (validateServerVariables js s.envVariables
    (db.eggVariables.find fun v => v.eggId == s.eggId)).isEmpty).map fun s => (s.id, s.eggId)

/-- Every server has a valid environment as long as the variables of its egg were not edited. -/
def EnvironmentsValid (js : Js) (w : Watched) : Prop :=
  ∀ s ∈ w.pool.store.db.servers, (s.id, s.eggId) ∈ w.unedited → EnvValid js w.pool.store.db s

/-- A row that is inserted, and one that is saved as long as its egg was not edited, has a valid
environment. -/
def Watched.MayStore (js : Js) (w : Watched) : Statement → Prop
  | .createServer server => EnvValid js w.pool.store.db server
  | .saveServer server _ =>
    (server.id, server.eggId) ∈ w.unedited → EnvValid js w.pool.store.db server
  | _ => True

def StoresValid (js : Js) (w : Watched) (l : ServersLabel) : Prop :=
  ∀ st, goneThrough w.pool l = some st → w.MayStore js st

/-! ## One step -/

section Steps

variable {js : Js}

theorem eggVariables_exec {db db' : Database} {st : Statement} (h : db.exec st = some db') :
    db'.eggVariables = db.eggVariables := by
  have happly := Database.exec_eq_some h
  cases st with
  | createServer server =>
    obtain ⟨servers, -, htables⟩ := Option.map_eq_some_iff.mp happly
    rw [← htables]
  | updateServer id columns | updateServerByUuid uuid columns | saveServer server allocation =>
    rw [← Option.some.inj happly]
    rfl
  | removeServer id | freeAllocation id | removeAllocation id | removeUnassigned nodeId =>
    rw [← Option.some.inj happly]

theorem EnvValid.congr {db db' : Database} {s : Server} (h : EnvValid js db s)
    (hsame : ∀ v ∈ db'.eggVariables, v.eggId = s.eggId → v ∈ db.eggVariables) :
    EnvValid js db' s := by
  rw [envValid_iff] at h ⊢
  exact fun v hv hegg => h v (hsame v hv hegg) hegg

/-- Where neither the variables nor the rest of the list changes, it is about the new rows. -/
theorem environmentsValid_of_servers {w w' : Watched} (h : EnvironmentsValid js w)
    (hvariables : w'.pool.store.db.eggVariables = w.pool.store.db.eggVariables)
    (hunedited : w'.unedited = w.unedited)
    (hservers : ∀ s ∈ w'.pool.store.db.servers, ∃ old ∈ w.pool.store.db.servers,
      old.id = s.id ∧ old.eggId = s.eggId ∧ old.envVariables = s.envVariables) :
    EnvironmentsValid js w' := by
  intro s hs hmem
  obtain ⟨old, hold, hid, hegg, henv⟩ := hservers s hs
  rw [hunedited, ← hid, ← hegg] at hmem
  have hvalid := envValid_iff.mp (h old hold hmem)
  rw [envValid_iff, hvariables, ← hegg, ← henv]
  exact hvalid

/-- What a step can do to the servers and to the variables of eggs. -/
inductive Touches (p p' : ServersPool) (l : ServersLabel) : Prop
  | executed (st : Statement) (hst : goneThrough p l = some st)
      (hexec : p.store.db.exec st = some p'.store.db) (hedit : ∀ event, l ≠ .outside event)
  | edited (nodes : Table Node) (eggs : Table Egg) (eggVariables : Table EggVariable)
      (users : Table User) (hedit : l = .outside (.edit nodes eggs eggVariables users))
      (hservers : p'.store.db.servers = p.store.db.servers)
      (hvariables : p'.store.db.eggVariables = eggVariables)
  | quiet (hst : goneThrough p l = none)
      (hedit : ∀ nodes eggs eggVariables users, l ≠ .outside (.edit nodes eggs eggVariables users))
      (hservers : p'.store.db.servers = p.store.db.servers)
      (hvariables : p'.store.db.eggVariables = p.store.db.eggVariables)

theorem serversStep_touches {p p' : ServersPool} {l : ServersLabel}
    (h : serversStep js p l = some p') : Touches p p' l := by
  cases l with
  | start task =>
    obtain ⟨-, rfl⟩ := Tasks.step_start h
    exact .quiet rfl (fun _ _ _ _ hedit => by cases hedit) rfl rfl
  | turn i reply =>
    obtain ⟨task, htask, hdb, -⟩ := serversStep_turn h
    have hedit : ∀ event, (.turn i reply : ServersLabel) ≠ .outside event := by
      intro event heq
      cases heq
    cases reply with
    | failed message => exact .quiet rfl (fun _ _ _ _ => hedit _) (by rw [hdb]; rfl) (by rw [hdb]; rfl)
    | ok =>
      have hissued : issued p (.turn i .ok) = task.statement := by
        simp only [issued, htask, Option.bind_some]
      cases hst : task.statement with
      | none =>
        rw [hst] at hdb hissued
        refine .quiet ?_ (fun _ _ _ _ => hedit _) (by rw [hdb]; rfl) (by rw [hdb]; rfl)
        rw [goneThrough, hissued, Option.filter_none]
      | some st =>
        rw [hst] at hdb hissued
        cases hexec : p.store.db.exec st with
        | none =>
          simp only [Database.issue, hexec, Option.getD_none] at hdb
          refine .quiet ?_ (fun _ _ _ _ => hedit _) (by rw [hdb]) (by rw [hdb])
          rw [goneThrough, hissued, Option.filter_some, hexec]
          rfl
        | some db =>
          simp only [Database.issue, hexec, Option.getD_some] at hdb
          refine .executed st ?_ (by rw [hdb, hexec]) hedit
          rw [goneThrough, hissued, Option.filter_some, hexec]
          rfl
  | outside event =>
    obtain ⟨store, hstore, rfl⟩ := Tasks.step_outside h
    have hstore : p.store.outside event = some store := hstore
    have hservers := (servers_outside hstore).1
    cases event with
    | provision allocation =>
      refine .quiet rfl (fun _ _ _ _ hedit => by cases hedit) hservers ?_
      obtain ⟨allocations, -, h⟩ := Option.bind_eq_some_iff.mp hstore
      obtain ⟨db, hdb, rfl⟩ := Option.map_eq_some_iff.mp h
      dsimp only
      rw [Database.ofTables_eq_some hdb]
    | edit nodes eggs eggVariables users =>
      refine .edited nodes eggs eggVariables users rfl hservers ?_
      obtain ⟨db, hdb, rfl⟩ := Option.map_eq_some_iff.mp hstore
      dsimp only
      rw [Database.ofTables_eq_some hdb]
    | heartbeats online =>
      cases hstore
      exact .quiet rfl (fun _ _ _ _ hedit => by cases hedit) rfl rfl

/-- A statement keeps the environments valid exactly when the row it stores whole has one. -/
theorem environmentsValid_exec {w w' : Watched} {st : Statement} (h : EnvironmentsValid js w)
    (hexec : w.pool.store.db.exec st = some w'.pool.store.db)
    (hunedited : w'.unedited = st.joins w.unedited) :
    EnvironmentsValid js w' ↔ w.MayStore js st := by
  have hvariables := eggVariables_exec hexec
  have hback {s : Server} : EnvValid js w'.pool.store.db s ↔ EnvValid js w.pool.store.db s := by
    rw [envValid_iff, envValid_iff, hvariables]
  cases st with
  | createServer server =>
    constructor
    · intro h'
      refine hback.mp (h' server ((mem_servers_createServer hexec).2.mpr (.inl rfl)) ?_)
      rw [hunedited]
      exact List.mem_cons_self
    · intro hvalid s hs hmem
      rcases (mem_servers_createServer hexec).2.mp hs with rfl | hold
      · exact hback.mpr hvalid
      · rw [hunedited] at hmem
        rcases List.mem_cons.mp hmem with heq | hmem
        · exact absurd (Prod.mk.inj heq).1 ((mem_servers_createServer (x := s) hexec).1 s hold)
        · exact hback.mpr (h s hold hmem)
  | saveServer server allocation =>
    constructor
    · intro h' hmem
      refine hback.mp (h' server ((mem_servers_saveServer hexec).mpr (.inl rfl)) ?_)
      rwa [hunedited]
    · intro hvalid s hs hmem
      rw [hunedited] at hmem
      rcases (mem_servers_saveServer hexec).mp hs with rfl | ⟨hold, -⟩
      · exact hback.mpr (hvalid hmem)
      · exact hback.mpr (h s hold hmem)
  | updateServer id columns =>
    refine iff_of_true (environmentsValid_of_servers h hvariables hunedited fun s hs => ?_) trivial
    obtain ⟨old, hold, rfl⟩ := (mem_servers_updateServer hexec).mp hs
    refine ⟨old, hold, ?_⟩
    split <;> exact ⟨rfl, rfl, rfl⟩
  | updateServerByUuid uuid columns =>
    refine iff_of_true (environmentsValid_of_servers h hvariables hunedited fun s hs => ?_) trivial
    obtain ⟨old, hold, rfl⟩ := (mem_servers_updateServerByUuid hexec).mp hs
    refine ⟨old, hold, ?_⟩
    split <;> exact ⟨rfl, rfl, rfl⟩
  | removeServer id =>
    refine iff_of_true (environmentsValid_of_servers h hvariables hunedited fun s hs => ?_) trivial
    exact ⟨s, ((mem_servers_removeServer hexec).mp hs).1, rfl, rfl, rfl⟩
  | freeAllocation id =>
    refine iff_of_true (environmentsValid_of_servers h hvariables hunedited fun s hs => ?_) trivial
    exact ⟨s, servers_freeAllocation hexec ▸ hs, rfl, rfl, rfl⟩
  | removeAllocation id =>
    refine iff_of_true (environmentsValid_of_servers h hvariables hunedited fun s hs => ?_) trivial
    exact ⟨s, servers_removeAllocation hexec ▸ hs, rfl, rfl, rfl⟩
  | removeUnassigned nodeId =>
    refine iff_of_true (environmentsValid_of_servers h hvariables hunedited fun s hs => ?_) trivial
    exact ⟨s, servers_removeUnassigned hexec ▸ hs, rfl, rfl, rfl⟩

theorem environmentsValid_step {w w' : Watched} {l : ServersLabel} (h : EnvironmentsValid js w)
    (hstep : w.step js l = some w') : EnvironmentsValid js w' ↔ StoresValid js w l := by
  obtain ⟨p', hp', rfl⟩ := Option.map_eq_some_iff.mp hstep
  cases serversStep_touches hp' with
  | executed st hst hexec hedit =>
    have hwatch : w.watch l = st.joins w.unedited := by
      cases l with
      | outside event => exact absurd rfl (hedit event)
      | start task | turn i reply => simp only [Watched.watch, hst]
    have hiff : EnvironmentsValid js ⟨p', w.watch l⟩ ↔ w.MayStore js st :=
      environmentsValid_exec h hexec hwatch
    rw [hiff]
    constructor
    · intro hmay st' hst'
      cases hst.symm.trans hst'
      exact hmay
    · exact fun hstores => hstores st hst
  | edited nodes eggs eggVariables users hedit hservers hvariables =>
    subst hedit
    refine iff_of_true (fun s hs hmem => ?_) fun _ hst => (nomatch hst)
    obtain ⟨hold, hsame⟩ := List.mem_filter.mp hmem
    rw [sameVariables, decide_eq_true_eq] at hsame
    refine (h s (hservers ▸ hs) hold).congr fun v hv hegg => ?_
    rw [show p'.store.db.eggVariables = eggVariables from hvariables] at hv
    exact hsame.2 v hv hegg
  | quiet hst hedit hservers hvariables =>
    have hwatch : w.watch l = w.unedited := by
      unfold Watched.watch
      split
      next nodes eggs eggVariables users => exact absurd rfl (hedit _ _ _ _)
      next => rw [hst]
    refine iff_of_true (environmentsValid_of_servers h hvariables hwatch fun s hs => ?_) ?_
    · exact ⟨s, hservers ▸ hs, rfl, rfl, rfl⟩
    · intro st hgone
      rw [hst] at hgone
      cases hgone

end Steps

theorem environmentsValid_idle (js : Js) (db : Database) (online : List String) :
    EnvironmentsValid js (.idle js db online) := by
  intro s hs hmem
  obtain ⟨s', hs', heq⟩ := List.mem_map.mp hmem
  obtain ⟨hs', hvalid⟩ := List.mem_filter.mp hs'
  rw [Table.eq_of_key hs hs' (Prod.mk.inj heq).1.symm]
  exact hvalid

/-- In every run, every server has an environment its egg allows in every state of it, as long as
the variables of the egg are those it was created with, exactly when no row with another one is
stored: `create` inserts one only if the variables are edited behind its check, `update` whenever
it is given one. -/
theorem environmentsValid_iff_storesValid (js : Js) (db : Database) (online : List String)
    (ls : List ServersLabel) :
    Always (Watched.step js) (fun _ w => EnvironmentsValid js w) (.idle js db online) ls ↔
      Along (Watched.step js) (StoresValid js) (.idle js db online) ls := by
  refine always_iff_along (I := EnvironmentsValid js)
    (fun w l w' h hstep => environmentsValid_step h hstep) (fun w l hstuck => ?_)
    (environmentsValid_idle js db online)
  have hnone : issued w.pool l = none := issued_of_stuck (Option.map_eq_none_iff.mp hstuck)
  intro st hgone
  rw [goneThrough, hnone] at hgone
  cases hgone

/-! ## What `create` inserts -/

/-- The rows about to be inserted have passed the validator as the variables are now. -/
def InsertsChecked (js : Js) (p : ServersPool) : Prop :=
  ∀ server, Task.create (.insert server) ∈ p.tasks → EnvValid js p.store.db server

/-- No variable is new or changed. -/
def AddsNoVariables (p : ServersPool) : ServersLabel → Prop
  | .outside (.edit _ _ eggVariables _) => ∀ v ∈ eggVariables, v ∈ p.store.db.eggVariables
  | _ => True

/-- `create` comes to its transaction past the validator only. -/
theorem Task.envValid_of_insert {js : Js} {p : ServersState} {reply : Settled} {task : Task}
    {server : Server} (h : (task.turn js p reply).next = some (.create (.insert server))) :
    EnvValid js p.db server := by
  cases task with
  | create task =>
    obtain ⟨t, ht, heq⟩ := Option.map_eq_some_iff.mp h
    cases heq
    cases task with
    | findVariables dto gen egg =>
      have hgoes : GoesOn (fun t => ∀ server, t = .insert server → EnvValid js p.db server)
          (CreateTask.turn js p reply (.findVariables dto gen egg)) := by
        refine goesOn_read fun _ => goesOn_throwIf fun hvalid => goesOn_found fun startup _ =>
          goesOn_goOn ?_
        intro server hserver
        cases hserver
        rw [Bool.not_eq_eq_eq_not, Bool.not_false] at hvalid
        exact hvalid
      exact hgoes _ ht server rfl
    | findNode | findEgg | findAllocation | findUser | checkAvailability | sumCapacity | load | insert
    | wings | markFailed =>
      have hfollows := CreateTask.goesOn js _ _ ht
      simp [CreateTask.Follows] at hfollows
  | update task | delete task | power task | suspend task | unsuspend task | reinstall task
  | callback task | event task | gateway task | allocation task =>
    obtain ⟨t, -, heq⟩ := Option.map_eq_some_iff.mp h
    cases heq

theorem insertsChecked_step {js : Js} {p p' : ServersPool} {l : ServersLabel}
    (h : InsertsChecked js p) (hkeeps : AddsNoVariables p l)
    (hstep : serversStep js p l = some p') : InsertsChecked js p' := by
  have hvariables : ∀ v ∈ p'.store.db.eggVariables, v ∈ p.store.db.eggVariables := by
    cases serversStep_touches hstep with
    | executed st hst hexec hedit =>
      rw [eggVariables_exec hexec]
      exact fun _ hv => hv
    | edited nodes eggs eggVariables users hedit hservers hvariables =>
      subst hedit
      rw [hvariables]
      exact hkeeps
    | quiet hst hedit hservers hvariables =>
      rw [hvariables]
      exact fun _ hv => hv
  intro server hserver
  have hchecked : EnvValid js p.store.db server := by
    cases l with
    | start task =>
      obtain ⟨hstarts, rfl⟩ := Tasks.step_start hstep
      rcases List.mem_cons.mp hserver with rfl | hold
      · cases hstarts
      · exact h server hold
    | turn i reply =>
      obtain ⟨task, -, rfl⟩ := Tasks.step_turn hstep
      rcases List.mem_append.mp hserver with hnext | hold
      · exact Task.envValid_of_insert (Option.mem_toList.mp hnext)
      · exact h server (List.mem_of_mem_eraseIdx hold)
    | outside event =>
      obtain ⟨store, -, rfl⟩ := Tasks.step_outside hstep
      exact h server hserver
  exact hchecked.congr fun v hv _ => hvariables v hv

/-- As long as no variable is edited, `create` inserts only what the validator has passed. -/
theorem insertsChecked_run {js : Js} {p p' : ServersPool} {ls : List ServersLabel}
    (h : InsertsChecked js p) (hkeeps : Along (serversStep js) AddsNoVariables p ls)
    (hrun : run (serversStep js) p ls = some p') : InsertsChecked js p' :=
  run_invariant (fun _ _ _ hp hC hstep => insertsChecked_step hp hC hstep) h hkeeps hrun

/-! ## An update that stores what it is given -/

/-- The egg of the server of `oneServer` asks for a switch. -/
def Database.oneVariable : Database where
  toTables := { (Database.oneServer none).toTables with
    eggVariables := ⟨[⟨"v", "e", "Fights", "PVP", "true", "required|boolean"⟩], by decide⟩ }
  constraints := (Database.oneServer none).constraints

/-- The owner updates the environment. -/
def switchRun : List ServersLabel :=
  [.start (.update (.check "u" ⟨"owner", "owner@nexus.local", false⟩
      ⟨none, none, none, none, none, some [("PVP", "maybe")], none, none, none, none, none,
        none, none⟩)),
    .turn 0 .ok, .turn 0 .ok, .turn 0 .ok]

theorem update_stores_any :
    ¬ ∀ (js : Js) (db : Database) (online : List String) (ls : List ServersLabel),
      Always (Watched.step js) (fun _ w => EnvironmentsValid js w) (.idle js db online) ls := by
  intro h
  have halways := h .plain .oneVariable [] switchRun switchRun (List.prefix_refl _) _ rfl
  have hbad := halways _ List.mem_cons_self (by decide +kernel)
  exact absurd hbad (by decide +kernel)

end Panel
