import NexusPanel.Panel.ServersService

/-!
# The operations side by side

Any number of operations in flight on one database. A request starts a task of its own kind;
from outside come new allocations, edits of the tables the operations only read, and
heartbeats.

What a turn can do is said once, here. It issues at most the one statement its task stands
before (`Task.statement`), it makes the one call its task stands before (`Task.call`), and the
history of installs grows only where a task takes one up (`Task.accepts`). Everything proved
about runs starts from these three facts.
-/

namespace Panel

open Transition ServersTurn

open ServersService in
/-- An operation in flight. -/
inductive Task
  | create (task : CreateTask)
  | update (task : UpdateTask)
  | delete (task : DeleteTask)
  | power (task : PowerTask)
  | suspend (task : SuspendTask)
  | unsuspend (task : UnsuspendTask)
  | reinstall (task : ReinstallTask)
  | callback (task : CallbackTask)
  | event (task : EventTask)
  | gateway (task : GatewayTask)
  | allocation (task : AllocationTask)
deriving DecidableEq, Repr

namespace Task

def turn (js : Js) (p : ServersState) (reply : Settled) : Task → ServersTurn Task
  | .create task => (task.turn js p reply).map .create
  | .update task => (task.turn p reply).map .update
  | .delete task => (task.turn p reply).map .delete
  | .power task => (task.turn p reply).map .power
  | .suspend task => (task.turn p reply).map .suspend
  | .unsuspend task => (task.turn p reply).map .unsuspend
  | .reinstall task => (task.turn p reply).map .reinstall
  | .callback task => (task.turn p reply).map .callback
  | .event task => (task.turn p reply).map .event
  | .gateway task => (task.turn p reply).map .gateway
  | .allocation task => (task.turn p reply).map .allocation

/-- The tasks a request begins with. -/
def starts : Task → Bool
  | .create (.findNode _ _) | .update (.check _ _ _) | .delete (.load _)
  | .power (.check _ _ _) | .suspend (.find _) | .unsuspend (.find _) | .reinstall (.find _)
  | .callback (.receive _ _) | .event _ | .gateway (.load _ _) | .allocation (.adminFind _ _)
  | .allocation (.find _) | .allocation (.bulkDelete _) => true
  | _ => false

/-- The statement the task is about to issue, when it is one that writes. -/
def statement : Task → Option Statement
  | .create (.insert server) => some (.createServer server)
  | .create (.markFailed id _) => some (.updateServer id ⟨none, some (some .installFailed)⟩)
  | .update (.save server a) => some (.saveServer server (a.map Allocation.id))
  | .delete (.free a _) => some (.freeAllocation a.id)
  | .delete (.remove server) => some (.removeServer server.id)
  | .suspend (.write server) => some (.updateServer server.id ⟨none, some (some .suspended)⟩)
  | .unsuspend (.write server) => some (.updateServer server.id ⟨none, some none⟩)
  | .reinstall (.mark server _ _) => some (.updateServer server.id ⟨some 0, none⟩)
  | .callback (.write server status) =>
    some (.updateServer server.id (ServersService.installOutcome (status = "success")))
  | .event (.handleInstallComplete uuid) =>
    some (.updateServerByUuid uuid (ServersService.installOutcome true))
  | .event (.handleInstallFailed uuid) =>
    some (.updateServerByUuid uuid (ServersService.installOutcome false))
  | .allocation (.remove id) => some (.removeAllocation id)
  | .allocation (.bulkDelete nodeId) => some (.removeUnassigned nodeId)
  | _ => none

/-- The call to Wings the task is about to make. -/
def call : Task → Option WingsCall
  | .create (.checkAvailability _ _ node) => some (.getSystemInfo node)
  | .create (.wings server config script image) =>
    some (.createServer server config script image)
  | .delete (.wings server _) => some (.deleteServer server false)
  | .power (.call server action) => some (.sendPowerAction server (mapPowerAction action.value))
  | .suspend (.kill server) =>
    some (.sendPowerAction server (mapPowerAction PowerAction.kill.value))
  | .reinstall (.wings server config script image) =>
    some (.reinstallServer server config script image)
  | .gateway (.call server action) => some (.sendPowerAction server (mapPowerAction action))
  | _ => none

/-- The server whose install the task is about to take up. -/
def accepts : Task → Option String
  | .create (.insert server) => some server.id
  | .reinstall (.mark server _ _) => some server.id
  | _ => none

end Task

/-- What happens outside the operations. -/
inductive Outside
  | provision (allocation : Allocation)
  | edit (nodes : Table Node) (eggs : Table Egg) (eggVariables : Table EggVariable)
      (users : Table User)
  | heartbeats (online : List String)

/-- A new allocation is free; an edit that would break a constraint is refused. -/
def ServersState.outside (p : ServersState) : Outside → Option ServersState
  | .provision allocation =>
    (p.db.allocations.insert { allocation with serverId := none }).bind fun allocations =>
      (Database.ofTables { p.db.toTables with allocations }).map fun db => { p with db }
  | .edit nodes eggs eggVariables users =>
    (Database.ofTables { p.db.toTables with nodes, eggs, eggVariables, users }).map
      fun db => { p with db }
  | .heartbeats online => some { p with online }

def serversSystem (js : Js) : Tasks ServersState Task Settled Sent Outside where
  turn := Task.turn js
  starts := Task.starts
  outside := ServersState.outside

abbrev ServersPool := Pool ServersState Task
abbrev ServersLabel := PoolLabel Task Settled Outside

def serversStep (js : Js) : ServersPool → ServersLabel → Option ServersPool :=
  (serversSystem js).step

/-- No operation in flight. -/
def ServersPool.idle (db : Database) (online : List String) : ServersPool := ⟨⟨db, online, []⟩, []⟩

/-! ## What a turn does to the store -/

/-- The database after a statement, if there is one and it goes through. -/
def Database.issue (db : Database) (reply : Settled) (st : Option Statement) : Database :=
  match reply, st with
  | .ok, some s => (db.exec s).getD db
  | _, _ => db

/-- What a turn does: it issues the statement, the history of installs grows by the accepted
one at most, and the call is made. -/
structure Performs {τ : Type} (p : ServersState) (reply : Settled) (st : Option Statement)
    (accepted : Option String) (called : Option WingsCall) (u : ServersTurn τ) : Prop where
  db : u.store.db = p.db.issue reply st
  installs : ∀ i ∈ u.store.installs, i ∈ p.installs ∨ reply = .ok ∧ accepted = some i
  calls : u.output.calls = called.toList

namespace Performs

variable {τ α : Type} {p : ServersState} {reply : Settled} {u : ServersTurn τ}
  {accepted : Option String}

theorem of_store (hdb : u.store.db = p.db) (hinstalls : ∀ i ∈ u.store.installs, i ∈ p.installs)
    (hcalls : u.output.calls = []) : Performs p reply none none none u where
  db := by
    rw [hdb]
    cases reply <;> rfl
  installs := fun i hi => .inl (hinstalls i hi)
  calls := hcalls

theorem goOn (task : τ) : Performs p reply none none none (goOn p task) := of_store rfl (fun _ hi => hi) rfl

theorem finish (r : Except HttpException Answer) :
    Performs p reply none none none (finish p r : ServersTurn τ) := of_store rfl (fun _ hi => hi) rfl

theorem goOn_settle (server : String) (task : τ) :
    Performs p reply none none none (ServersTurn.goOn (p.settle server) task) :=
  of_store rfl (fun _ hi => List.mem_of_mem_erase hi) rfl

theorem finish_settle (server : String) (r : Except HttpException Answer) :
    Performs p reply none none none (ServersTurn.finish (p.settle server) r : ServersTurn τ) :=
  of_store rfl (fun _ hi => List.mem_of_mem_erase hi) rfl

theorem read {k : ServersTurn τ} (h : Performs p reply none none none k) :
    Performs p reply none none none (read p reply k) := read_ind (fun _ => finish _) fun _ => h

theorem found {row : Option α} {e : HttpException} {k : α → ServersTurn τ}
    (h : ∀ a, Performs p reply none none none (k a)) :
    Performs p reply none none none (found p row e k) := found_ind (fun _ => finish _) fun a _ => h a

theorem returned {result : Except HttpException α} {k : α → ServersTurn τ}
    (h : ∀ a, Performs p reply none none none (k a)) :
    Performs p reply none none none (returned p result k) := returned_ind (fun _ => finish _) fun a _ => h a

theorem throwIf {bad : Bool} {e : HttpException} {k : ServersTurn τ}
    (h : Performs p reply none none none k) : Performs p reply none none none (throwIf p bad e k) :=
  throwIf_ind (fun _ => finish _) fun _ => h

theorem call {c : WingsCall} {onOk : ServersTurn τ} {onError : String → ServersTurn τ}
    (hok : Performs p reply none none none onOk)
    (herror : ∀ m, Performs p reply none none none (onError m)) :
    Performs p reply none none (some c) (call reply c onOk onError) := by
  cases reply with
  | ok => exact ⟨hok.db, hok.installs, congrArg (c :: ·) hok.calls⟩
  | failed message =>
    exact ⟨(herror message).db, (herror message).installs,
      congrArg (c :: ·) (herror message).calls⟩

/-- A turn that issues a statement and then leaves the database alone. -/
theorem execute {s : Statement} {k : ServersState → ServersTurn τ}
    (hdb : ∀ q : ServersState, (k q).store.db = q.db)
    (hinstalls : ∀ q : ServersState, ∀ i ∈ (k q).store.installs,
      i ∈ q.installs ∨ accepted = some i)
    (hcalls : ∀ q : ServersState, (k q).output.calls = []) :
    Performs p reply (some s) accepted none (execute p reply s k) := by
  cases reply with
  | failed message => exact ⟨rfl, fun _ hi => .inl hi, rfl⟩
  | ok =>
    cases hexec : p.db.exec s with
    | none =>
      simp only [ServersTurn.execute, hexec]
      exact ⟨by simp only [Database.issue, hexec]; rfl, fun _ hi => .inl hi, rfl⟩
    | some db =>
      simp only [ServersTurn.execute, hexec]
      refine ⟨?_, fun i hi => (hinstalls _ i hi).imp_right fun h => ⟨rfl, h⟩, hcalls _⟩
      rw [hdb]
      simp only [Database.issue, hexec, Option.getD_some]

theorem execute_goOn {s : Statement} (task : τ) :
    Performs p reply (some s) none none
      (ServersTurn.execute p reply s fun q => ServersTurn.goOn q task) := by
  apply execute
  · exact fun _ => rfl
  · exact fun _ _ hi => .inl hi
  · exact fun _ => rfl

theorem execute_finish {s : Statement} (r : Except HttpException Answer) :
    Performs p reply (some s) none none
      (ServersTurn.execute p reply s fun q => (ServersTurn.finish q r : ServersTurn τ)) := by
  apply execute
  · exact fun _ => rfl
  · exact fun _ _ hi => .inl hi
  · exact fun _ => rfl

theorem execute_settle {s : Statement} (server : String) (r : Except HttpException Answer) :
    Performs p reply (some s) none none (ServersTurn.execute p reply s fun q =>
      (ServersTurn.finish (q.settle server) r : ServersTurn τ)) := by
  apply execute
  · exact fun _ => rfl
  · exact fun _ _ hi => .inl (List.mem_of_mem_erase hi)
  · exact fun _ => rfl

theorem execute_accept {s : Statement} (server : String) (task : τ) :
    Performs p reply (some s) (some server) none
      (ServersTurn.execute p reply s fun q => ServersTurn.goOn (q.accept server) task) := by
  apply execute
  · exact fun _ => rfl
  · intro q i hi
    rcases List.mem_cons.mp hi with rfl | hi
    · exact .inr rfl
    · exact .inl hi
  · exact fun _ => rfl

end Performs

namespace ServersService

variable {p : ServersState} {reply : Settled}

theorem CreateTask.performs (js : Js) (task : CreateTask) :
    Performs p reply (Task.create task).statement (Task.create task).accepts (Task.create task).call
      (task.turn js p reply) := by
  cases task with
  | findNode dto gen => exact .read (.found fun _ => .throwIf (.goOn _))
  | checkAvailability dto gen node => exact .call (.goOn _) fun _ => .finish _
  | findEgg dto gen node => exact .read (.found fun _ => .goOn _)
  | findAllocation dto gen node egg =>
    exact .read (.found fun _ => .throwIf (.throwIf (.goOn _)))
  | findUser dto gen node egg => exact .read (.found fun _ => .goOn _)
  | sumCapacity dto gen node egg => exact .read (.throwIf (.throwIf (.goOn _)))
  | findVariables dto gen egg => exact .read (.throwIf (.found fun _ => .goOn _))
  | insert server => exact .execute_accept _ _
  | load id =>
    simp only [CreateTask.turn]
    split
    · exact .finish_settle _ _
    · exact .finish_settle _ _
    · split
      · exact .goOn _
      · exact .goOn_settle _ _
      · exact .goOn_settle _ _
  | wings server config script image => exact .call (.finish _) fun _ => .goOn_settle _ _
  | markFailed id message => exact .execute_finish _

theorem UpdateTask.performs (task : UpdateTask) :
    Performs p reply (Task.update task).statement (Task.update task).accepts (Task.update task).call
      (task.turn p reply) := by
  cases task with
  | check uuid user dto => exact .read (.returned fun _ => .returned fun _ => .goOn _)
  | load uuid dto => exact .read (.returned fun _ => .goOn _)
  | save server allocation => exact .execute_finish _

theorem DeleteTask.performs (task : DeleteTask) :
    Performs p reply (Task.delete task).statement (Task.delete task).accepts (Task.delete task).call
      (task.turn p reply) := by
  cases task with
  | load uuid => exact .read (.returned fun _ => .goOn _)
  | wings server allocation => exact .call (.goOn _) fun _ => .goOn _
  | free allocation server => exact .execute_goOn _
  | remove server => exact .execute_finish _

theorem PowerTask.performs (task : PowerTask) :
    Performs p reply (Task.power task).statement (Task.power task).accepts (Task.power task).call
      (task.turn p reply) := by
  cases task with
  | check uuid user action => exact .read (.returned fun _ => .returned fun _ => .goOn _)
  | load uuid action => exact .read (.returned fun _ => .throwIf (.throwIf (.goOn _)))
  | call server action => exact .call (.finish _) fun _ => .finish _

theorem SuspendTask.performs (task : SuspendTask) :
    Performs p reply (Task.suspend task).statement (Task.suspend task).accepts (Task.suspend task).call
      (task.turn p reply) := by
  cases task with
  | find uuid => exact .read (.returned fun _ => .goOn _)
  | load id => exact .read (.returned fun _ => .throwIf (.goOn _))
  | kill server => exact .call (.goOn _) fun _ => .goOn _
  | write server => exact .execute_goOn _
  | reload id => exact .read (.returned fun _ => .finish _)

theorem UnsuspendTask.performs (task : UnsuspendTask) :
    Performs p reply (Task.unsuspend task).statement (Task.unsuspend task).accepts (Task.unsuspend task).call
      (task.turn p reply) := by
  cases task with
  | find uuid => exact .read (.returned fun _ => .goOn _)
  | load id => exact .read (.returned fun _ => .throwIf (.goOn _))
  | write server => exact .execute_goOn _
  | reload id => exact .read (.returned fun _ => .finish _)

theorem ReinstallTask.performs (task : ReinstallTask) :
    Performs p reply (Task.reinstall task).statement (Task.reinstall task).accepts (Task.reinstall task).call
      (task.turn p reply) := by
  cases task with
  | find uuid => exact .read (.returned fun _ => .goOn _)
  | load id => exact .read (.returned fun _ => .goOn _)
  | mark server allocation egg =>
    simp only [ReinstallTask.turn, Task.statement, Task.accepts]
    apply Performs.execute
    · intro q
      cases allocation <;> cases egg <;> rfl
    · intro q i hi
      cases allocation <;> cases egg
      case some.some =>
        rcases List.mem_cons.mp hi with rfl | hi
        · exact .inr rfl
        · exact .inl hi
      all_goals exact .inl hi
    · intro q
      cases allocation <;> cases egg <;> rfl
  | wings server config script image => exact .call (.goOn _) fun _ => .finish_settle _ _
  | reload id => exact .read (.returned fun _ => .finish _)

theorem CallbackTask.performs (task : CallbackTask) :
    Performs p reply (Task.callback task).statement (Task.callback task).accepts (Task.callback task).call
      (task.turn p reply) := by
  cases task with
  | receive uuid status => exact .throwIf (.goOn _)
  | load uuid status => exact .read (.returned fun _ => .goOn _)
  | write server status => exact .execute_settle _ _

end ServersService

variable {p : ServersState} {reply : Settled}

theorem EventTask.performs (task : EventTask) :
    Performs p reply (Task.event task).statement (Task.event task).accepts (Task.event task).call
      (task.turn p reply) := by
  cases task with
  | handleInstallComplete uuid => exact .execute_finish _
  | handleInstallFailed uuid => exact .execute_finish _

theorem GatewayTask.performs (task : GatewayTask) :
    Performs p reply (Task.gateway task).statement (Task.gateway task).accepts (Task.gateway task).call
      (task.turn p reply) := by
  cases task with
  | load serverUuid action => exact .read (.returned fun _ => .goOn _)
  | call server action => exact .call (.finish _) fun _ => .finish _

theorem AllocationTask.performs (task : AllocationTask) :
    Performs p reply (Task.allocation task).statement (Task.allocation task).accepts (Task.allocation task).call
      (task.turn p reply) := by
  cases task with
  | adminFind nodeId id => exact .read (.found fun _ => .throwIf (.goOn _))
  | find id => exact .read (.found fun _ => .throwIf (.goOn _))
  | remove id => exact .execute_finish _
  | bulkDelete nodeId => exact .execute_finish _

/-- Every turn has the effect its task stands before. -/
theorem Task.performs (js : Js) (task : Task) :
    Performs p reply task.statement task.accepts task.call (task.turn js p reply) := by
  cases task with
  | create task => exact ⟨(task.performs js).db, (task.performs js).installs, (task.performs js).calls⟩
  | update task => exact ⟨task.performs.db, task.performs.installs, task.performs.calls⟩
  | delete task => exact ⟨task.performs.db, task.performs.installs, task.performs.calls⟩
  | power task => exact ⟨task.performs.db, task.performs.installs, task.performs.calls⟩
  | suspend task => exact ⟨task.performs.db, task.performs.installs, task.performs.calls⟩
  | unsuspend task => exact ⟨task.performs.db, task.performs.installs, task.performs.calls⟩
  | reinstall task => exact ⟨task.performs.db, task.performs.installs, task.performs.calls⟩
  | callback task => exact ⟨task.performs.db, task.performs.installs, task.performs.calls⟩
  | event task => exact ⟨task.performs.db, task.performs.installs, task.performs.calls⟩
  | gateway task => exact ⟨task.performs.db, task.performs.installs, task.performs.calls⟩
  | allocation task => exact ⟨task.performs.db, task.performs.installs, task.performs.calls⟩

/-- The statement a step issues, when it is one that writes and its reply says that it went
through. -/
def issued (p : ServersPool) : ServersLabel → Option Statement
  | .turn i .ok => p.tasks[i]?.bind Task.statement
  | _ => none

/-- A step that is a turn leaves the database its statement makes, if it makes one. -/
theorem serversStep_turn {js : Js} {p p' : ServersPool} {i : Nat}
    (h : serversStep js p (.turn i reply) = some p') :
    ∃ task, p.tasks[i]? = some task ∧
      p'.store.db = p.store.db.issue reply task.statement ∧
      ∀ s ∈ p'.store.installs, s ∈ p.store.installs ∨ reply = .ok ∧ task.accepts = some s := by
  obtain ⟨task, htask, rfl⟩ := Tasks.step_turn h
  exact ⟨task, htask, (task.performs js).db, (task.performs js).installs⟩

/-- What comes from outside leaves the servers and their installs alone. -/
theorem servers_outside {p' : ServersState} {event : Outside} (h : p.outside event = some p') :
    p'.db.servers = p.db.servers ∧ p'.installs = p.installs := by
  cases event with
  | provision allocation =>
    obtain ⟨allocations, -, h⟩ := Option.bind_eq_some_iff.mp h
    obtain ⟨db, hdb, rfl⟩ := Option.map_eq_some_iff.mp h
    refine ⟨?_, rfl⟩
    dsimp only
    rw [Database.ofTables_eq_some hdb]
  | edit nodes eggs eggVariables users =>
    obtain ⟨db, hdb, rfl⟩ := Option.map_eq_some_iff.mp h
    refine ⟨?_, rfl⟩
    dsimp only
    rw [Database.ofTables_eq_some hdb]
  | heartbeats online =>
    cases h
    exact ⟨rfl, rfl⟩

/-- A new allocation is free and takes an id no other has. -/
theorem outside_provision {p' : ServersState} {allocation : Allocation}
    (h : p.outside (.provision allocation) = some p') :
    (∀ b ∈ p.db.allocations, b.id ≠ allocation.id) ∧
      ∀ b, b ∈ p'.db.allocations ↔
        b = { allocation with serverId := none } ∨ b ∈ p.db.allocations := by
  obtain ⟨allocations, hins, h⟩ := Option.bind_eq_some_iff.mp h
  obtain ⟨db, hdb, rfl⟩ := Option.map_eq_some_iff.mp h
  obtain ⟨hfresh, hmem⟩ := Table.insert_eq_some hins
  refine ⟨hfresh, ?_⟩
  dsimp only
  rw [Database.ofTables_eq_some hdb]
  exact hmem

/-- What a step can do to servers and allocations, the statement it issues being given. -/
inductive Changes (db db' : Database) (st : Option Statement) : Prop
  /-- The statement went through. -/
  | executed (s : Statement) (hst : st = some s) (hexec : db.exec s = some db')
  /-- There was none, or it was refused. -/
  | quiet (hst : ∀ s, st = some s → db.exec s = none) (hservers : db'.servers = db.servers)
      (hallocations : db'.allocations = db.allocations)
  /-- A new allocation is there, assigned to nobody. -/
  | provisioned (hst : st = none) (a : Allocation) (hfree : a.serverId = none)
      (hfresh : ∀ b ∈ db.allocations, b.id ≠ a.id) (hservers : db'.servers = db.servers)
      (hallocations : ∀ b, b ∈ db'.allocations ↔ b = a ∨ b ∈ db.allocations)

theorem serversStep_changes {js : Js} {p p' : ServersPool} {l : ServersLabel}
    (h : serversStep js p l = some p') : Changes p.store.db p'.store.db (issued p l) := by
  cases l with
  | start task =>
    obtain ⟨-, rfl⟩ := Tasks.step_start h
    exact .quiet (fun _ h => nomatch h) rfl rfl
  | turn i reply =>
    obtain ⟨task, htask, hdb, -⟩ := serversStep_turn h
    cases reply with
    | failed message =>
      have hsame : p'.store.db = p.store.db := hdb
      exact .quiet (fun _ h => nomatch h) (by rw [hsame]) (by rw [hsame])
    | ok =>
      have hissued : issued p (.turn i .ok) = task.statement := by
        simp only [issued, htask, Option.bind_some]
      rw [hissued]
      cases hst : task.statement with
      | none =>
        rw [hst] at hdb
        have hsame : p'.store.db = p.store.db := hdb
        exact .quiet (fun _ h => nomatch h) (by rw [hsame]) (by rw [hsame])
      | some st =>
        rw [hst] at hdb
        cases hexec : p.store.db.exec st with
        | some db =>
          simp only [Database.issue, hexec, Option.getD_some] at hdb
          exact .executed st rfl (by rw [hdb, hexec])
        | none =>
          simp only [Database.issue, hexec, Option.getD_none] at hdb
          refine .quiet (fun s hs => ?_) (by rw [hdb]) (by rw [hdb])
          cases hs
          exact hexec
  | outside event =>
    obtain ⟨store, houtside, rfl⟩ := Tasks.step_outside h
    have hstore : p.store.outside event = some store := houtside
    cases event with
    | provision allocation =>
      obtain ⟨hfresh, hmem⟩ := outside_provision hstore
      exact .provisioned rfl { allocation with serverId := none } rfl hfresh
        (servers_outside hstore).1 hmem
    | edit nodes eggs eggVariables users =>
      refine .quiet (fun _ h => nomatch h) (servers_outside hstore).1 ?_
      obtain ⟨db, hdb, rfl⟩ := Option.map_eq_some_iff.mp hstore
      dsimp only
      rw [Database.ofTables_eq_some hdb]
    | heartbeats online =>
      cases hstore
      exact .quiet (fun _ h => nomatch h) rfl rfl

theorem issued_eq_some {p : ServersPool} {l : ServersLabel} {st : Statement} (h : issued p l = some st) :
    ∃ i task, l = .turn i .ok ∧ p.tasks[i]? = some task ∧ task.statement = some st := by
  unfold issued at h
  split at h
  next i =>
    obtain ⟨task, htask, hst⟩ := Option.bind_eq_some_iff.mp h
    exact ⟨i, task, rfl, htask, hst⟩
  next => cases h

/-- A step that is not enabled issues no statement. -/
theorem issued_of_stuck {js : Js} {p : ServersPool} {l : ServersLabel}
    (h : serversStep js p l = none) : issued p l = none := by
  cases l with
  | start task | outside event => rfl
  | turn i reply =>
    have htask : p.tasks[i]? = none := by
      cases htask : p.tasks[i]? with
      | none => rfl
      | some task =>
        simp only [serversStep, Tasks.step, Tasks.turnOf, htask, Option.map_some] at h
        cases h
    cases reply with
    | ok => simp only [issued, htask, Option.bind_none]
    | failed message => rfl

/-- A database with one server of the given status, its allocation, and a free one. -/
def Database.oneServer (status : Option ServerStatus) : Database where
  nodes := .single ⟨"n", 4096, 0, 4096, 0⟩
  eggs := .single ⟨"e", "image", "run", none, "alpine:latest"⟩
  eggVariables := .empty
  users := .single (.withDefaults "owner" "owner@nexus.local" "owner" "")
  servers := .single { Server.withDefaults "1" "u" "u" "server" "owner" "n" "t" "e" "a" 1024 1024
    "run" "image" with status }
  allocations := ⟨[⟨"a", "n", "0.0.0.0", none, 25565, none, some "1"⟩,
    ⟨"b", "n", "0.0.0.0", none, 25566, none, none⟩], by decide⟩
  constraints := by
    cases status with
    | none => decide
    | some status => cases status <;> decide

/-- A request for a server on the free allocation. -/
def secondServer : CreateServerDto :=
  { name := "second", description := none, userId := "owner", nodeId := "n", eggId := "e"
    allocationId := "b", memory := 512, cpu := 100, disk := 512, envVariables := none
    nestId := "t", swap := none, io := none, threads := none, oomDisabled := none
    startup := none, image := none, externalId := none }

end Panel
