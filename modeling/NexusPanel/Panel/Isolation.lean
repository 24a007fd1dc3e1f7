import NexusPanel.Panel.ServersFlow

/-!
# Servers that no request names

An operation finds its server by the `uuid` of the request and goes on with what it has loaded:
an `id`, a row, an allocation. By the time it writes, all of that may be out of date. It is
still about the server it was requested for: the rows change, but what an `id` and a `uuid`
stand for does not.

So a server that no request names is out of reach of all of them, in whatever order they take
their turns. `Task.Avoids` says what an operation has to remember for that, and `Kept` what the
database has to keep: the column `uuid` is not unique there.
-/

namespace Panel

open Transition ServersTurn

/-- The row of another server. -/
def Server.Other (server row : Server) : Prop := row.id ≠ server.id ∧ row.uuid ≠ server.uuid

/-- Nothing the operation knows leads it to the server or to its allocation. -/
def Task.Avoids (server : Server) : Task → Prop
  | .create (.findNode _ gen) | .create (.checkAvailability _ gen _) | .create (.findEgg _ gen _)
  | .create (.findAllocation _ gen _ _) | .create (.findUser _ gen _ _)
  | .create (.sumCapacity _ gen _ _) | .create (.findVariables _ gen _) =>
    gen.uuid ≠ server.uuid
  | .create (.insert row) => row.uuid ≠ server.uuid
  | .create (.load id) | .create (.markFailed id _) => id ≠ server.id
  | .create (.wings row _ _ _) => server.Other row
  | .update (.check uuid _ _) | .update (.load uuid _) => uuid ≠ server.uuid
  | .update (.save row held) => server.Other row ∧ ∀ a ∈ held, a.id ≠ server.allocationId
  | .delete (.load uuid) => uuid ≠ server.uuid
  | .delete (.wings row held) =>
    server.Other row ∧ ∀ a ∈ held, a.id ≠ server.allocationId
  | .delete (.free a row) => server.Other row ∧ a.id ≠ server.allocationId
  | .delete (.remove row) => server.Other row
  | .power (.check uuid _ _) | .power (.load uuid _) => uuid ≠ server.uuid
  | .power (.call row _) => server.Other row
  | .suspend (.find uuid) | .unsuspend (.find uuid) | .reinstall (.find uuid) =>
    uuid ≠ server.uuid
  | .suspend (.load id) | .suspend (.reload id) | .unsuspend (.load id) | .unsuspend (.reload id)
  | .reinstall (.load id) | .reinstall (.reload id) => id ≠ server.id
  | .suspend (.kill row) | .suspend (.write row) | .unsuspend (.write row)
  | .reinstall (.mark row _ _) | .reinstall (.wings row _ _ _) => server.Other row
  | .callback (.receive uuid _) | .callback (.load uuid _) => uuid ≠ server.uuid
  | .callback (.write row _) => server.Other row
  | .event (.handleInstallComplete uuid) | .event (.handleInstallFailed uuid) =>
    uuid ≠ server.uuid
  | .gateway (.load uuid _) => uuid ≠ server.uuid
  | .gateway (.call row _) => server.Other row
  | .allocation (.adminFind _ _) | .allocation (.find _) | .allocation (.bulkDelete _) => True
  | .allocation (.remove id) => id ≠ server.allocationId

/-- The step is not the arrival of a request for the server. -/
def NotRequested (server : Server) : ServersLabel → Prop
  | .start task => task.Avoids server
  | _ => True

/-- The server a call to Wings names. -/
def WingsCall.server : WingsCall → Option Server
  | .getSystemInfo _ => none
  | .createServer server _ _ _ | .deleteServer server _ | .reinstallServer server _ _ _
  | .sendPowerAction server _ => some server

/-- A call is not about the server, and an answer does not show it. -/
def Sent.Spares (server : Server) (sent : Sent) : Prop :=
  (∀ call ∈ sent.calls, ∀ row ∈ call.server, server.Other row) ∧
    ∀ row, sent.answer = some (.ok (.server row)) → server.Other row

/-- What the turn sends spares the server. -/
def SparesServer (js : Js) (server : Server) (p : ServersPool) (l : ServersLabel) : Prop :=
  ∀ turn, (serversSystem js).turnOf p l = some turn → turn.output.Spares server

/-- The two rows are as they are, and no other server goes by the same `uuid`. -/
structure Kept (server : Server) (allocation : Allocation) (db : Database) : Prop where
  present : server ∈ db.servers
  assigned : allocation ∈ db.allocations
  distinct : ∀ row ∈ db.servers, row.id ≠ server.id → row.uuid ≠ server.uuid

/-- The allocation is the server's own, on both sides. -/
structure Server.Holds (server : Server) (allocation : Allocation) : Prop where
  id : allocation.id = server.allocationId
  serverId : allocation.serverId = some server.id
  truthy : server.id ≠ ""

/-- From the run's point of view the server does not exist. -/
structure OutOfReach (js : Js) (server : Server) (allocation : Allocation) (p : ServersPool)
    (labels : List ServersLabel) : Prop where
  rows : ∀ done, done <+: labels → ∀ p', run (serversStep js) p done = some p' →
    server ∈ p'.store.db.servers ∧ allocation ∈ p'.store.db.allocations
  sent : Along (serversStep js) (SparesServer js server) p labels

/-! ## What the lookups find -/

section Lookups

variable {server row : Server} {allocation a : Allocation} {db : Database} {p : ServersState}

theorem Kept.other_of_id (h : Kept server allocation db) (hrow : row ∈ db.servers)
    (hid : row.id ≠ server.id) : server.Other row := ⟨hid, h.distinct row hrow hid⟩

theorem Kept.other_of_uuid (h : Kept server allocation db) (hrow : row ∈ db.servers)
    (huuid : row.uuid ≠ server.uuid) : server.Other row := by
  refine ⟨fun hid => huuid ?_, huuid⟩
  rw [Table.eq_of_key hrow h.present hid]

theorem Kept.findById (h : Kept server allocation db) {id : String} (hid : id ≠ server.id)
    (hrow : ServersService.findById db.servers id = .ok row) : server.Other row := by
  obtain ⟨hmem, hrow⟩ := ServersService.findById_ok hrow
  exact h.other_of_id hmem (hrow ▸ hid)

theorem Kept.findByUuid (h : Kept server allocation db) {uuid : String}
    (huuid : uuid ≠ server.uuid)
    (hrow : ServersService.findByUuid db.servers uuid = .ok row) : server.Other row := by
  obtain ⟨hmem, hrow⟩ := ServersService.findByUuid_ok hrow
  exact h.other_of_uuid hmem (hrow ▸ huuid)

/-- An allocation that differs is another one. -/
theorem Kept.allocation_ne (h : Kept server allocation db) (hown : server.Holds allocation)
    (ha : a ∈ db.allocations) (hne : a.serverId ≠ some server.id) :
    a.id ≠ server.allocationId := by
  intro hid
  have heq := Table.eq_of_key ha h.assigned (hid.trans hown.id.symm)
  rw [heq] at hne
  exact hne hown.serverId

/-- Another server's allocation. -/
theorem Kept.allocationOf_ne (h : Kept server allocation p.db) (hown : server.Holds allocation)
    (hother : server.Other row) (ha : p.allocationOf row = some a) :
    a.id ≠ server.allocationId := by
  obtain ⟨hmem, hrow⟩ := ServersState.allocationOf_eq_some ha
  exact h.allocation_ne hown hmem fun heq => hother.1 (Option.some.inj (hrow.symm.trans heq))

end Lookups

/-! ## What the statements leave -/

section Statements

variable {server : Server} {allocation : Allocation} {db db' : Database}

/-- Columns of other rows. -/
theorem Kept.columns (h : Kept server allocation db) {q : Server → Bool} {c : Lifecycle}
    (hq : q server = false)
    (hservers : ∀ x, x ∈ db'.servers ↔ ∃ s ∈ db.servers, (if q s then c.set s else s) = x)
    (hallocations : db'.allocations = db.allocations) : Kept server allocation db' where
  present := (hservers server).mpr ⟨server, h.present, by rw [hq]; rfl⟩
  assigned := hallocations ▸ h.assigned
  distinct := by
    intro row hrow hid
    obtain ⟨s, hs, rfl⟩ := (hservers row).mp hrow
    split at hid
    next hset =>
      rw [if_pos hset]
      exact h.distinct s hs hid
    next hset =>
      rw [if_neg hset]
      exact h.distinct s hs hid

/-- Allocations other than the server's own. -/
theorem Kept.allocations (h : Kept server allocation db) (hservers : db'.servers = db.servers)
    (hallocation : allocation ∈ db'.allocations) : Kept server allocation db' where
  present := hservers ▸ h.present
  assigned := hallocation
  distinct := hservers ▸ h.distinct

theorem Kept.createServer (h : Kept server allocation db) (hown : server.Holds allocation)
    {row : Server} (huuid : row.uuid ≠ server.uuid)
    (hexec : db.exec (.createServer row) = some db') : Kept server allocation db' := by
  have hservers := fun x => (mem_servers_createServer (x := x) hexec).2
  have hserver : server ∈ db'.servers := (hservers server).mpr (.inr h.present)
  -- the constraint on `allocationId` stands in the way of a row on the same allocation
  have hallocation : allocation.id ≠ row.allocationId := by
    intro heq
    have hrow : row ∈ db'.servers := (hservers row).mpr (.inl rfl)
    have hsame := db'.eq_of_allocationId hserver hrow (hown.id.symm.trans heq)
    exact huuid (by rw [hsame])
  refine ⟨hserver, (mem_allocations_createServer hexec).mpr ⟨allocation, h.assigned, ?_⟩, ?_⟩
  · rw [if_neg]
    simpa using hallocation
  · intro x hx hid
    rcases (hservers x).mp hx with rfl | hx
    · exact huuid
    · exact h.distinct x hx hid

theorem Kept.saveServer (h : Kept server allocation db) (hown : server.Holds allocation)
    {row : Server} (hother : server.Other row) {held : Option String}
    (hheld : ∀ id ∈ held, id ≠ server.allocationId)
    (hexec : db.exec (.saveServer row held) = some db') : Kept server allocation db' where
  present := (mem_servers_saveServer hexec).mpr (.inr ⟨h.present, hother.1.symm⟩)
  assigned := by
    refine (mem_allocations_saveServer hexec).mpr ⟨allocation, h.assigned, if_neg ?_⟩
    cases held with
    | some id =>
      rw [Allocation.writtenWith_some, hown.id]
      exact (hheld id rfl).symm
    | none =>
      rw [Allocation.writtenWith_none, hown.serverId]
      exact fun heq => hother.1 (Option.some.inj heq).symm
  distinct := by
    intro x hx hid
    rcases (mem_servers_saveServer hexec).mp hx with rfl | ⟨hx, -⟩
    · exact hother.2
    · exact h.distinct x hx hid

theorem Kept.removeServer (h : Kept server allocation db) {id : String} (hid : id ≠ server.id)
    (hexec : db.exec (.removeServer id) = some db') : Kept server allocation db' where
  present := (mem_servers_removeServer hexec).mpr ⟨h.present, hid.symm⟩
  assigned := allocations_removeServer hexec ▸ h.assigned
  distinct := fun x hx => h.distinct x ((mem_servers_removeServer hexec).mp hx).1

theorem Kept.updateServer (h : Kept server allocation db) {id : String} {c : Lifecycle}
    (hid : id ≠ server.id) (hexec : db.exec (.updateServer id c) = some db') :
    Kept server allocation db' :=
  h.columns (q := fun s => s.id == id) (beq_false_of_ne hid.symm)
    (fun _ => mem_servers_updateServer hexec) (allocations_updateServer hexec)

theorem Kept.updateServerByUuid (h : Kept server allocation db) {uuid : String} {c : Lifecycle}
    (huuid : uuid ≠ server.uuid) (hexec : db.exec (.updateServerByUuid uuid c) = some db') :
    Kept server allocation db' :=
  h.columns (q := fun s => s.uuid == uuid) (beq_false_of_ne huuid.symm)
    (fun _ => mem_servers_updateServerByUuid hexec) (allocations_updateServerByUuid hexec)

/-- The statement of an operation that avoids the server leaves its rows alone. -/
theorem Kept.exec (h : Kept server allocation db) (hown : server.Holds allocation) {task : Task}
    (havoids : task.Avoids server) {st : Statement} (hst : task.statement = some st)
    (hexec : db.exec st = some db') : Kept server allocation db' := by
  unfold Task.statement at hst
  split at hst
  case h_1 row => cases hst; exact h.createServer hown havoids hexec
  case h_2 id message => cases hst; exact h.updateServer havoids hexec
  case h_3 row held =>
    cases hst
    refine h.saveServer hown havoids.1 (fun id hid => ?_) hexec
    obtain ⟨a, ha, rfl⟩ := Option.map_eq_some_iff.mp hid
    exact havoids.2 a ha
  case h_4 a row =>
    cases hst
    refine h.allocations (servers_freeAllocation hexec)
      ((mem_allocations_freeAllocation hexec).mpr ⟨allocation, h.assigned, ?_⟩)
    rw [if_neg]
    rw [beq_iff_eq, hown.id]
    exact havoids.2.symm
  case h_5 row => cases hst; exact h.removeServer havoids.1 hexec
  case h_6 row | h_7 row | h_8 row _ _ | h_9 row status =>
    cases hst
    exact h.updateServer havoids.1 hexec
  case h_10 uuid | h_11 uuid =>
    cases hst
    exact h.updateServerByUuid havoids hexec
  case h_12 id =>
    cases hst
    refine h.allocations (servers_removeAllocation hexec)
      ((mem_allocations_removeAllocation hexec).mpr ⟨h.assigned, ?_⟩)
    rw [hown.id]
    exact Ne.symm havoids
  case h_13 nodeId =>
    cases hst
    refine h.allocations (servers_removeUnassigned hexec)
      ((mem_allocations_removeUnassigned hexec).mpr ⟨h.assigned, .inr ?_⟩)
    rw [hown.serverId]
    exact Option.some_ne_none _
  case h_14 => cases hst

end Statements

/-! ## What a turn goes on with -/

/-- The turn goes on with a task that satisfies `A`, and answers with other servers only. -/
def Veers {τ : Type} (A : τ → Prop) (server : Server) (u : ServersTurn τ) : Prop :=
  GoesOn A u ∧ Answers server.Other u

namespace Veers

variable {τ α : Type} {A : τ → Prop} {server : Server} {p : ServersState} {reply : Settled}

theorem goOn {task : τ} (h : A task) : Veers A server (goOn p task) :=
  ⟨goesOn_goOn h, answers_goOn task⟩

theorem error (e : HttpException) : Veers A server (finish p (.error e) : ServersTurn τ) :=
  ⟨goesOn_finish _, answers_error e⟩

theorem row {row : Server} (h : server.Other row) :
    Veers A server (finish p (.ok (.server row)) : ServersTurn τ) :=
  ⟨goesOn_finish _, answers_server h⟩

/-- An answer that is not a server. -/
theorem done {answer : Answer} (h : ∀ row, answer ≠ .server row) :
    Veers A server (finish p (.ok answer) : ServersTurn τ) :=
  ⟨goesOn_finish _, fun row hrow => absurd (Except.ok.inj (Option.some.inj hrow)) (h row)⟩

theorem read {k : ServersTurn τ} (h : Veers A server k) : Veers A server (read p reply k) :=
  ⟨goesOn_read fun _ => h.1, answers_read fun _ => h.2⟩

theorem found {o : Option α} {e : HttpException} {k : α → ServersTurn τ}
    (h : ∀ a, o = some a → Veers A server (k a)) : Veers A server (found p o e k) :=
  found_ind (fun e => error e) h

theorem returned {result : Except HttpException α} {k : α → ServersTurn τ}
    (h : ∀ a, result = .ok a → Veers A server (k a)) : Veers A server (returned p result k) :=
  returned_ind (fun e => error e) h

theorem throwIf {bad : Bool} {e : HttpException} {k : ServersTurn τ}
    (h : bad = false → Veers A server k) : Veers A server (throwIf p bad e k) :=
  throwIf_ind (fun e => error e) h

theorem execute {st : Statement} {k : ServersState → ServersTurn τ}
    (h : ∀ db, p.db.exec st = some db → Veers A server (k { p with db })) :
    Veers A server (execute p reply st k) :=
  ⟨goesOn_execute fun _ db hdb => (h db hdb).1, answers_execute fun _ db hdb => (h db hdb).2⟩

theorem call {c : WingsCall} {onOk : ServersTurn τ} {onError : String → ServersTurn τ}
    (hok : Veers A server onOk) (herror : ∀ m, Veers A server (onError m)) :
    Veers A server (call reply c onOk onError) :=
  ⟨goesOn_call (fun _ => hok.1) fun m _ => (herror m).1,
    answers_call (fun _ => hok.2) fun m => (herror m).2⟩

/-- A turn of a task that is one kind of a larger type. -/
theorem map {τ' : Type} {f : τ → τ'} {B : τ' → Prop} {u : ServersTurn τ}
    (h : Veers (fun t => B (f t)) server u) : Veers B server (u.map f) := by
  refine ⟨fun t ht => ?_, h.2⟩
  obtain ⟨x, hx, rfl⟩ := Option.map_eq_some_iff.mp ht
  exact h.1 x hx

end Veers

section Turns

open ServersService

variable {server : Server} {allocation : Allocation} {p : ServersState} {reply : Settled}

theorem ServersService.CreateTask.veers (js : Js) (h : Kept server allocation p.db)
    {task : CreateTask} (ht : (Task.create task).Avoids server) :
    Veers (fun t => (Task.create t).Avoids server) server (task.turn js p reply) := by
  cases task with
  | findNode dto gen => exact .read (.found fun _ _ => .throwIf fun _ => .goOn ht)
  | checkAvailability dto gen node => exact .call (.goOn ht) fun _ => .error _
  | findEgg dto gen node => exact .read (.found fun _ _ => .goOn ht)
  | findAllocation dto gen node egg =>
    exact .read (.found fun _ _ => .throwIf fun _ => .throwIf fun _ => .goOn ht)
  | findUser dto gen node egg => exact .read (.found fun _ _ => .goOn ht)
  | sumCapacity dto gen node egg => exact .read (.throwIf fun _ => .throwIf fun _ => .goOn ht)
  | findVariables dto gen egg => exact .read (.throwIf fun _ => .found fun _ _ => .goOn ht)
  | insert row =>
    refine .execute fun db hexec => .goOn ?_
    exact ((mem_servers_createServer (x := row) hexec).1 server h.present).symm
  | load id =>
    simp only [CreateTask.turn]
    split
    next => exact .error _
    next => exact .error _
    next row hrow =>
      split
      next => exact .goOn (h.findById ht hrow)
      next => exact .goOn ht
      next => exact .goOn ht
  | wings row config script image => exact .call (.row ht) fun _ => .goOn ht.1
  | markFailed id message => exact .execute fun _ _ => .error _

theorem ServersService.UpdateTask.veers (h : Kept server allocation p.db)
    (hown : server.Holds allocation) {task : UpdateTask} (ht : (Task.update task).Avoids server) :
    Veers (fun t => (Task.update t).Avoids server) server (task.turn p reply) := by
  cases task with
  | check uuid user dto => exact .read (.returned fun _ _ => .returned fun _ _ => .goOn ht)
  | load uuid dto =>
    refine .read (.returned fun row hrow => .goOn ?_)
    have hother := h.findByUuid ht hrow
    exact ⟨hother, fun a ha => h.allocationOf_ne hown hother ha⟩
  | save row held => exact .execute fun _ _ => .row ht.1

theorem ServersService.DeleteTask.veers (h : Kept server allocation p.db)
    (hown : server.Holds allocation) {task : DeleteTask}
    (ht : (Task.delete task).Avoids server) :
    Veers (fun t => (Task.delete t).Avoids server) server (task.turn p reply) := by
  cases task with
  | load uuid =>
    refine .read (.returned fun row hrow => .goOn ?_)
    have hother := h.findByUuid ht hrow
    exact ⟨hother, fun a ha => h.allocationOf_ne hown hother ha⟩
  | wings row held =>
    cases held with
    | none => exact .call (.goOn ht.1) fun _ => .goOn ht.1
    | some a => exact .call (.goOn ⟨ht.1, ht.2 a rfl⟩) fun _ => .goOn ⟨ht.1, ht.2 a rfl⟩
  | free a row => exact .execute fun _ _ => .goOn ht.1
  | remove row => exact .execute fun _ _ => .done fun _ => nofun

theorem ServersService.PowerTask.veers (h : Kept server allocation p.db) {task : PowerTask}
    (ht : (Task.power task).Avoids server) :
    Veers (fun t => (Task.power t).Avoids server) server (task.turn p reply) := by
  cases task with
  | check uuid user action => exact .read (.returned fun _ _ => .returned fun _ _ => .goOn ht)
  | load uuid action =>
    exact .read (.returned fun row hrow => .throwIf fun _ => .throwIf fun _ =>
      .goOn (h.findByUuid ht hrow))
  | call row action => exact .call (.done fun _ => nofun) fun _ => .error _

theorem ServersService.SuspendTask.veers (h : Kept server allocation p.db) {task : SuspendTask}
    (ht : (Task.suspend task).Avoids server) :
    Veers (fun t => (Task.suspend t).Avoids server) server (task.turn p reply) := by
  cases task with
  | find uuid => exact .read (.returned fun row hrow => .goOn (h.findByUuid ht hrow).1)
  | load id => exact .read (.returned fun row hrow => .throwIf fun _ => .goOn (h.findById ht hrow))
  | kill row => exact .call (.goOn ht) fun _ => .goOn ht
  | write row => exact .execute fun _ _ => .goOn ht.1
  | reload id => exact .read (.returned fun row hrow => .row (h.findById ht hrow))

theorem ServersService.UnsuspendTask.veers (h : Kept server allocation p.db)
    {task : UnsuspendTask} (ht : (Task.unsuspend task).Avoids server) :
    Veers (fun t => (Task.unsuspend t).Avoids server) server (task.turn p reply) := by
  cases task with
  | find uuid => exact .read (.returned fun row hrow => .goOn (h.findByUuid ht hrow).1)
  | load id => exact .read (.returned fun row hrow => .throwIf fun _ => .goOn (h.findById ht hrow))
  | write row => exact .execute fun _ _ => .goOn ht.1
  | reload id => exact .read (.returned fun row hrow => .row (h.findById ht hrow))

theorem ServersService.ReinstallTask.veers (h : Kept server allocation p.db)
    {task : ReinstallTask} (ht : (Task.reinstall task).Avoids server) :
    Veers (fun t => (Task.reinstall t).Avoids server) server (task.turn p reply) := by
  cases task with
  | find uuid => exact .read (.returned fun row hrow => .goOn (h.findByUuid ht hrow).1)
  | load id => exact .read (.returned fun row hrow => .goOn (h.findById ht hrow))
  | mark row held egg =>
    refine .execute fun _ _ => ?_
    cases held <;> cases egg
    case some.some => exact .goOn ht
    all_goals exact .error _
  | wings row config script image => exact .call (.goOn ht.1) fun _ => .error _
  | reload id => exact .read (.returned fun row hrow => .row (h.findById ht hrow))

theorem ServersService.CallbackTask.veers (h : Kept server allocation p.db) {task : CallbackTask}
    (ht : (Task.callback task).Avoids server) :
    Veers (fun t => (Task.callback t).Avoids server) server (task.turn p reply) := by
  cases task with
  | receive uuid status => exact .throwIf fun _ => .goOn ht
  | load uuid status => exact .read (.returned fun row hrow => .goOn (h.findByUuid ht hrow))
  | write row status => exact .execute fun _ _ => .done fun _ => nofun

theorem EventTask.veers {task : EventTask} :
    Veers (fun t => (Task.event t).Avoids server) server (task.turn p reply) := by
  cases task with
  | handleInstallComplete uuid | handleInstallFailed uuid =>
    exact .execute fun _ _ => .done fun _ => nofun

theorem GatewayTask.veers (h : Kept server allocation p.db) {task : GatewayTask}
    (ht : (Task.gateway task).Avoids server) :
    Veers (fun t => (Task.gateway t).Avoids server) server (task.turn p reply) := by
  cases task with
  | load uuid action => exact .read (.returned fun row hrow => .goOn (h.findByUuid ht hrow))
  | call row action => exact .call (.done fun _ => nofun) fun _ => .error _

/-- An allocation is let go only when it is seen to be assigned to nobody. -/
theorem AllocationTask.veers (h : Kept server allocation p.db) (hown : server.Holds allocation)
    {task : AllocationTask} :
    Veers (fun t => (Task.allocation t).Avoids server) server (task.turn p reply) := by
  have hassigned : truthy (some server.id) = some server.id := by
    unfold truthy
    split
    next heq => exact absurd (Option.some.inj heq) hown.truthy
    next => rfl
  cases task with
  | adminFind nodeId id =>
    refine .read (.found fun a ha => .throwIf fun hfree => .goOn ?_)
    refine h.allocation_ne hown (Table.findOne_mem ha) fun heq => ?_
    rw [heq, hassigned] at hfree
    cases hfree
  | find id =>
    refine .read (.found fun a ha => .throwIf fun hfree => .goOn ?_)
    refine h.allocation_ne hown (Table.findOne_mem ha) fun heq => ?_
    rw [heq] at hfree
    cases hfree
  | remove id | bulkDelete nodeId => exact .execute fun _ _ => .done fun _ => nofun

/-- A turn of an operation that avoids the server. -/
theorem Task.veers (js : Js) (h : Kept server allocation p.db) (hown : server.Holds allocation)
    {task : Task} (ht : task.Avoids server) :
    Veers (fun t => t.Avoids server) server (task.turn js p reply) := by
  cases task with
  | create task => exact (CreateTask.veers js h ht).map
  | update task => exact (UpdateTask.veers h hown ht).map
  | delete task => exact (DeleteTask.veers h hown ht).map
  | power task => exact (PowerTask.veers h ht).map
  | suspend task => exact (SuspendTask.veers h ht).map
  | unsuspend task => exact (UnsuspendTask.veers h ht).map
  | reinstall task => exact (ReinstallTask.veers h ht).map
  | callback task => exact (CallbackTask.veers h ht).map
  | event task => exact EventTask.veers.map
  | gateway task => exact (GatewayTask.veers h ht).map
  | allocation task => exact (AllocationTask.veers h hown).map

/-- The call an operation that avoids the server stands before. -/
theorem Task.call_other {task : Task} (ht : task.Avoids server) {c : WingsCall} {row : Server}
    (hcall : task.call = some c) (hrow : c.server = some row) : server.Other row := by
  unfold Task.call at hcall
  split at hcall
  all_goals cases hcall
  all_goals cases hrow
  all_goals first | exact ht | exact ht.1

end Turns

/-! ## Runs -/

section Runs

variable {js : Js} {server : Server} {allocation : Allocation} {p p' : ServersPool}
  {l : ServersLabel}

/-- The rows are kept, and no operation in flight leads to them. -/
abbrev Unreached (server : Server) (allocation : Allocation) : ServersPool → Prop :=
  Pool.Holds (fun q => Kept server allocation q.db) fun _ t => t.Avoids server

/-- What comes from outside leaves both rows. -/
theorem Kept.outside {q q' : ServersState} (h : Kept server allocation q.db) {event : Outside}
    (hout : q.outside event = some q') : Kept server allocation q'.db := by
  refine h.allocations (servers_outside hout).1 ?_
  cases event with
  | provision a => exact ((outside_provision hout).2 allocation).mpr (.inr h.assigned)
  | edit nodes eggs eggVariables users =>
    obtain ⟨db, hdb, rfl⟩ := Option.map_eq_some_iff.mp hout
    dsimp only
    rw [Database.ofTables_eq_some hdb]
    exact h.assigned
  | heartbeats online =>
    cases hout
    exact h.assigned

theorem Kept.issue {db : Database} (h : Kept server allocation db)
    (hown : server.Holds allocation) {task : Task} (ht : task.Avoids server) (reply : Settled) :
    Kept server allocation (db.issue reply task.statement) := by
  unfold Database.issue
  split
  next st hst =>
    cases hexec : db.exec st with
    | none => exact h
    | some db' => exact h.exec hown ht hst hexec
  next => exact h

theorem Unreached.step (hp : Unreached server allocation p) (hown : server.Holds allocation)
    (hnew : NotRequested server l) (hstep : serversStep js p l = some p') :
    Unreached server allocation p' := by
  cases l with
  | start task => exact hp.start hnew hstep
  | turn i reply =>
    refine hp.turn (fun task hmem _ => ?_) (fun task hmem _ t ht => ?_)
      (fun _ _ _ _ _ ht => ht) hstep
    · show Kept server allocation (task.turn js p.store reply).store.db
      rw [(task.performs js).db]
      exact hp.store.issue hown (hp.tasks task hmem) reply
    · exact (task.veers js hp.store hown (hp.tasks task hmem)).1 t ht
  | outside event =>
    exact hp.outside (fun _ hout => hp.store.outside hout) (fun _ _ _ _ ht => ht) hstep

/-- Where the server is out of reach, what a step sends spares it. -/
theorem Unreached.sparesServer (hp : Unreached server allocation p)
    (hown : server.Holds allocation) : SparesServer js server p l := by
  intro turn hturn
  cases l with
  | start task | outside event => cases hturn
  | turn i reply =>
    obtain ⟨task, htask, rfl⟩ := Option.map_eq_some_iff.mp hturn
    have ht := hp.tasks task (List.mem_of_getElem? htask)
    refine ⟨fun c hc row hrow => ?_, (task.veers js hp.store hown ht).2⟩
    have hcall : c ∈ (task.turn js p.store reply).output.calls := hc
    rw [(task.performs js).calls, Option.mem_toList] at hcall
    exact task.call_other ht hcall hrow

/-- For every server with its allocation, every database in which no other server has its
`uuid`, and every run in which no request names it: whatever operations on other servers are in
flight and however they take turns, in every state the row of the server and the row of its
allocation are what they were, and no call to Wings and no answer is about the server. -/
theorem unrequested_out_of_reach (js : Js) (server : Server) (allocation : Allocation)
    (db : Database) (online : List String) (labels : List ServersLabel)
    (hdb : Kept server allocation db) (hown : server.Holds allocation)
    (hnew : ∀ l ∈ labels, NotRequested server l) :
    OutOfReach js server allocation (.idle db online) labels := by
  have hidle : Unreached server allocation (.idle db online) := ⟨hdb, fun t ht => by cases ht⟩
  have hlabels {ls : List ServersLabel} (hls : ∀ l ∈ ls, NotRequested server l) :
      Along (serversStep js) (fun _ l => NotRequested server l) (.idle db online) ls :=
    along_of_forall fun l hl _ => hls l hl
  constructor
  · rintro done ⟨rest, rfl⟩ p' hrun
    have hp' := run_invariant (I := Unreached server allocation)
      (fun _ _ _ hp hnew hstep => hp.step hown hnew hstep) hidle
      (hlabels fun l hl => hnew l (List.mem_append_left rest hl)) hrun
    exact ⟨hp'.store.present, hp'.store.assigned⟩
  · exact Along.weaken (I := Unreached server allocation)
      (fun _ _ _ hp hnew hstep => hp.step hown hnew hstep)
      (fun _ _ hp _ => hp.sparesServer hown) hidle (hlabels hnew)

end Runs

/-! ## A server that comes and goes beside another -/

section Neighbour

/-- The server of `Database.oneServer`. -/
def residentServer : Server :=
  Server.withDefaults "1" "u" "u" "server" "owner" "n" "t" "e" "a" 1024 1024 "run" "image"

/-- A create, one that asks for the allocation of the server that is there, and a delete of what
the first has created. -/
def neighbourRun : List ServersLabel :=
  .start (.create (.findNode secondServer ⟨"2", "2", "2"⟩)) :: List.replicate 10 (.turn 0 .ok) ++
    .start (.create (.findNode { secondServer with allocationId := "a" } ⟨"3", "3", "3"⟩)) ::
      List.replicate 4 (.turn 0 .ok) ++
    .start (.delete (.load "2")) :: List.replicate 4 (.turn 0 .ok)

theorem neighbour_out_of_reach :
    OutOfReach .plain residentServer ⟨"a", "n", "0.0.0.0", none, 25565, none, some "1"⟩
      (.idle (.oneServer none) ["n"]) neighbourRun := by
  refine unrequested_out_of_reach .plain _ _ _ _ _ ⟨List.mem_cons_self, List.mem_cons_self, ?_⟩
    ⟨rfl, rfl, by decide⟩ ?_
  · intro row hrow hid
    rw [List.mem_singleton.mp hrow] at hid
    exact absurd rfl hid
  · simp [neighbourRun, NotRequested, Task.Avoids, residentServer, Server.withDefaults]

example : ((run (serversStep .plain) (.idle (.oneServer none) ["n"]) neighbourRun).map
    fun p => (p.tasks, p.store.db.servers.rows)) = some ([], [residentServer]) := by
  decide +kernel

end Neighbour

end Panel
