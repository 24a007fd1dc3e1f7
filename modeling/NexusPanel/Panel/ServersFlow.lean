import NexusPanel.Panel.ServersSystem

/-!
# Where the operations go on

What a turn goes on with, and what it has seen in the database when it does. An operation that
has come past a check remembers what the check saw, and nothing else: `Follows` says, for each
place of `create`, `update` and `reinstall`, which task can come next and what was true of the rows at
that moment. Every invariant about operations in flight is derived from it. The same is said of
what a turn answers with.
-/

namespace Panel

open Transition ServersTurn

variable {p : ServersState} {reply : Settled}

/-- What a turn goes on with satisfies `P`. -/
def GoesOn {τ : Type} (P : τ → Prop) (u : ServersTurn τ) : Prop := ∀ t, u.next = some t → P t

section Rules

variable {τ α : Type} {P : τ → Prop}

theorem goesOn_finish (r : Except HttpException Answer) : GoesOn P (finish p r : ServersTurn τ) :=
  fun _ h => nomatch h

theorem goesOn_goOn {task : τ} (h : P task) : GoesOn P (goOn p task) := by
  intro t ht
  cases ht
  exact h

theorem goesOn_read {k : ServersTurn τ} (h : reply = .ok → GoesOn P k) :
    GoesOn P (read p reply k) := read_ind (fun _ => goesOn_finish _) h

theorem goesOn_found {row : Option α} {e : HttpException} {k : α → ServersTurn τ}
    (h : ∀ a, row = some a → GoesOn P (k a)) : GoesOn P (found p row e k) :=
  found_ind (fun _ => goesOn_finish _) h

theorem goesOn_returned {result : Except HttpException α} {k : α → ServersTurn τ}
    (h : ∀ a, result = .ok a → GoesOn P (k a)) : GoesOn P (returned p result k) :=
  returned_ind (fun _ => goesOn_finish _) h

theorem goesOn_throwIf {bad : Bool} {e : HttpException} {k : ServersTurn τ}
    (h : bad = false → GoesOn P k) : GoesOn P (throwIf p bad e k) :=
  throwIf_ind (fun _ => goesOn_finish _) h

theorem goesOn_execute {st : Statement} {k : ServersState → ServersTurn τ}
    (h : reply = .ok → ∀ db, p.db.exec st = some db → GoesOn P (k { p with db })) :
    GoesOn P (execute p reply st k) := by
  cases reply with
  | failed message => exact goesOn_finish _
  | ok =>
    unfold execute
    dsimp only
    split
    next db hexec => exact h rfl db hexec
    next => exact goesOn_finish _

theorem goesOn_call {c : WingsCall} {onOk : ServersTurn τ} {onError : String → ServersTurn τ}
    (hok : reply = .ok → GoesOn P onOk) (herror : ∀ m, reply = .failed m → GoesOn P (onError m)) :
    GoesOn P (call reply c onOk onError) := by
  cases reply with
  | ok => exact hok rfl
  | failed message => exact herror message rfl

end Rules

/-- The relation is the row that refers back. -/
theorem ServersState.allocationOf_eq_some {p : ServersState} {server : Server} {a : Allocation}
    (h : p.allocationOf server = some a) :
    a ∈ p.db.allocations ∧ a.serverId = some server.id :=
  ⟨Table.findOne_mem h, by simpa using Table.findOne_sat h⟩

namespace ServersService

/-- What the servers of a node have been given of a resource. -/
def allocated (db : Database) (nodeId : String) (resource : Server → Int) : Int :=
  ((db.servers.find fun s => s.nodeId == nodeId).map resource).sum

/-- Without overallocation a node holds what it has. -/
theorem capacity_zero {amount : Int} (h : |amount| < 2 ^ 53) : capacity amount 0 = amount := by
  have hzero : Rounding.double (((0 : Int) : Rat) / 100) = 0 := by
    rw [Int.cast_zero, zero_div]
    exact Rounding.roundTo_zero
  have hone : Rounding.double (1 : Rat) = 1 := by
    exact_mod_cast Rounding.double_intCast (n := 1) (by norm_num)
  rw [capacity, hzero, add_zero, hone, mul_one, Rounding.double_intCast h]

/-- The tasks a turn of `create` can go on with, and what it has seen. -/
def CreateTask.Follows (p : ServersState) : CreateTask → CreateTask → Prop
  | .findNode dto gen, t =>
    ∃ node ∈ p.db.nodes, node.id = dto.nodeId ∧ node.id ∈ p.online ∧
      t = .checkAvailability dto gen node
  | .checkAvailability dto gen node, t => t = .findEgg dto gen node
  | .findEgg dto gen node, t =>
    ∃ egg ∈ p.db.eggs, egg.id = dto.eggId ∧ t = .findAllocation dto gen node egg
  | .findAllocation dto gen node egg, t =>
    ∃ a ∈ p.db.allocations, a.id = dto.allocationId ∧ a.nodeId = dto.nodeId ∧
      truthy a.serverId = none ∧ t = .findUser dto gen node egg
  | .findUser dto gen node egg, t =>
    ∃ user ∈ p.db.users, user.id = dto.userId ∧ t = .sumCapacity dto gen node egg
  | .sumCapacity dto gen node egg, t =>
    exceeds (capacity node.memory node.memoryOverallocate)
        (allocated p.db dto.nodeId Server.memory) dto.memory = false ∧
      exceeds (capacity node.disk node.diskOverallocate)
        (allocated p.db dto.nodeId Server.disk) dto.disk = false ∧
      t = .findVariables dto gen egg
  | .findVariables dto gen _, t =>
    ∃ startup image env, t = .insert (newServer dto gen startup image env)
  | .insert server, t => t = .load server.id
  | .load id, t =>
    (∃ server ∈ p.db.servers, server.id = id ∧ ∃ allocation ∈ p.db.allocations,
      allocation.serverId = some id ∧ ∃ script image,
        t = .wings server (wingsConfig server allocation) script image) ∨
      ∃ message, t = .markFailed id message
  | .wings server _ _ _, t => ∃ message, t = .markFailed server.id message
  | .markFailed _ _, _ => False

theorem CreateTask.goesOn (js : Js) (task : CreateTask) :
    GoesOn (task.Follows p) (task.turn js p reply) := by
  cases task with
  | findNode dto gen =>
    refine goesOn_read fun _ => goesOn_found fun node hnode => goesOn_throwIf fun honline =>
      goesOn_goOn ⟨node, Table.findOne_mem hnode, ?_, ?_, rfl⟩
    · simpa using Table.findOne_sat hnode
    · simpa using honline
  | checkAvailability dto gen node =>
    exact goesOn_call (fun _ => goesOn_goOn rfl) fun _ _ => goesOn_finish _
  | findEgg dto gen node =>
    refine goesOn_read fun _ => goesOn_found fun egg hegg =>
      goesOn_goOn ⟨egg, Table.findOne_mem hegg, ?_, rfl⟩
    simpa using Table.findOne_sat hegg
  | findAllocation dto gen node egg =>
    refine goesOn_read fun _ => goesOn_found fun a ha => goesOn_throwIf fun hnode =>
      goesOn_throwIf fun hfree => goesOn_goOn ⟨a, Table.findOne_mem ha, ?_, ?_, ?_, rfl⟩
    · simpa using Table.findOne_sat ha
    · simpa using hnode
    · simpa using hfree
  | findUser dto gen node egg =>
    refine goesOn_read fun _ => goesOn_found fun user huser =>
      goesOn_goOn ⟨user, Table.findOne_mem huser, ?_, rfl⟩
    simpa using Table.findOne_sat huser
  | sumCapacity dto gen node egg =>
    refine goesOn_read fun _ => goesOn_throwIf fun hmemory => goesOn_throwIf fun hdisk =>
      goesOn_goOn ⟨hmemory, hdisk, rfl⟩
  | findVariables dto gen egg =>
    exact goesOn_read fun _ => goesOn_throwIf fun _ => goesOn_found fun startup _ =>
      goesOn_goOn ⟨startup, _, _, rfl⟩
  | insert server => exact goesOn_execute fun _ _ _ => goesOn_goOn rfl
  | load id =>
    intro t ht
    simp only [turn] at ht
    split at ht
    next => cases ht
    next => cases ht
    next server hserver =>
      obtain ⟨hmem, hid⟩ := findById_ok hserver
      split at ht
      next allocation egg hallocation hegg =>
        cases ht
        left
        refine ⟨server, hmem, hid, allocation, Table.findOne_mem hallocation, ?_, _, _, rfl⟩
        have hserver := Table.findOne_sat hallocation
        rw [beq_iff_eq] at hserver
        rw [← hid]
        exact hserver
      next => cases ht; exact .inr ⟨_, rfl⟩
      next => cases ht; exact .inr ⟨_, rfl⟩
  | wings server config script image =>
    exact goesOn_call (fun _ => goesOn_finish _) fun m _ => goesOn_goOn ⟨m, rfl⟩
  | markFailed id message => exact goesOn_execute fun _ _ _ => goesOn_finish _

/-- The tasks a turn of `update` can go on with, and what it has seen. -/
def UpdateTask.Follows (p : ServersState) : UpdateTask → UpdateTask → Prop
  | .check uuid user dto, t =>
    ∃ server ∈ p.db.servers, server.uuid = uuid ∧
      (user.rootAdmin = true ∨ server.userId = user.id) ∧ t = .load uuid dto
  | .load uuid dto, t =>
    ∃ server ∈ p.db.servers, server.uuid = uuid ∧
      t = .save (assign dto server) (p.allocationOf server)
  | .save _ _, _ => False

theorem UpdateTask.goesOn (task : UpdateTask) :
    GoesOn (task.Follows p) (task.turn p reply) := by
  cases task with
  | check uuid user dto =>
    refine goesOn_read fun _ => goesOn_returned fun server hserver =>
      goesOn_returned fun _ haccess => goesOn_goOn ?_
    obtain ⟨hmem, huuid⟩ := findByUuid_ok hserver
    exact ⟨server, hmem, huuid, checkAccess_ok.mp haccess, rfl⟩
  | load uuid dto =>
    refine goesOn_read fun _ => goesOn_returned fun server hserver => goesOn_goOn ?_
    obtain ⟨hmem, huuid⟩ := findByUuid_ok hserver
    exact ⟨server, hmem, huuid, rfl⟩
  | save server allocation => exact goesOn_execute fun _ _ _ => goesOn_finish _

/-- The tasks a turn of `reinstall` can go on with, and what it has seen. -/
def ReinstallTask.Follows (p : ServersState) : ReinstallTask → ReinstallTask → Prop
  | .find uuid, t => ∃ server ∈ p.db.servers, server.uuid = uuid ∧ t = .load server.id
  | .load id, t =>
    ∃ server ∈ p.db.servers, server.id = id ∧
      t = .mark server (p.allocationOf server) (p.eggOf server)
  | .mark server allocation _, t =>
    ∃ a, allocation = some a ∧ ∃ script image, t = .wings server (wingsConfig server a) script image
  | .wings server _ _ _, t => t = .reload server.id
  | .reload _, _ => False

theorem ReinstallTask.goesOn (task : ReinstallTask) :
    GoesOn (task.Follows p) (task.turn p reply) := by
  cases task with
  | find uuid =>
    refine goesOn_read fun _ => goesOn_returned fun server hserver => goesOn_goOn ?_
    obtain ⟨hmem, huuid⟩ := findByUuid_ok hserver
    exact ⟨server, hmem, huuid, rfl⟩
  | load id =>
    refine goesOn_read fun _ => goesOn_returned fun server hserver => goesOn_goOn ?_
    obtain ⟨hmem, hid⟩ := findById_ok hserver
    exact ⟨server, hmem, hid, rfl⟩
  | mark server allocation egg =>
    refine goesOn_execute fun _ db _ => ?_
    split
    next a egg => exact goesOn_goOn ⟨a, rfl, _, _, rfl⟩
    next => exact goesOn_finish _
    next => exact goesOn_finish _
  | wings server config script image =>
    exact goesOn_call (fun _ => goesOn_goOn rfl) fun _ _ => goesOn_finish _
  | reload id => exact goesOn_read fun _ => goesOn_returned fun _ _ => goesOn_finish _

end ServersService

/-! ## What is inserted and saved -/

namespace Task

/-- The row an update is about to write back. -/
def saves : Task → Option Server
  | .update (.save server _) => some server
  | _ => none

theorem eq_insert {task : Task} {server : Server}
    (h : task.statement = some (.createServer server)) : task = .create (.insert server) := by
  unfold Task.statement at h
  split at h <;> cases h
  rfl

theorem eq_save {task : Task} {server : Server} {allocation : Option String}
    (h : task.statement = some (.saveServer server allocation)) :
    ∃ a, a.map Allocation.id = allocation ∧ task = .update (.save server a) := by
  unfold Task.statement at h
  split at h <;> cases h
  exact ⟨_, rfl, rfl⟩

/-- The statement of an update saves the row it has loaded. -/
theorem saves_of_statement {task : Task} {server : Server} {allocation : Option String}
    (h : task.statement = some (.saveServer server allocation)) : task.saves = some server := by
  obtain ⟨a, -, rfl⟩ := eq_save h
  rfl

theorem saves_of_starts {task : Task} (h : task.starts = true) : task.saves = none := by
  unfold Task.starts at h
  split at h
  all_goals first | rfl | cases h

/-- A save stands behind a load only. -/
theorem saves_loaded {js : Js} {task t : Task} {server : Server}
    (hnext : (task.turn js p reply).next = some t) (hsaves : t.saves = some server) :
    ∃ row ∈ p.db.servers, ∃ dto, server = ServersService.assign dto row := by
  cases task with
  | update task =>
    obtain ⟨x, hx, rfl⟩ := Option.map_eq_some_iff.mp hnext
    have hfollows := task.goesOn x hx
    cases task with
    | check uuid user dto =>
      obtain ⟨row, -, -, -, rfl⟩ := hfollows
      cases hsaves
    | load uuid dto =>
      obtain ⟨row, hrow, -, rfl⟩ := hfollows
      cases hsaves
      exact ⟨row, hrow, dto, rfl⟩
    | save server => cases hfollows
  | create task | delete task | power task | suspend task | unsuspend task | reinstall task
  | callback task | event task | gateway task | allocation task =>
    obtain ⟨x, -, rfl⟩ := Option.map_eq_some_iff.mp hnext
    cases hsaves

end Task

/-! ## Answers -/

/-- A server that a turn answers with satisfies `P`. -/
def Answers {τ : Type} (P : Server → Prop) (u : ServersTurn τ) : Prop :=
  ∀ server, u.output.answer = some (.ok (.server server)) → P server

section Rules

variable {τ α : Type} {P : Server → Prop}

theorem answers_goOn (task : τ) : Answers P (goOn p task) := fun _ h => nomatch h

theorem answers_error (e : HttpException) : Answers P (finish p (.error e) : ServersTurn τ) :=
  fun _ h => nomatch h

theorem answers_server {server : Server} (h : P server) :
    Answers P (finish p (.ok (.server server)) : ServersTurn τ) := by
  intro s hs
  cases hs
  exact h

theorem answers_read {k : ServersTurn τ} (h : reply = .ok → Answers P k) :
    Answers P (read p reply k) := read_ind answers_error h

theorem answers_found {row : Option α} {e : HttpException} {k : α → ServersTurn τ}
    (h : ∀ a, Answers P (k a)) : Answers P (found p row e k) :=
  found_ind answers_error fun a _ => h a

theorem answers_returned {result : Except HttpException α} {k : α → ServersTurn τ}
    (h : ∀ a, result = .ok a → Answers P (k a)) : Answers P (returned p result k) :=
  returned_ind answers_error h

theorem answers_throwIf {bad : Bool} {e : HttpException} {k : ServersTurn τ}
    (h : Answers P k) : Answers P (throwIf p bad e k) := throwIf_ind answers_error fun _ => h

theorem answers_execute {st : Statement} {k : ServersState → ServersTurn τ}
    (h : reply = .ok → ∀ db, p.db.exec st = some db → Answers P (k { p with db })) :
    Answers P (execute p reply st k) := by
  cases reply with
  | failed message => exact answers_error _
  | ok =>
    cases hexec : p.db.exec st with
    | none =>
      simp only [execute, hexec]
      exact answers_error _
    | some db =>
      simp only [execute, hexec]
      exact h rfl db hexec

theorem answers_call {c : WingsCall} {onOk : ServersTurn τ} {onError : String → ServersTurn τ}
    (hok : reply = .ok → Answers P onOk) (herror : ∀ m, Answers P (onError m)) :
    Answers P (call reply c onOk onError) := by
  cases reply with
  | ok => exact hok rfl
  | failed message => exact herror message

end Rules

namespace ServersService

/-- `create` answers with the server it was about to send to Wings. -/
theorem CreateTask.answers (js : Js) (task : CreateTask) :
    Answers (fun server => reply = .ok ∧
      ∃ config script image, task = .wings server config script image)
      (task.turn js p reply) := by
  cases task with
  | findNode dto gen =>
    exact answers_read fun _ => answers_found fun _ => answers_throwIf (answers_goOn _)
  | checkAvailability dto gen node =>
    exact answers_call (fun _ => answers_goOn _) fun _ => answers_error _
  | findEgg dto gen node => exact answers_read fun _ => answers_found fun _ => answers_goOn _
  | findAllocation dto gen node egg =>
    exact answers_read fun _ => answers_found fun _ =>
      answers_throwIf (answers_throwIf (answers_goOn _))
  | findUser dto gen node egg =>
    exact answers_read fun _ => answers_found fun _ => answers_goOn _
  | sumCapacity dto gen node egg =>
    exact answers_read fun _ => answers_throwIf (answers_throwIf (answers_goOn _))
  | findVariables dto gen egg =>
    exact answers_read fun _ => answers_throwIf (answers_found fun _ => answers_goOn _)
  | insert server => exact answers_execute fun _ _ _ => answers_goOn _
  | load id =>
    simp only [turn]
    split
    · exact answers_error _
    · exact answers_error _
    · split
      · exact answers_goOn _
      · exact answers_goOn _
      · exact answers_goOn _
  | wings server config script image =>
    exact answers_call (fun hok => answers_server ⟨hok, config, script, image, rfl⟩)
      fun _ => answers_goOn _
  | markFailed id message => exact answers_execute fun _ _ _ => answers_error _

/-- `update` answers with the row it has saved. -/
theorem UpdateTask.answers (task : UpdateTask) :
    Answers (fun server => reply = .ok ∧ ∃ allocation, task = .save server allocation)
      (task.turn p reply) := by
  cases task with
  | check uuid user dto =>
    exact answers_read fun _ => answers_returned fun _ _ => answers_returned fun _ _ =>
      answers_goOn _
  | load uuid dto => exact answers_read fun _ => answers_returned fun _ _ => answers_goOn _
  | save server allocation =>
    exact answers_execute fun hok _ _ => answers_server ⟨hok, allocation, rfl⟩

/-- `reinstall` answers with the row it loads in the end. -/
theorem ReinstallTask.answers (task : ReinstallTask) :
    Answers (fun server => reply = .ok ∧ server ∈ p.db.servers ∧ task = .reload server.id)
      (task.turn p reply) := by
  cases task with
  | find uuid => exact answers_read fun _ => answers_returned fun _ _ => answers_goOn _
  | load id => exact answers_read fun _ => answers_returned fun _ _ => answers_goOn _
  | mark server allocation egg =>
    refine answers_execute fun _ db _ => ?_
    split
    · exact answers_goOn _
    · exact answers_error _
    · exact answers_error _
  | wings server config script image =>
    exact answers_call (fun _ => answers_goOn _) fun _ => answers_error _
  | reload id =>
    refine answers_read fun hok => answers_returned fun server hserver => answers_server ?_
    obtain ⟨hmem, hid⟩ := findById_ok hserver
    exact ⟨hok, hmem, by rw [hid]⟩

end ServersService

end Panel
