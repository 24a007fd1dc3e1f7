import NexusPanel.Joint.System
import NexusPanel.Panel.ServersFlow
import NexusPanel.Wings.InstallReport

/-!
# The status INSTALLING

`create` inserts a server as INSTALLING and leaves the status to others: to itself, when Wings
refuses, and else to the callback of the install that Wings has spawned. So a server that is
INSTALLING is well as long as somebody is on the way who will set its status (`Outstanding`):
an operation of the panel, an install run that has not begun, or a callback that has not
arrived. The invariant says so of every row, and each step either leaves the one on the way
alone, or hands over to the next, or sets the status.

The chain can break in several places. Wings spawns no install when the egg has no script, a
run that cannot start its container says nothing, and a restart forgets what was spawned.
-/

namespace Joint

open Panel Wings Transition

/-! ## Stranded servers -/

/-- No request, install run or callback is outstanding. -/
structure Quiescent (s : State) : Prop where
  tasks : s.panel.tasks = []
  installs : ∀ node c script image, Spawned.install c script image ∉ (s.wings node).spawned
  posts : ∀ node, (s.wings node).posts = []

/-- If nothing is outstanding, no server is INSTALLING. -/
def NoneStranded (s : State) : Prop :=
  Quiescent s → ∀ row ∈ s.panel.store.db.servers, row.status ≠ some .installing

/-! ## Assumption and condition -/

/-- The servers a panel knows of: its rows, and those that updates are about to save. -/
def Known (p : ServersPool) (x : Server) : Prop :=
  x ∈ p.store.db.servers ∨ ∃ t ∈ p.tasks, t.saves = some x

/-- The id and the uuid of a server that is inserted are new. -/
def DrawsNewServers (s : State) : Label → Prop
  | .panel (.turn i _) _ => ∀ server, s.panel.tasks[i]? = some (.create (.insert server)) →
      ∀ x, Known s.panel x → x.id ≠ server.id ∧ x.uuid ≠ server.uuid
  | _ => True

/-- A server that is created comes with an install script and an image for it; the statements
behind its insert and those of a callback do not fail; no update saves a server as INSTALLING
that no longer is; an install run gets its answers from Docker; and a restart of Wings finds
no install waiting. -/
def InstallsReport (s : State) : Label → Prop
  | .panel (.turn i reply) _ =>
    match s.panel.tasks[i]? with
    | some (.create (.wings _ _ script image)) => reply = .ok → script ≠ "" ∧ image ≠ ""
    | some (.create (.load _)) | some (.create (.markFailed _ _)) | some (.callback (.load _ _))
    | some (.callback (.write _ _)) => reply = .ok
    | some (.update (.save server _)) => reply = .ok → server.status = some .installing →
      ∃ row ∈ s.panel.store.db.servers, row.id = server.id ∧ row.status = some .installing
    | _ => True
  | .task node index => ∀ c script image,
    (s.wings node).spawned[index]? = some (.install c script image) → Answered (s.wings node)
  | .restart node _ => ∀ c script image, Spawned.install c script image ∉ (s.wings node).spawned
  | _ => True

/-! ## Ids and uuids -/

/-- Two known servers have the same id exactly when they have the same uuid. -/
def Identified (p : ServersPool) : Prop :=
  ∀ x y, Known p x → Known p y → (x.id = y.id ↔ x.uuid = y.uuid)

section Identity

variable {js : Js} {db db' : Database} {p p' : ServersPool} {l : ServersLabel} {x : Server}

/-- After a statement every row has the id and the uuid of one that was there, or of the one
that was saved or inserted. -/
theorem ids_exec {st : Statement} (hexec : db.exec st = some db') (hx : x ∈ db'.servers) :
    (∃ row ∈ db.servers, row.id = x.id ∧ row.uuid = x.uuid) ∨
      (∃ allocation, st = .saveServer x allocation) ∨ st = .createServer x := by
  cases st with
  | createServer server =>
    rcases (mem_servers_createServer hexec).2.mp hx with rfl | hx
    · exact .inr (.inr rfl)
    · exact .inl ⟨x, hx, rfl, rfl⟩
  | saveServer server allocation =>
    rcases (mem_servers_saveServer hexec).mp hx with rfl | ⟨hx, -⟩
    · exact .inr (.inl ⟨allocation, rfl⟩)
    · exact .inl ⟨x, hx, rfl, rfl⟩
  | updateServer id columns =>
    obtain ⟨row, hrow, rfl⟩ := (mem_servers_updateServer hexec).mp hx
    refine .inl ⟨row, hrow, ?_⟩
    split <;> exact ⟨rfl, rfl⟩
  | updateServerByUuid uuid columns =>
    obtain ⟨row, hrow, rfl⟩ := (mem_servers_updateServerByUuid hexec).mp hx
    refine .inl ⟨row, hrow, ?_⟩
    split <;> exact ⟨rfl, rfl⟩
  | removeServer id => exact .inl ⟨x, ((mem_servers_removeServer hexec).mp hx).1, rfl, rfl⟩
  | freeAllocation id => exact .inl ⟨x, servers_freeAllocation hexec ▸ hx, rfl, rfl⟩
  | removeAllocation id => exact .inl ⟨x, servers_removeAllocation hexec ▸ hx, rfl, rfl⟩
  | removeUnassigned id => exact .inl ⟨x, servers_removeUnassigned hexec ▸ hx, rfl, rfl⟩

/-- A server that is known after a step was known before, or is new. -/
theorem known_step (hstep : serversStep js p l = some p') (hx : Known p' x) :
    (∃ y, Known p y ∧ y.id = x.id ∧ y.uuid = x.uuid) ∨ issued p l = some (.createServer x) := by
  rcases hx with hx | ⟨t, ht, hsaves⟩
  · cases serversStep_changes hstep with
    | executed st hst hexec =>
      rcases ids_exec hexec hx with ⟨row, hrow, hids⟩ | ⟨allocation, rfl⟩ | rfl
      · exact .inl ⟨row, .inl hrow, hids⟩
      · obtain ⟨i, task, -, htask, hst⟩ := issued_eq_some hst
        exact .inl ⟨x, .inr ⟨task, List.mem_of_getElem? htask, Task.saves_of_statement hst⟩, rfl, rfl⟩
      · exact .inr hst
    | quiet _ hservers => exact .inl ⟨x, .inl (hservers ▸ hx), rfl, rfl⟩
    | provisioned _ _ _ _ hservers => exact .inl ⟨x, .inl (hservers ▸ hx), rfl, rfl⟩
  · left
    cases l with
    | start task =>
      obtain ⟨hstarts, rfl⟩ := Tasks.step_start hstep
      rcases List.mem_cons.mp ht with rfl | ht
      · rw [Task.saves_of_starts hstarts] at hsaves
        cases hsaves
      · exact ⟨x, .inr ⟨t, ht, hsaves⟩, rfl, rfl⟩
    | turn i reply =>
      obtain ⟨task, htask, rfl⟩ := Tasks.step_turn hstep
      rcases List.mem_append.mp ht with ht | ht
      · obtain ⟨row, hrow, dto, rfl⟩ := Task.saves_loaded (Option.mem_toList.mp ht) hsaves
        exact ⟨row, .inl hrow, rfl, rfl⟩
      · exact ⟨x, .inr ⟨t, List.mem_of_mem_eraseIdx ht, hsaves⟩, rfl, rfl⟩
    | outside event =>
      obtain ⟨store, -, rfl⟩ := Tasks.step_outside hstep
      exact ⟨x, .inr ⟨t, ht, hsaves⟩, rfl, rfl⟩

theorem Identified.step (hp : Identified p) (hstep : serversStep js p l = some p')
    (hnew : ∀ server, issued p l = some (.createServer server) →
      ∀ y, Known p y → y.id ≠ server.id ∧ y.uuid ≠ server.uuid) : Identified p' := by
  intro x y hx hy
  rcases known_step hstep hx with ⟨x₀, hx₀, hid, huuid⟩ | hissued
  · rcases known_step hstep hy with ⟨y₀, hy₀, hid', huuid'⟩ | hissued
    · rw [← hid, ← huuid, ← hid', ← huuid']
      exact hp x₀ y₀ hx₀ hy₀
    · obtain ⟨hne, hne'⟩ := hnew y hissued x₀ hx₀
      rw [← hid, ← huuid]
      exact iff_of_false hne hne'
  · rcases known_step hstep hy with ⟨y₀, hy₀, hid', huuid'⟩ | hissued'
    · obtain ⟨hne, hne'⟩ := hnew x hissued y₀ hy₀
      rw [← hid', ← huuid']
      exact iff_of_false hne.symm hne'.symm
    · cases hissued.symm.trans hissued'
      exact iff_of_true rfl rfl

end Identity

/-! ## Where the status comes from -/

section Status

variable {js : Js} {db db' : Database} {p p' : ServersPool} {l : ServersLabel} {x : Server}

/-- The statement sets the status INSTALLING. -/
def SetsInstalling : Statement → Prop
  | .updateServer _ columns | .updateServerByUuid _ columns =>
    columns.status = some (some .installing)
  | _ => False

theorem installOutcome_status (succeeded : Bool) :
    ∃ status, (ServersService.installOutcome succeeded).status = some status ∧
      status ≠ some .installing := by
  cases succeeded with
  | false => exact ⟨_, rfl, by simp⟩
  | true => exact ⟨_, rfl, by simp⟩

theorem installOutcome_not_installing (succeeded : Bool) :
    (ServersService.installOutcome succeeded).status ≠ some (some .installing) := by
  obtain ⟨status, hstatus, hne⟩ := installOutcome_status succeeded
  rw [hstatus]
  exact fun h => hne (Option.some.inj h)

/-- No operation issues such a statement. -/
theorem not_setsInstalling {task : Task} {st : Statement} (h : task.statement = some st) :
    ¬SetsInstalling st := by
  unfold Task.statement at h
  split at h <;> cases h
  all_goals first
    | exact installOutcome_not_installing _
    | exact fun h => nomatch h

/-- A row that is INSTALLING after statement of columns was so before. -/
theorem status_columns {q : Server → Bool} {columns : Lifecycle}
    (hservers : ∃ row ∈ db.servers, (if q row then columns.set row else row) = x)
    (hset : columns.status ≠ some (some .installing)) (hx : x.status = some .installing) :
    ∃ row ∈ db.servers, row.id = x.id ∧ row.uuid = x.uuid ∧ row.status = some .installing := by
  obtain ⟨row, hrow, rfl⟩ := hservers
  split at hx
  next hq =>
    rw [if_pos hq]
    refine ⟨row, hrow, rfl, rfl, ?_⟩
    simp only [Lifecycle.set] at hx
    cases hstatus : columns.status with
    | none =>
      rw [hstatus] at hx
      exact hx
    | some status =>
      rw [hstatus] at hx hset
      exact absurd (congrArg some hx) hset
  next hq =>
    rw [if_neg hq]
    exact ⟨row, hrow, rfl, rfl, hx⟩

theorem status_exec {st : Statement} (hexec : db.exec st = some db') (hset : ¬SetsInstalling st)
    (hsave : ∀ server allocation, st = .saveServer server allocation →
      server.status = some .installing → ∃ row ∈ db.servers, row.id = server.id ∧ row.uuid = server.uuid ∧
        row.status = some .installing)
    (hx : x ∈ db'.servers) (hstatus : x.status = some .installing) :
    (∃ row ∈ db.servers, row.id = x.id ∧ row.uuid = x.uuid ∧ row.status = some .installing) ∨
      st = .createServer x := by
  cases st with
  | createServer server =>
    rcases (mem_servers_createServer hexec).2.mp hx with rfl | hx
    · exact .inr rfl
    · exact .inl ⟨x, hx, rfl, rfl, hstatus⟩
  | saveServer server allocation =>
    rcases (mem_servers_saveServer hexec).mp hx with rfl | ⟨hx, -⟩
    · exact .inl (hsave x allocation rfl hstatus)
    · exact .inl ⟨x, hx, rfl, rfl, hstatus⟩
  | updateServer id columns =>
    exact .inl (status_columns ((mem_servers_updateServer hexec).mp hx) hset hstatus)
  | updateServerByUuid uuid columns =>
    exact .inl (status_columns ((mem_servers_updateServerByUuid hexec).mp hx) hset hstatus)
  | removeServer id => exact .inl ⟨x, ((mem_servers_removeServer hexec).mp hx).1, rfl, rfl, hstatus⟩
  | freeAllocation id => exact .inl ⟨x, servers_freeAllocation hexec ▸ hx, rfl, rfl, hstatus⟩
  | removeAllocation id => exact .inl ⟨x, servers_removeAllocation hexec ▸ hx, rfl, rfl, hstatus⟩
  | removeUnassigned id => exact .inl ⟨x, servers_removeUnassigned hexec ▸ hx, rfl, rfl, hstatus⟩

/-- A server that is INSTALLING after a step of the panel was so before, or is new. -/
theorem status_step (hp : Identified p) (hstep : serversStep js p l = some p')
    (hsave : ∀ server allocation, issued p l = some (.saveServer server allocation) →
      server.status = some .installing →
        ∃ row ∈ p.store.db.servers, row.id = server.id ∧ row.status = some .installing)
    (hx : x ∈ p'.store.db.servers) (hstatus : x.status = some .installing) :
    (∃ row ∈ p.store.db.servers, row.id = x.id ∧ row.uuid = x.uuid ∧
      row.status = some .installing) ∨ issued p l = some (.createServer x) := by
  cases serversStep_changes hstep with
  | executed st hst hexec =>
    obtain ⟨i, task, -, htask, htaskst⟩ := issued_eq_some hst
    rw [hst]
    refine (status_exec hexec (not_setsInstalling htaskst) ?_ hx hstatus).imp_right (congrArg some)
    rintro server allocation rfl hinstalling
    obtain ⟨row, hrow, hid, hrowstatus⟩ := hsave server allocation hst hinstalling
    have hsaved : Known p server :=
      .inr ⟨task, List.mem_of_getElem? htask, Task.saves_of_statement htaskst⟩
    exact ⟨row, hrow, hid, (hp row server (.inl hrow) hsaved).mp hid, hrowstatus⟩
  | quiet _ hservers => exact .inl ⟨x, hservers ▸ hx, rfl, rfl, hstatus⟩
  | provisioned _ _ _ _ hservers => exact .inl ⟨x, hservers ▸ hx, rfl, rfl, hstatus⟩

end Status

/-! ## Who is on the way -/

/-- An operation that will set the status of the server. -/
def Settles (id uuid : String) : Task → Prop
  | .create (.load id') | .create (.markFailed id' _) => id' = id
  | .create (.wings server config _ _) => server.id = id ∧ config.uuid = uuid
  | .callback (.receive uuid' status) => uuid' = uuid ∧ (status = "success" ∨ status = "failed")
  | .callback (.load uuid' _) => uuid' = uuid
  | .callback (.write server _) => server.id = id
  | _ => False

/-- An operation, an install run or a callback that will set the status of the server. -/
inductive Outstanding (s : State) (id uuid : String) : Prop
  | operation (t : Task) (ht : t ∈ s.panel.tasks) (h : Settles id uuid t)
  | install (node : String) (c : Wings.ServerConfig) (script image : String)
    (h : .install c script image ∈ (s.wings node).spawned) (huuid : c.uuid = uuid)
  | callback (node : String) (post : Callback) (h : post ∈ (s.wings node).posts)
    (hurl : post.url = Installer.callbackUrl (s.wings node).config.panelUrl uuid)
    (hstatus : post.status = "success" ∨ post.status = "failed")

structure Awaited (s : State) : Prop where
  identified : Identified s.panel
  outstanding : ∀ row ∈ s.panel.store.db.servers, row.status = some .installing →
    Outstanding s row.id row.uuid

theorem Awaited.noneStranded {s : State} (h : Awaited s) : NoneStranded s := by
  intro hquiet row hrow hstatus
  cases h.outstanding row hrow hstatus with
  | operation t ht _ =>
    rw [hquiet.tasks] at ht
    cases ht
  | install node c script image hspawned _ => exact hquiet.installs node c script image hspawned
  | callback node post hpost _ _ =>
    rw [hquiet.posts node] at hpost
    cases hpost

/-! ## A turn of the panel -/

section Turn

variable {serde : Serde} {js : Js} {s s' : State} {i : Nat} {reply : Settled} {reached : Bool}
  {task t : Task} {id uuid : String}

/-- What a task goes on with is in flight after its turn. -/
theorem operation_of_next (hstep : serversStep js s.panel (.turn i reply) = some s'.panel)
    (htask : s.panel.tasks[i]? = some task)
    (hnext : (task.turn js s.panel.store reply).next = some t) (ht : Settles id uuid t) :
    Outstanding s' id uuid := by
  obtain ⟨task', htask', hp⟩ := Tasks.step_turn hstep
  cases htask.symm.trans htask'
  refine .operation t ?_ ht
  rw [hp]
  have hmem : (serversSystem js).turn s.panel.store reply task = task.turn js s.panel.store reply := rfl
  rw [hmem, hnext]
  exact List.mem_cons_self

/-- A statement that sets the status of a server sets it. -/
theorem status_of_updateServer {columns : Lifecycle} {x : Server} {status : Option ServerStatus}
    (hstep : serversStep js s.panel (.turn i .ok) = some s'.panel)
    (htask : s.panel.tasks[i]? = some task)
    (hst : task.statement = some (.updateServer id columns)) (hset : columns.status = some status)
    (hx : x ∈ s'.panel.store.db.servers) (hid : x.id = id) : x.status = status := by
  obtain ⟨task', htask', hdb, -⟩ := serversStep_turn hstep
  cases htask.symm.trans htask'
  obtain ⟨db, hexec⟩ := exec_updateServer s.panel.store.db id columns
  simp only [Database.issue, hst, hexec, Option.getD_some] at hdb
  rw [hdb] at hx
  obtain ⟨row, -, rfl⟩ := (mem_servers_updateServer hexec).mp hx
  split at hid
  next hrow =>
    rw [if_pos hrow]
    simp only [Lifecycle.set, hset, Option.getD_some]
  next hrow => exact absurd (beq_iff_eq.mpr hid) hrow

/-- A load of `create` that finds its server goes on. -/
theorem create_load {p : ServersState} {row : Server} (hrow : row ∈ p.db.servers) :
    ∃ t, (Task.turn js p .ok (.create (.load row.id))).next = some t ∧ Settles row.id row.uuid t := by
  simp only [Task.turn, ServersService.CreateTask.turn, ServersService.findById_of_mem hrow]
  split
  next a egg _ _ => exact ⟨_, rfl, rfl, rfl⟩
  next => exact ⟨_, rfl, rfl⟩
  next => exact ⟨_, rfl, rfl⟩

/-- A load of the callback that finds its server goes on. -/
theorem callback_load {p : ServersState} {row : Server} {status : String}
    (hrow : row ∈ p.db.servers) :
    ∃ server, server ∈ p.db.servers ∧ server.uuid = row.uuid ∧
      (Task.turn js p .ok (.callback (.load row.uuid status))).next =
        some (.callback (.write server status)) := by
  obtain ⟨server, hserver⟩ := ServersService.findByUuid_of_mem hrow
  obtain ⟨hmem, huuid⟩ := ServersService.findByUuid_ok hserver
  refine ⟨server, hmem, huuid, ?_⟩
  simp only [Task.turn, ServersService.CallbackTask.turn, ServersTurn.read, hserver]
  rfl

/-- A call of `create` that succeeds spawns an install, if it brings one along. -/
theorem spawned_create {server : Server} {config : WingsServerConfig} {script image : String}
    (htask : s.panel.tasks[i]? = some (.create (.wings server config script image)))
    (hinstall : script ≠ "" ∧ image ≠ "")
    (hstep : step serde js s (.panel (.turn i .ok) reached) = some s') :
    ∃ c, .install c script image ∈ (s'.wings server.nodeId).spawned ∧ c.uuid = config.uuid := by
  obtain ⟨-, ⟨hnone, -⟩ | ⟨j, reply, task, call, hl, htask', hcall, hexchange⟩⟩ := step_panel hstep
  · cases hnone i .ok _ rfl htask
  · cases hl
    cases htask.symm.trans htask'
    cases hcall
    obtain ⟨⟨response, hresponse⟩, hwings⟩ := exchange_ok hexchange
    simp only [request, nodeOf] at hresponse hwings
    have hspawned := (createServer_ok hresponse).2 hinstall
    rw [hwings, Function.update_self]
    exact ⟨_, hspawned, rfl⟩

/-- The operation hands over, or it sets the status. -/
theorem outstanding_turn (hs : Identified s.panel)
    (hreports : InstallsReport s (.panel (.turn i reply) reached))
    (hstep : step serde js s (.panel (.turn i reply) reached) = some s')
    (htask : s.panel.tasks[i]? = some task) {row x : Server}
    (hrow : row ∈ s.panel.store.db.servers) (ht : Settles row.id row.uuid task)
    (hx : x ∈ s'.panel.store.db.servers) (hid : x.id = row.id)
    (hstatus : x.status = some .installing) : Outstanding s' row.id row.uuid := by
  have hpanel := (step_panel hstep).1
  simp only [InstallsReport, htask] at hreports
  unfold Settles at ht
  split at ht
  next id' =>
    subst ht hreports
    obtain ⟨t, hnext, ht⟩ := create_load  hrow
    exact operation_of_next hpanel htask hnext ht
  next id' message =>
    subst ht hreports
    have hset := status_of_updateServer hpanel htask rfl rfl hx hid
    rw [hset] at hstatus
    cases hstatus
  next server config script image =>
    obtain ⟨hserver, huuid⟩ := ht
    cases reply with
    | ok =>
      obtain ⟨c, hspawned, hc⟩ := spawned_create htask (hreports rfl) hstep
      exact .install server.nodeId c script image hspawned (hc.trans huuid)
    | failed message =>
      exact operation_of_next hpanel htask (t := .create (.markFailed server.id message)) rfl hserver
  next uuid' status =>
    obtain ⟨rfl, hvalid⟩ := ht
    refine operation_of_next hpanel htask (t := .callback (.load row.uuid status)) ?_ rfl
    rcases hvalid with rfl | rfl <;> rfl
  next uuid' status =>
    subst ht hreports
    obtain ⟨server, hmem, huuid, hnext⟩ := callback_load  hrow
    exact operation_of_next hpanel htask hnext ((hs server row (.inl hmem) (.inl hrow)).mpr huuid)
  next server status =>
    subst hreports
    obtain ⟨outcome, houtcome, hne⟩ := installOutcome_status (status = "success")
    have hset := status_of_updateServer hpanel htask rfl houtcome hx (hid.trans ht.symm)
    exact absurd (hset.symm.trans hstatus) hne
  next => cases ht

end Turn

/-! ## One step -/

section Steps

variable {serde : Serde} {js : Js} {s s' : State} {l : ServersLabel} {reached : Bool}
  {id uuid : String}

/-- What is taken from a list at a position was at that position, or is still there. -/
theorem mem_eraseIdx_or {α : Type} {a : α} {as : List α} (i : Nat) (h : a ∈ as) :
    as[i]? = some a ∨ a ∈ as.eraseIdx i := by
  by_cases hi : i < as.length
  · have hperm := List.getElem_cons_eraseIdx_perm hi
    rcases List.mem_cons.mp (hperm.mem_iff.mpr h) with rfl | hrest
    · exact .inl (List.getElem?_eq_getElem hi)
    · exact .inr hrest
  · rw [List.eraseIdx_of_length_le (not_lt.mp hi)]
    exact .inr h

/-- A step of the panel takes nothing away from the daemons. -/
theorem wings_panel (hstep : step serde js s (.panel l reached) = some s') (node : String) :
    (s'.wings node).config = (s.wings node).config ∧
      (s.wings node).spawned ⊆ (s'.wings node).spawned ∧
      (s.wings node).posts ⊆ (s'.wings node).posts := by
  obtain ⟨-, ⟨-, hwings⟩ | ⟨i, reply, task, call, -, -, -, hexchange⟩⟩ := step_panel hstep
  · rw [hwings]
    exact ⟨rfl, List.Subset.refl _, List.Subset.refl _⟩
  rcases exchange_cases hexchange with hwings | hwings
  · rw [hwings]
    exact ⟨rfl, List.Subset.refl _, List.Subset.refl _⟩
  have hafter := after_serve serde (request call) (s.wings (nodeOf call))
  rw [hwings]
  by_cases hnode : node = nodeOf call
  · subst hnode
    rw [Function.update_self]
    exact ⟨hafter.config_eq, hafter.subset⟩
  · rw [Function.update_of_ne hnode]
    exact ⟨rfl, List.Subset.refl _, List.Subset.refl _⟩

/-- A server that was INSTALLING and still is has somebody on the way after a step of the
panel. -/
theorem Outstanding.panel (hs : Identified s.panel) (hreports : InstallsReport s (.panel l reached))
    (hstep : step serde js s (.panel l reached) = some s') {row x : Server}
    (hrow : row ∈ s.panel.store.db.servers) (h : Outstanding s row.id row.uuid)
    (hx : x ∈ s'.panel.store.db.servers) (hid : x.id = row.id)
    (hstatus : x.status = some .installing) : Outstanding s' row.id row.uuid := by
  have hpanel := (step_panel hstep).1
  cases h with
  | install node c script image hspawned huuid =>
    exact .install node c script image ((wings_panel hstep node).2.1 hspawned) huuid
  | callback node post hpost hurl hvalid =>
    obtain ⟨hconfig, -, hposts⟩ := wings_panel hstep node
    exact .callback node post (hposts hpost) (by rw [hconfig]; exact hurl) hvalid
  | operation t ht hsettles =>
    cases l with
    | start task =>
      obtain ⟨-, hp⟩ := Tasks.step_start hpanel
      exact .operation t (by rw [hp]; exact List.mem_cons_of_mem _ ht) hsettles
    | outside event =>
      obtain ⟨store, -, hp⟩ := Tasks.step_outside hpanel
      exact .operation t (by rw [hp]; exact ht) hsettles
    | turn i reply =>
      rcases mem_eraseIdx_or i ht with htask | hrest
      · exact outstanding_turn hs hreports hstep htask hrow hsettles hx hid hstatus
      · obtain ⟨task, -, hp⟩ := Tasks.step_turn hpanel
        exact .operation t (by rw [hp]; exact List.mem_append_right _ hrest) hsettles

/-- An insert that went through goes on to load the server. -/
theorem create_insert {p : ServersState} {server : Server} {db : Database}
    (hexec : p.db.exec (.createServer server) = some db) :
    (Task.turn js p .ok (.create (.insert server))).next = some (.create (.load server.id)) := by
  simp only [Task.turn, ServersService.CreateTask.turn, ServersTurn.execute, hexec]
  rfl

theorem Awaited.panel (hs : Awaited s) (hnew : DrawsNewServers s (.panel l reached))
    (hreports : InstallsReport s (.panel l reached))
    (hstep : step serde js s (.panel l reached) = some s') : Awaited s' := by
  have hpanel := (step_panel hstep).1
  have hfresh : ∀ server, issued s.panel l = some (.createServer server) →
      ∀ y, Known s.panel y → y.id ≠ server.id ∧ y.uuid ≠ server.uuid := by
    intro server hissued
    obtain ⟨i, task, rfl, htask, hst⟩ := issued_eq_some hissued
    exact hnew server (Task.eq_insert hst ▸ htask)
  have hsave : ∀ server allocation, issued s.panel l = some (.saveServer server allocation) →
      server.status = some .installing →
        ∃ row ∈ s.panel.store.db.servers, row.id = server.id ∧ row.status = some .installing := by
    intro server allocation hissued
    obtain ⟨i, task, rfl, htask, hst⟩ := issued_eq_some hissued
    obtain ⟨a, -, rfl⟩ := Task.eq_save hst
    simp only [InstallsReport, htask] at hreports
    exact hreports trivial
  refine ⟨hs.identified.step hpanel hfresh, fun x hx hstatus => ?_⟩
  rcases status_step hs.identified hpanel hsave hx hstatus with
    ⟨row, hrow, hid, huuid, hrowstatus⟩ | hissued
  · rw [← hid, ← huuid]
    exact (hs.outstanding row hrow hrowstatus).panel hs.identified hreports hstep hrow hx hid.symm
      hstatus
  · obtain ⟨i, task, rfl, htask, hst⟩ := issued_eq_some hissued
    rw [Task.eq_insert hst] at htask
    cases hexec : s.panel.store.db.exec (.createServer x) with
    | some db => exact operation_of_next hpanel htask (create_insert hexec) rfl
    | none =>
      obtain ⟨task', htask', hdb, -⟩ := serversStep_turn hpanel
      cases htask.symm.trans htask'
      simp only [Database.issue, Task.statement, hexec, Option.getD_none] at hdb
      exact absurd rfl (hfresh x hissued x (.inl (hdb ▸ hx))).1

theorem callbackUrl_inj {panelUrl uuid uuid' : String}
    (h : Installer.callbackUrl panelUrl uuid = Installer.callbackUrl panelUrl uuid') :
    uuid = uuid' := by
  simp only [Installer.callbackUrl, ← String.toList_inj, String.toList_append,
    List.append_cancel_right_eq, List.append_cancel_left_eq] at h
  exact String.toList_inj.mp h

theorem Outstanding.install_at {node : String} {t : AppState} {panel : ServersPool}
    {c : Wings.ServerConfig} {script image : String}
    (h : .install c script image ∈ t.spawned) (huuid : c.uuid = uuid) :
    Outstanding ⟨panel, Function.update s.wings node t⟩ id uuid := by
  refine .install node c script image ?_ huuid
  dsimp only
  rw [Function.update_self]
  exact h

theorem Outstanding.callback_at {node : String} {t : AppState} {panel : ServersPool}
    {post : Callback} (h : post ∈ t.posts)
    (hurl : post.url = Installer.callbackUrl t.config.panelUrl uuid)
    (hvalid : post.status = "success" ∨ post.status = "failed") :
    Outstanding ⟨panel, Function.update s.wings node t⟩ id uuid := by
  refine .callback node post ?_ ?_ hvalid
  · dsimp only
    rw [Function.update_self]
    exact h
  · dsimp only
    rw [Function.update_self]
    exact hurl

/-- A step of one Wings leaves what is on the way elsewhere. -/
theorem Outstanding.update {node : String} {t : AppState} {panel : ServersPool}
    (h : Outstanding s id uuid) (htasks : s.panel.tasks ⊆ panel.tasks)
    (hinstall : ∀ c script image, .install c script image ∈ (s.wings node).spawned →
      c.uuid = uuid → Outstanding ⟨panel, Function.update s.wings node t⟩ id uuid)
    (hpost : ∀ post ∈ (s.wings node).posts,
      post.url = Installer.callbackUrl (s.wings node).config.panelUrl uuid →
        (post.status = "success" ∨ post.status = "failed") →
          Outstanding ⟨panel, Function.update s.wings node t⟩ id uuid) :
    Outstanding ⟨panel, Function.update s.wings node t⟩ id uuid := by
  have hother {n : String} (hn : n ≠ node) :
      (⟨panel, Function.update s.wings node t⟩ : State).wings n = s.wings n :=
    Function.update_of_ne hn t s.wings
  cases h with
  | operation task htask hsettles => exact .operation task (htasks htask) hsettles
  | install n c script image hspawned huuid =>
    by_cases hn : n = node
    · subst hn
      exact hinstall c script image hspawned huuid
    · exact .install n c script image (by rw [hother hn]; exact hspawned) huuid
  | callback n post hmem hurl hvalid =>
    by_cases hn : n = node
    · subst hn
      exact hpost post hmem hurl hvalid
    · exact .callback n post (by rw [hother hn]; exact hmem) (by rw [hother hn]; exact hurl) hvalid

/-- A spawned task: an install run that gets its answers posts a callback. -/
theorem Outstanding.task {node : String} {index : Nat}
    (hreports : InstallsReport s (.task node index))
    (hstep : step serde js s (.task node index) = some s') (h : Outstanding s id uuid) :
    Outstanding s' id uuid := by
  obtain ⟨wings, hwings, heq⟩ := Option.bind_eq_some_iff.mp hstep
  cases heq
  simp only [daemonStep] at hwings
  split at hwings
  next task htask =>
    cases hwings
    have hafter := after_runSpawned serde task
      { s.wings node with spawned := (s.wings node).spawned.eraseIdx index }
    refine h.update (List.Subset.refl _) (fun c script image hspawned huuid => ?_)
      fun post hpost hurl hvalid => ?_
    · rcases mem_eraseIdx_or index hspawned with hthis | hrest
      · cases htask.symm.trans hthis
        obtain ⟨status, message, hvalid, hposts⟩ := posts_of_answered c script image
          (s := { s.wings node with spawned := (s.wings node).spawned.eraseIdx index })
          (hreports c script image htask)
        rw [← runSpawned_install] at hposts
        have hpost : reportOf (s.wings node) c.uuid status message ∈ (runSpawned
            (.install c script image) { s.wings node with
              spawned := (s.wings node).spawned.eraseIdx index }).2.posts := by
          rw [hposts]
          exact List.mem_cons_self
        refine .callback_at hpost ?_ hvalid
        rw [hafter.config_eq, ← huuid]
        rfl
      · exact .install_at (hafter.subset.1 hrest) huuid
    · exact .callback_at (hafter.subset.2 hpost) (by rw [hafter.config_eq]; exact hurl) hvalid
  next => cases hwings

/-- A restart that finds no install waiting: the callbacks are on their way already. -/
theorem Outstanding.restart {node : String} {entries : List FS.Name}
    (hreports : InstallsReport s (.restart node entries))
    (hstep : step serde js s (.restart node entries) = some s') (h : Outstanding s id uuid) :
    Outstanding s' id uuid := by
  obtain ⟨wings, hwings, heq⟩ := Option.bind_eq_some_iff.mp hstep
  cases heq
  simp only [daemonStep] at hwings
  split at hwings
  next =>
    cases hwings
    refine h.update (List.Subset.refl _) (fun c script image hspawned _ => ?_)
      fun post hpost hurl hvalid => .callback_at hpost hurl hvalid
    exact absurd hspawned (hreports c script image)
  next => cases hwings

/-- A callback that arrives is an operation of the panel from then on. -/
theorem Outstanding.deliver {node uuid' : String} {index : Nat}
    (hstep : step serde js s (.deliver node uuid' index) = some s') (h : Outstanding s id uuid) :
    Outstanding s' id uuid := by
  simp only [step, Joint.deliver, Option.bind_eq_bind, Option.bind_eq_some_iff] at hstep
  obtain ⟨post, hpost, _, hguard, panel, hpanel, heq⟩ := hstep
  cases heq
  obtain ⟨-, rfl⟩ := Tasks.step_start hpanel
  have haddress := (Option.guard_eq_some' _).mp hguard
  refine h.update (fun t ht => List.mem_cons_of_mem _ ht)
    (fun c script image hspawned huuid => .install_at hspawned huuid)
    fun post' hpost' hurl hvalid => ?_
  rcases mem_eraseIdx_or index hpost' with hthis | hrest
  · cases hpost.symm.trans hthis
    refine .operation (.callback (.receive uuid' post.status)) List.mem_cons_self ⟨?_, hvalid⟩
    exact callbackUrl_inj (haddress.symm.trans hurl)
  · exact .callback_at hrest hurl hvalid

theorem Awaited.step {l : Label} (hs : Awaited s) (hnew : DrawsNewServers s l)
    (hreports : InstallsReport s l) (hstep : step serde js s l = some s') : Awaited s' := by
  cases l with
  | panel l reached => exact hs.panel hnew hreports hstep
  | task node index =>
    have hpanel : s'.panel = s.panel := by
      obtain ⟨wings, -, heq⟩ := Option.bind_eq_some_iff.mp hstep
      cases heq
      rfl
    refine ⟨hpanel ▸ hs.identified, fun row hrow hstatus => ?_⟩
    rw [hpanel] at hrow
    exact (hs.outstanding row hrow hstatus).task hreports hstep
  | restart node entries =>
    have hpanel : s'.panel = s.panel := by
      obtain ⟨wings, -, heq⟩ := Option.bind_eq_some_iff.mp hstep
      cases heq
      rfl
    refine ⟨hpanel ▸ hs.identified, fun row hrow hstatus => ?_⟩
    rw [hpanel] at hrow
    exact (hs.outstanding row hrow hstatus).restart hreports hstep
  | deliver node uuid index =>
    have hpanel : ∃ task, serversStep js s.panel (.start task) = some s'.panel := by
      have hdeliver := hstep
      simp only [Joint.step, Joint.deliver, Option.bind_eq_bind, Option.bind_eq_some_iff] at hdeliver
      obtain ⟨post, -, -, -, panel, hpanel, heq⟩ := hdeliver
      cases heq
      exact ⟨_, hpanel⟩
    obtain ⟨task, hpanel⟩ := hpanel
    refine ⟨hs.identified.step hpanel fun server h => (by cases h), fun row hrow hstatus => ?_⟩
    obtain ⟨-, hp⟩ := Tasks.step_start hpanel
    rw [hp] at hrow
    exact (hs.outstanding row hrow hstatus).deliver hstep

end Steps

/-! ## Runs -/

/-- From every state in which nothing is outstanding and no server is INSTALLING, and for every
run in which new servers get new ids: while every install reports, no server is INSTALLING in
any state of the run in which nothing is outstanding. -/
theorem none_stranded (serde : Serde) (js : Js) (s : State) (labels : List Label)
    (hidle : s.panel.tasks = [])
    (hids : ∀ x ∈ s.panel.store.db.servers, ∀ y ∈ s.panel.store.db.servers,
      x.uuid = y.uuid → x = y)
    (hnone : ∀ row ∈ s.panel.store.db.servers, row.status ≠ some .installing)
    (hnew : Along (step serde js) DrawsNewServers s labels)
    (hreports : Along (step serde js) InstallsReport s labels) :
    ∀ done, done <+: labels → ∀ s', run (step serde js) s done = some s' → NoneStranded s' := by
  have hknown : ∀ x, Known s.panel x → x ∈ s.panel.store.db.servers := by
    rintro x (hx | ⟨t, ht, -⟩)
    · exact hx
    · rw [hidle] at ht
      cases ht
  have hs : Awaited s := by
    refine ⟨fun x y hx hy => ⟨fun hid => ?_, fun huuid => ?_⟩, fun row hrow hstatus => ?_⟩
    · rw [Table.eq_of_key (hknown x hx) (hknown y hy) hid]
    · rw [hids x (hknown x hx) y (hknown y hy) huuid]
    · exact absurd hstatus (hnone row hrow)
  rintro done ⟨rest, rfl⟩ s' hrun
  have hall := along_and.mpr ⟨hnew, hreports⟩
  refine Awaited.noneStranded (run_invariant ?_ hs (along_append.mp hall).1 hrun)
  exact fun s l s' hs h hstep => hs.step h.1 h.2 hstep

/-! ## An egg without an install script, and an install that is reported -/

section OneServer

/-- A turn of `create` that passes the checks of the capacity. -/
theorem step_sumCapacity {serde : Serde} {js : Js} {store : ServersState}
    {wings : String → AppState} {dto : CreateServerDto} {gen : Generated} {node : Node} {egg : Egg}
    (hmemory : ServersService.exceeds
      (ServersService.capacity node.memory node.memoryOverallocate)
      (ServersService.allocated store.db dto.nodeId Server.memory) dto.memory = false)
    (hdisk : ServersService.exceeds
      (ServersService.capacity node.disk node.diskOverallocate)
      (ServersService.allocated store.db dto.nodeId Server.disk) dto.disk = false) :
    step serde js ⟨⟨store, [.create (.sumCapacity dto gen node egg)]⟩, wings⟩
        (.panel (.turn 0 .ok) true) =
      some ⟨⟨store, [.create (.findVariables dto gen egg)]⟩, wings⟩ := by
  have hturn : (ServersService.CreateTask.sumCapacity dto gen node egg).turn js store .ok =
      ServersTurn.goOn store (.findVariables dto gen egg) := by
    simp only [ServersService.allocated] at hmemory hdisk
    simp only [ServersService.CreateTask.turn, ServersTurn.read, hmemory, hdisk,
      ServersTurn.throwIf, Bool.false_eq_true, if_false]
  simp only [step, serversStep, Tasks.step, Tasks.turnOf, serversSystem, Task.turn, hturn, sent,
    List.getElem?_cons_zero, Option.map_some, Option.bind_eq_bind, Option.bind_some]
  rfl

/-- A turn of `create` whose call to Wings goes through. -/
theorem step_create {serde : Serde} {js : Js} {store : ServersState} {wings : String → AppState}
    {server : Server} {config : WingsServerConfig} {script image : String}
    (h : (Grpc.serve serde (.createServer (some (toProto config)) script image)
      (wings server.nodeId)).1.isOk = true) :
    step serde js ⟨⟨store, [.create (.wings server config script image)]⟩, wings⟩
        (.panel (.turn 0 .ok) true) =
      some ⟨⟨store, []⟩, Function.update wings server.nodeId
        (Grpc.serve serde (.createServer (some (toProto config)) script image)
          (wings server.nodeId)).2⟩ := by
  cases hserved : (Grpc.serve serde (.createServer (some (toProto config)) script image)
      (wings server.nodeId)).1 with
  | error e =>
    rw [hserved] at h
    cases h
  | ok response =>
    have hexchange : exchange serde true .ok wings (.createServer server config script image) =
        some (Function.update wings server.nodeId (Grpc.serve serde
          (.createServer (some (toProto config)) script image) (wings server.nodeId)).2) := by
      simp only [exchange, request, nodeOf, hserved]
    have hsent : sent js ⟨store, [.create (.wings server config script image)]⟩ (.turn 0 .ok) =
        (.ok, [.createServer server config script image]) := rfl
    simp only [step, hsent, List.foldlM_cons, List.foldlM_nil, hexchange, Option.bind_eq_bind,
      Option.bind_some]
    rfl

/-- One node with one server, and a daemon that has not been asked anything. The egg has no
install script. -/
def freshState : State where
  panel := .idle (.oneServer none) ["n"]
  wings := fun _ => AppState.fresh ⟨"http://panel", "id", "token", "/srv"⟩ fun _ => .ok ["0"]

/-- A create whose every statement and every call goes through. -/
def createRun : List Label :=
  .panel (.start (.create (.findNode secondServer ⟨"2", "2", "2"⟩))) true ::
    List.replicate 10 (.panel (.turn 0 .ok) true)

/-- The create behind five turns. -/
def checkedState : State where
  panel := ⟨⟨.oneServer none, ["n"], []⟩, [.create (.sumCapacity secondServer ⟨"2", "2", "2"⟩
    ⟨"n", 4096, 0, 4096, 0⟩ ⟨"e", "image", "run", none, "alpine:latest"⟩)]⟩
  wings := Function.update freshState.wings "n"
    (Grpc.serve .framed .getSystemInfo (freshState.wings "n")).2

/-- Nothing is left to do for any daemon. -/
def Idle (wings : String → AppState) : Prop :=
  ∀ node, (wings node).spawned = [] ∧ (wings node).posts = []

theorem idle_update {wings : String → AppState} {node : String} {t : AppState} (h : Idle wings)
    (ht : t.spawned = [] ∧ t.posts = []) : Idle (Function.update wings node t) := by
  intro n
  by_cases hn : n = node
  · rw [hn, Function.update_self]
    exact ht
  · rw [Function.update_of_ne hn]
    exact h n

theorem quiescent_idle {store : ServersState} {wings : String → AppState} (h : Idle wings) :
    Quiescent ⟨⟨store, []⟩, wings⟩ := by
  refine ⟨rfl, fun node c script image hspawned => ?_, fun node => (h node).2⟩
  have hnone := (h node).1
  rw [hnone] at hspawned
  cases hspawned

/-- A server that is created from the egg stays INSTALLING. -/
theorem scriptless_stranded :
    ¬∀ done, done <+: createRun → ∀ s', run (step .framed .plain) freshState done = some s' →
      NoneStranded s' := by
  intro h
  have hchecked : run (step .framed .plain) freshState (createRun.take 6) = some checkedState :=
    run_step rfl (run_step rfl (run_step rfl (run_step rfl (run_step rfl (run_step rfl rfl)))))
  have hsplit : createRun = createRun.take 6 ++ List.replicate 5 (.panel (.turn 0 .ok) true) := rfl
  obtain ⟨s', hrun, hquiet, row, hrow, hstatus⟩ : ∃ s', run (step .framed .plain) freshState
      createRun = some s' ∧ Quiescent s' ∧
        ∃ row ∈ s'.panel.store.db.servers, row.status = some .installing := by
    rw [hsplit, run_append, hchecked, Option.bind_some]
    refine ⟨_, run_step (step_sumCapacity (by decide +kernel) (by decide +kernel))
      (run_step rfl (run_step rfl (run_step rfl (run_step (step_create (by decide +kernel)) rfl)))),
      quiescent_idle (idle_update (idle_update (fun _ => ⟨rfl, rfl⟩) (by decide +kernel))
        (by decide +kernel)), _, List.mem_cons_self, rfl⟩
  exact h createRun (List.prefix_refl _) s' hrun hquiet row hrow hstatus

/-- A reinstall whose install run ends, and whose callback arrives. -/
def reportedRun : List Label :=
  .panel (.start (.reinstall (.find "u"))) true ::
    (List.replicate 5 (.panel (.turn 0 .ok) true) ++ [.task "n" 0, .deliver "n" "u" 0] ++
      List.replicate 3 (.panel (.turn 0 .ok) true))

theorem none_stranded_reinstall :
    Always (step .framed .plain) (fun _ => NoneStranded) freshState reportedRun := by
  refine none_stranded .framed .plain freshState reportedRun rfl ?_ ?_ ?_ ?_
  · intro x hx y hy _
    rw [List.mem_singleton.mp hx, List.mem_singleton.mp hy]
  · intro row hrow hstatus
    cases List.mem_singleton.mp hrow
    cases hstatus
  · have hno {s : State} {task : Panel.Task} (h : s.panel.tasks = [task])
        (hne : ∀ server, task ≠ .create (.insert server)) :
        DrawsNewServers s (.panel (.turn 0 .ok) true) := by
      intro server hserver
      rw [h] at hserver
      exact absurd (Option.some.inj hserver) (hne server)
    refine along_step rfl trivial (along_step rfl (hno rfl ?_) (along_step rfl (hno rfl ?_)
      (along_step rfl (hno rfl ?_) (along_step rfl (hno rfl ?_) (along_step rfl (hno rfl ?_)
        (along_step rfl trivial (along_step rfl trivial (along_step rfl (hno rfl ?_)
          (along_step rfl (hno rfl ?_) (along_step rfl (hno rfl ?_) trivial))))))))))
    all_goals exact fun _ h => nomatch h
  · refine along_step rfl trivial (along_step rfl trivial (along_step rfl trivial
      (along_step rfl trivial (along_step rfl trivial (along_step rfl trivial
        (along_step rfl ?_ (along_step rfl trivial (along_step rfl trivial
          (along_step rfl rfl (along_step rfl rfl trivial))))))))))
    exact fun _ _ _ _ => ⟨⟨_, rfl⟩, ⟨_, rfl⟩, ⟨_, rfl⟩, ⟨_, rfl⟩⟩

end OneServer

end Joint
