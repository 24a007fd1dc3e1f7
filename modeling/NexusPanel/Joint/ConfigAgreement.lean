import NexusPanel.Joint.System
import NexusPanel.Panel.ServersFlow

/-!
# The configuration of a server on both sides

A container that is missing is made again from the registry of Wings, while users look at the
row in the panel. The two are to say the same. `create` and `reinstall` send what they have
loaded; `update` sends nothing, so it breaks the agreement as soon as it changes a column that
Wings keeps.

The invariant has three parts: the uuids of the rows are distinct, every entry of a registry
agrees with its row, and so does every configuration that an operation in flight is about to
send. Rows are compared by the columns Wings keeps (`SameConfig`).
-/

namespace Joint

open Panel Wings Transition

/-! ## Agreement -/

/-- What both sides have of a configuration. -/
structure View where
  image : String
  startup : String
  environment : List (String × String)
  memory : Int
  cpu : Int
  disk : Int
  ports : List (Nat × Nat)

/-- What Wings has stored. -/
def View.ofWings (c : Wings.ServerConfig) : View where
  image := c.dockerImage
  startup := c.startupCommand
  environment := c.environment
  memory := c.memoryLimit.toNat
  cpu := c.cpuLimit.toNat
  disk := c.diskLimit.toNat
  ports := c.portMappings.map fun pm => (pm.hostPort.toNat, pm.containerPort.toNat)

/-- What the panel sends. -/
def View.ofPanel (config : WingsServerConfig) : View where
  image := config.dockerImage
  startup := config.startupCommand
  environment := config.environment
  memory := config.memoryLimit
  cpu := config.cpuLimit
  disk := config.diskLimit
  ports := config.portMappings

/-- The view is that of the row. The ports are those of the allocation that is assigned to the
server. -/
structure View.Shows (v : View) (db : Database) (row : Server) : Prop where
  image : v.image = row.image
  startup : v.startup = row.startup
  environment : v.environment = row.envVariables
  memory : v.memory = row.memory
  cpu : v.cpu = row.cpu
  disk : v.disk = row.disk
  ports : ∀ a ∈ db.allocations, a.serverId = some row.id → v.ports = [(a.port, a.port)]

/-- Wings has stored what the row shows. -/
def Agrees (db : Database) (c : Wings.ServerConfig) (row : Server) : Prop :=
  (View.ofWings c).Shows db row

/-- The server a `create`, an `update` or a `reinstall` ends with in the step. -/
def configured (js : Js) (p : ServersPool) : ServersLabel → Option Server
  | .turn i reply =>
    match p.tasks[i]? with
    | some (.create task) => answered (task.turn js p.store reply)
    | some (.update task) => answered (task.turn p.store reply)
    | some (.reinstall task) => answered (task.turn p.store reply)
    | _ => none
  | _ => none
where
  answered {τ : Type} (u : ServersTurn τ) : Option Server :=
    match u.output.answer with
    | some (.ok (.server server)) => some server
    | _ => none

/-- Wings has a configuration of the server. -/
def HasConfig (s : State) (row : Server) : Prop :=
  ∃ c, (s.wings row.nodeId).serverConfigs.lookup row.uuid = some c

/-- When an operation that configures a server ends, Wings has a configuration of it, and that
is the one the row shows. -/
def AgreesAfter (serde : Serde) (js : Js) (s : State) : Label → Prop
  | .panel l reached => ∀ server, configured js s.panel l = some server →
    ∀ s', step serde js s (.panel l reached) = some s' →
      ∀ row ∈ s'.panel.store.db.servers, row.uuid = server.uuid →
        ∃ c, (s'.wings row.nodeId).serverConfigs.lookup row.uuid = some c ∧
          Agrees s'.panel.store.db c row
  | _ => True

/-- What a missing container is made from again is what the panel shows. -/
def RegistryAgrees (s : State) : Prop :=
  ∀ row ∈ s.panel.store.db.servers, ∀ c,
    (s.wings row.nodeId).serverConfigs.lookup row.uuid = some c → Agrees s.panel.store.db c row

/-! ## Assumptions and condition -/

/-- Every call to Wings succeeds. -/
def CallsSucceed (s : State) : Label → Prop
  | .panel (.turn i reply) _ => ∀ task, s.panel.tasks[i]? = some task → task.call ≠ none → reply = .ok
  | _ => True

/-- The configuration that a task is to send, and the server it is for. -/
def sends : Task → Option (Server × WingsServerConfig)
  | .create (.wings server config _ _) => some (server, config)
  | .reinstall (.mark server (some a) _) => some (server, ServersService.wingsConfig server a)
  | .reinstall (.wings server config _ _) => some (server, config)
  | _ => none

/-- No row, no entry of the registry and no operation in flight has the uuid of the server. -/
structure Fresh (s : State) (server : Server) : Prop where
  rows : ∀ row ∈ s.panel.store.db.servers, row.uuid ≠ server.uuid
  registry : ¬ HasConfig s server
  tasks : ∀ t ∈ s.panel.tasks, ∀ named config, sends t = some (named, config) →
    named.uuid ≠ server.uuid

/-- The uuid of a server that is inserted is new. -/
def DrawsNewUuids (s : State) : Label → Prop
  | .panel (.turn i _) _ => ∀ server, s.panel.tasks[i]? = some (.create (.insert server)) →
      Fresh s server
  | _ => True

/-- The columns of a server that Wings keeps, and those that say whose they are. -/
structure SameConfig (row row' : Server) : Prop where
  id : row.id = row'.id
  uuid : row.uuid = row'.uuid
  nodeId : row.nodeId = row'.nodeId
  image : row.image = row'.image
  startup : row.startup = row'.startup
  envVariables : row.envVariables = row'.envVariables
  memory : row.memory = row'.memory
  cpu : row.cpu = row'.cpu
  disk : row.disk = row'.disk

/-- The numbers fit their fields, in the protocol and in Wings. -/
structure Fits (config : WingsServerConfig) : Prop where
  memory : 0 ≤ config.memoryLimit ∧ config.memoryLimit < 2 ^ 64
  cpu : 0 ≤ config.cpuLimit ∧ config.cpuLimit < 2 ^ 32
  disk : 0 ≤ config.diskLimit ∧ config.diskLimit < 2 ^ 64
  ports : ∀ pm ∈ config.portMappings, pm.1 < 2 ^ 16 ∧ pm.2 < 2 ^ 16

/-- The save leaves what Wings keeps of the server as it is: the row is there, with the same
configuration, and the allocation it was loaded with is gone or still its own. -/
structure SavesSame (db : Database) (server : Server) (allocation : Option String) : Prop where
  row : ∃ row ∈ db.servers, SameConfig row server
  own : ∀ a ∈ db.allocations, allocation = some a.id → a.serverId = some server.id

/-- An update saves what Wings keeps of a server as it is, and Wings has a configuration of the
server; when a reinstall ends, Wings still has one; what is sent fits; and a
restart of Wings finds nothing that was not in the registry. -/
def KeepsConfig (serde : Serde) (s : State) : Label → Prop
  | .panel (.turn i .ok) _ =>
    match s.panel.tasks[i]? with
    | some (.update (.save server a)) =>
      SavesSame s.panel.store.db server (a.map Allocation.id) ∧ HasConfig s server
    | some (.reinstall (.reload id)) =>
      ∀ row ∈ s.panel.store.db.servers, row.id = id → HasConfig s row
    | some (.create (.wings _ config _ _)) | some (.reinstall (.wings _ config _ _)) => Fits config
    | _ => True
  | .restart node entries => ∀ uuid c,
    (AppState.loadConfigs serde (s.wings node).fs (s.wings node).config.dataDir entries).lookup
      uuid = some c → (s.wings node).serverConfigs.lookup uuid = some c
  | _ => True

/-! ## Over the wire -/

theorem toNat_uint64_ofInt {n : Int} (h : 0 ≤ n ∧ n < 2 ^ 64) :
    ((UInt64.ofInt n).toNat : Int) = n := by
  rw [UInt64.ofInt, UInt64.toNat_ofNat', Int.emod_eq_of_lt h.1 h.2]
  omega

theorem toNat_uint32_ofInt {n : Int} (h : 0 ≤ n ∧ n < 2 ^ 32) :
    ((UInt32.ofInt n).toNat : Int) = n := by
  rw [UInt32.ofInt, UInt32.toNat_ofNat', Int.emod_eq_of_lt h.1 h.2]
  omega

theorem toNat_port {n : Nat} (h : n < 2 ^ 16) : (UInt32.ofNat n).toUInt16.toNat = n := by
  rw [UInt32.toNat_toUInt16, UInt32.toNat_ofNat']
  omega

/-- A configuration that fits arrives as it was sent, whatever volume Wings gives it. -/
theorem Fits.view {config : WingsServerConfig} (h : Fits config) (volumePath : String) :
    View.ofWings { Grpc.toDockerConfig (toProto config) with volumePath } = .ofPanel config := by
  have hcpu : (((toProto config).cpuLimit.toUInt64).toNat : Int) = config.cpuLimit := by
    rw [UInt32.toNat_toUInt64]
    exact toNat_uint32_ofInt h.cpu
  have hports : ((toProto config).portMappings.map fun pm =>
      (pm.hostPort.toUInt16.toNat, pm.containerPort.toUInt16.toNat)) = config.portMappings := by
    rw [toProto, List.map_map]
    refine (List.map_congr_left fun pm hpm => ?_).trans (List.map_id _)
    obtain ⟨hhost, hcontainer⟩ := h.ports pm hpm
    simp only [Function.comp_apply, toNat_port hhost, toNat_port hcontainer, id_eq]
  simp only [View.ofWings, View.ofPanel, Grpc.toDockerConfig, List.map_map, Function.comp_def,
    View.mk.injEq]
  exact ⟨rfl, rfl, rfl, toNat_uint64_ofInt h.memory, hcpu, toNat_uint64_ofInt h.disk, hports⟩

/-! ## What a step of the panel does to rows and allocations -/

section Panel

variable {js : Js} {db db' : Database} {p p' : ServersPool} {l : ServersLabel} {x row : Server}

theorem SameConfig.refl (row : Server) : SameConfig row row :=
  ⟨rfl, rfl, rfl, rfl, rfl, rfl, rfl, rfl, rfl⟩

/-- The row was there, as far as Wings is concerned, and so was its allocation. -/
def Kept (db db' : Database) (x : Server) : Prop :=
  ∃ row ∈ db.servers, SameConfig row x ∧ ∀ a' ∈ db'.allocations, a'.serverId = some x.id →
    ∃ a ∈ db.allocations, a.serverId = some x.id ∧ a.port = a'.port

theorem Kept.of_allocations (hrow : row ∈ db.servers) (h : SameConfig row x)
    (hallocations : ∀ a ∈ db'.allocations, a ∈ db.allocations) : Kept db db' x :=
  ⟨row, hrow, h, fun a ha hserver => ⟨a, hallocations a ha, hserver, rfl⟩⟩

/-- A statement that sets columns sets none that Wings keeps. -/
theorem SameConfig.set (q : Server → Bool) (columns : Lifecycle) (row : Server) :
    SameConfig row (if q row then columns.set row else row) := by
  split
  · exact ⟨rfl, rfl, rfl, rfl, rfl, rfl, rfl, rfl, rfl⟩
  · exact .refl row

/-- After a statement every row is one that was there, or the one that was inserted. -/
theorem kept_exec {st : Statement} (hexec : db.exec st = some db')
    (hsave : ∀ server allocation, st = .saveServer server allocation →
      SavesSame db server allocation)
    (hx : x ∈ db'.servers) : Kept db db' x ∨ st = .createServer x := by
  cases st with
  | createServer server =>
    rcases (mem_servers_createServer hexec).2.mp hx with rfl | hmem
    · exact .inr rfl
    · left
      refine ⟨x, hmem, .refl x, fun a' ha' hserver => ?_⟩
      obtain ⟨a, ha, rfl⟩ := (mem_allocations_createServer hexec).mp ha'
      split at hserver
      next =>
        have hfresh := (mem_servers_createServer (x := x) hexec).1 x hmem
        exact absurd (Option.some.inj hserver).symm hfresh
      next hne =>
        rw [if_neg hne]
        exact ⟨a, ha, hserver, rfl⟩
  | updateServer id columns =>
    obtain ⟨row, hrow, rfl⟩ := (mem_servers_updateServer hexec).mp hx
    exact .inl (.of_allocations hrow (.set (fun s => s.id == id) columns row)
      fun a ha => allocations_updateServer hexec ▸ ha)
  | updateServerByUuid uuid columns =>
    obtain ⟨row, hrow, rfl⟩ := (mem_servers_updateServerByUuid hexec).mp hx
    exact .inl (.of_allocations hrow (.set (fun s => s.uuid == uuid) columns row)
      fun a ha => allocations_updateServerByUuid hexec ▸ ha)
  | saveServer server allocation =>
    obtain ⟨hrow, hown⟩ := hsave server allocation rfl
    have hallocations : ∀ a' ∈ db'.allocations, a'.serverId = some x.id →
        ∃ a ∈ db.allocations, a.serverId = some x.id ∧ a.port = a'.port := by
      intro a' ha' hserver
      obtain ⟨a, ha, rfl⟩ := (mem_allocations_saveServer hexec).mp ha'
      refine ⟨a, ha, ?_, by split <;> rfl⟩
      split at hserver
      next hwritten =>
        cases allocation with
        | none => cases hserver
        | some id => exact (hown a ha (congrArg some
            (Allocation.writtenWith_some.mp hwritten).symm)).trans hserver
      next => exact hserver
    rcases (mem_servers_saveServer hexec).mp hx with rfl | ⟨hmem, -⟩
    · obtain ⟨row, hrow, hsame⟩ := hrow
      exact .inl ⟨row, hrow, hsame, hallocations⟩
    · exact .inl ⟨x, hmem, .refl x, hallocations⟩
  | removeServer id =>
    exact .inl (.of_allocations ((mem_servers_removeServer hexec).mp hx).1 (.refl x)
      fun a ha => allocations_removeServer hexec ▸ ha)
  | freeAllocation id =>
    left
    refine ⟨x, servers_freeAllocation hexec ▸ hx, .refl x, fun a' ha' hserver => ?_⟩
    obtain ⟨a, ha, rfl⟩ := (mem_allocations_freeAllocation hexec).mp ha'
    split at hserver
    next => cases hserver
    next hne =>
      rw [if_neg hne]
      exact ⟨a, ha, hserver, rfl⟩
  | removeAllocation id =>
    exact .inl (.of_allocations (servers_removeAllocation hexec ▸ hx) (.refl x)
      fun a ha => ((mem_allocations_removeAllocation hexec).mp ha).1)
  | removeUnassigned nodeId =>
    exact .inl (.of_allocations (servers_removeUnassigned hexec ▸ hx) (.refl x)
      fun a ha => ((mem_allocations_removeUnassigned hexec).mp ha).1)

/-- After a step of the panel every row is one that was there, or the one that was inserted. -/
theorem kept_step (hstep : serversStep js p l = some p')
    (hsave : ∀ server allocation, issued p l = some (.saveServer server allocation) →
      SavesSame p.store.db server allocation) (hx : x ∈ p'.store.db.servers) :
    Kept p.store.db p'.store.db x ∨ issued p l = some (.createServer x) := by
  cases serversStep_changes hstep with
  | executed st hst hexec =>
    rw [hst] at hsave ⊢
    exact (kept_exec hexec (fun server a h => hsave server a (congrArg some h)) hx).imp_right
      (congrArg some)
  | quiet _ hservers hallocations =>
    exact .inl (.of_allocations (hservers ▸ hx) (.refl x) fun a ha => hallocations ▸ ha)
  | provisioned _ a hfree _ hservers hallocations =>
    left
    refine ⟨x, hservers ▸ hx, .refl x, fun a' ha' hserver => ?_⟩
    rcases (hallocations a').mp ha' with rfl | ha
    · rw [hfree] at hserver
      cases hserver
    · exact ⟨a', ha, hserver, rfl⟩

theorem View.Shows.same {v : View} (h : v.Shows db row) (hsame : SameConfig row x)
    (hallocations : ∀ a' ∈ db'.allocations, a'.serverId = some x.id →
      ∃ a ∈ db.allocations, a.serverId = some x.id ∧ a.port = a'.port) : v.Shows db' x where
  image := h.image.trans hsame.image
  startup := h.startup.trans hsame.startup
  environment := h.environment.trans hsame.envVariables
  memory := h.memory.trans hsame.memory
  cpu := h.cpu.trans hsame.cpu
  disk := h.disk.trans hsame.disk
  ports := by
    intro a' ha' hserver
    obtain ⟨a, ha, hassigned, hport⟩ := hallocations a' ha' hserver
    rw [← hport]
    exact h.ports a ha (hsame.id ▸ hassigned)

end Panel

/-! ## What a step of the panel does to the registries -/

section Registry

variable {serde : Serde} {js : Js} {s s' : State} {l : ServersLabel} {reached : Bool}
  {node uuid : String} {c : Wings.ServerConfig}

/-- The task that sends a configuration in the step, with the server it is for. -/
def Sends (s : State) (l : ServersLabel) (server : Server) (config : WingsServerConfig) : Prop :=
  ∃ i reply script image, l = .turn i reply ∧
    (s.panel.tasks[i]? = some (.create (.wings server config script image)) ∨
      s.panel.tasks[i]? = some (.reinstall (.wings server config script image)))

theorem task_of_createServer {task : Task} {server : Server} {config : WingsServerConfig}
    {script image : String} (h : task.call = some (.createServer server config script image)) :
    task = .create (.wings server config script image) := by
  unfold Task.call at h
  split at h <;> cases h
  rfl

theorem task_of_reinstallServer {task : Task} {server : Server} {config : WingsServerConfig}
    {script image : String} (h : task.call = some (.reinstallServer server config script image)) :
    task = .reinstall (.wings server config script image) := by
  unfold Task.call at h
  split at h <;> cases h
  rfl

/-- A call that stores a configuration stores the one it was given, but for the volume. -/
theorem stored_of_call {t : AppState} {call : WingsCall} (h : (request call).Does t (.store c)) :
    ∃ server config script image, (call = .createServer server config script image ∨
        call = .reinstallServer server config script image) ∧
      ∃ volumePath, c = { Grpc.toDockerConfig (toProto config) with volumePath } := by
  cases call with
  | createServer server config script image =>
    cases h with
    | storeCreated => exact ⟨server, config, script, image, .inl rfl, _, rfl⟩
    | create cfg script image he => cases he
  | reinstallServer server config script image =>
    cases h with
    | storeReinstalled => exact ⟨server, config, script, image, .inr rfl, _, rfl⟩
  | deleteServer server removeVolumes =>
    cases h with
    | delete uuid volumes he => cases he
  | sendPowerAction server action =>
    cases h with
    | recreate uuid action hstored he => cases he
    | power uuid action he => cases he
    | powerStatus uuid action he => cases he
  | getSystemInfo node => cases h

/-- An entry of a registry was there before, or is made of what the step has sent. -/
theorem registry_panel (hstep : step serde js s (.panel l reached) = some s')
    (hentry : (s'.wings node).serverConfigs.lookup uuid = some c) :
    (s.wings node).serverConfigs.lookup uuid = some c ∨
      ∃ server config volumePath, Sends s l server config ∧ server.nodeId = node ∧
        config.uuid = uuid ∧ c = { Grpc.toDockerConfig (toProto config) with volumePath } := by
  obtain ⟨-, ⟨-, hwings⟩ | ⟨i, reply, task, call, rfl, htask, hcall, hexchange⟩⟩ := step_panel hstep
  · rw [hwings] at hentry
    exact .inl hentry
  rcases exchange_cases hexchange with hwings | hwings
  · rw [hwings] at hentry
    exact .inl hentry
  rw [hwings] at hentry
  by_cases hnode : node = nodeOf call
  · subst hnode
    rw [Function.update_self] at hentry
    rcases (after_serve serde (request call) _).entry hentry with hold | ⟨huuid, hdoes⟩
    · exact .inl hold
    obtain ⟨server, config, script, image, hsent, volumePath, rfl⟩ := stored_of_call hdoes
    refine .inr ⟨server, config, volumePath, ⟨i, reply, script, image, rfl, ?_⟩, ?_, huuid, rfl⟩
    · rcases hsent with rfl | rfl
      · exact .inl (task_of_createServer hcall ▸ htask)
      · exact .inr (task_of_reinstallServer hcall ▸ htask)
    · rcases hsent with rfl | rfl <;> rfl
  · rw [Function.update_of_ne hnode] at hentry
    exact .inl hentry

end Registry

/-! ## The invariant -/

/-- The configuration is that of the rows with the uuid of the server. -/
structure Describes (db : Database) (server : Server) (config : WingsServerConfig) : Prop where
  uuid : config.uuid = server.uuid
  rows : ∀ row ∈ db.servers, row.uuid = server.uuid →
    row.nodeId = server.nodeId ∧ (View.ofPanel config).Shows db row

structure Agreeing (s : State) : Prop where
  unique : ∀ row ∈ s.panel.store.db.servers, ∀ row' ∈ s.panel.store.db.servers,
    row.uuid = row'.uuid → row = row'
  registry : RegistryAgrees s
  tasks : ∀ t ∈ s.panel.tasks, ∀ server config, sends t = some (server, config) →
    Describes s.panel.store.db server config

section Invariant

variable {js : Js} {db db' : Database} {p : ServersState} {reply : Settled} {server : Server}
  {config : WingsServerConfig} {task t : Task}

theorem Describes.step (h : Describes db server config)
    (hrows : ∀ x ∈ db'.servers, Kept db db' x ∨ x.uuid ≠ server.uuid) :
    Describes db' server config := by
  refine ⟨h.uuid, fun x hx huuid => ?_⟩
  rcases hrows x hx with ⟨row, hrow, hsame, hallocations⟩ | hne
  · obtain ⟨hnode, hshows⟩ := h.rows row hrow (hsame.uuid.trans huuid)
    exact ⟨hsame.nodeId ▸ hnode, hshows.same hsame hallocations⟩
  · exact absurd huuid hne

/-- What is made of a server and its allocation describes the server. -/
theorem describes_loaded {a : Allocation}
    (hunique : ∀ row ∈ db.servers, row.uuid = server.uuid → row = server)
    (ha : a ∈ db.allocations) (hassigned : a.serverId = some server.id) :
    Describes db server (ServersService.wingsConfig server a) := by
  refine ⟨rfl, fun row hrow huuid => ?_⟩
  rw [hunique row hrow huuid]
  refine ⟨rfl, rfl, rfl, rfl, rfl, rfl, rfl, fun a' ha' hassigned' => ?_⟩
  have hsame : a' = a := by
    by_contra hne
    have hid : a'.id ≠ a.id := fun hid => hne (Table.eq_of_key ha' ha hid)
    rcases (db.constraints.2.2.1 a' ha' a ha hid).1 with hnone | hother
    · rw [hassigned'] at hnone
      cases hnone
    · exact hother (hassigned'.trans hassigned.symm)
  rw [hsame]
  rfl

theorem sends_of_starts (h : task.starts = true) : sends task = none := by
  unfold Task.starts at h
  split at h
  all_goals first | rfl | cases h

/-- A turn goes on to send what it was to send already, or what it has just loaded. -/
theorem sends_next (hnext : (task.turn js p reply).next = some t)
    (hsends : sends t = some (server, config)) :
    sends task = some (server, config) ∨ server ∈ p.db.servers ∧ ∃ a ∈ p.db.allocations,
      a.serverId = some server.id ∧ config = ServersService.wingsConfig server a := by
  cases task with
  | create task =>
    obtain ⟨x, hx, rfl⟩ := Option.map_eq_some_iff.mp hnext
    have hfollows := task.goesOn js x hx
    cases task with
    | load id =>
      rcases hfollows with ⟨row, hrow, hid, a, ha, hassigned, script, image, rfl⟩ | ⟨m, rfl⟩
      · cases hsends
        exact .inr ⟨hrow, a, ha, hid ▸ hassigned, rfl⟩
      · cases hsends
    | findNode dto gen =>
      obtain ⟨node, -, -, -, rfl⟩ := hfollows
      cases hsends
    | findEgg dto gen node =>
      obtain ⟨egg, -, -, rfl⟩ := hfollows
      cases hsends
    | findAllocation dto gen node egg =>
      obtain ⟨a, -, -, -, -, rfl⟩ := hfollows
      cases hsends
    | findUser dto gen node egg =>
      obtain ⟨user, -, -, rfl⟩ := hfollows
      cases hsends
    | sumCapacity dto gen node egg =>
      obtain ⟨-, -, rfl⟩ := hfollows
      cases hsends
    | findVariables dto gen egg =>
      obtain ⟨startup, image, env, rfl⟩ := hfollows
      cases hsends
    | wings row config script image =>
      obtain ⟨m, rfl⟩ := hfollows
      cases hsends
    | checkAvailability dto gen node | insert row =>
      cases hfollows
      cases hsends
    | markFailed id message => cases hfollows
  | reinstall task =>
    obtain ⟨x, hx, rfl⟩ := Option.map_eq_some_iff.mp hnext
    have hfollows := task.goesOn x hx
    cases task with
    | find uuid =>
      obtain ⟨row, -, -, rfl⟩ := hfollows
      cases hsends
    | load id =>
      obtain ⟨row, hrow, -, rfl⟩ := hfollows
      cases ha : p.allocationOf row with
      | none =>
        rw [ha] at hsends
        cases hsends
      | some a =>
        rw [ha] at hsends
        cases hsends
        have hassigned := Table.findOne_sat ha
        rw [beq_iff_eq] at hassigned
        exact .inr ⟨hrow, a, Table.findOne_mem ha, hassigned, rfl⟩
    | mark row allocation egg =>
      obtain ⟨a, rfl, script, image, rfl⟩ := hfollows
      exact .inl hsends
    | wings row config script image =>
      cases hfollows
      cases hsends
    | reload id => cases hfollows
  | update task | delete task | power task | suspend task | unsuspend task | callback task
  | event task | gateway task | allocation task =>
    obtain ⟨x, -, rfl⟩ := Option.map_eq_some_iff.mp hnext
    cases hsends

end Invariant

/-! ## One step -/

section Steps

variable {serde : Serde} {js : Js} {s s' : State} {l : ServersLabel} {reached : Bool}
  {x server : Server} {config : WingsServerConfig} {task : Task}

/-- After a step of the panel every row is one that was there, or a new one. -/
theorem rows_panel (hnew : DrawsNewUuids s (.panel l reached))
    (hkeeps : KeepsConfig serde s (.panel l reached))
    (hstep : step serde js s (.panel l reached) = some s')
    (hx : x ∈ s'.panel.store.db.servers) :
    Kept s.panel.store.db s'.panel.store.db x ∨
      issued s.panel l = some (.createServer x) ∧ Fresh s x := by
  have hsave : ∀ server allocation,
      issued s.panel l = some (.saveServer server allocation) →
        SavesSame s.panel.store.db server allocation := by
    intro server allocation hissued
    obtain ⟨i, task, rfl, htask, hst⟩ := issued_eq_some hissued
    obtain ⟨a, rfl, rfl⟩ := Task.eq_save hst
    simp only [KeepsConfig, htask] at hkeeps
    exact hkeeps.1
  rcases kept_step (step_panel hstep).1 hsave hx with hkept | hissued
  · exact .inl hkept
  · obtain ⟨i, task, rfl, htask, hst⟩ := issued_eq_some hissued
    rw [Task.eq_insert hst] at htask
    exact .inr ⟨hissued, hnew x htask⟩

/-- What a step sends describes its server, and fits. -/
theorem Sends.describes (h : Sends s l server config) (hs : Agreeing s)
    (hcalls : CallsSucceed s (.panel l reached)) (hkeeps : KeepsConfig serde s (.panel l reached)) :
    Describes s.panel.store.db server config ∧ Fits config := by
  obtain ⟨i, reply, script, image, rfl, htask | htask⟩ := h
  · cases hcalls _ htask (Option.some_ne_none _)
    simp only [KeepsConfig, htask] at hkeeps
    exact ⟨hs.tasks _ (List.mem_of_getElem? htask) server config rfl, hkeeps⟩
  · cases hcalls _ htask (Option.some_ne_none _)
    simp only [KeepsConfig, htask] at hkeeps
    exact ⟨hs.tasks _ (List.mem_of_getElem? htask) server config rfl, hkeeps⟩

/-- A step that sends a configuration inserts no server. -/
theorem Sends.not_issued (h : Sends s l server config) :
    issued s.panel l ≠ some (.createServer x) := by
  intro hissued
  obtain ⟨i, task, rfl, htask, hst⟩ := issued_eq_some hissued
  obtain ⟨j, reply, script, image, heq, hsent | hsent⟩ := h
  · cases heq
    cases htask.symm.trans hsent
    cases hst
  · cases heq
    cases htask.symm.trans hsent
    cases hst

theorem RegistryAgrees.panel (hs : Agreeing s) (hnew : DrawsNewUuids s (.panel l reached))
    (hcalls : CallsSucceed s (.panel l reached)) (hkeeps : KeepsConfig serde s (.panel l reached))
    (hstep : step serde js s (.panel l reached) = some s') : RegistryAgrees s' := by
  intro x hx c hentry
  rcases rows_panel hnew hkeeps hstep hx with ⟨row, hrow, hsame, hallocations⟩ | ⟨hissued, hfresh⟩
  · refine View.Shows.same ?_ hsame hallocations
    rw [← hsame.nodeId, ← hsame.uuid] at hentry
    rcases registry_panel hstep hentry with hold | ⟨server, config, _, hsends, hnode, huuid, rfl⟩
    · exact hs.registry row hrow c hold
    · obtain ⟨hdescribes, hfits⟩ := hsends.describes hs hcalls hkeeps
      rw [hfits.view]
      exact (hdescribes.rows row hrow (huuid.symm.trans hdescribes.uuid)).2
  · rcases registry_panel hstep hentry with hold | ⟨server, config, _, hsends, -⟩
    · exact absurd ⟨c, hold⟩ hfresh.registry
    · exact absurd hissued hsends.not_issued

/-- A step of the panel keeps the invariant. -/
theorem Agreeing.panel (hs : Agreeing s) (hnew : DrawsNewUuids s (.panel l reached))
    (hcalls : CallsSucceed s (.panel l reached)) (hkeeps : KeepsConfig serde s (.panel l reached))
    (hstep : step serde js s (.panel l reached) = some s') : Agreeing s' := by
  have hrows := fun {x} => rows_panel (x := x) hnew hkeeps hstep
  refine ⟨fun x hx y hy huuid => ?_, .panel hs hnew hcalls hkeeps hstep,
    fun t ht server config hsends => ?_⟩
  · rcases hrows hx with ⟨row, hrow, hsame, -⟩ | ⟨hissued, hfresh⟩
    · rcases hrows hy with ⟨row', hrow', hsame', -⟩ | ⟨-, hfresh⟩
      · have heq := hs.unique row hrow row' hrow' (hsame.uuid.trans (huuid.trans hsame'.uuid.symm))
        refine Table.eq_of_key hx hy ?_
        exact hsame.id.symm.trans ((congrArg Server.id heq).trans hsame'.id)
      · exact absurd (hsame.uuid.trans huuid) (hfresh.rows row hrow)
    · rcases hrows hy with ⟨row', hrow', hsame', -⟩ | ⟨hissued', -⟩
      · exact absurd (hsame'.uuid.trans huuid.symm) (hfresh.rows row' hrow')
      · cases hissued.symm.trans hissued'
        rfl
  · -- What is sent was to be sent before, or has been loaded in this step.
    have hsource : (∃ t ∈ s.panel.tasks, sends t = some (server, config)) ∨
        server ∈ s.panel.store.db.servers ∧ ∃ a ∈ s.panel.store.db.allocations,
          a.serverId = some server.id ∧ config = ServersService.wingsConfig server a := by
      have hpanel := (step_panel hstep).1
      cases l with
      | start task =>
        obtain ⟨hstarts, hp⟩ := Tasks.step_start hpanel
        rw [hp] at ht
        rcases List.mem_cons.mp ht with rfl | ht
        · rw [sends_of_starts hstarts] at hsends
          cases hsends
        · exact .inl ⟨t, ht, hsends⟩
      | turn i reply =>
        obtain ⟨task, htask, hp⟩ := Tasks.step_turn hpanel
        rw [hp] at ht
        rcases List.mem_append.mp ht with ht | ht
        · exact (sends_next (Option.mem_toList.mp ht) hsends).imp_left
            fun h => ⟨task, List.mem_of_getElem? htask, h⟩
        · exact .inl ⟨t, List.mem_of_mem_eraseIdx ht, hsends⟩
      | outside event =>
        obtain ⟨store, -, hp⟩ := Tasks.step_outside hpanel
        rw [hp] at ht
        exact .inl ⟨t, ht, hsends⟩
    rcases hsource with ⟨t', ht', hsends'⟩ | ⟨hserver, a, ha, hassigned, rfl⟩
    · refine (hs.tasks t' ht' server config hsends').step fun x hx => ?_
      exact (hrows hx).imp_right fun h => (h.2.tasks t' ht' server config hsends').symm
    · refine (describes_loaded (fun row hrow => hs.unique row hrow server hserver) ha
        hassigned).step fun x hx => ?_
      exact (hrows hx).imp_right fun h => (h.2.rows server hserver).symm

/-- A step that touches no row, brings no operation that is about to send and no entry of a
registry keeps the invariant. -/
theorem Agreeing.quiet (hs : Agreeing s) (hdb : s'.panel.store.db = s.panel.store.db)
    (htasks : ∀ t ∈ s'.panel.tasks, t ∈ s.panel.tasks ∨ sends t = none)
    (hentries : ∀ node uuid c, (s'.wings node).serverConfigs.lookup uuid = some c →
      (s.wings node).serverConfigs.lookup uuid = some c) : Agreeing s' := by
  refine ⟨hdb ▸ hs.unique, fun row hrow c hentry => ?_, fun t ht server config hsends => ?_⟩
  · rw [hdb] at hrow ⊢
    exact hs.registry row hrow c (hentries _ _ c hentry)
  · rw [hdb]
    rcases htasks t ht with ht | hnone
    · exact hs.tasks t ht server config hsends
    · rw [hnone] at hsends
      cases hsends

/-- A spawned task brings no entry. -/
theorem registry_task {t t' : AppState} {index : Nat} {uuid : String} {c : Wings.ServerConfig}
    (h : daemonStep serde t (.task index) = some t')
    (hentry : t'.serverConfigs.lookup uuid = some c) : t.serverConfigs.lookup uuid = some c := by
  simp only [daemonStep] at h
  split at h
  next task htask =>
    cases h
    rcases (after_runSpawned serde task _).entry hentry with hold | ⟨-, hdoes⟩
    · exact hold
    · cases hdoes with
      | install config script image he => cases he
      | power uuid action he => cases he
      | status uuid action he => cases he
  next => cases h

theorem Agreeing.step {l : Label} (hs : Agreeing s) (hnew : DrawsNewUuids s l)
    (hcalls : CallsSucceed s l) (hkeeps : KeepsConfig serde s l)
    (hstep : step serde js s l = some s') : Agreeing s' := by
  cases l with
  | panel l reached => exact hs.panel hnew hcalls hkeeps hstep
  | task node index =>
    obtain ⟨wings, hwings, h⟩ := Option.bind_eq_some_iff.mp hstep
    cases h
    refine hs.quiet rfl (fun t ht => .inl ht) fun n uuid c hentry => ?_
    by_cases hn : n = node
    · subst hn
      dsimp only at hentry
      rw [Function.update_self] at hentry
      exact registry_task hwings hentry
    · dsimp only at hentry
      rwa [Function.update_of_ne hn] at hentry
  | restart node entries =>
    obtain ⟨wings, hwings, h⟩ := Option.bind_eq_some_iff.mp hstep
    cases h
    refine hs.quiet rfl (fun t ht => .inl ht) fun n uuid c hentry => ?_
    by_cases hn : n = node
    · subst hn
      dsimp only at hentry
      rw [Function.update_self] at hentry
      simp only [daemonStep] at hwings
      split at hwings
      next =>
        cases hwings
        exact hkeeps uuid c hentry
      next => cases hwings
    · dsimp only at hentry
      rwa [Function.update_of_ne hn] at hentry
  | deliver node uuid index =>
    simp only [Joint.step, deliver, Option.bind_eq_bind, Option.bind_eq_some_iff] at hstep
    obtain ⟨post, -, -, -, panel, hpanel, h⟩ := hstep
    cases h
    obtain ⟨hstarts, rfl⟩ := Tasks.step_start hpanel
    refine hs.quiet rfl (fun t ht => ?_) fun n uuid c hentry => ?_
    · rcases List.mem_cons.mp ht with rfl | ht
      · exact .inr rfl
      · exact .inl ht
    · by_cases hn : n = node
      · subst hn
        dsimp only at hentry
        rw [Function.update_self] at hentry
        exact hentry
      · dsimp only at hentry
        rwa [Function.update_of_ne hn] at hentry

/-- Where an operation that configures a server ends. -/
theorem configured_cases (h : configured js s.panel l = some server) :
    ∃ i, l = .turn i .ok ∧
      ((∃ config script image,
          s.panel.tasks[i]? = some (.create (.wings server config script image))) ∨
        (∃ a, s.panel.tasks[i]? = some (.update (.save server a))) ∨
        server ∈ s.panel.store.db.servers ∧
          s.panel.tasks[i]? = some (.reinstall (.reload server.id))) := by
  have hanswer {τ : Type} {u : ServersTurn τ} (h : configured.answered u = some server) :
      u.output.answer = some (.ok (.server server)) := by
    simp only [configured.answered] at h
    split at h
    next heq =>
      cases h
      exact heq
    next => cases h
  cases l with
  | start task | outside event => cases h
  | turn i reply =>
    simp only [configured] at h
    split at h
    next task htask =>
      obtain ⟨rfl, config, script, image, rfl⟩ := task.answers js server (hanswer h)
      exact ⟨i, rfl, .inl ⟨config, script, image, htask⟩⟩
    next task htask =>
      obtain ⟨rfl, a, rfl⟩ := task.answers server (hanswer h)
      exact ⟨i, rfl, .inr (.inl ⟨a, htask⟩)⟩
    next task htask =>
      obtain ⟨rfl, hmem, rfl⟩ := task.answers server (hanswer h)
      exact ⟨i, rfl, .inr (.inr ⟨hmem, htask⟩)⟩
    next => cases h

/-- The Wings of a server that was created has its configuration. -/
theorem hasConfig_create {i : Nat} {script image : String}
    (htask : s.panel.tasks[i]? = some (.create (.wings server config script image)))
    (hstep : Joint.step serde js s (.panel (.turn i .ok) reached) = some s') :
    ∃ c, (s'.wings server.nodeId).serverConfigs.lookup config.uuid = some c := by
  obtain ⟨-, ⟨hnone, -⟩ | ⟨j, reply, task, call, hl, htask', hcall, hexchange⟩⟩ := step_panel hstep
  · cases hnone i .ok _ rfl htask
  · cases hl
    cases htask.symm.trans htask'
    cases hcall
    obtain ⟨⟨response, hresponse⟩, hwings⟩ := exchange_ok hexchange
    simp only [request, nodeOf] at hresponse hwings
    have hstored := (createServer_ok hresponse).1
    rw [hwings, Function.update_self]
    exact ⟨_, hstored⟩

/-- A step of a task that makes no call leaves the daemons alone. -/
theorem wings_of_not_call {i : Nat} {reply : Settled} {task : Task}
    (htask : s.panel.tasks[i]? = some task) (hcall : task.call = none)
    (hstep : Joint.step serde js s (.panel (.turn i reply) reached) = some s') :
    s'.wings = s.wings := by
  obtain ⟨-, ⟨-, hwings⟩ | ⟨j, reply', task', call, hl, htask', hcall', -⟩⟩ := step_panel hstep
  · exact hwings
  · cases hl
    cases htask.symm.trans htask'
    cases hcall.symm.trans hcall'

/-- Where an operation that configures a server ends, Wings has its configuration. -/
theorem Agreeing.after {l : Label} (hs : Agreeing s) (hnew : DrawsNewUuids s l)
    (hcalls : CallsSucceed s l) (hkeeps : KeepsConfig serde s l) : AgreesAfter serde js s l := by
  cases l with
  | task node index | restart node entries | deliver node uuid index => trivial
  | panel l reached =>
    intro server hserver s' hstep x hx huuid
    have hs' := hs.panel hnew hcalls hkeeps hstep
    suffices hentry : ∃ c, (s'.wings x.nodeId).serverConfigs.lookup x.uuid = some c by
      obtain ⟨c, hc⟩ := hentry
      exact ⟨c, hc, hs'.registry x hx c hc⟩
    have hkept : issued s.panel l ≠ some (.createServer x) →
        ∃ row ∈ s.panel.store.db.servers, SameConfig row x := by
      intro hne
      rcases rows_panel hnew hkeeps hstep hx with ⟨row, hrow, hsame, -⟩ | ⟨hissued, -⟩
      · exact ⟨row, hrow, hsame⟩
      · exact absurd hissued hne
    obtain ⟨i, rfl, ⟨config, script, image, htask⟩ | ⟨a, htask⟩ | ⟨hmem, htask⟩⟩ :=
      configured_cases hserver
    · have hsends : Sends s (.turn i .ok) server config := ⟨i, .ok, script, image, rfl, .inl htask⟩
      obtain ⟨row, hrow, hsame⟩ := hkept hsends.not_issued
      obtain ⟨hdescribes, -⟩ := hsends.describes hs hcalls hkeeps
      have hnode := (hdescribes.rows row hrow (hsame.uuid.trans huuid)).1
      rw [huuid, ← hdescribes.uuid, ← hsame.nodeId, hnode]
      exact hasConfig_create htask hstep
    · have hsaved := hkeeps
      simp only [KeepsConfig, htask] at hsaved
      obtain ⟨⟨⟨row, hrow, hsame⟩, -⟩, hentry⟩ := hsaved
      obtain ⟨row', hrow', hsame'⟩ := hkept (by simp only [issued, htask, Option.bind_some,
        Task.statement, ne_eq, Option.some.injEq, reduceCtorEq, not_false_eq_true])
      have hrows := hs.unique row' hrow' row hrow
        (hsame'.uuid.trans (huuid.trans hsame.uuid.symm))
      rw [huuid, ← hsame'.nodeId, hrows, hsame.nodeId, wings_of_not_call htask rfl hstep]
      exact hentry
    · have hreloaded := hkeeps
      simp only [KeepsConfig, htask] at hreloaded
      obtain ⟨row, hrow, hsame⟩ := hkept (by simp only [issued, htask, Option.bind_some,
        Task.statement, ne_eq, reduceCtorEq, not_false_eq_true])
      have hrows := hs.unique row hrow server hmem (hsame.uuid.trans huuid)
      rw [huuid, ← hsame.nodeId, hrows, wings_of_not_call htask rfl hstep]
      exact hreloaded server hmem rfl

end Steps

/-! ## Runs -/

/-- From every state without an operation in flight in which the registries agree with the
rows, and for every run in which every call to Wings succeeds and every uuid is new: while no
update changes a column that Wings keeps, Wings has the configuration the row shows whenever a
`create`, an `update` or a `reinstall` ends, and a container is made again from nothing else. -/
theorem config_agrees (serde : Serde) (js : Js) (s : State) (labels : List Label)
    (hidle : s.panel.tasks = [])
    (hunique : ∀ row ∈ s.panel.store.db.servers, ∀ row' ∈ s.panel.store.db.servers,
      row.uuid = row'.uuid → row = row')
    (hagrees : RegistryAgrees s) (hcalls : Along (step serde js) CallsSucceed s labels)
    (hnew : Along (step serde js) DrawsNewUuids s labels)
    (hkeeps : Along (step serde js) (KeepsConfig serde) s labels) :
    Along (step serde js) (AgreesAfter serde js) s labels ∧
      ∀ done, done <+: labels → ∀ s', run (step serde js) s done = some s' → RegistryAgrees s' := by
  have hs : Agreeing s := ⟨hunique, hagrees, fun t ht => by rw [hidle] at ht; cases ht⟩
  have hall := along_and.mpr ⟨hcalls, along_and.mpr ⟨hnew, hkeeps⟩⟩
  have hstep : ∀ s l s', Agreeing s →
      (CallsSucceed s l ∧ DrawsNewUuids s l ∧ KeepsConfig serde s l) →
        step serde js s l = some s' → Agreeing s' :=
    fun s l s' hs h hstep => hs.step h.2.1 h.1 h.2.2 hstep
  constructor
  · exact hall.weaken hstep (fun s l hs h => hs.after h.2.1 h.1 h.2.2) hs
  · rintro done ⟨rest, rfl⟩ s' hrun
    exact (run_invariant hstep hs (along_append.mp hall).1 hrun).registry

/-! ## A reinstall and updates of one server -/

section OneServer

/-- One server, whose configuration its Wings has. -/
def configuredState : State where
  panel := .idle (.oneServer none) []
  wings := fun _ =>
    { AppState.fresh ⟨"http://panel", "id", "token", "/srv"⟩ (fun _ => .ok []) with
      serverConfigs := (∅ : AList fun _ : String => Wings.ServerConfig).insert "u"
        ⟨"u", "image", "run", [], 1024, 100, 1024, [⟨25565, 25565⟩], "/srv/u"⟩ }

theorem configuredState_agrees : RegistryAgrees configuredState := by
  intro row hrow c hentry
  cases List.mem_singleton.mp hrow
  cases (AList.lookup_insert _).symm.trans hentry
  refine ⟨rfl, rfl, rfl, rfl, rfl, rfl, fun a ha hassigned => ?_⟩
  rcases List.mem_cons.mp ha with rfl | ha
  · rfl
  · cases List.mem_singleton.mp ha
    cases hassigned

def noUpdate : UpdateServerDto :=
  { name := none, description := none, memory := none, cpu := none, disk := none
    envVariables := none, swap := none, io := none, threads := none, oomDisabled := none
    startup := none, image := none, externalId := none }

def updateRun (dto : UpdateServerDto) : List Label :=
  .panel (.start (.update (.check "u" ⟨"owner", "owner@nexus.local", true⟩ dto))) true ::
    List.replicate 3 (.panel (.turn 0 .ok) true)

/-- A reinstall, and an update that gives the server another name. -/
def reinstallAndRename : List Label :=
  .panel (.start (.reinstall (.find "u"))) true ::
    (List.replicate 5 (.panel (.turn 0 .ok) true) ++
      updateRun { noUpdate with name := some "renamed" })

theorem config_agrees_reinstall :
    Along (step .framed .plain) (AgreesAfter .framed .plain) configuredState reinstallAndRename ∧
      ∀ done, done <+: reinstallAndRename → ∀ s',
        run (step .framed .plain) configuredState done = some s' → RegistryAgrees s' := by
  refine config_agrees .framed .plain configuredState reinstallAndRename rfl ?_
    configuredState_agrees (along_of_forall ?_) ?_ ?_
  · intro row hrow row' hrow' _
    rw [List.mem_singleton.mp hrow, List.mem_singleton.mp hrow']
  · intro l hl s
    rcases List.mem_cons.mp hl with rfl | hl
    · trivial
    rcases List.mem_append.mp hl with hl | hl
    · rw [List.eq_of_mem_replicate hl]
      exact fun _ _ _ => rfl
    rcases List.mem_cons.mp hl with rfl | hl
    · trivial
    · rw [List.eq_of_mem_replicate hl]
      exact fun _ _ _ => rfl
  · have hno {s : State} {task : Task} (h : s.panel.tasks = [task])
        (hne : ∀ server, task ≠ .create (.insert server)) :
        DrawsNewUuids s (.panel (.turn 0 .ok) true) := by
      intro server hserver
      rw [h] at hserver
      exact absurd (Option.some.inj hserver) (hne server)
    refine along_step rfl trivial (along_step rfl (hno rfl ?_) (along_step rfl (hno rfl ?_)
      (along_step rfl (hno rfl ?_) (along_step rfl (hno rfl ?_) (along_step rfl (hno rfl ?_)
        (along_step rfl trivial (along_step rfl (hno rfl ?_) (along_step rfl (hno rfl ?_)
          (along_step rfl (hno rfl ?_) trivial)))))))))
    all_goals exact fun _ h => nomatch h
  · refine along_step rfl trivial (along_step rfl trivial (along_step rfl trivial
      (along_step rfl trivial (along_step rfl ?_ (along_step rfl ?_ (along_step rfl trivial
        (along_step rfl trivial (along_step rfl trivial (along_step rfl ?_ trivial)))))))))
    · exact ⟨by decide, by decide, by decide, by decide⟩
    · intro row hrow _
      cases List.mem_singleton.mp hrow
      exact ⟨_, rfl⟩
    · refine ⟨⟨⟨_, List.mem_cons_self, rfl, rfl, rfl, rfl, rfl, rfl, rfl, rfl, rfl⟩,
        fun a ha hid => ?_⟩, ⟨_, rfl⟩⟩
      rcases List.mem_cons.mp ha with rfl | ha
      · rfl
      · rw [List.mem_singleton.mp ha] at hid
        exact absurd hid (by decide)

/-- An update of the memory leaves Wings with the old limit, though every call succeeds and
the two agreed before. -/
theorem memory_update_disagrees :
    RegistryAgrees configuredState ∧
      Along (step .framed .plain) CallsSucceed configuredState
        (updateRun { noUpdate with memory := some 2048 }) ∧
      ¬ Along (step .framed .plain) (AgreesAfter .framed .plain) configuredState
        (updateRun { noUpdate with memory := some 2048 }) := by
  refine ⟨configuredState_agrees, along_of_forall fun l hl s => ?_, fun h => ?_⟩
  · rcases List.mem_cons.mp hl with rfl | hl
    · trivial
    · rw [List.eq_of_mem_replicate hl]
      exact fun _ _ _ => rfl
  · have hlast := (((h.2 _ rfl).2 _ rfl).2 _ rfl).1
    obtain ⟨c, hc, hagrees⟩ := hlast _ rfl _ rfl _ List.mem_cons_self rfl
    cases (AList.lookup_insert _).symm.trans hc
    cases hagrees.memory

end OneServer

end Joint
