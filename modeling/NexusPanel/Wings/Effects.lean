import NexusPanel.Wings.Http

/-!
# What a handler can do

A handler of Wings changes the state by a few elementary effects: a call to Docker or a query,
a directory made for a server, a configuration stored or removed, a task spawned, a callback
posted. For every request and every spawned task this module says which effects its handler
may have, in terms of the request and of the state it arrives in; nothing else happens. An
invariant of Wings is checked against these effects, and the code of the handlers is not
looked at again.
-/

namespace Wings

open StateAction

/-! ## Effects -/

inductive Effect
  | call (c : DockerCall)
  | query (q : DockerQuery)
  /-- The directory of a server is made. -/
  | makeDir (uuid : String)
  | store (config : ServerConfig)
  | remove (uuid : String)
  | buffers (b : AList fun _ : String => List String)
  | spawn (task : Spawned)
  | post (callback : Callback)
  /-- An operation of the file API on a server. -/
  | files (uuid : String) (request : FileRequest)

def Effect.apply (serde : Serde) (s : AppState) : Effect → AppState
  | .call c => { s with
    docker := { s.docker with calls := c :: s.docker.calls, asked := s.docker.asked + 1 } }
  | .query q => { s with
    docker := { s.docker with queries := q :: s.docker.queries, asked := s.docker.asked + 1 } }
  | .makeDir uuid =>
    { s with fs := (s.fs.createDirAll (lexical (serverDir s.config.dataDir uuid))).1 }
  | .store config => (AppState.storeServerConfig serde config s).2
  | .remove uuid => (AppState.removeServerConfig uuid s).2
  | .buffers b => { s with consoleBuffers := b }
  | .spawn task => { s with spawned := s.spawned ++ [task] }
  | .post callback => { s with posts := callback :: s.posts }
  | .files uuid request =>
    { s with fs := (serveFiles (serverDir s.config.dataDir uuid) request s.fs).2 }

@[simp] theorem Effect.config_apply (serde : Serde) (s : AppState) (e : Effect) :
    (e.apply serde s).config = s.config := by
  cases e <;> simp only [Effect.apply, AppState.storeServerConfig, AppState.removeServerConfig,
    StateAction.modify]

/-- The second state comes from the first by effects of the given kind. -/
inductive After (serde : Serde) (A : Effect → Prop) (s : AppState) : AppState → Prop
  | refl : After serde A s s
  | step {t : AppState} {e : Effect} (h : After serde A s t) (he : A e) :
    After serde A s (e.apply serde t)

/-- What every effect of the kind preserves. -/
theorem After.preserves {serde : Serde} {A : Effect → Prop} {s t : AppState}
    {I : AppState → Prop} (h : After serde A s t) (hI : ∀ t e, A e → I t → I (e.apply serde t))
    (hs : I s) : I t := by
  induction h with
  | refl => exact hs
  | step _ he ih => exact hI _ _ he ih

/-! ## The effects of requests and tasks -/

/-- What is made of a configuration that is to be created. -/
def Proto.ServerConfig.created (cfg : Proto.ServerConfig) (dataDir : String) :
    Wings.ServerConfig :=
  { Grpc.toDockerConfig cfg with volumePath := serverDir dataDir cfg.uuid }

/-- Making a container for a server. -/
inductive CreateDoes (config : ServerConfig) : Effect → Prop
  | pull : CreateDoes config (.call (.pullImage config.dockerImage))
  | create : CreateDoes config (.call (.createContainer
      (DockerManager.containerName config.uuid) (DockerManager.gameSpec config)))

/-- An install run that starts in the state. -/
inductive InstallDoes (s : AppState) (config : ServerConfig) (script image : String) :
    Effect → Prop
  | pull : InstallDoes s config script image (.call (.pullImage image))
  | remove : InstallDoes s config script image
      (.call (.removeContainer (Installer.containerName config.uuid) false))
  | create : InstallDoes s config script image (.call (.createContainer
      (Installer.containerName config.uuid) (Installer.installSpec config script image)))
  | start : InstallDoes s config script image
      (.call (.startContainer (Installer.containerName config.uuid)))
  | logs : InstallDoes s config script image (.query (.logs (Installer.containerName config.uuid)))
  | wait : InstallDoes s config script image
      (.query (.waitContainer (Installer.containerName config.uuid)))
  | post (status : String) (message : Option String) :
    InstallDoes s config script image (.post (reportOf s config.uuid status message))

/-- A call of the manager on the container of a server. -/
inductive ContainerDoes (uuid : String) : Effect → Prop
  | start : ContainerDoes uuid (.call (.startContainer (DockerManager.containerName uuid)))
  | stop (timeout : Nat) :
    ContainerDoes uuid (.call (.stopContainer (DockerManager.containerName uuid) timeout))
  | kill : ContainerDoes uuid (.call (.killContainer (DockerManager.containerName uuid)))
  | restart : ContainerDoes uuid (.call (.restartContainer (DockerManager.containerName uuid)))
  | remove (volumes : Bool) :
    ContainerDoes uuid (.call (.removeContainer (DockerManager.containerName uuid) volumes))
  | update (memory nanoCpus : Option Int64) : ContainerDoes uuid
      (.call (.updateContainer (DockerManager.containerName uuid) memory nanoCpus))
  | exec (command : String) :
    ContainerDoes uuid (.call (.exec (DockerManager.containerName uuid) command))

/-- A query of the manager about the container of a server. -/
inductive ContainerAsks (uuid : String) : Effect → Prop
  | status : ContainerAsks uuid (.query (.listContainers (DockerManager.containerName uuid)))
  | stats : ContainerAsks uuid (.query (.stats (DockerManager.containerName uuid)))
  | logs : ContainerAsks uuid (.query (.logs (DockerManager.containerName uuid)))

/-- A gRPC request that arrives in the state. -/
inductive GrpcRequest.Does (s : AppState) : GrpcRequest → Effect → Prop
  | makeDir (cfg : Proto.ServerConfig) (script image : String) :
    Does s (.createServer (some cfg) script image) (.makeDir cfg.uuid)
  | storeCreated (cfg : Proto.ServerConfig) (script image : String) :
    Does s (.createServer (some cfg) script image) (.store (cfg.created s.config.dataDir))
  | create (cfg : Proto.ServerConfig) (script image : String) {e : Effect}
    (h : CreateDoes (cfg.created s.config.dataDir) e) :
    Does s (.createServer (some cfg) script image) e
  | spawnCreated (cfg : Proto.ServerConfig) (script image : String)
    (h : script ≠ "" ∧ image ≠ "") : Does s (.createServer (some cfg) script image)
      (.spawn (.install (cfg.created s.config.dataDir) script image))
  | delete (uuid : String) (volumes : Bool) {e : Effect} (h : ContainerDoes uuid e) :
    Does s (.deleteServer uuid volumes) e
  | dropBuffer (uuid : String) (volumes : Bool)
    (buffers : AList fun _ : String => List String) :
    Does s (.deleteServer uuid volumes) (.buffers buffers)
  | remove (uuid : String) (volumes : Bool) : Does s (.deleteServer uuid volumes) (.remove uuid)
  | storeReinstalled (cfg : Proto.ServerConfig) (script image : String) :
    Does s (.reinstallServer (some cfg) script image) (.store (Grpc.toDockerConfig cfg))
  | spawnReinstalled (cfg : Proto.ServerConfig) (script image : String) :
    Does s (.reinstallServer (some cfg) script image)
      (.spawn (.install (Grpc.toDockerConfig cfg) script image))
  | recreate (uuid : String) (action : Nat) {config : ServerConfig}
    (hstored : s.serverConfigs.lookup uuid = some config) {e : Effect}
    (h : CreateDoes config e) : Does s (.sendPowerAction uuid action) e
  | power (uuid : String) (action : Nat) {e : Effect} (h : ContainerDoes uuid e) :
    Does s (.sendPowerAction uuid action) e
  | powerStatus (uuid : String) (action : Nat) {e : Effect} (h : ContainerAsks uuid e) :
    Does s (.sendPowerAction uuid action) e
  | spawnPower (uuid : String) (action : Nat) (name : String) :
    Does s (.sendPowerAction uuid action) (.spawn (.powerAction uuid name))
  | command (uuid command : String) {e : Effect} (h : ContainerDoes uuid e) :
    Does s (.sendCommand uuid command) e
  | storeSynced (cfg : Proto.ServerConfig) :
    Does s (.syncServerConfig (some cfg)) (.store (Grpc.toDockerConfig cfg))
  | status (uuid : String) {e : Effect} (h : ContainerAsks uuid e) :
    Does s (.getServerStatus uuid) e
  | version : Does s .getSystemInfo (.query .version)
  | listManaged : Does s .getSystemInfo (.query .listManaged)
  | update (uuid : String) (memory : UInt64) (cpu : UInt32) (disk : UInt64) {e : Effect}
    (h : ContainerDoes uuid e) : Does s (.updateResources uuid memory cpu disk) e
  | storeUpdated (uuid : String) (memory : UInt64) (cpu : UInt32) (disk : UInt64)
    {config : ServerConfig} (hstored : s.serverConfigs.lookup uuid = some config) :
    Does s (.updateResources uuid memory cpu disk) (.store { config with
      memoryLimit := memory, cpuLimit := cpu.toUInt64, diskLimit := disk })

/-- A spawned task that starts in the state. -/
inductive Spawned.Does (s : AppState) : Spawned → Effect → Prop
  | install (config : ServerConfig) (script image : String) {e : Effect}
    (h : InstallDoes s config script image e) : Does s (.install config script image) e
  | power (uuid action : String) {e : Effect} (h : ContainerDoes uuid e) :
    Does s (.powerAction uuid action) e
  | status (uuid action : String) {e : Effect} (h : ContainerAsks uuid e) :
    Does s (.powerAction uuid action) e

/-- What `install_server` of the HTTP interface installs. -/
def HttpRequest.installed (dataDir uuid : String) (server : Option ServerConfig) : ServerConfig :=
  server.getD ⟨uuid, "", "", [], 0, 0, 0, [], serverDir dataDir uuid⟩

/-- An HTTP request that arrives in the state. -/
inductive HttpRequest.Does (s : AppState) : HttpRequest → Effect → Prop
  | version : Does s .systemInfo (.query .version)
  | makeDir (server : ServerConfig) (script image : Option String) :
    Does s (.createServer server script image) (.makeDir server.uuid)
  | create (server : ServerConfig) (script image : Option String) {e : Effect}
    (h : CreateDoes { server with volumePath := serverDir s.config.dataDir server.uuid } e) :
    Does s (.createServer server script image) e
  | installCreated (server : ServerConfig) (script image : String) {e : Effect}
    (h : InstallDoes s { server with volumePath := serverDir s.config.dataDir server.uuid }
      script image e) : Does s (.createServer server (some script) (some image)) e
  | delete (uuid : String) (volumes : Bool) {e : Effect} (h : ContainerDoes uuid e) :
    Does s (.deleteServer uuid volumes) e
  | dropBuffer (uuid : String) (volumes : Bool)
    (buffers : AList fun _ : String => List String) :
    Does s (.deleteServer uuid volumes) (.buffers buffers)
  | power (uuid action : String) {e : Effect} (h : ContainerDoes uuid e) :
    Does s (.powerAction uuid action) e
  | command (uuid command : String) {e : Effect} (h : ContainerDoes uuid e) :
    Does s (.sendCommand uuid command) e
  | update (uuid : String) (memory cpu disk : Option UInt64) {e : Effect}
    (h : ContainerDoes uuid e) : Does s (.updateResources uuid memory cpu disk) e
  | status (uuid : String) {e : Effect} (h : ContainerAsks uuid e) : Does s (.getStatus uuid) e
  | install (uuid : String) (given installScript : Option String) (image : String)
    (server : Option ServerConfig) (script : String) {e : Effect}
    (h : InstallDoes s (installed s.config.dataDir uuid server) script image e) :
    Does s (.installServer uuid given installScript (some image) server) e
  | files (uuid : String) (request : FileRequest) :
    Does s (.files uuid request) (.files uuid request)

/-- A WebSocket session. -/
inductive WebSocketDoes (uuid : String) : Effect → Prop
  | buffers (buffers : AList fun _ : String => List String) : WebSocketDoes uuid (.buffers buffers)
  | stream {e : Effect} (h : ContainerAsks uuid e) : WebSocketDoes uuid e
  | command {e : Effect} (h : ContainerDoes uuid e) : WebSocketDoes uuid e

/-! ## The handlers have no other effects -/

section Handlers

variable {serde : Serde} {A : Effect → Prop} {s₀ : AppState} {config : ServerConfig}
  {uuid : String}

theorem after_call {c : DockerCall} (h : A (.call c)) :
    Keeps (After serde A s₀) (dockerCall c) := keeps_ask fun _ hs => hs.step h

theorem after_query {q : DockerQuery} (h : A (.query q)) :
    Keeps (After serde A s₀) (dockerQuery q) := keeps_ask fun _ hs => hs.step h

theorem after_store (h : A (.store config)) :
    Keeps (After serde A s₀) (AppState.storeServerConfig serde config) :=
  Keeps.modify fun _ hs => hs.step h

theorem after_remove (h : A (.remove uuid)) :
    Keeps (After serde A s₀) (AppState.removeServerConfig uuid) :=
  Keeps.modify fun _ hs => hs.step h

theorem after_spawn {ε : Type} {task : Spawned} (h : A (.spawn task)) :
    Keeps (After serde A s₀) (Grpc.spawn task : StateAction AppState ε Unit) :=
  Keeps.modify fun _ hs => hs.step h

theorem after_getContainerStatus (h : ∀ e, ContainerAsks uuid e → A e) :
    Keeps (After serde A s₀) (DockerManager.getContainerStatus uuid) :=
  Keeps.bind (after_query (h _ .status)) fun _ => Keeps.ofOption

theorem after_getStats (h : ∀ e, ContainerAsks uuid e → A e) :
    Keeps (After serde A s₀) (DockerManager.getStats uuid) :=
  Keeps.bind (after_query (h _ .stats)) fun _ => Keeps.ofOption

theorem after_createContainer (h : ∀ e, CreateDoes config e → A e) :
    Keeps (After serde A s₀) (DockerManager.createServer config) :=
  Keeps.bind (after_call (h _ .pull)) fun _ =>
    Keeps.bind (after_call (h _ .create)) fun _ => Keeps.pure

theorem after_deleteServer {volumes : Bool} (h : ∀ e, ContainerDoes uuid e → A e) :
    Keeps (After serde A s₀) (DockerManager.deleteServer uuid volumes) :=
  Keeps.bind (Keeps.attempt (after_call (h _ (.stop 10)))) fun _ =>
    Keeps.bind (after_call (h _ (.remove volumes))) fun _ => Keeps.pure

theorem after_sendCommand {command : String} (h : ∀ e, ContainerDoes uuid e → A e) :
    Keeps (After serde A s₀) (DockerManager.sendCommand uuid command) :=
  Keeps.bind (after_call (h _ (.exec command))) fun _ => Keeps.pure

theorem after_notify {panelUrl panelAuth message : Option String} {status : String}
    (h : ∀ url auth, panelUrl = some url → panelAuth = some auth →
      A (.post ⟨Installer.callbackUrl url uuid, "Bearer " ++ auth, status, message⟩)) :
    Keeps (After serde A s₀) (Installer.notify panelUrl panelAuth uuid status message) := by
  unfold Installer.notify
  split
  next url auth => exact Keeps.modify fun _ hs => hs.step (h url auth rfl rfl)
  next => exact Keeps.pure

/-- An install run has the effects of one that starts where it starts. -/
theorem after_install {script image : String} (h : ∀ e, InstallDoes s₀ config script image e → A e) :
    Triple (fun t => t.config = s₀.config ∧ After serde A s₀ t)
      (Installer.install config script image) (fun _ => After serde A s₀) (After serde A s₀) := by
  refine Triple.bind (Triple.get (Q := fun u t => u.config = s₀.config ∧ After serde A s₀ t)
    fun t ht => ht) fun u => Triple.assume fun hconfig => ?_
  have hnotify : ∀ status message, Keeps (After serde A s₀)
      (Installer.notify (some u.config.panelUrl)
        (some (u.config.tokenId ++ "." ++ u.config.token)) config.uuid status message) := by
    intro status message
    refine after_notify fun url auth hurl hauth => ?_
    cases hurl
    cases hauth
    rw [hconfig]
    exact h _ (.post status message)
  refine Keeps.bind (after_call (h _ .pull)) fun _ => ?_
  refine Keeps.bind (Keeps.attempt (after_call (h _ .remove))) fun _ => ?_
  refine Keeps.bind (after_call (h _ .create)) fun _ => ?_
  refine Keeps.bind (after_call (h _ .start)) fun _ => ?_
  refine Keeps.bind (Keeps.attempt (after_query (h _ .logs))) fun _ => ?_
  refine Keeps.bind (after_query (h _ .wait)) fun exit => ?_
  split
  · refine Keeps.bind (hnotify _ _) fun _ => ?_
    exact Keeps.bind (Keeps.attempt (after_call (h _ .remove))) fun _ => Keeps.fail
  · refine Keeps.bind (hnotify _ _) fun _ => ?_
    exact Keeps.bind (Keeps.attempt (after_call (h _ .remove))) fun _ => Keeps.pure

/-- No effect changes the configuration of Wings. -/
theorem After.config_eq {t : AppState} (h : After serde A s₀ t) : t.config = s₀.config := by
  refine h.preserves (I := fun t => t.config = s₀.config) (fun t e _ ht => ?_) rfl
  rw [Effect.config_apply]
  exact ht

/-! ### gRPC -/

theorem after_createServer {server : Option Proto.ServerConfig} {script image : String} :
    Keeps (After serde (GrpcRequest.Does s₀ (.createServer server script image)) s₀)
      (Grpc.createServer serde server script image) := by
  refine Triple.bind (Triple.ofOption (Q := fun cfg s => server = some cfg ∧
    After serde (GrpcRequest.Does s₀ (.createServer server script image)) s₀ s)
    (fun cfg hcfg s hs => ⟨hcfg, hs⟩) fun s hs => hs) fun cfg => Triple.assume fun hcfg => ?_
  subst hcfg
  have hdir : Triple (After serde (GrpcRequest.Does s₀ (.createServer (some cfg) script image)) s₀)
      (Grpc.ensureServerDir cfg.uuid) (fun dir s => dir = serverDir s₀.config.dataDir cfg.uuid ∧
        After serde (GrpcRequest.Does s₀ (.createServer (some cfg) script image)) s₀ s)
      (After serde (GrpcRequest.Does s₀ (.createServer (some cfg) script image)) s₀) := by
    refine Triple.bind (Triple.get (Q := fun u s => u = s ∧
      After serde (GrpcRequest.Does s₀ (.createServer (some cfg) script image)) s₀ s)
      fun s hs => ⟨rfl, hs⟩) fun u => ?_
    refine Triple.bind (Q := fun _ s => u.config = s₀.config ∧
      After serde (GrpcRequest.Does s₀ (.createServer (some cfg) script image)) s₀ s)
      (Triple.modify ?_) fun _ => Triple.assume fun hconfig => ?_
    · rintro s ⟨rfl, hs⟩
      exact ⟨hs.config_eq, hs.step (.makeDir cfg script image)⟩
    · refine Triple.bind (Q := fun _ => After serde _ s₀) Keeps.ensure fun _ =>
        Triple.pure fun s hs => ⟨?_, hs⟩
      rw [hconfig]
  refine Triple.bind hdir fun dir => Triple.assume fun hdir => ?_
  subst hdir
  refine Keeps.bind (Keeps.mapErr (after_store (.storeCreated cfg script image))) fun _ => ?_
  refine Keeps.bind (Keeps.mapErr (after_createContainer fun e he =>
    .create cfg script image he)) fun _ => ?_
  refine Triple.ite (fun hinstall => ?_) fun _ => Keeps.pure
  exact Keeps.bind (after_spawn (.spawnCreated cfg script image hinstall)) fun _ => Keeps.pure

/-- Calls and queries on a container leave the registry alone. -/
theorem After.registry_eq {t : AppState} (h : After serde A s₀ t)
    (hA : ∀ e, A e → (∃ c, e = .call c) ∨ (∃ q, e = .query q) ∨ ∃ task, e = .spawn task) :
    t.serverConfigs = s₀.serverConfigs := by
  refine h.preserves (I := fun t => t.serverConfigs = s₀.serverConfigs) (fun t e he ht => ?_) rfl
  rcases hA e he with ⟨c, rfl⟩ | ⟨q, rfl⟩ | ⟨task, rfl⟩ <;> exact ht

theorem After.mono {B : Effect → Prop} {t : AppState} (h : After serde A s₀ t)
    (hAB : ∀ e, A e → B e) : After serde B s₀ t := by
  induction h with
  | refl => exact .refl
  | step _ he ih => exact ih.step (hAB _ he)

/-- As long as the registry is as it was, it answers what it would have answered. -/
theorem after_getServerConfig
    (hregistry : ∀ t, After serde A s₀ t → t.serverConfigs = s₀.serverConfigs) :
    Triple (After serde A s₀) (AppState.getServerConfig uuid)
      (fun stored t => stored = s₀.serverConfigs.lookup uuid ∧ After serde A s₀ t)
      (After serde A s₀) := by
  refine Triple.bind (Triple.get (Q := fun u t => u = t ∧ After serde A s₀ t)
    fun t ht => ⟨rfl, ht⟩) fun u => Triple.pure ?_
  rintro t ⟨rfl, ht⟩
  exact ⟨by rw [hregistry u ht], ht⟩

theorem power_effects {action : Nat} {e : Effect} (h : GrpcRequest.Does s₀ (.sendPowerAction uuid action) e) :
    (∃ c, e = .call c) ∨ (∃ q, e = .query q) ∨ ∃ task, e = .spawn task := by
  cases h with
  | recreate _ _ _ h => cases h <;> exact .inl ⟨_, rfl⟩
  | power _ _ h => cases h <;> exact .inl ⟨_, rfl⟩
  | powerStatus _ _ h => cases h <;> exact .inr (.inl ⟨_, rfl⟩)
  | spawnPower _ _ name => exact .inr (.inr ⟨_, rfl⟩)

theorem after_sendPowerAction {action : Nat} :
    Keeps (After serde (GrpcRequest.Does s₀ (.sendPowerAction uuid action)) s₀)
      (Grpc.sendPowerAction uuid action) := by
  have hstatus : Keeps (After serde (GrpcRequest.Does s₀ (.sendPowerAction uuid action)) s₀)
      ((DockerManager.getContainerStatus uuid).attempt : Method (Option String)) :=
    Keeps.attempt (after_getContainerStatus fun e he => .powerStatus uuid action he)
  refine Keeps.bind Keeps.ofOption fun name => Triple.ite (fun _ => ?_) fun _ => ?_
  · have hrecreate : Keeps (After serde (GrpcRequest.Does s₀ (.sendPowerAction uuid action)) s₀)
        (Grpc.recreateMissing uuid) := by
      refine Keeps.bind hstatus fun status => Triple.ite (fun _ => Keeps.pure) fun _ => ?_
      refine Triple.bind (Triple.mapErr (after_getServerConfig fun t ht =>
        ht.registry_eq fun _ => power_effects)) fun stored => Triple.assume fun hstored => ?_
      refine Triple.bind (Triple.ofOption (Q := fun cfg t => stored = some cfg ∧
        After serde (GrpcRequest.Does s₀ (.sendPowerAction uuid action)) s₀ t)
        (fun cfg hcfg t ht => ⟨hcfg, ht⟩) fun t ht => ht) fun cfg => Triple.assume fun hcfg => ?_
      refine Keeps.bind (Keeps.mapErr (after_createContainer fun e he => ?_)) fun _ => Keeps.pure
      exact .recreate uuid action (hstored.symm.trans hcfg) he
    refine Keeps.bind hrecreate fun _ => Keeps.bind hstatus fun _ => ?_
    refine Keeps.bind (Keeps.mapErr (Keeps.bind (after_call
      (.power uuid action .start)) fun _ => Keeps.pure)) fun _ => ?_
    exact Keeps.bind hstatus fun _ => Keeps.pure
  · refine Keeps.bind hstatus fun _ => ?_
    exact Keeps.bind (after_spawn (.spawnPower uuid action name)) fun _ => Keeps.pure

theorem after_updateResources {memory disk : UInt64} {cpu : UInt32} :
    Triple (fun t => t = s₀) (Grpc.updateResources serde uuid memory cpu disk)
      (fun _ => After serde (GrpcRequest.Does s₀ (.updateResources uuid memory cpu disk)) s₀)
      (After serde (GrpcRequest.Does s₀ (.updateResources uuid memory cpu disk)) s₀) := by
  have hcall : Keeps (After serde (ContainerDoes uuid) s₀) (dockerCall (.updateContainer
      (DockerManager.containerName uuid) (some (memory * 1024 * 1024).toInt64)
      (some (cpu.toUInt64.toInt64 * 10000000)))) := after_call (.update _ _)
  have hmono : ∀ t, After serde (ContainerDoes uuid) s₀ t →
      After serde (GrpcRequest.Does s₀ (.updateResources uuid memory cpu disk)) s₀ t :=
    fun t ht => ht.mono fun e he => .update uuid memory cpu disk he
  refine Triple.bind (Triple.mapErr (hcall.weaken ?_ (fun _ _ h => h) hmono)) fun _ => ?_
  · rintro t rfl
    exact .refl
  refine Triple.bind (Triple.mapErr ((after_getServerConfig fun t ht => ht.registry_eq ?_).weaken
    (fun _ h => h) (fun _ _ h => ⟨h.1, hmono _ h.2⟩) hmono)) fun stored =>
    Triple.assume fun hstored => ?_
  · intro e he
    cases he <;> exact .inl ⟨_, rfl⟩
  cases stored with
  | none => exact Keeps.pure
  | some cfg =>
    exact Keeps.bind (Keeps.mapErr (after_store (.storeUpdated uuid memory cpu disk hstored.symm)))
      fun _ => Keeps.pure

/-- A gRPC request has no other effects than its own. -/
theorem after_serve (serde : Serde) (request : GrpcRequest) (s : AppState) :
    After serde (request.Does s) s (Grpc.serve serde request s).2 := by
  cases request with
  | createServer server script image => exact after_createServer.snd .refl
  | deleteServer uuid volumes =>
    have hdelete : Keeps (After serde (GrpcRequest.Does s (.deleteServer uuid volumes)) s)
        (Grpc.deleteServer uuid volumes) := by
      refine Keeps.bind (Keeps.mapErr (after_deleteServer fun e he => .delete uuid volumes he))
        fun _ => ?_
      refine Keeps.bind (Keeps.modify fun t ht => ht.step (.dropBuffer uuid volumes _)) fun _ => ?_
      exact Keeps.bind (Keeps.mapErr (after_remove (.remove uuid volumes))) fun _ => Keeps.pure
    exact hdelete.snd .refl
  | reinstallServer server script image =>
    have hreinstall : Keeps (After serde (GrpcRequest.Does s (.reinstallServer server script image))
        s) (Grpc.reinstallServer serde server script image) := by
      refine Keeps.bindOption fun cfg hcfg => ?_
      subst hcfg
      refine Keeps.bind (Keeps.mapErr (after_store (.storeReinstalled cfg script image)))
        fun _ => ?_
      exact Keeps.bind (after_spawn (.spawnReinstalled cfg script image)) fun _ => Keeps.pure
    exact hreinstall.snd .refl
  | sendPowerAction uuid action => exact after_sendPowerAction.snd .refl
  | sendCommand uuid command =>
    have hcommand : Keeps (After serde (GrpcRequest.Does s (.sendCommand uuid command)) s)
        (Grpc.sendCommand uuid command) :=
      Keeps.bind (Keeps.mapErr (after_sendCommand fun e he => .command uuid command he))
        fun _ => Keeps.pure
    exact hcommand.snd .refl
  | syncServerConfig server =>
    have hsync : Keeps (After serde (GrpcRequest.Does s (.syncServerConfig server)) s)
        (Grpc.syncServerConfig serde server) := by
      refine Keeps.bindOption fun cfg hcfg => ?_
      subst hcfg
      exact Keeps.bind (Keeps.mapErr (after_store (.storeSynced cfg))) fun _ => Keeps.pure
    exact hsync.snd .refl
  | getServerStatus uuid =>
    have hstatus : Keeps (After serde (GrpcRequest.Does s (.getServerStatus uuid)) s)
        (Grpc.getServerStatus uuid) := by
      refine Keeps.bind (Keeps.mapErr (after_getContainerStatus fun e he => .status uuid he))
        fun state => Triple.ite (fun _ => ?_) fun _ => Keeps.pure
      exact Keeps.bind (Keeps.attempt (after_getStats fun e he => .status uuid he))
        fun _ => Keeps.pure
    exact hstatus.snd .refl
  | getSystemInfo =>
    have hinfo : Keeps (After serde (GrpcRequest.Does s .getSystemInfo) s) Grpc.getSystemInfo := by
      refine Keeps.bind (Keeps.attempt (Keeps.bind (after_query .version) fun _ => Keeps.pure))
        fun _ => ?_
      exact Keeps.bind (Keeps.attempt (after_query .listManaged)) fun _ => Keeps.pure
    exact hinfo.snd .refl
  | updateResources uuid memory cpu disk => exact after_updateResources.snd rfl
  | eventStream => exact .refl

/-- A spawned task has no other effects than its own. -/
theorem after_runSpawned (serde : Serde) (task : Spawned) (s : AppState) :
    After serde (task.Does s) s (runSpawned task s).2 := by
  cases task with
  | install config script image =>
    have hinstall : Triple (fun t => t.config = s.config ∧
        After serde (Spawned.Does s (.install config script image)) s t)
        (runSpawned (.install config script image))
        (fun _ => After serde (Spawned.Does s (.install config script image)) s)
        (After serde (Spawned.Does s (.install config script image)) s) :=
      Triple.bind (after_install fun e he => .install config script image he) fun _ => Keeps.pure
    exact hinstall.snd ⟨rfl, .refl⟩
  | powerAction uuid action =>
    have hpower : ∀ {c : DockerCall}, ContainerDoes uuid (.call c) →
        Keeps (After serde (Spawned.Does s (.powerAction uuid action)) s)
          (do let _ ← dockerCall c) :=
      fun h => Keeps.bind (after_call (.power uuid action h)) fun _ => Keeps.pure
    have htask : Keeps (After serde (Spawned.Does s (.powerAction uuid action)) s)
        (runSpawned (.powerAction uuid action)) := by
      refine Keeps.bind ?_ fun _ => ?_
      · unfold powerTask
        split
        · exact hpower (.stop 30)
        · exact hpower .restart
        · exact hpower .kill
        · exact Keeps.pure
      · exact Keeps.bind (Keeps.attempt (after_getContainerStatus fun e he =>
          .status uuid action he)) fun _ => Keeps.pure
    exact htask.snd .refl

/-! ### HTTP -/

theorem after_onFiles {α : Type} {m : FileAction α} {e : Effect} (h : A e)
    (heq : ∀ t : AppState, t.config = s₀.config → { t with fs := (m t.fs).2 } = e.apply serde t) :
    Keeps (After serde A s₀) (Http.onFiles m) :=
  Triple.of_snd fun t ht => by
    have hstate : (Http.onFiles m t).2 = e.apply serde t := heq t ht.config_eq
    rw [hstate]
    exact ht.step h

theorem snd_makeDirs (fs : FS.FileSystem) (p : FS.Path) :
    (makeDirs p fs).2 = (fs.createDirAll p).1 := by
  unfold makeDirs
  split
  next h => rw [h]
  next h => rw [h]

/-- An HTTP request has no other effects than its own. -/
theorem after_http (serde : Serde) (request : HttpRequest) (s : AppState) :
    After serde (request.Does s) s (Http.serve request s).2 := by
  cases request with
  | systemInfo =>
    have hinfo : Keeps (After serde (HttpRequest.Does s .systemInfo) s) (Http.serve .systemInfo) :=
      Keeps.bind (Keeps.bind (after_query .version) fun _ => Keeps.pure) fun _ => Keeps.pure
    exact hinfo.snd .refl
  | createServer server script image =>
    have hcreate : Triple (fun t => t.config = s.config ∧
        After serde (HttpRequest.Does s (.createServer server script image)) s t)
        (Http.createServer server script image)
        (fun _ => After serde (HttpRequest.Does s (.createServer server script image)) s)
        (After serde (HttpRequest.Does s (.createServer server script image)) s) := by
      refine Triple.bind (Triple.get (Q := fun u t => u.config = s.config ∧
        After serde (HttpRequest.Does s (.createServer server script image)) s t)
        fun t ht => ht) fun u => Triple.assume fun hconfig => ?_
      rw [hconfig]
      refine Keeps.bind (after_onFiles (.makeDir server script image) fun t ht => ?_) fun _ => ?_
      · rw [snd_makeDirs, Effect.apply, ht]
      refine Keeps.bind (after_createContainer fun e he => .create server script image he)
        fun id => ?_
      cases script with
      | none => exact Keeps.pure
      | some script =>
        cases image with
        | none => exact Keeps.pure
        | some image =>
          refine Keeps.bind (Keeps.attempt ((after_install fun e he =>
            .installCreated server script image he).weaken (fun t ht => ⟨ht.config_eq, ht⟩)
            (fun _ _ h => h) fun _ h => h)) fun _ => Keeps.pure
    show After serde _ s (Http.createServer server script image s).2
    exact hcreate.snd ⟨rfl, .refl⟩
  | deleteServer uuid volumes =>
    have hdelete : Keeps (After serde (HttpRequest.Does s (.deleteServer uuid volumes)) s)
        (Http.deleteServer uuid volumes) := by
      refine Keeps.bind (after_deleteServer fun e he => .delete uuid volumes he) fun _ => ?_
      exact Keeps.bind (Keeps.modify fun t ht => ht.step (.dropBuffer uuid volumes _))
        fun _ => Keeps.pure
    exact hdelete.snd .refl
  | powerAction uuid action =>
    have hpower : ∀ {c : DockerCall}, ContainerDoes uuid (.call c) →
        Keeps (After serde (HttpRequest.Does s (.powerAction uuid action)) s)
          (do let _ ← dockerCall c) :=
      fun h => Keeps.bind (after_call (.power uuid action h)) fun _ => Keeps.pure
    have hserve : Keeps (After serde (HttpRequest.Does s (.powerAction uuid action)) s)
        (Http.powerAction uuid action) := by
      unfold Http.powerAction
      split
      · exact Keeps.bind (hpower .start) fun _ => Keeps.pure
      · exact Keeps.bind (hpower (.stop 30)) fun _ => Keeps.pure
      · exact Keeps.bind (hpower .restart) fun _ => Keeps.pure
      · exact Keeps.bind (hpower .kill) fun _ => Keeps.pure
      · exact Keeps.bind Keeps.fail fun _ => Keeps.pure
    exact hserve.snd .refl
  | sendCommand uuid command =>
    have hcommand : Keeps (After serde (HttpRequest.Does s (.sendCommand uuid command)) s)
        (Http.serve (.sendCommand uuid command)) :=
      Keeps.bind (after_sendCommand fun e he => .command uuid command he) fun _ => Keeps.pure
    exact hcommand.snd .refl
  | updateResources uuid memory cpu disk =>
    have hupdate : Keeps (After serde (HttpRequest.Does s (.updateResources uuid memory cpu disk))
        s) (Http.updateResources uuid memory cpu) :=
      Keeps.bind (after_call (.update uuid memory cpu disk (.update _ _))) fun _ => Keeps.pure
    exact hupdate.snd .refl
  | getStatus uuid =>
    have hstatus : Keeps (After serde (HttpRequest.Does s (.getStatus uuid)) s)
        (Http.getStatus uuid) := by
      refine Keeps.bind (after_getContainerStatus fun e he => .status uuid he) fun state =>
        Triple.ite (fun _ => ?_) fun _ => Keeps.pure
      exact Keeps.bind (Keeps.attempt (after_getStats fun e he => .status uuid he))
        fun _ => Keeps.pure
    exact hstatus.snd .refl
  | installServer uuid given installScript image server =>
    have hinstall : Keeps (After serde
        (HttpRequest.Does s (.installServer uuid given installScript image server)) s)
        (Http.installServer uuid given installScript image server) := by
      refine Keeps.bindOption fun script _ => Keeps.bindOption fun image himage => ?_
      subst himage
      refine Triple.bind (Triple.get (Q := fun u t => u.config = s.config ∧ After serde
        (HttpRequest.Does s (.installServer uuid given installScript (some image) server)) s t)
        fun t ht => ⟨ht.config_eq, ht⟩) fun u => Triple.assume fun hconfig => ?_
      rw [hconfig]
      refine Triple.bind ((after_install fun e he =>
        .install uuid given installScript image server script he).weaken
        (fun t ht => ⟨ht.config_eq, ht⟩) (fun _ _ h => h) fun _ h => h) fun _ => Keeps.pure
    exact hinstall.snd .refl
  | files uuid request =>
    have hfiles : Keeps (After serde (HttpRequest.Does s (.files uuid request)) s)
        (Http.serve (.files uuid request)) := by
      refine Triple.bind (Triple.get (Q := fun u t => u.config = s.config ∧
        After serde (HttpRequest.Does s (.files uuid request)) s t)
        fun t ht => ⟨ht.config_eq, ht⟩) fun u => Triple.assume fun hconfig => ?_
      refine Keeps.bind (after_onFiles (.files uuid request) fun t ht => ?_) fun _ => Keeps.pure
      rw [hconfig, Effect.apply, ht]
    exact hfiles.snd .refl

/-- A WebSocket session has no other effects than its own. -/
theorem after_webSocket (serde : Serde) (uuid : String) (events : List Http.WsEvent)
    (s : AppState) : After serde (WebSocketDoes uuid) s (Http.handleWs uuid events s).2 := by
  have hbuffer : ∀ u, Keeps (After serde (WebSocketDoes uuid) s) (AppState.getOrCreateBuffer u) := by
    intro u
    refine Keeps.bind Keeps.get fun t => ?_
    split
    · exact Keeps.pure
    · exact Keeps.bind (Keeps.modify fun t ht => ht.step (.buffers _)) fun _ => Keeps.pure
  have hsession : Keeps (After serde (WebSocketDoes uuid) s) (Http.handleWs uuid events) := by
    refine Keeps.bind (hbuffer uuid) fun replay => ?_
    refine Keeps.bind (Keeps.attempt (after_query (.stream .stats))) fun _ => ?_
    refine Keeps.bind (Keeps.attempt (after_query (.stream .logs))) fun _ => ?_
    refine Keeps.bind (Keeps.forEach fun event _ => ?_) fun _ => Keeps.pure
    cases event with
    | command command =>
      exact Keeps.bind (Keeps.attempt (after_sendCommand fun e he => .command he))
        fun _ => Keeps.pure
    | log line =>
      exact Keeps.bind (hbuffer uuid) fun lines => Keeps.modify fun t ht => ht.step (.buffers _)
  exact hsession.snd .refl

end Handlers

/-! ## The registry, the spawned tasks and the callbacks -/

section Registry

variable {serde : Serde} {A : Effect → Prop} {s t : AppState} {uuid : String}
  {config : ServerConfig}

/-- An entry of the registry was there before, or its configuration was stored. -/
theorem After.entry (h : After serde A s t) (hentry : t.serverConfigs.lookup uuid = some config) :
    s.serverConfigs.lookup uuid = some config ∨ config.uuid = uuid ∧ A (.store config) := by
  refine h.preserves (I := fun t => ∀ uuid config, t.serverConfigs.lookup uuid = some config →
    s.serverConfigs.lookup uuid = some config ∨ config.uuid = uuid ∧ A (.store config))
    (fun t e he ht u c hc => ?_) (fun _ _ h => .inl h) uuid config hentry
  cases e with
  | store stored =>
    simp only [Effect.apply, AppState.storeServerConfig, StateAction.modify] at hc
    by_cases hu : u = stored.uuid
    · subst hu
      rw [AList.lookup_insert] at hc
      cases hc
      exact .inr ⟨rfl, he⟩
    · rw [AList.lookup_insert_ne hu] at hc
      exact ht u c hc
  | remove removed =>
    simp only [Effect.apply, AppState.removeServerConfig, StateAction.modify] at hc
    by_cases hu : u = removed
    · subst hu
      rw [AList.lookup_erase] at hc
      cases hc
    · rw [AList.lookup_erase_ne hu] at hc
      exact ht u c hc
  | call _ | query _ | makeDir _ | buffers _ | spawn _ | post _ | files _ _ =>
    rw [Effect.apply] at hc
    exact ht u c hc

/-- Nothing that was spawned or posted goes away. -/
theorem After.subset (h : After serde A s t) : s.spawned ⊆ t.spawned ∧ s.posts ⊆ t.posts := by
  refine h.preserves (I := fun t => s.spawned ⊆ t.spawned ∧ s.posts ⊆ t.posts)
    (fun t e _ ht => ?_) ⟨List.Subset.refl _, List.Subset.refl _⟩
  cases e with
  | spawn task => exact ⟨fun x hx => List.mem_append_left _ (ht.1 hx), ht.2⟩
  | post callback => exact ⟨ht.1, fun x hx => List.mem_cons_of_mem _ (ht.2 hx)⟩
  | store _ =>
    simp only [Effect.apply, AppState.storeServerConfig, StateAction.modify]
    exact ht
  | remove _ =>
    simp only [Effect.apply, AppState.removeServerConfig, StateAction.modify]
    exact ht
  | call _ | query _ | makeDir _ | buffers _ | files _ _ =>
    rw [Effect.apply]
    exact ht

theorem keeps_lookup_createContainer :
    Keeps (fun t : AppState => t.serverConfigs.lookup uuid = some config)
      (DockerManager.createServer config) :=
  Keeps.bind (keeps_ask fun _ h => h) fun _ => Keeps.bind (keeps_ask fun _ h => h) fun _ => Keeps.pure

/-- A server that was created has the configuration that was made of the request, and its
install is on the way if the request came with one. -/
theorem createServer_ok {cfg : Proto.ServerConfig} {script image : String}
    {response : GrpcResponse}
    (h : (Grpc.serve serde (.createServer (some cfg) script image) s).1 = .ok response) :
    (Grpc.serve serde (.createServer (some cfg) script image) s).2.serverConfigs.lookup cfg.uuid =
        some (cfg.created s.config.dataDir) ∧
      (script ≠ "" ∧ image ≠ "" → .install (cfg.created s.config.dataDir) script image ∈
        (Grpc.serve serde (.createServer (some cfg) script image) s).2.spawned) := by
  have hstores : Triple (fun t => t = s) (Grpc.createServer serde (some cfg) script image)
      (fun _ t => t.serverConfigs.lookup cfg.uuid = some (cfg.created s.config.dataDir) ∧
        (script ≠ "" ∧ image ≠ "" →
          .install (cfg.created s.config.dataDir) script image ∈ t.spawned))
      (fun _ => True) := by
    refine Triple.bind (Triple.ofOption (Q := fun cfg' t => cfg' = cfg ∧ t = s)
      (fun a ha t ht => ⟨(Option.some.inj ha).symm, ht⟩) fun _ _ => trivial) fun cfg' =>
      Triple.assume fun hcfg => ?_
    subst hcfg
    have hdir : Triple (fun t => t = s) (Grpc.ensureServerDir cfg'.uuid)
        (fun dir _ => dir = serverDir s.config.dataDir cfg'.uuid) (fun _ => True) := by
      refine Triple.bind (Triple.get (Q := fun u _ => u = s) fun _ h => h) fun u => ?_
      refine Triple.bind (Q := fun _ _ => u = s) (Triple.modify fun _ h => h) fun _ => ?_
      refine Triple.bind (Q := fun _ _ => u = s) (Triple.ensure (fun _ _ h => h) fun _ _ => trivial)
        fun _ => Triple.pure fun _ h => ?_
      rw [h]
    refine Triple.bind hdir fun dir => ?_
    refine Triple.bind (Q := fun _ t => dir = serverDir s.config.dataDir cfg'.uuid ∧
      t.serverConfigs.lookup cfg'.uuid = some (cfg'.created s.config.dataDir))
      (Triple.mapErr (Triple.modify fun t ht => ⟨ht, ?_⟩)) fun _ => Triple.assume fun hdir => ?_
    · subst ht
      exact AList.lookup_insert _
    · subst hdir
      refine Triple.bind (Triple.mapErr (keeps_lookup_createContainer.weaken (fun _ h => h)
        (fun _ _ h => h) fun _ _ => trivial)) fun _ => ?_
      refine Triple.ite (fun _ => ?_) fun hnone => Triple.pure fun _ h =>
        ⟨h, fun hsome => absurd hsome hnone⟩
      refine Triple.bind (Triple.modify fun t ht => ⟨ht, fun _ => ?_⟩) fun _ =>
        Triple.pure fun _ h => h
      exact List.mem_append_right _ (List.mem_singleton_self _)
  rw [Grpc.serve] at h ⊢
  exact hstores.fst rfl h

/-- A server that is reinstalled has the configuration of the request. -/
theorem lookup_reinstallServer {cfg : Proto.ServerConfig} {script image : String}
    {response : GrpcResponse}
    (h : (Grpc.serve serde (.reinstallServer (some cfg) script image) s).1 = .ok response) :
    (Grpc.serve serde (.reinstallServer (some cfg) script image) s).2.serverConfigs.lookup
      cfg.uuid = some (Grpc.toDockerConfig cfg) := by
  have hstores : Triple (fun _ => True) (Grpc.reinstallServer serde (some cfg) script image)
      (fun _ t => t.serverConfigs.lookup cfg.uuid = some (Grpc.toDockerConfig cfg))
      (fun _ => True) := by
    refine Triple.bind (Triple.ofOption (Q := fun cfg' _ => cfg' = cfg)
      (fun a ha _ _ => (Option.some.inj ha).symm) fun _ _ => trivial) fun cfg' => ?_
    refine Triple.bind (Q := fun _ t => t.serverConfigs.lookup cfg.uuid =
      some (Grpc.toDockerConfig cfg)) (Triple.mapErr (Triple.modify fun t ht => ?_)) fun _ => ?_
    · subst ht
      exact AList.lookup_insert _
    · exact Triple.bind (Triple.modify fun _ h => h) fun _ => Triple.pure fun _ h => h
  rw [Grpc.serve] at h ⊢
  exact hstores.fst trivial h

end Registry

end Wings
