import NexusPanel.Foundation.FileFrames
import NexusPanel.Foundation.Resolution
import NexusPanel.Wings.InstallReport

/-!
# The two interfaces of Wings

Creating, installing, starting and stopping a server and changing its limits can be asked for
over HTTP and over gRPC. This module takes the requests that both understand, handles each on
either side, and compares what is left: the registry in memory, the files on disk, the
containers that Docker has been told to create, and what a start would do afterwards.

The gRPC side keeps the registry and the HTTP side does not, so the two agree where there is
nothing to keep: the registry says already what the request would make it say.
-/

namespace Wings

open StateAction

/-! ## Requests that both interfaces understand -/

/-- A server configuration within the ranges of both messages: the ports of the HTTP one, the
CPU limit of the gRPC one. -/
structure SharedConfig where
  uuid : String
  dockerImage : String
  startupCommand : String
  environment : List (String × String)
  memoryLimit : UInt64
  cpuLimit : UInt32
  diskLimit : UInt64
  portMappings : List PortMapping
  volumePath : String
deriving DecidableEq, Repr

namespace SharedConfig

def toDocker (c : SharedConfig) : ServerConfig where
  uuid := c.uuid
  dockerImage := c.dockerImage
  startupCommand := c.startupCommand
  environment := c.environment
  memoryLimit := c.memoryLimit
  cpuLimit := c.cpuLimit.toUInt64
  diskLimit := c.diskLimit
  portMappings := c.portMappings
  volumePath := c.volumePath

def toProto (c : SharedConfig) : Proto.ServerConfig where
  uuid := c.uuid
  dockerImage := c.dockerImage
  startupCommand := c.startupCommand
  environment := c.environment
  memoryLimitMb := c.memoryLimit
  cpuLimit := c.cpuLimit
  diskLimitMb := c.diskLimit
  portMappings := c.portMappings.map fun pm => ⟨pm.hostPort.toUInt32, pm.containerPort.toUInt32⟩
  volumePath := c.volumePath

/-- Both messages carry the same configuration. -/
theorem toDockerConfig_toProto (c : SharedConfig) : Grpc.toDockerConfig c.toProto = c.toDocker := by
  have hports : (c.portMappings.map fun pm : PortMapping =>
      (⟨pm.hostPort.toUInt32, pm.containerPort.toUInt32⟩ : Proto.PortMapping)).map
        (fun pm => (⟨pm.hostPort.toUInt16, pm.containerPort.toUInt16⟩ : PortMapping)) =
      c.portMappings := by
    rw [List.map_map]
    refine (List.map_congr_left fun pm _ => ?_).trans (List.map_id _)
    simp
  simp only [Grpc.toDockerConfig, toProto, hports, toDocker]

end SharedConfig

/-- The power actions of `PowerAction`. -/
inductive PowerAction
  | start
  | stop
  | restart
  | kill
deriving DecidableEq, Repr

namespace PowerAction

def name : PowerAction → String
  | start => "start"
  | stop => "stop"
  | restart => "restart"
  | kill => "kill"

def number : PowerAction → Nat
  | start => 0
  | stop => 1
  | restart => 2
  | kill => 3

end PowerAction

/-- A script that is left out over HTTP is an empty one over gRPC, and so is an empty one. -/
inductive SharedRequest
  | createServer (server : SharedConfig) (script image : Option String)
  | reinstallServer (server : SharedConfig) (script image : String)
  | powerAction (uuid : String) (action : PowerAction)
  | updateResources (uuid : String) (memory : UInt64) (cpu : UInt32) (disk : UInt64)
deriving DecidableEq, Repr

namespace SharedRequest

def http : SharedRequest → HttpRequest
  | createServer server script image => .createServer server.toDocker script image
  | reinstallServer server script image =>
    .installServer server.uuid none (some script) (some image) (some server.toDocker)
  | powerAction uuid action => .powerAction uuid action.name
  | updateResources uuid memory cpu disk =>
    .updateResources uuid (some memory) (some cpu.toUInt64) (some disk)

def grpc : SharedRequest → GrpcRequest
  | createServer server script image =>
    .createServer (some server.toProto) (script.getD "") (image.getD "")
  | reinstallServer server script image => .reinstallServer (some server.toProto) script image
  | powerAction uuid action => .sendPowerAction uuid action.number
  | updateResources uuid memory cpu disk => .updateResources uuid memory cpu disk

end SharedRequest

/-! ## Handling them -/

def viaHttp (r : SharedRequest) (s : AppState) : AppState := (Http.serve r.http s).2

/-- The tasks that have been spawned since, one after the other. -/
def runSince (s t : AppState) : AppState :=
  (t.spawned.drop s.spawned.length).foldl (fun t task => (runSpawned task t).2)
    { t with spawned := s.spawned }

def viaGrpc (serde : Serde) (r : SharedRequest) (s : AppState) : AppState :=
  runSince s (Grpc.serve serde r.grpc s).2

/-- The container that a call asks for, with what it mounts. -/
def DockerCall.made : DockerCall → Option (String × List String)
  | .createContainer name spec => some (name, spec.binds)
  | _ => none

/-- The containers that Docker has been told to create. -/
def AppState.containers (s : AppState) : List (String × List String) :=
  s.docker.calls.filterMap DockerCall.made

/-- What a start comes to, and what it asks of Docker, when Docker answers like this. -/
def AppState.startOutcome (s : AppState) (uuid : String)
    (answers : Nat → Except String (List String)) :
    Except Status GrpcResponse × List DockerCall × List DockerQuery :=
  let started := Grpc.sendPowerAction uuid 0 { s with docker := ⟨[], [], 0, answers⟩ }
  (started.1, started.2.docker.calls, started.2.docker.queries)

/-- The same files with the same contents. -/
def SameFiles (fs fs' : FS.FileSystem) : Prop :=
  ∀ p content, fs.lookup p = some (.file content) ↔ fs'.lookup p = some (.file content)

/-- What the two sides are to leave alike. -/
structure Agree (s t : AppState) : Prop where
  memory : ∀ uuid, s.serverConfigs.lookup uuid = t.serverConfigs.lookup uuid
  disk : SameFiles s.fs t.fs
  volumes : s.containers = t.containers
  start : ∀ uuid answers, s.startOutcome uuid answers = t.startOutcome uuid answers

/-! ## When they agree -/

/-- The state with the directory of the server made, as far as that works. -/
def AppState.withDir (s : AppState) (uuid : String) : AppState :=
  { s with fs := (s.fs.createDirAll (lexical (serverDir s.config.dataDir uuid))).1 }

/-- The file of the configuration has it already, or cannot be written. -/
def Persisted (serde : Serde) (fs : FS.FileSystem) (dataDir : String) (config : ServerConfig) :
    Prop :=
  let made := (fs.createDirAll (lexical (serverDir dataDir config.uuid))).1
  let path := FS.components (joinPath (serverDir dataDir config.uuid) configFile)
  made.readFile path = some (serde.encode config) ∨
    ∃ e, made.writeFile path (serde.encode config) = .error e

/-- Storing the configuration changes nothing: it is the one in memory and on disk. -/
structure Settled (serde : Serde) (s : AppState) (config : ServerConfig) : Prop where
  memory : s.serverConfigs.lookup config.uuid = some config
  disk : Persisted serde s.fs s.config.dataDir config

/-- Docker answers the next question but so many with an error. -/
def AppState.refuses (s : AppState) (n : Nat) : Bool := !(s.answer n).isOk

/-- The two sides see an install in the same requests: there is none, or it is not empty. -/
def InstallsAlike (script image : Option String) : Prop :=
  script = none ∨ image = none ∨ script ≠ some "" ∧ image ≠ some ""

/-- The configuration that both sides make a server from: the volume is the server's directory. -/
def SharedConfig.created (server : SharedConfig) (dataDir : String) : ServerConfig :=
  { server.toDocker with volumePath := serverDir dataDir server.uuid }

/-- The condition on the request and the state it arrives in. -/
def AgreeWhen (serde : Serde) (s : AppState) : SharedRequest → Prop
  | .createServer server script image =>
    (s.fs.createDirAll (lexical (serverDir s.config.dataDir server.uuid))).2 ≠ none ∨
      Settled serde (s.withDir server.uuid) (server.created s.config.dataDir) ∧
      (InstallsAlike script image ∨ s.refuses 0 ∨ s.refuses 1 ∨ s.refuses 2)
  | .reinstallServer server _ _ => Settled serde s server.toDocker
  | .powerAction uuid action =>
    action = .start →
      (∃ state states, s.answer 0 = .ok (state :: states)) ∨
        s.serverConfigs.lookup uuid = none ∨ s.refuses 1
  | .updateResources uuid memory cpu disk =>
    s.refuses 0 ∨ ∀ config, s.serverConfigs.lookup uuid = some config →
      Settled serde s
        { config with memoryLimit := memory, cpuLimit := cpu.toUInt64, diskLimit := disk }

/-! ## Storing a configuration -/

section Store

variable {serde : Serde} {s t : AppState} {config : ServerConfig}

theorem SameFiles.refl (fs : FS.FileSystem) : SameFiles fs fs := fun _ _ => Iff.rfl

theorem SameFiles.trans {fs fs' fs'' : FS.FileSystem} (h : SameFiles fs fs')
    (h' : SameFiles fs' fs'') : SameFiles fs fs'' :=
  fun p content => (h p content).trans (h' p content)

theorem SameFiles.symm {fs fs' : FS.FileSystem} (h : SameFiles fs fs') : SameFiles fs' fs :=
  fun p content => (h p content).symm

/-- Making directories touches no file. -/
theorem sameFiles_createDirAll (fs : FS.FileSystem) (path : FS.Path) :
    SameFiles fs (fs.createDirAll path).1 := by
  have hmade := FS.FileSystem.createDirAll_made fs path
  intro p content
  constructor
  · exact fun h => hmade.lookup h
  · exact fun h => hmade.lookup_of_ne h (by simp)

/-- A write leaves the files as they were exactly when the file had that content already. -/
theorem sameFiles_write {fs fs' : FS.FileSystem} {path : List FS.Name} {content : String}
    (h : fs.writeFile path content = .ok fs') :
    SameFiles fs fs' ↔ fs.readFile path = some content := by
  obtain ⟨loc, hopens, hloc, rfl⟩ := FS.FileSystem.writeFile_ok h
  have hlookup : ∀ q, (fs.set loc (.file content)).lookup q =
      if q = loc then some (.file content) else fs.lookup q := fun q =>
    FS.FileSystem.lookup_set hloc _
  constructor
  · intro hsame
    have hold := (hsame loc content).mpr (by rw [hlookup, if_pos rfl])
    rcases hopens with hfound | ⟨dir, name, habsent, rfl⟩
    · simp only [FS.FileSystem.readFile, hfound, hold]
    · -- a file that the write creates was not there
      rw [FS.FileSystem.lookup_of_absent habsent] at hold
      cases hold
  · intro hread p c
    have hold : fs.lookup loc = some (.file content) := by
      unfold FS.FileSystem.readFile at hread
      rcases hopens with hfound | ⟨dir, name, habsent, rfl⟩
      · rw [hfound] at hread
        dsimp only at hread
        split at hread
        next old hfile =>
          cases hread
          exact hfile
        next => cases hread
      · rw [habsent] at hread
        cases hread
    rw [hlookup]
    split
    next heq => rw [heq, hold]
    next => exact Iff.rfl

/-- Writing the file of a configuration leaves the files as they were exactly when it has it
already, or cannot be written. -/
theorem sameFiles_persistConfig (fs : FS.FileSystem) (dataDir : String) :
    SameFiles fs (AppState.persistConfig serde fs dataDir config.uuid config) ↔
      Persisted serde fs dataDir config := by
  have hmade := sameFiles_createDirAll fs (lexical (serverDir dataDir config.uuid))
  unfold AppState.persistConfig Persisted
  dsimp only
  generalize (fs.createDirAll (lexical (serverDir dataDir config.uuid))).1 = made at hmade ⊢
  generalize FS.components (joinPath (serverDir dataDir config.uuid) configFile) = path
  cases hwrite : made.writeFile path (serde.encode config) with
  | error e => exact ⟨fun _ => .inr ⟨e, rfl⟩, fun _ => hmade⟩
  | ok written =>
    have hsame := sameFiles_write hwrite
    constructor
    · exact fun h => .inl (hsame.mp (hmade.symm.trans h))
    · rintro (hread | ⟨e, he⟩)
      · exact hmade.trans (hsame.mpr hread)
      · cases he

theorem serverConfigs_storeServerConfig :
    (AppState.storeServerConfig serde config s).2.serverConfigs =
      s.serverConfigs.insert config.uuid config := by
  simp only [AppState.storeServerConfig, StateAction.modify]

theorem fs_storeServerConfig :
    (AppState.storeServerConfig serde config s).2.fs =
      AppState.persistConfig serde s.fs s.config.dataDir config.uuid config := by
  simp only [AppState.storeServerConfig, StateAction.modify]

/-- Storing leaves the registry as it was exactly when it was settled. -/
theorem stored_iff_settled :
    (∀ uuid, s.serverConfigs.lookup uuid =
        (AppState.storeServerConfig serde config s).2.serverConfigs.lookup uuid) ∧
      SameFiles s.fs (AppState.storeServerConfig serde config s).2.fs ↔
    Settled serde s config := by
  rw [fs_storeServerConfig, sameFiles_persistConfig, serverConfigs_storeServerConfig]
  constructor
  · rintro ⟨hsame, hfiles⟩
    refine ⟨?_, hfiles⟩
    rw [hsame, AList.lookup_insert]
  · intro h
    refine ⟨fun uuid => ?_, h.disk⟩
    by_cases huuid : uuid = config.uuid
    · subst huuid
      rw [AList.lookup_insert, h.memory]
    · rw [AList.lookup_insert_ne huuid]

end Store

/-! ## What a start looks at -/

section Start

variable {serde : Serde} {s t : AppState}

/-- Docker will answer both in the same way, and both have the same registry in memory. -/
structure SameStart (s t : AppState) : Prop where
  docker : s.docker = t.docker
  memory : ∀ uuid, s.serverConfigs.lookup uuid = t.serverConfigs.lookup uuid

theorem lockstep_ask {R : AppState → AppState → Prop} {keep : Docker → Docker}
    (hdocker : ∀ s t, R s t → s.docker = t.docker)
    (hkeep : ∀ s t, R s t → R
      { s with docker := { keep s.docker with asked := s.docker.asked + 1 } }
      { t with docker := { keep t.docker with asked := t.docker.asked + 1 } }) :
    Lockstep R (ask keep) := by
  refine Lockstep.bindGet (fun s t hst => ?_) fun s => Lockstep.bind (.modify hkeep) fun _ => ?_
  · rw [hdocker s t hst]
  · split
    · exact .pure
    · exact .fail

theorem SameStart.ask (keep : Docker → Docker) : Lockstep SameStart (ask keep) :=
  lockstep_ask (fun _ _ h => h.docker) fun s t h => ⟨by rw [h.docker], h.memory⟩

theorem lockstep_createContainer {R : AppState → AppState → Prop}
    (hask : ∀ keep, Lockstep R (ask keep)) (config : ServerConfig) :
    Lockstep R (DockerManager.createServer config) :=
  .bind (hask _) fun _ => .bind (hask _) fun _ => .pure

theorem lockstep_getContainerStatus {R : AppState → AppState → Prop}
    (hask : ∀ keep, Lockstep R (ask keep)) (uuid : String) :
    Lockstep R (DockerManager.getContainerStatus uuid) :=
  .bind (hask _) fun _ => .ofOption

theorem SameStart.sendPowerAction (uuid : String) :
    Lockstep SameStart (Grpc.sendPowerAction uuid 0) := by
  have hstatus : Lockstep SameStart
      ((DockerManager.getContainerStatus uuid).attempt : Method (Option String)) :=
    .attempt (lockstep_getContainerStatus SameStart.ask uuid)
  refine .bind .ofOption fun name => .ite ?_ ?_
  · refine .bind (.bind hstatus fun status => .ite .pure ?_) fun _ => ?_
    · refine .bind (.mapErr (.bindGet (fun s t hst => ?_) fun s => .pure)) fun stored => ?_
      · rw [hst.memory]
      · refine .bind .ofOption fun config => ?_
        exact .bind (.mapErr (lockstep_createContainer SameStart.ask config)) fun _ => .pure
    · refine .bind hstatus fun _ => .bind (.mapErr (.bind (SameStart.ask _) fun _ => .pure)) ?_
      exact fun _ => .bind hstatus fun _ => .pure
  · refine .bind hstatus fun _ => .bind (.modify fun s t h => ?_) fun _ => .pure
    exact ⟨h.docker, h.memory⟩

/-- A start goes by the registry in memory. -/
theorem startOutcome_eq
    (hmemory : ∀ uuid, s.serverConfigs.lookup uuid = t.serverConfigs.lookup uuid) (uuid : String)
    (answers : Nat → Except String (List String)) :
    s.startOutcome uuid answers = t.startOutcome uuid answers := by
  have hstart := (SameStart.sendPowerAction uuid).alike
    { s with docker := ⟨[], [], 0, answers⟩ } { t with docker := ⟨[], [], 0, answers⟩ }
    ⟨rfl, hmemory⟩
  simp only [AppState.startOutcome, hstart.1, hstart.2.docker]

end Start

/-! ## What is asked of Docker -/

/-- So many questions after `s`, with these containers asked for; the rest is as it was. -/
structure Since (s : AppState) (k : Nat) (made : List (String × List String)) (t : AppState) :
    Prop where
  asked : t.docker.asked = s.docker.asked + k
  answers : t.docker.answers = s.docker.answers
  containers : t.containers = made ++ s.containers
  memory : t.serverConfigs = s.serverConfigs
  fs : t.fs = s.fs
  config : t.config = s.config
  spawned : t.spawned = s.spawned

/-- Some questions later. -/
def Ends (s : AppState) (made : List (String × List String)) (t : AppState) : Prop :=
  ∃ k, Since s k made t

/-- The container that is made for a server, and the one its install script runs in. -/
def gameMount (config : ServerConfig) : String × List String :=
  (DockerManager.containerName config.uuid, [DockerManager.bindOf config.volumePath])

def installMount (config : ServerConfig) : String × List String :=
  (Installer.containerName config.uuid, [DockerManager.bindOf config.volumePath])

section Docker

variable {serde : Serde} {s t : AppState} {k : Nat} {made : List (String × List String)}
  {config : ServerConfig} {uuid script image : String}

theorem refuses_of_error {e : String} (h : s.answer k = .error e) : s.refuses k = true := by
  simp only [AppState.refuses, h]
  rfl

theorem refuses_of_ok {items : List String} (h : s.answer k = .ok items) : s.refuses k = false := by
  simp only [AppState.refuses, h]
  rfl

theorem since_refl (s : AppState) : Since s 0 [] s := ⟨rfl, rfl, rfl, rfl, rfl, rfl, rfl⟩

theorem Since.ends (h : Since s k made t) : Ends s made t := ⟨k, h⟩

/-- A question, which asks for the container of a call or for none. -/
theorem since_ask {keep : Docker → Docker} {c : Option DockerCall}
    (hanswers : ∀ d, (keep d).answers = d.answers)
    (hcalls : ∀ d, (keep d).calls = c.toList ++ d.calls) :
    Triple (Since s k made) (ask keep)
      (fun items t => s.answer k = .ok items ∧
        Since s (k + 1) (c.toList.filterMap DockerCall.made ++ made) t)
      (fun t => s.refuses k = true ∧
        Since s (k + 1) (c.toList.filterMap DockerCall.made ++ made) t) := by
  unfold ask
  refine Triple.bind (Triple.get (Q := fun u t => u = t ∧ Since s k made t)
    fun t ht => ⟨rfl, ht⟩) fun u => ?_
  refine Triple.bind (Q := fun _ t => u.docker.answers u.docker.asked = s.answer k ∧
    Since s (k + 1) (c.toList.filterMap DockerCall.made ++ made) t)
    (Triple.modify ?_) fun _ => Triple.assume fun hanswer => ?_
  · rintro t ⟨rfl, ht⟩
    refine ⟨?_, ?_, (hanswers u.docker).trans ht.answers, ?_, ht.memory, ht.fs, ht.config,
      ht.spawned⟩
    · rw [ht.answers, ht.asked]
      rfl
    · show u.docker.asked + 1 = s.docker.asked + (k + 1)
      rw [ht.asked]
      omega
    · show (keep u.docker).calls.filterMap DockerCall.made = _
      rw [hcalls, List.filterMap_append, List.append_assoc, ← ht.containers]
      rfl
  · rw [hanswer]
    split
    next items hitems => exact Triple.pure fun t ht => ⟨hitems, ht⟩
    next e he => exact Triple.fail fun t ht => ⟨refuses_of_error he, ht⟩

theorem since_call (c : DockerCall) :
    Triple (Since s k made) (dockerCall c)
      (fun items t => s.answer k = .ok items ∧
        Since s (k + 1) ([c].filterMap DockerCall.made ++ made) t)
      (fun t => s.refuses k = true ∧ Since s (k + 1) ([c].filterMap DockerCall.made ++ made) t) :=
  since_ask (c := some c) (fun _ => rfl) fun _ => rfl

theorem since_query (q : DockerQuery) :
    Triple (Since s k made) (dockerQuery q)
      (fun items t => s.answer k = .ok items ∧ Since s (k + 1) made t)
      (fun t => s.refuses k = true ∧ Since s (k + 1) made t) :=
  since_ask (c := none) (fun _ => rfl) fun _ => rfl

/-- Questions that ask for no container. -/
theorem ends_call (c : DockerCall) (hc : c.made = none) : Keeps (Ends s made) (dockerCall c) := by
  refine Triple.of_snd ?_
  rintro t ⟨k, ht⟩
  have hends := ((since_call c).weaken (fun _ h => h) (fun _ _ h => h.2.ends)
    fun _ h => h.2.ends).snd ht
  simpa only [List.filterMap_cons, hc, List.filterMap_nil, List.nil_append] using hends

theorem ends_query (q : DockerQuery) : Keeps (Ends s made) (dockerQuery q) := by
  refine Triple.of_snd ?_
  rintro t ⟨k, ht⟩
  exact ((since_query q).weaken (fun _ h => h) (fun _ _ h => h.2.ends) fun _ h => h.2.ends).snd ht

theorem ends_getContainerStatus (uuid : String) :
    Keeps (Ends s made) (DockerManager.getContainerStatus uuid) :=
  Keeps.bind (ends_query _) fun _ => Keeps.ofOption

theorem ends_notify {panelUrl panelAuth message : Option String} {status : String} :
    Keeps (Ends s made) (Installer.notify panelUrl panelAuth uuid status message) := by
  unfold Installer.notify
  split
  · refine Keeps.modify ?_
    rintro t ⟨k, ht⟩
    exact ⟨k, ht.asked, ht.answers, ht.containers, ht.memory, ht.fs, ht.config, ht.spawned⟩
  · exact Keeps.pure

/-- An install asks for its container once the image is there. -/
theorem ends_install (config : ServerConfig) (script image : String) :
    Triple (Since s k made) (Installer.install config script image)
      (fun _ => Ends s ((if s.refuses k then [] else [installMount config]) ++ made))
      (Ends s ((if s.refuses k then [] else [installMount config]) ++ made)) := by
  refine Triple.bind (Triple.get (Q := fun _ => Since s k made) fun _ ht => ht) fun u => ?_
  refine Triple.bind ((since_call (.pullImage image)).weaken (fun _ h => h) (fun _ _ h => h) ?_)
    fun _ => Triple.assume fun hpulled => ?_
  · rintro t ⟨hrefuses, ht⟩
    rw [if_pos hrefuses]
    exact ht.ends
  rw [if_neg (by rw [refuses_of_ok hpulled]; simp)]
  refine Triple.bind (Q := fun _ => Ends s made) ?_ fun _ => ?_
  · refine Triple.attempt ((ends_call _ rfl).weaken (fun _ h => h.ends) (fun _ _ h => h) ?_)
    exact fun _ h => h
  refine Triple.bind (Q := fun _ => Ends s (installMount config :: made)) (Triple.of_snd ?_)
    fun _ => ?_
  · rintro t ⟨n, ht⟩
    exact ((since_call (.createContainer (Installer.containerName config.uuid)
      (Installer.installSpec config script image))).weaken (fun _ h => h)
      (fun _ _ h => h.2.ends) fun _ h => h.2.ends).snd ht
  refine Keeps.bind (ends_call _ rfl) fun _ => ?_
  refine Keeps.bind (Keeps.attempt (ends_query _)) fun _ => ?_
  refine Keeps.bind (ends_query _) fun exit => ?_
  split
  · refine Keeps.bind ends_notify fun _ => ?_
    exact Keeps.bind (Keeps.attempt (ends_call _ rfl)) fun _ => Keeps.fail
  · refine Keeps.bind ends_notify fun _ => ?_
    exact Keeps.bind (Keeps.attempt (ends_call _ rfl)) fun _ => Keeps.pure

/-- What creating a container comes to. -/
theorem since_createContainer :
    Triple (Since s k made) (DockerManager.createServer config)
      (fun _ t => (s.refuses k = false ∧ s.refuses (k + 1) = false) ∧
        Since s (k + 2) (gameMount config :: made) t)
      (fun t => s.refuses k = true ∧ Ends s made t ∨
        (s.refuses k = false ∧ s.refuses (k + 1) = true) ∧ Ends s (gameMount config :: made) t) := by
  refine Triple.bind ((since_call (.pullImage config.dockerImage)).weaken (fun _ h => h)
    (fun _ _ h => h) fun t h => .inl ⟨h.1, h.2.ends⟩) fun _ => Triple.assume fun hpulled => ?_
  have hfalse := refuses_of_ok hpulled
  refine Triple.bind ((since_call (.createContainer (DockerManager.containerName config.uuid)
    (DockerManager.gameSpec config))).weaken (fun _ h => h) (fun _ _ h => h)
    fun t h => .inr ⟨⟨hfalse, h.1⟩, h.2.ends⟩) fun _ => Triple.assume fun hcreated => ?_
  exact Triple.pure fun t ht => ⟨⟨hfalse, refuses_of_ok hcreated⟩, ht⟩

end Docker

/-! ## The requests -/

section Requests

variable {serde : Serde} {s s' t t' : AppState} {made made' : List (String × List String)}
  {config : ServerConfig} {uuid script image : String}

/-- Two ends are compared by where they started from and what was asked for in between. -/
theorem agree_iff_of_ends (h : Ends s made t) (h' : Ends s' made' t')
    (hcontainers : s.containers = s'.containers) :
    Agree t t' ↔ ((∀ uuid, s.serverConfigs.lookup uuid = s'.serverConfigs.lookup uuid) ∧
      SameFiles s.fs s'.fs) ∧ made = made' := by
  obtain ⟨k, h⟩ := h
  obtain ⟨k', h'⟩ := h'
  have hmade : t.containers = t'.containers ↔ made = made' := by
    rw [h.containers, h'.containers, hcontainers]
    exact List.append_left_inj _
  rw [← h.memory, ← h'.memory, ← h.fs, ← h'.fs, ← hmade]
  constructor
  · exact fun hagree => ⟨⟨hagree.memory, hagree.disk⟩, hagree.volumes⟩
  · exact fun ⟨⟨hmemory, hdisk⟩, hvolumes⟩ => ⟨hmemory, hdisk, hvolumes, startOutcome_eq hmemory⟩

theorem runSince_eq_self (h : t.spawned = s.spawned) : runSince s t = t := by
  simp only [runSince, h, List.drop_length, List.foldl_nil]
  rw [← h]

theorem runSince_spawn {task : Spawned} (h : t.spawned = s.spawned) :
    runSince s { t with spawned := t.spawned ++ [task] } = (runSpawned task t).2 := by
  simp only [runSince, h, List.drop_left, List.foldl_cons, List.foldl_nil]
  rw [← h]

/-- Docker hears nothing of it. -/
theorem docker_storeServerConfig :
    (AppState.storeServerConfig serde config s).2.docker = s.docker := by
  simp only [AppState.storeServerConfig, StateAction.modify]

theorem config_storeServerConfig :
    (AppState.storeServerConfig serde config s).2.config = s.config := by
  simp only [AppState.storeServerConfig, StateAction.modify]

theorem spawned_storeServerConfig :
    (AppState.storeServerConfig serde config s).2.spawned = s.spawned := by
  simp only [AppState.storeServerConfig, StateAction.modify]

theorem containers_storeServerConfig :
    (AppState.storeServerConfig serde config s).2.containers = s.containers := by
  rw [AppState.containers, docker_storeServerConfig, AppState.containers]

theorem refuses_storeServerConfig {k : Nat} :
    (AppState.storeServerConfig serde config s).2.refuses k = s.refuses k := by
  rw [AppState.refuses, AppState.answer, docker_storeServerConfig]
  rfl

theorem spawned_withDir : (s.withDir uuid).spawned = s.spawned := by
  simp only [AppState.withDir]

theorem refuses_withDir {k : Nat} : (s.withDir uuid).refuses k = s.refuses k := by
  simp only [AppState.refuses, AppState.answer, AppState.withDir]

/-- Storing a configuration before or after questions to Docker. -/
theorem Ends.store (h : Ends s made t) :
    Ends (AppState.storeServerConfig serde config s).2 made
      (AppState.storeServerConfig serde config t).2 := by
  obtain ⟨k, h⟩ := h
  refine ⟨k, ?_, ?_, ?_, ?_, ?_, ?_, ?_⟩
  · rw [docker_storeServerConfig, docker_storeServerConfig, h.asked]
  · rw [docker_storeServerConfig, docker_storeServerConfig, h.answers]
  · rw [containers_storeServerConfig, containers_storeServerConfig, h.containers]
  · rw [serverConfigs_storeServerConfig, serverConfigs_storeServerConfig, h.memory]
  · rw [fs_storeServerConfig, fs_storeServerConfig, h.fs, h.config]
  · rw [config_storeServerConfig, config_storeServerConfig, h.config]
  · rw [spawned_storeServerConfig, spawned_storeServerConfig, h.spawned]

/-- The containers that creating a server asks for, the latest first. -/
def createdMounts (s : AppState) (config : ServerConfig) (installs : Bool) :
    List (String × List String) :=
  if s.refuses 0 then []
  else if s.refuses 1 || !installs then [gameMount config]
  else (if s.refuses 2 then [] else [installMount config]) ++ [gameMount config]

theorem createdMounts_eq_iff {i j : Bool} : createdMounts s config i = createdMounts s config j ↔
    i = j ∨ s.refuses 0 ∨ s.refuses 1 ∨ s.refuses 2 := by
  cases h0 : s.refuses 0 <;> cases h1 : s.refuses 1 <;> cases h2 : s.refuses 2 <;>
    cases i <;> cases j <;> simp [createdMounts, h0, h1, h2]

theorem createdMounts_storeServerConfig {config' : ServerConfig} {i : Bool} :
    createdMounts (AppState.storeServerConfig serde config' s).2 config i =
      createdMounts s config i := by
  simp only [createdMounts, refuses_storeServerConfig]

/-- Creating a container is over when Docker refuses it, whatever was to be installed. -/
theorem ends_create :
    Triple (Since s 0 []) (DockerManager.createServer config)
      (fun _ t => (s.refuses 0 = false ∧ s.refuses 1 = false) ∧ Since s 2 [gameMount config] t)
      (fun t => ∀ installs, Ends s (createdMounts s config installs) t) := by
  refine since_createContainer.weaken (fun _ h => h) (fun _ _ h => h) ?_
  rintro t (⟨h0, ht⟩ | ⟨⟨h0, h1⟩, ht⟩) installs
  · simp only [createdMounts, h0, if_true]
    exact ht
  · rw [Nat.zero_add] at h1
    simp only [createdMounts, h0, h1, Bool.true_or, if_true]
    exact ht

/-- A container that was created, and no install. -/
theorem ends_uninstalled (h : s.refuses 0 = false ∧ s.refuses 1 = false)
    (ht : Since s 2 [gameMount config] t) : Ends s (createdMounts s config false) t := by
  simp only [createdMounts, h.1, h.2, Bool.not_false, Bool.or_true, if_true]
  exact ht.ends

/-- A container that was created, and the install behind it. -/
theorem ends_installed (h : s.refuses 0 = false ∧ s.refuses 1 = false)
    (ht : Since s 2 [gameMount config] t) :
    Ends s (createdMounts s config true) (Installer.install config script image t).2 := by
  simp only [createdMounts, h.1, h.2, Bool.not_true, Bool.or_false]
  exact (ends_install config script image).snd ht

/-! ### Creating a server -/

/-- Over HTTP, an install is one that has a script and an image. -/
theorem ends_http_create (server : SharedConfig) (script image : Option String)
    (hmade : (s.fs.createDirAll (lexical (serverDir s.config.dataDir server.uuid))).2 = none) :
    Ends (s.withDir server.uuid)
      (createdMounts (s.withDir server.uuid) (server.created s.config.dataDir)
        (script.isSome && image.isSome))
      (viaHttp (.createServer server script image) s) := by
  have hdirs : Http.onFiles
      (makeDirs (lexical (serverDir s.config.dataDir server.toDocker.uuid))) s =
        (.ok (), s.withDir server.uuid) := by
    simp only [Http.onFiles, makeDirs, AppState.withDir, SharedConfig.toDocker]
    generalize s.fs.createDirAll (lexical (serverDir s.config.dataDir server.uuid)) = made
      at hmade ⊢
    obtain ⟨fs, e⟩ := made
    cases hmade
    rfl
  simp only [viaHttp, SharedRequest.http, Http.serve]
  unfold Http.createServer
  rw [bind_ok (show (get : Handler AppState) s = (.ok s, s) from rfl), bind_ok hdirs]
  refine (Triple.bind (ends_create.weaken (fun _ h => h) (fun _ _ h => h) fun t h => h _)
    fun _ => Triple.assume fun hcreated => ?_).snd (since_refl _)
  cases script with
  | none => exact Triple.pure fun t ht => ends_uninstalled hcreated ht
  | some script =>
    cases image with
    | none => exact Triple.pure fun t ht => ends_uninstalled hcreated ht
    | some image =>
      refine Triple.of_snd fun t ht => ?_
      rw [snd_bind_pure, snd_attempt]
      exact ends_installed hcreated ht

/-- Over gRPC, an install is one whose script and image are not empty; it runs afterwards. -/
theorem ends_createAndSpawn (hspawned : s'.spawned = s.spawned) (config : ServerConfig)
    (script image : String) : Triple (Since s' 0 []) (do
      let containerId ← Grpc.internal "Docker create failed: " (DockerManager.createServer config)
      if script ≠ "" ∧ image ≠ "" then
        Grpc.spawn (.install config script image)
        return .created containerId config.uuid
      else
        return .created containerId config.uuid : Method GrpcResponse)
      (fun _ t => Ends s' (createdMounts s' config (script != "" && image != "")) (runSince s t))
      (fun t => Ends s' (createdMounts s' config (script != "" && image != ""))
        (runSince s t)) := by
  have hdone : ∀ {t made}, Ends s' made t → runSince s t = t := by
    rintro t made ⟨k, ht⟩
    exact runSince_eq_self (ht.spawned.trans hspawned)
  refine Triple.bind (Triple.mapErr (ends_create.weaken (fun _ h => h) (fun _ _ h => h)
    fun t h => ?_)) fun _ => Triple.assume fun hcreated => Triple.ite (fun hinstalls => ?_)
    fun hinstalls => ?_
  · rw [hdone (h false)]
    exact h _
  · rw [show (script != "" && image != "") = true by simp [hinstalls]]
    refine Triple.of_snd fun t ht => ?_
    show Ends s' _ (runSince s { t with spawned := t.spawned ++ [.install config script image] })
    rw [runSince_spawn (ht.spawned.trans hspawned), runSpawned_install]
    exact ends_installed hcreated ht
  · rw [show (script != "" && image != "") = false by simpa using hinstalls]
    refine Triple.pure fun t ht => ?_
    rw [hdone ht.ends]
    exact ends_uninstalled hcreated ht

theorem ends_grpc_create (serde : Serde) (server : SharedConfig) (script image : Option String)
    (hmade : (s.fs.createDirAll (lexical (serverDir s.config.dataDir server.uuid))).2 = none)
    (hconfig : config = server.created s.config.dataDir)
    (hstored : s' = (AppState.storeServerConfig serde config (s.withDir server.uuid)).2) :
    Ends s' (createdMounts s' config (script.getD "" != "" && image.getD "" != ""))
      (viaGrpc serde (.createServer server script image) s) := by
  have hdir : Grpc.ensureServerDir server.toProto.uuid s =
      (.ok (serverDir s.config.dataDir server.uuid), s.withDir server.uuid) := by
    unfold Grpc.ensureServerDir
    rw [bind_ok (show (get : Method AppState) s = (.ok s, s) from rfl),
      bind_ok (show modify (fun t : AppState => { t with fs := _ }) s = (.ok (), _) from rfl),
      show (s.fs.createDirAll (lexical (serverDir s.config.dataDir server.toProto.uuid))).2 = none
        from hmade]
    rfl
  have hspawned : s'.spawned = s.spawned := by
    rw [hstored, spawned_storeServerConfig, spawned_withDir]
  have hstore : Grpc.internal "" (AppState.storeServerConfig serde config)
      (s.withDir server.uuid) = (.ok (), s') := by
    rw [hstored]
    rfl
  simp only [viaGrpc, SharedRequest.grpc, Grpc.serve]
  unfold Grpc.createServer
  rw [bind_ok (show (ofOption (some server.toProto) _ : Method _) s = (.ok server.toProto, s)
      from rfl), bind_ok hdir, server.toDockerConfig_toProto,
    show { server.toDocker with volumePath := serverDir s.config.dataDir server.uuid } = config
      from hconfig.symm, bind_ok hstore]
  exact (ends_createAndSpawn hspawned config _ _).snd (since_refl _)

/-! ### The other requests -/

theorem ends_http_reinstall {cfg : ServerConfig} :
    Ends s (if s.refuses 0 then [] else [installMount cfg])
      (Http.installServer uuid none (some script) (some image) (some cfg) s).2 := by
  rw [installServer_install (show (some script).or none = some script from rfl)]
  have hinstall := (ends_install cfg script image).snd (since_refl s)
  rwa [List.append_nil] at hinstall

theorem ends_grpc_reinstall (cfg : Proto.ServerConfig) (script image : String)
    (hconfig : config = Grpc.toDockerConfig cfg)
    (hstored : s' = (AppState.storeServerConfig serde config s).2) :
    Ends s' (if s'.refuses 0 then [] else [installMount config])
      (runSince s (Grpc.reinstallServer serde (some cfg) script image s).2) := by
  have hspawned : s'.spawned = s.spawned := by
    rw [hstored, spawned_storeServerConfig]
  have hleft : (Grpc.reinstallServer serde (some cfg) script image s).2 =
      { s' with spawned := s'.spawned ++ [.install config script image] } := by
    rw [hstored, hconfig]
    rfl
  rw [hleft, runSince_spawn hspawned, runSpawned_install]
  have hinstall := (ends_install config script image).snd (since_refl s')
  rwa [List.append_nil] at hinstall

/-- Over HTTP, a power action is a call on a container. -/
theorem ends_http_power (action : PowerAction) :
    Ends s [] (Http.powerAction uuid action.name s).2 := by
  have hpower : Keeps (Ends s []) (Http.powerAction uuid action.name) := by
    cases action <;> exact Keeps.bind (Keeps.bind (ends_call _ rfl) fun _ => Keeps.pure)
      fun _ => Keeps.pure
  exact hpower.snd (since_refl s).ends

theorem ends_powerTask (name : String) : Keeps (Ends s made) (powerTask uuid name) := by
  unfold powerTask
  split
  · exact Keeps.bind (ends_call _ rfl) fun _ => Keeps.pure
  · exact Keeps.bind (ends_call _ rfl) fun _ => Keeps.pure
  · exact Keeps.bind (ends_call _ rfl) fun _ => Keeps.pure
  · exact Keeps.pure

/-- Over gRPC, a power action other than a start is a call on a container too, later. -/
theorem ends_grpc_power {action : PowerAction} (haction : action ≠ .start) :
    Ends s [] (runSince s (Grpc.sendPowerAction uuid action.number s).2) := by
  have hlater : ∀ name, Triple (Ends s [])
      (do
        let _ ← ((DockerManager.getContainerStatus uuid).attempt : Method (Option String))
        Grpc.spawn (.powerAction uuid name)
        return GrpcResponse.done)
      (fun _ t => Ends s [] (runSince s t)) (fun t => Ends s [] (runSince s t)) := by
    intro name
    refine Triple.bind (Q := fun _ => Ends s []) (Triple.attempt (ends_getContainerStatus uuid))
      fun _ => Triple.of_snd ?_
    rintro t ⟨k, ht⟩
    show Ends s [] (runSince s { t with spawned := t.spawned ++ [.powerAction uuid name] })
    rw [runSince_spawn ht.spawned]
    exact (Keeps.bind (ends_powerTask name) fun _ =>
      Keeps.bind (Keeps.attempt (ends_getContainerStatus uuid)) fun _ => Keeps.pure).snd ht.ends
  cases action with
  | start => exact absurd rfl haction
  | stop => exact (hlater "stop").snd (since_refl s).ends
  | restart => exact (hlater "restart").snd (since_refl s).ends
  | kill => exact (hlater "kill").snd (since_refl s).ends

/-- The container that a start over gRPC makes again. -/
def recreatedMounts (s : AppState) (uuid : String) : List (String × List String) :=
  match s.answer 0 with
  | .ok (_ :: _) => []
  | _ =>
    match s.serverConfigs.lookup uuid with
    | some config => if s.refuses 1 then [] else [gameMount config]
    | none => []

/-- A start makes no container when there is one, when nothing is stored to make it from, and
when the image cannot be had. -/
theorem recreatedMounts_eq_nil : recreatedMounts s uuid = [] ↔
    (∃ state states, s.answer 0 = .ok (state :: states)) ∨ s.serverConfigs.lookup uuid = none ∨
      s.refuses 1 := by
  unfold recreatedMounts
  split
  next state states h => exact iff_of_true rfl (.inl ⟨state, states, h⟩)
  next h =>
    have hnot : ¬∃ state states, s.answer 0 = .ok (state :: states) := fun ⟨state, states, hs⟩ =>
      h state states hs
    split
    next config hconfig => simp [hnot, hconfig]
    next hnone => exact iff_of_true rfl (.inr (.inl hnone))

/-- Whether a container is there is what the first answer says. -/
theorem since_status : Triple (Since s 0 [])
    ((DockerManager.getContainerStatus uuid).attempt : Method (Option String))
    (fun status t => (status.isSome = true ↔ ∃ state states, s.answer 0 = .ok (state :: states)) ∧
      Since s 1 [] t) (fun _ => False) := by
  refine Triple.attempt (Triple.bind ((since_query _).weaken (fun _ h => h) (fun _ _ h => h)
    fun t h => ⟨?_, h.2⟩) fun states => Triple.assume fun hstates => ?_)
  · have hrefuses := h.1
    constructor
    · exact fun h => nomatch h
    · rintro ⟨state, states, hanswer⟩
      rw [refuses_of_ok hanswer] at hrefuses
      cases hrefuses
  · cases states with
    | nil => exact Triple.fail fun t ht => ⟨by simp [hstates], ht⟩
    | cons state states => exact Triple.pure fun t ht => ⟨by simp [hstates], ht⟩

/-- The registry still answers what it answered when the request arrived. -/
theorem since_getServerConfig (s : AppState) (k : Nat) (made : List (String × List String))
    (uuid : String) :
    Triple (Since s k made) (Grpc.internal "" (AppState.getServerConfig uuid))
      (fun stored t => stored = s.serverConfigs.lookup uuid ∧ Since s k made t)
      (fun _ => False) := by
  refine Triple.mapErr (Triple.bind (Triple.get (Q := fun u t => u = t ∧ Since s k made t)
    fun t ht => ⟨rfl, ht⟩) fun u => Triple.pure ?_)
  rintro t ⟨rfl, ht⟩
  exact ⟨by rw [ht.memory], ht⟩

theorem ends_recreateMissing : Triple (Since s 0 []) (Grpc.recreateMissing uuid)
    (fun _ => Ends s (recreatedMounts s uuid)) (Ends s (recreatedMounts s uuid)) := by
  refine Triple.bind (since_status.weaken (fun _ h => h) (fun _ _ h => h) fun _ h => h.elim)
    fun status => Triple.assume fun hstatus => Triple.ite (fun hsome => ?_) fun hnone => ?_
  · rw [recreatedMounts_eq_nil.mpr (.inl (hstatus.mp hsome))]
    exact Triple.pure fun t ht => ht.ends
  refine Triple.bind ((since_getServerConfig s _ _ uuid).weaken (fun _ h => h) (fun _ _ h => h)
    fun _ h => h.elim) fun stored => Triple.assume fun hstored => ?_
  cases stored with
  | none =>
    rw [recreatedMounts_eq_nil.mpr (.inr (.inl hstored.symm))]
    exact Triple.fail fun t ht => ht.ends
  | some config =>
    have hmounts : recreatedMounts s uuid = if s.refuses 1 then [] else [gameMount config] := by
      unfold recreatedMounts
      split
      next state states h => exact absurd (hstatus.mpr ⟨state, states, h⟩) hnone
      next => rw [← hstored]
    refine Triple.bind (Q := fun cfg t => cfg = config ∧ Since s 1 [] t)
      (Triple.pure fun t ht => ⟨rfl, ht⟩) fun cfg => Triple.assume ?_
    rintro rfl
    refine Triple.bind (Triple.mapErr (since_createContainer.weaken (fun _ h => h)
      (fun _ _ h => h) fun t h => ?_)) fun _ => Triple.assume fun hcreated => ?_
    · rw [hmounts]
      rcases h with ⟨hrefuses, ht⟩ | ⟨⟨haccepts, -⟩, ht⟩
      · rw [if_pos hrefuses]
        exact ht
      · rw [if_neg (by rw [haccepts]; simp)]
        exact ht
    · rw [hmounts, if_neg (by rw [hcreated.1]; simp)]
      exact Triple.pure fun t ht => ht.ends

theorem ends_grpc_start :
    Ends s (recreatedMounts s uuid) (runSince s (Grpc.sendPowerAction uuid 0 s).2) := by
  have hstatus : Keeps (Ends s (recreatedMounts s uuid))
      ((DockerManager.getContainerStatus uuid).attempt : Method (Option String)) :=
    Keeps.attempt (ends_getContainerStatus uuid)
  have hstart : Triple (Since s 0 []) (Grpc.sendPowerAction uuid 0)
      (fun _ => Ends s (recreatedMounts s uuid)) (Ends s (recreatedMounts s uuid)) := by
    refine Triple.bind (Q := fun name t => name = "start" ∧ Since s 0 [] t)
      (Triple.pure fun t ht => ⟨rfl, ht⟩) fun name => Triple.assume fun hname => ?_
    rw [if_pos hname]
    refine Triple.bind ends_recreateMissing fun _ => Keeps.bind hstatus fun _ => ?_
    refine Keeps.bind (Keeps.mapErr (Keeps.bind (ends_call _ rfl) fun _ => Keeps.pure)) fun _ => ?_
    exact Keeps.bind hstatus fun _ => Keeps.pure
  obtain ⟨k, ht⟩ := hstart.snd (since_refl s)
  rw [runSince_eq_self ht.spawned]
  exact ht.ends

theorem ends_http_update {memory cpu disk : Option UInt64} :
    Ends s [] (Http.serve (.updateResources uuid memory cpu disk) s).2 :=
  (Keeps.bind (ends_call _ rfl) fun _ => Keeps.pure).snd (since_refl s).ends

/-- The state that a change of limits is compared with: over gRPC, the new limits are stored when
Docker takes them and there is something stored. -/
def withLimits (serde : Serde) (s : AppState) (uuid : String) (memory : UInt64) (cpu : UInt32)
    (disk : UInt64) : AppState :=
  if s.refuses 0 then s
  else
    match s.serverConfigs.lookup uuid with
    | some config => (AppState.storeServerConfig serde
        { config with memoryLimit := memory, cpuLimit := cpu.toUInt64, diskLimit := disk } s).2
    | none => s

theorem ends_grpc_update {memory disk : UInt64} {cpu : UInt32} :
    Ends (withLimits serde s uuid memory cpu disk) []
      (runSince s (Grpc.updateResources serde uuid memory cpu disk s).2) := by
  have hupdate : Triple (Since s 0 []) (Grpc.updateResources serde uuid memory cpu disk)
      (fun _ => Ends (withLimits serde s uuid memory cpu disk) [])
      (Ends (withLimits serde s uuid memory cpu disk) []) := by
    refine Triple.bind (Triple.mapErr ((since_call _).weaken (fun _ h => h) (fun _ _ h => h)
      fun t h => ?_)) fun _ => Triple.assume fun hanswer => ?_
    · simp only [withLimits, h.1, if_true]
      exact h.2.ends
    have haccepts := refuses_of_ok hanswer
    refine Triple.bind ((since_getServerConfig s _ _ uuid).weaken (fun _ h => h) (fun _ _ h => h)
      fun _ h => h.elim) fun stored => Triple.assume fun hstored => ?_
    cases stored with
    | none =>
      simp only [withLimits, haccepts, ← hstored]
      exact Triple.pure fun t ht => ht.ends
    | some config =>
      simp only [withLimits, haccepts, ← hstored]
      exact Triple.of_snd fun t ht => Ends.store ht.ends
  have hends := hupdate.snd (since_refl s)
  have hspawned : (withLimits serde s uuid memory cpu disk).spawned = s.spawned := by
    unfold withLimits
    split
    · rfl
    · split
      · exact spawned_storeServerConfig
      · rfl
  obtain ⟨k, ht⟩ := hends
  rw [runSince_eq_self (ht.spawned.trans hspawned)]
  exact ht.ends

/-! ## Agreement -/

theorem installsAlike_iff {script image : Option String} :
    (script.isSome && image.isSome) = (script.getD "" != "" && image.getD "" != "") ↔
      InstallsAlike script image := by
  cases script with
  | none => simp [InstallsAlike]
  | some script =>
    cases image with
    | none => simp [InstallsAlike]
    | some image => simp [InstallsAlike]

theorem agree_create_iff {server : SharedConfig} {script image : Option String} :
    Agree (viaHttp (.createServer server script image) s)
        (viaGrpc serde (.createServer server script image) s) ↔
      AgreeWhen serde s (.createServer server script image) := by
  cases hmade : (s.fs.createDirAll (lexical (serverDir s.config.dataDir server.uuid))).2 with
  | some e =>
    -- both give up with what there is of the directory
    have hhttp : viaHttp (.createServer server script image) s = s.withDir server.uuid := by
      have hdirs : Http.onFiles (makeDirs
          (lexical (serverDir s.config.dataDir server.toDocker.uuid))) s =
            (.error (.io "I/O error"), s.withDir server.uuid) := by
        simp only [Http.onFiles, makeDirs, AppState.withDir, SharedConfig.toDocker]
        generalize s.fs.createDirAll (lexical (serverDir s.config.dataDir server.uuid)) = made
          at hmade ⊢
        obtain ⟨fs, o⟩ := made
        cases hmade
        rfl
      simp only [viaHttp, SharedRequest.http, Http.serve]
      unfold Http.createServer
      rw [bind_ok (show (get : Handler AppState) s = (.ok s, s) from rfl), bind_error hdirs]
    have hgrpc : viaGrpc serde (.createServer server script image) s = s.withDir server.uuid := by
      have hdir : Grpc.ensureServerDir server.toProto.uuid s =
          (.error (.internal "create_dir_all"), s.withDir server.uuid) := by
        unfold Grpc.ensureServerDir
        rw [bind_ok (show (get : Method AppState) s = (.ok s, s) from rfl),
          bind_ok (show modify (fun t : AppState => { t with fs := _ }) s = (.ok (), _) from rfl),
          show (s.fs.createDirAll (lexical (serverDir s.config.dataDir server.toProto.uuid))).2 =
            some e from hmade]
        rfl
      have hleft : (Grpc.createServer serde (some server.toProto) (script.getD "")
          (image.getD "") s).2 = s.withDir server.uuid := by
        unfold Grpc.createServer
        rw [bind_ok (show (ofOption (some server.toProto) _ : Method _) s =
          (.ok server.toProto, s) from rfl), bind_error hdir]
      simp only [viaGrpc, SharedRequest.grpc, Grpc.serve]
      rw [hleft]
      exact runSince_eq_self spawned_withDir
    rw [hhttp, hgrpc]
    refine iff_of_true ?_ (.inl (by simp [hmade]))
    exact ⟨fun _ => rfl, .refl _, rfl, fun _ _ => rfl⟩
  | none =>
    have hhttp := ends_http_create server script image hmade
    have hgrpc := ends_grpc_create serde server script image hmade rfl rfl
    rw [createdMounts_storeServerConfig] at hgrpc
    refine (agree_iff_of_ends hhttp hgrpc containers_storeServerConfig.symm).trans ?_
    refine (and_congr stored_iff_settled (createdMounts_eq_iff.trans (or_congr_left
      installsAlike_iff))).trans ?_
    simp only [AgreeWhen, hmade, ne_eq, not_true_eq_false, false_or, refuses_withDir]

theorem agree_reinstall_iff {server : SharedConfig} :
    Agree (viaHttp (.reinstallServer server script image) s)
        (viaGrpc serde (.reinstallServer server script image) s) ↔
      AgreeWhen serde s (.reinstallServer server script image) := by
  have hgrpc := ends_grpc_reinstall server.toProto script image server.toDockerConfig_toProto.symm
    (show (AppState.storeServerConfig serde server.toDocker s).2 = _ from rfl)
  refine (agree_iff_of_ends ends_http_reinstall hgrpc containers_storeServerConfig.symm).trans ?_
  rw [refuses_storeServerConfig, stored_iff_settled]
  exact and_iff_left rfl

theorem agree_power_iff {action : PowerAction} :
    Agree (viaHttp (.powerAction uuid action) s) (viaGrpc serde (.powerAction uuid action) s) ↔
      AgreeWhen serde s (.powerAction uuid action) := by
  have hsame : (∀ uuid, s.serverConfigs.lookup uuid = s.serverConfigs.lookup uuid) ∧
      SameFiles s.fs s.fs := ⟨fun _ => rfl, .refl s.fs⟩
  by_cases haction : action = .start
  · subst haction
    refine (agree_iff_of_ends (ends_http_power .start) ends_grpc_start rfl).trans ?_
    rw [and_iff_right hsame, eq_comm, recreatedMounts_eq_nil]
    exact ⟨fun h _ => h, fun h => h rfl⟩
  · refine (agree_iff_of_ends (ends_http_power action) (ends_grpc_power haction) rfl).trans ?_
    exact iff_of_true ⟨hsame, rfl⟩ fun h => absurd h haction

theorem agree_update_iff {memory disk : UInt64} {cpu : UInt32} :
    Agree (viaHttp (.updateResources uuid memory cpu disk) s)
        (viaGrpc serde (.updateResources uuid memory cpu disk) s) ↔
      AgreeWhen serde s (.updateResources uuid memory cpu disk) := by
  have hcontainers : s.containers = (withLimits serde s uuid memory cpu disk).containers := by
    unfold withLimits
    split
    · rfl
    · split
      · exact containers_storeServerConfig.symm
      · rfl
  refine (agree_iff_of_ends ends_http_update ends_grpc_update hcontainers).trans ?_
  rw [and_iff_left rfl]
  simp only [AgreeWhen, withLimits]
  split
  next hrefuses => exact iff_of_true ⟨fun _ => rfl, .refl s.fs⟩ (.inl hrefuses)
  next haccepts =>
    rw [or_iff_right haccepts]
    split
    next config hconfig =>
      rw [stored_iff_settled]
      constructor
      · intro h config' hconfig'
        rw [hconfig] at hconfig'
        cases hconfig'
        exact h
      · exact fun h => h config hconfig
    next hnone =>
      refine iff_of_true ⟨fun _ => rfl, .refl s.fs⟩ fun config hconfig => ?_
      rw [hnone] at hconfig
      cases hconfig

end Requests

/-- The two interfaces leave the same registry, the same volumes and the same outcome of a start
exactly when there is nothing to store, and nothing that only one of them makes a container for. -/
theorem interfaces_agree_iff (serde : Serde) (s : AppState) (r : SharedRequest) :
    Agree (viaHttp r s) (viaGrpc serde r s) ↔ AgreeWhen serde s r := by
  cases r with
  | createServer server script image => exact agree_create_iff
  | reinstallServer server script image => exact agree_reinstall_iff
  | powerAction uuid action => exact agree_power_iff
  | updateResources uuid memory cpu disk => exact agree_update_iff

/-- A daemon that has heard of no server. -/
def unasked : AppState :=
  .fresh ⟨"https://panel", "id", "token", "/data"⟩ fun _ => .ok []

def firstServer : SharedConfig where
  uuid := "u"
  dockerImage := "image"
  startupCommand := "run"
  environment := []
  memoryLimit := 1024
  cpuLimit := 100
  diskLimit := 1024
  portMappings := []
  volumePath := ""

/-- A server that is created over HTTP is not in the registry: it cannot be started over gRPC when
its container is gone, and a restart does not find it. -/
theorem created_over_http_unknown :
    ¬Agree (viaHttp (.createServer firstServer none none) unasked)
      (viaGrpc .framed (.createServer firstServer none none) unasked) := by
  intro hagree
  have hmemory := hagree.memory "u"
  revert hmemory
  decide +kernel

end Wings
