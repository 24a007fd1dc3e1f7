import NexusPanel.Wings.Daemon

/-!
# One volume per server

The directory of a server is `data_dir/uuid`: the file API serves it, and creating a server
makes it and stores it as the volume path. The panel sends a volume path of its own with every
configuration. Reinstalling a server and synchronising its configuration store what the panel
sent, and from then on installs and recreated containers mount that path.

So the volume of every server is its directory exactly as long as the requests that store a
configuration unchanged happen to carry the right path. The invariant behind it is about every
place a configuration can come back from: the registry, the files on disk and the installs
that have been spawned.
-/

namespace Wings

open StateAction Transition

/-! ## Volumes of one server -/

/-- The configuration's volume is the directory of its server. -/
def ServerConfig.OwnVolume (dataDir : String) (c : ServerConfig) : Prop :=
  c.volumePath = serverDir dataDir c.uuid

instance (dataDir : String) (c : ServerConfig) : Decidable (c.OwnVolume dataDir) :=
  inferInstanceAs (Decidable (_ = _))

/-- A container that is created mounts the directory of its server and nothing else. Its
server is the one its label names, or the one an install container is named after. -/
def DockerCall.MountsOwn (dataDir : String) : DockerCall → Prop
  | .createContainer name spec =>
    ∃ uuid, spec.binds = [DockerManager.bindOf (serverDir dataDir uuid)] ∧
      (name = DockerManager.containerName uuid ∧
          spec.labels = [("nexus.managed", "true"), ("nexus.server_uuid", uuid)] ∨
        name = Installer.containerName uuid)
  | _ => True

/-- Every configuration in the registry names the directory of its server, and every
container was created with it. -/
structure OneVolume (s : AppState) : Prop where
  registry : ∀ uuid c, s.serverConfigs.lookup uuid = some c →
    c.volumePath = serverDir s.config.dataDir uuid
  containers : ∀ call ∈ s.docker.calls, call.MountsOwn s.config.dataDir

/-- A request that is stored as it is carries the directory of its server. -/
def SendsOwnVolume (s : AppState) : DaemonLabel → Prop
  | .grpc request => ∀ c ∈ request.stored s.config.dataDir, c.OwnVolume s.config.dataDir
  | .task _ | .restart _ => True

/-! ## The invariant -/

/-- The containers mount their own directories, and so do the configurations in files. -/
def volumesOnDisk (serde : Serde) (dataDir : String) : DaemonProperty := fun calls fs _ =>
  (∀ call ∈ calls, call.MountsOwn dataDir) ∧
    fs.AllFiles fun content => ∀ c, serde.decode content = some c → c.OwnVolume dataDir

/-- The configurations in memory, in files and in spawned installs name the directories of
their servers, and so did those of the containers. -/
def VolumeSound (serde : Serde) (s : AppState) : Prop :=
  Sound s.config.dataDir (ServerConfig.OwnVolume s.config.dataDir)
    (volumesOnDisk serde s.config.dataDir) s

section Rules

variable {serde : Serde} {s s' : AppState} {l : DaemonLabel} {dataDir : String}

/-- Every effect keeps the volumes, given configurations with their own. -/
theorem volumeRules (hserde : serde.RoundTrips) (dataDir : String) :
    DaemonRules serde dataDir (ServerConfig.OwnVolume dataDir) (fun _ => True)
      (volumesOnDisk serde dataDir) where
  limits _ _ _ _ hc := hc
  call calls fs h c hcreates hI := by
    refine ⟨fun call hcall => ?_, hI.2⟩
    rcases List.mem_cons.mp hcall with rfl | hcall
    · cases call with
      | createContainer name spec => cases hcreates
      | _ => trivial
    · exact hI.1 call hcall
  game calls fs h c hc hI := by
    refine ⟨fun call hcall => ?_, hI.2⟩
    rcases List.mem_cons.mp hcall with rfl | hcall
    · refine ⟨c.uuid, ?_, .inl ⟨rfl, rfl⟩⟩
      rw [DockerManager.gameSpec, hc]
    · exact hI.1 call hcall
  install calls fs h c script image hc hI := by
    refine ⟨fun call hcall => ?_, hI.2⟩
    rcases List.mem_cons.mp hcall with rfl | hcall
    · refine ⟨c.uuid, ?_, .inr rfl⟩
      rw [Installer.installSpec, hc]
    · exact hI.1 call hcall
  home calls fs h c hc hI := ⟨hI.1, hI.2.createDirAll⟩
  store calls fs h c hc hI := by
    refine ⟨hI.1, ?_⟩
    have hcontent : ∀ c', serde.decode (serde.encode c) = some c' → c'.OwnVolume dataDir := by
      intro c' hdecode
      rw [hserde c] at hdecode
      cases hdecode
      exact hc
    unfold AppState.persistConfig
    dsimp only
    split
    next fs' hwrite => exact hI.2.createDirAll.writeFile hcontent hwrite
    next => exact hI.2.createDirAll
  remove calls fs h uuid _ hI := by
    refine ⟨hI.1, ?_⟩
    unfold AppState.removePersisted
    split
    next fs' hremove => exact hI.2.removeFile hremove
    next => exact hI.2
  loaded calls fs h entry c hI hload := by
    obtain ⟨content, hread, hdecode⟩ := Option.bind_eq_some_iff.mp hload
    exact hI.2.readFile hread c hdecode

theorem VolumeSound.oneVolume (hs : VolumeSound serde s) : OneVolume s := by
  refine ⟨fun uuid c hc => ?_, hs.property.1⟩
  obtain ⟨rfl, hown⟩ := hs.registry uuid c hc
  exact hown

/-- A request that stores a configuration as it is leaves it in the registry. -/
theorem lookup_of_stored {request : GrpcRequest} {c : ServerConfig}
    (hc : c ∈ request.stored s.config.dataDir) :
    c.OwnVolume s.config.dataDir ∨
      (Grpc.serve serde request s).2.serverConfigs.lookup c.uuid = some c ∧
        (Grpc.serve serde request s).2.config = s.config := by
  cases request with
  | createServer server script image =>
    obtain ⟨cfg, -, rfl⟩ := Option.map_eq_some_iff.mp hc
    exact .inl rfl
  | reinstallServer server script image =>
    obtain ⟨cfg, rfl, rfl⟩ := Option.map_eq_some_iff.mp hc
    exact .inr ⟨AList.lookup_insert s.serverConfigs, rfl⟩
  | syncServerConfig server =>
    obtain ⟨cfg, rfl, rfl⟩ := Option.map_eq_some_iff.mp hc
    exact .inr ⟨AList.lookup_insert s.serverConfigs, rfl⟩
  | deleteServer | sendPowerAction | sendCommand | getServerStatus | getSystemInfo
  | updateResources | eventStream => cases hc

/-- For every daemon whose volumes are sound, and every run of gRPC requests, spawned tasks
and restarts: in every state of the run each configuration in the registry names the
directory of its server, and each container was created on it, if and only if every request
that is stored as it is carries that directory. -/
theorem oneVolume_iff (hserde : serde.RoundTrips) (hs : VolumeSound serde s)
    (ls : List DaemonLabel) :
    (∀ ks, ks <+: ls → ∀ s', run (daemonStep serde) s ks = some s' → OneVolume s') ↔
      Along (daemonStep serde) SendsOwnVolume s ls := by
  refine property_iff_along
    (I := Sound s.config.dataDir (ServerConfig.OwnVolume s.config.dataDir)
      (volumesOnDisk serde s.config.dataDir))
    (fun t ht => ?_) (fun t l t' ht hl hstep => ?_) (fun t l t' ht hstep ht' => ?_)
    (fun t l hstep => ?_) hs
  · have hsound : VolumeSound serde t := by
      rw [VolumeSound, ht.dataDir]
      exact ht
    exact hsound.oneVolume
  · refine (volumeRules hserde s.config.dataDir).step ht ?_ hstep
    cases l with
    | grpc request =>
      rw [SendsOwnVolume, ht.dataDir] at hl
      exact ⟨hl, fun _ _ => trivial⟩
    | task index => trivial
    | restart entries => trivial
  · cases l with
    | grpc request =>
      intro c hc
      cases hstep
      rcases lookup_of_stored hc with hown | ⟨hlookup, hconfig⟩
      · exact hown
      · have hpath := ht'.registry c.uuid c hlookup
        rwa [hconfig] at hpath
    | task index => trivial
    | restart entries => trivial
  · cases l with
    | grpc request => cases hstep
    | task index => trivial
    | restart entries => trivial

end Rules

/-! ## A request as the panel sends it -/

section Counterexample

/-- Nothing is stored yet, and Docker answers everything. -/
def freshDaemon : AppState :=
  .fresh ⟨"https://panel.example.com", "tid", "token", "/var/lib/nexus-wings/data"⟩
    fun _ => .ok ["ok"]

/-- What the panel sends for a server: the volume path is below its own idea of the data
directory. -/
def sentConfig : Proto.ServerConfig where
  uuid := "u"
  dockerImage := "image"
  startupCommand := "run"
  environment := []
  memoryLimitMb := 1024
  cpuLimit := 100
  diskLimitMb := 1024
  portMappings := []
  volumePath := "/srv/daemon-data/u"

theorem freshDaemon_sound : VolumeSound .framed freshDaemon where
  dataDir := rfl
  registry uuid c h := nomatch h
  pending c script image h := nomatch h
  property := by
    refine ⟨fun call hcall => (nomatch hcall), fun p content hfile => ?_⟩
    unfold FS.FileSystem.lookup at hfile
    split at hfile <;> cases hfile

/-- Creating a server leaves every volume where it belongs. -/
theorem oneVolume_create :
    Always (daemonStep .framed) (fun _ => OneVolume) freshDaemon
      [.grpc (.createServer (some sentConfig) "" "")] := by
  refine (oneVolume_iff Serde.framed_roundTrips freshDaemon_sound _).mpr ⟨?_, fun _ _ => trivial⟩
  intro c hc
  cases hc
  rfl

/-- Reinstalling one stores the panel's path. -/
theorem reinstall_moves_volume :
    ∃ s', run (daemonStep .framed) freshDaemon
        [.grpc (.reinstallServer (some sentConfig) "install" "alpine:latest")] = some s' ∧
      ¬OneVolume s' := by
  refine ⟨_, rfl, fun h => ?_⟩
  have hpath := h.registry "u" (Grpc.toDockerConfig sentConfig) (AList.lookup_insert _)
  revert hpath
  decide

end Counterexample

end Wings
