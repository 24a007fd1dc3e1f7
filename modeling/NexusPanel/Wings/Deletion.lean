import NexusPanel.Wings.Daemon

/-!
# Deleting a server

Two handlers delete a server. The gRPC method removes the container first and returns when
Docker refuses, before it has touched the registry. The route of the HTTP interface never
touches the registry. What is left there is what a later start makes a container from, and
what a restart reads back from the disk.

A state is *deleted for good* when neither registry holds a configuration of the server and no
sequence of power actions, spawned tasks and restarts makes a container for it. The handlers
leave such a state behind exactly when they got to the registry, or when there was nothing in
it.
-/

namespace Wings

open StateAction Transition

/-! ## Servers that are gone -/

/-- A request to delete a server, through either interface. -/
inductive DeleteRequest
  | grpc (uuid : String) (removeVolumes : Bool)
  | http (uuid : String) (removeVolumes : Bool)

def DeleteRequest.uuid : DeleteRequest → String
  | .grpc uuid _ | .http uuid _ => uuid

/-- The state a delete request leaves behind. -/
def DeleteRequest.process (serde : Serde) (s : AppState) : DeleteRequest → AppState
  | .grpc uuid removeVolumes => (Grpc.serve serde (.deleteServer uuid removeVolumes) s).2
  | .http uuid removeVolumes => (Http.serve (.deleteServer uuid removeVolumes) s).2

/-- The call makes the container of a server, which its label names. -/
def DockerCall.CreatesFor (uuid : String) : DockerCall → Prop
  | .createContainer _ spec => ("nexus.server_uuid", uuid) ∈ spec.labels
  | _ => False

/-- Power actions, what they leave to the background, and restarts. -/
def DaemonLabel.Later : DaemonLabel → Prop
  | .grpc (.sendPowerAction _ _) | .task _ | .restart _ => True
  | .grpc _ => False

/-- No file that a restart reads holds a configuration of the server. -/
def NotOnDisk (serde : Serde) (fs : FS.FileSystem) (dataDir uuid : String) : Prop :=
  ∀ entry ∈ AppState.dataEntries fs dataDir, ∀ c,
    AppState.loadEntry serde fs dataDir entry = some c → c.uuid ≠ uuid

/-- Neither registry holds a configuration of the server, and nothing that happens later makes
a container for it. -/
structure DeletedForGood (serde : Serde) (uuid : String) (s : AppState) : Prop where
  memory : s.serverConfigs.lookup uuid = none
  disk : ∀ entries, entries.Perm (AppState.dataEntries s.fs s.config.dataDir) →
    (AppState.loadConfigs serde s.fs s.config.dataDir entries).lookup uuid = none
  later : ∀ ls, (∀ l ∈ ls, DaemonLabel.Later l) → ∀ s', run (daemonStep serde) s ls = some s' →
    ∃ calls, s'.docker.calls = calls ++ s.docker.calls ∧ ∀ c ∈ calls, ¬c.CreatesFor uuid

/-- Docker removes the container when the request, through gRPC, asks for it: the answer that
counts is the second one, after that to the request to stop it. -/
def ContainerRemoved (s : AppState) : DeleteRequest → Prop
  | .grpc _ _ => ∃ answer, s.docker.answers (s.docker.asked + 1) = .ok answer
  | .http _ _ => False

/-- Nothing in the registries is in the way of the request: it gets as far as the registry and
the server's own file is the only one with a configuration of the server, or there was no
configuration of the server to begin with. -/
def NothingLeft (serde : Serde) (s : AppState) (request : DeleteRequest) : Prop :=
  ContainerRemoved s request ∧ NotOnDisk serde
      (AppState.removePersisted s.fs s.config.dataDir request.uuid) s.config.dataDir request.uuid ∨
    ¬ContainerRemoved s request ∧ s.serverConfigs.lookup request.uuid = none ∧
      NotOnDisk serde s.fs s.config.dataDir request.uuid

/-! ## What the handlers leave behind -/

section Handlers

variable {serde : Serde} {s : AppState} {uuid : String} {removeVolumes : Bool}

/-- Removing a container is two calls, and the answer to the second one decides. -/
theorem deleteServer_eq : DockerManager.deleteServer uuid removeVolumes s =
    ((match s.docker.answers (s.docker.asked + 1) with
      | .ok _ => .ok ()
      | .error message => .error (.docker message)),
      { s with docker := { s.docker with
        calls := .removeContainer (DockerManager.containerName uuid) removeVolumes ::
          .stopContainer (DockerManager.containerName uuid) 10 :: s.docker.calls
        asked := s.docker.asked + 1 + 1 } }) := by
  simp only [DockerManager.deleteServer, dockerCall, ask, StateAction.get, StateAction.modify,
    StateAction.attempt, bind, Bind.bind, pure, Pure.pure]
  cases s.docker.answers s.docker.asked <;>
    cases hremove : s.docker.answers (s.docker.asked + 1) <;>
      simp only [hremove, StateAction.fail]

/-- Once Docker has removed the container, the gRPC method removes the configuration. -/
theorem grpcDelete_removed (h : ContainerRemoved s (.grpc uuid removeVolumes)) :
    (DeleteRequest.process serde s (.grpc uuid removeVolumes)).serverConfigs =
        s.serverConfigs.erase uuid ∧
      (DeleteRequest.process serde s (.grpc uuid removeVolumes)).fs =
        AppState.removePersisted s.fs s.config.dataDir uuid := by
  obtain ⟨answer, hanswer⟩ := h
  rw [DeleteRequest.process, Grpc.serve]
  simp only [Grpc.deleteServer, Grpc.internal, StateAction.mapErr, bind, Bind.bind, deleteServer_eq,
    hanswer, StateAction.modify, AppState.removeServerConfig, pure, Pure.pure, and_self]

/-- Where Docker refused, and through HTTP in any case, the registry stays as it is. -/
theorem delete_unremoved {request : DeleteRequest} (h : ¬ContainerRemoved s request) :
    (request.process serde s).serverConfigs = s.serverConfigs ∧
      (request.process serde s).fs = s.fs := by
  cases request with
  | grpc uuid removeVolumes =>
    rw [DeleteRequest.process, Grpc.serve]
    simp only [Grpc.deleteServer, Grpc.internal, StateAction.mapErr, bind, Bind.bind, deleteServer_eq]
    cases hanswer : s.docker.answers (s.docker.asked + 1) with
    | ok answer => exact absurd ⟨answer, hanswer⟩ h
    | error message => exact ⟨rfl, rfl⟩
  | http uuid removeVolumes =>
    rw [DeleteRequest.process, Http.serve]
    simp only [Http.deleteServer, bind, Bind.bind, deleteServer_eq]
    cases s.docker.answers (s.docker.asked + 1) <;> exact ⟨rfl, rfl⟩

theorem delete_config (serde : Serde) (s : AppState) (request : DeleteRequest) :
    (request.process serde s).config = s.config := by
  cases request with
  | grpc uuid removeVolumes => exact (after_serve serde _ s).config_eq
  | http uuid removeVolumes => exact (after_http serde _ s).config_eq

end Handlers

/-! ## What a restart reads back -/

section Disk

variable {serde : Serde} {fs : FS.FileSystem} {dataDir uuid : String}

/-- What an entry holds gets into the registry, if only for a moment. -/
theorem lookup_loadConfigs_ne_none {entries : List FS.Name} {entry : FS.Name} {c : ServerConfig}
    (hentry : entry ∈ entries) (hload : AppState.loadEntry serde fs dataDir entry = some c) :
    (AppState.loadConfigs serde fs dataDir entries).lookup c.uuid ≠ none := by
  unfold AppState.loadConfigs
  rw [lookup_foldl_insert, AList.lookup_empty, Option.or_none]
  intro hnone
  have hmem : c ∈ (entries.filterMap (AppState.loadEntry serde fs dataDir)).reverse :=
    List.mem_reverse.mpr (List.mem_filterMap.mpr ⟨entry, hentry, hload⟩)
  exact List.find?_eq_none.mp hnone c hmem (decide_eq_true rfl)

/-- A restart finds nothing of the server, whatever the order of the entries, exactly when no
file holds a configuration of it. -/
theorem notOnDisk_iff : NotOnDisk serde fs dataDir uuid ↔
    ∀ entries, entries.Perm (AppState.dataEntries fs dataDir) →
      (AppState.loadConfigs serde fs dataDir entries).lookup uuid = none := by
  constructor
  · intro h entries hperm
    cases hlookup : (AppState.loadConfigs serde fs dataDir entries).lookup uuid with
    | none => rfl
    | some c =>
      obtain ⟨entry, hentry, hload, huuid⟩ := lookup_loadConfigs hlookup
      exact absurd huuid (h entry (hperm.mem_iff.mp hentry) c hload)
  · rintro h entry hentry c hload rfl
    exact lookup_loadConfigs_ne_none hentry hload (h _ (.refl _))

end Disk

/-! ## What happens later -/

/-- The second state comes later: nothing on disk has changed, the server is not in the
registry, and no container was made for it in between. -/
structure StillGone (uuid : String) (s t : AppState) : Prop where
  config_eq : t.config = s.config
  fs_eq : t.fs = s.fs
  keyed : t.Keyed
  memory : t.serverConfigs.lookup uuid = none
  calls : ∃ calls, t.docker.calls = calls ++ s.docker.calls ∧ ∀ c ∈ calls, ¬c.CreatesFor uuid

section Later

variable {serde : Serde} {uuid : String} {s t t' : AppState}

theorem StillGone.refl (hkeyed : s.Keyed) (hmemory : s.serverConfigs.lookup uuid = none) :
    StillGone uuid s s :=
  ⟨rfl, rfl, hkeyed, hmemory, [], rfl, fun _ h => nomatch h⟩

theorem StillGone.call (ht : StillGone uuid s t) {c : DockerCall} (hc : ¬c.CreatesFor uuid) :
    StillGone uuid s (Effect.apply serde t (.call c)) := by
  obtain ⟨calls, heq, hcalls⟩ := ht.calls
  refine ⟨ht.config_eq, ht.fs_eq, ht.keyed, ht.memory, c :: calls, ?_, fun d hd => ?_⟩
  · rw [Effect.apply]
    exact congrArg (c :: ·) heq
  · rcases List.mem_cons.mp hd with rfl | hd
    · exact hc
    · exact hcalls d hd

/-- Effects that reach neither the registry nor the disk, nor make a container for the
server. -/
def Effect.Spares (uuid : String) : Effect → Prop
  | .call c => ¬c.CreatesFor uuid
  | .query _ | .spawn _ | .post _ => True
  | _ => False

theorem StillGone.effect (ht : StillGone uuid s t) {e : Effect} (he : e.Spares uuid) :
    StillGone uuid s (e.apply serde t) := by
  cases e with
  | call c => exact ht.call he
  | query _ | spawn _ | post _ => exact ⟨ht.config_eq, ht.fs_eq, ht.keyed, ht.memory, ht.calls⟩
  | makeDir _ | store _ | remove _ | buffers _ | files _ _ => exact he.elim

theorem ContainerDoes.spares {u : String} {e : Effect} (h : ContainerDoes u e) :
    e.Spares uuid := by
  cases h <;> exact fun h => h

theorem ContainerAsks.spares {u : String} {e : Effect} (h : ContainerAsks u e) :
    e.Spares uuid := by
  cases h <;> trivial

/-- A power action makes a container from what the registry has, and that is for another
server. -/
theorem power_spares (hkeyed : t.Keyed) (hmemory : t.serverConfigs.lookup uuid = none)
    {u : String} {action : Nat} {e : Effect} (h : GrpcRequest.Does t (.sendPowerAction u action) e) :
    e.Spares uuid := by
  cases h with
  | recreate _ _ hstored h =>
    have hne := hkeyed u _ hstored
    cases h with
    | pull => exact fun h => h
    | create =>
      intro hlabel
      rcases List.mem_cons.mp hlabel with heq | hlabel
      · have hname : "nexus.server_uuid" ≠ "nexus.managed" := by decide
        exact absurd (congrArg Prod.fst heq) hname
      · cases List.mem_singleton.mp hlabel
        rw [hne, hstored] at hmemory
        cases hmemory
  | power _ _ h => exact h.spares
  | powerStatus _ _ h => exact h.spares
  | spawnPower => trivial

/-- The container of an install script has no label. -/
theorem spawned_spares {task : Spawned} {e : Effect} (h : task.Does t e) : e.Spares uuid := by
  cases h with
  | install config script image h =>
    cases h with
    | create => exact fun hlabel => nomatch hlabel
    | pull | remove | start => exact fun h => h
    | logs | wait | post => trivial
  | power _ _ h => exact h.spares
  | status _ _ h => exact h.spares

/-- One later step. -/
theorem StillGone.step (hdisk : NotOnDisk serde s.fs s.config.dataDir uuid)
    (ht : StillGone uuid s t) {l : DaemonLabel} (hl : l.Later)
    (hstep : daemonStep serde t l = some t') : StillGone uuid s t' := by
  cases l with
  | grpc request =>
    cases request with
    | sendPowerAction u action =>
      cases hstep
      exact (after_serve serde _ t).preserves
        (fun _ e he hu => hu.effect (power_spares ht.keyed ht.memory he)) ht
    | _ => exact hl.elim
  | task index =>
    simp only [daemonStep] at hstep
    split at hstep
    next task _ =>
      cases hstep
      refine (after_runSpawned serde task _).preserves
        (fun _ e he hu => hu.effect (spawned_spares he)) ?_
      exact ⟨ht.config_eq, ht.fs_eq, ht.keyed, ht.memory, ht.calls⟩
    next => cases hstep
  | restart entries =>
    simp only [daemonStep] at hstep
    split at hstep
    next hperm =>
      cases hstep
      rw [ht.fs_eq, ht.config_eq] at hperm
      refine ⟨ht.config_eq, ht.fs_eq, fun u c hc => ?_, ?_, ht.calls⟩
      · obtain ⟨_, _, _, huuid⟩ := lookup_loadConfigs hc
        exact huuid
      · simp only [AppState.restart, ht.fs_eq, ht.config_eq]
        exact notOnDisk_iff.mp hdisk entries hperm
    next => cases hstep

/-- What is in neither registry is deleted for good. -/
theorem deletedForGood_of_unregistered (hkeyed : s.Keyed)
    (hmemory : s.serverConfigs.lookup uuid = none)
    (hdisk : NotOnDisk serde s.fs s.config.dataDir uuid) : DeletedForGood serde uuid s where
  memory := hmemory
  disk := notOnDisk_iff.mp hdisk
  later ls hls s' hrun := by
    have hgone : StillGone uuid s s' :=
      run_invariant (I := StillGone uuid s) (C := fun _ l => DaemonLabel.Later l)
        (fun _ _ _ ht hl hstep => ht.step hdisk hl hstep) (.refl hkeyed hmemory)
        (along_of_forall fun l hl _ => hls l hl) hrun
    exact hgone.calls

/-- For every state of Wings and every request to delete a server: afterwards neither registry
holds a configuration of it and nothing makes a container for it later, if and only if the
request came through gRPC, Docker removed the container, and no file but the server's own holds
a configuration of it, or else there was none to begin with. -/
theorem deletedForGood_iff (hkeyed : s.Keyed) (request : DeleteRequest) :
    DeletedForGood serde request.uuid (request.process serde s) ↔ NothingLeft serde s request := by
  have hconfig := delete_config serde s request
  by_cases hremoved : ContainerRemoved s request
  · obtain ⟨hregistry, hfs⟩ : (request.process serde s).serverConfigs =
          s.serverConfigs.erase request.uuid ∧ (request.process serde s).fs =
        AppState.removePersisted s.fs s.config.dataDir request.uuid := by
      cases request with
      | grpc uuid removeVolumes => exact grpcDelete_removed hremoved
      | http uuid removeVolumes => exact hremoved.elim
    constructor
    · intro h
      have hdisk := notOnDisk_iff.mpr h.disk
      rw [hfs, hconfig] at hdisk
      exact .inl ⟨hremoved, hdisk⟩
    · rintro (⟨-, hdisk⟩ | ⟨hnot, -⟩)
      · refine deletedForGood_of_unregistered (fun u c hc => ?_) ?_ ?_
        · rw [hregistry] at hc
          by_cases hu : u = request.uuid
          · subst hu
            rw [AList.lookup_erase] at hc
            cases hc
          · rw [AList.lookup_erase_ne hu] at hc
            exact hkeyed u c hc
        · rw [hregistry, AList.lookup_erase]
        · rw [hfs, hconfig]
          exact hdisk
      · exact absurd hremoved hnot
  · obtain ⟨hregistry, hfs⟩ : (request.process serde s).serverConfigs = s.serverConfigs ∧
        (request.process serde s).fs = s.fs := delete_unremoved hremoved
    constructor
    · intro h
      have hdisk := notOnDisk_iff.mpr h.disk
      have hmemory := h.memory
      rw [hfs, hconfig] at hdisk
      rw [hregistry] at hmemory
      exact .inr ⟨hremoved, hmemory, hdisk⟩
    · rintro (⟨hyes, -⟩ | ⟨-, hmemory, hdisk⟩)
      · exact absurd hyes hremoved
      · refine deletedForGood_of_unregistered (fun u c hc => ?_) ?_ ?_
        · rw [hregistry] at hc
          exact hkeyed u c hc
        · rw [hregistry]
          exact hmemory
        · rw [hfs, hconfig]
          exact hdisk

end Later

/-! ## A container that is gone already -/

section Counterexample

def registeredConfig : ServerConfig where
  uuid := "u"
  dockerImage := "image"
  startupCommand := "run"
  environment := []
  memoryLimit := 1024
  cpuLimit := 100
  diskLimit := 1024
  portMappings := []
  volumePath := "/data/u"

/-- A daemon with one server in its registry. -/
def registeredDaemon (answers : Nat → Except String (List String)) : AppState :=
  { AppState.fresh ⟨"https://panel.example.com", "tid", "token", "/data"⟩ answers with
    serverConfigs := (∅ : AList fun _ : String => ServerConfig).insert "u" registeredConfig }

theorem registeredDaemon_keyed (answers : Nat → Except String (List String)) :
    (registeredDaemon answers).Keyed := by
  intro uuid c hc
  by_cases hu : uuid = "u"
  · subst hu
    cases (AList.lookup_insert _).symm.trans hc
    rfl
  · cases (AList.lookup_insert_ne hu).symm.trans hc

/-- A container that is there is removed, and the server with it. -/
theorem deletedForGood_removed : DeletedForGood .framed "u"
    (DeleteRequest.process .framed (registeredDaemon fun _ => .ok ["ok"]) (.grpc "u" true)) := by
  refine (deletedForGood_iff (registeredDaemon_keyed _) (.grpc "u" true)).mpr (.inl ⟨⟨_, rfl⟩, ?_⟩)
  intro entry hentry
  have hempty : AppState.dataEntries (AppState.removePersisted
    (registeredDaemon fun _ => .ok ["ok"]).fs "/data" "u") "/data" = [] := by decide +kernel
  rw [DeleteRequest.uuid, registeredDaemon, AppState.fresh] at hentry
  exact nomatch hempty ▸ hentry

/-- Docker has no container of the server: it refuses to stop it, to remove it and to list it,
and goes on to answer. -/
def vanished : Nat → Except String (List String)
  | 0 | 1 => .error "No such container"
  | 2 => .ok []
  | _ + 3 => .ok ["ok"]

/-- A server whose container is gone stays in the registry through either interface, and the
next start makes it a container again. -/
theorem deleted_server_recreated :
    ¬DeletedForGood .framed "u"
      (DeleteRequest.process .framed (registeredDaemon vanished) (.grpc "u" true)) ∧
    ¬DeletedForGood .framed "u"
      (DeleteRequest.process .framed (registeredDaemon vanished) (.http "u" true)) ∧
    .createContainer (DockerManager.containerName "u") (DockerManager.gameSpec registeredConfig) ∈
      (Grpc.serve .framed (.sendPowerAction "u" 0)
        (DeleteRequest.process .framed (registeredDaemon vanished) (.grpc "u" true))).2.docker.calls
      := by
  refine ⟨fun h => (nomatch h.memory), fun h => (nomatch h.memory), ?_⟩
  decide +kernel

end Counterexample

end Wings
