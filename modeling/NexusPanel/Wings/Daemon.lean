import NexusPanel.Foundation.Transition
import NexusPanel.Wings.Effects

/-!
# The daemon as a system

A run of Wings: gRPC requests, spawned tasks that run to their end, and restarts, in any
order. Requests and tasks take what they need to know about a server from three places, the
request itself, the registry in memory and the configuration a task was spawned with, and a
restart fills the registry from the files of an earlier life.

An invariant of such runs says that every configuration in these places is good, and
something about the calls to Docker, the file system and the history of the registry. The
rule of this module (`DaemonRules.step`) asks for the second part one effect at a time: a
call, a container made from a good configuration, a directory made for one, a configuration
stored, one removed, one read back. The first part follows.
-/

namespace Wings

open StateAction

/-! ## Runs -/

inductive DaemonLabel
  | grpc (request : GrpcRequest)
  | task (index : Nat)
  | restart (entries : List FS.Name)
deriving DecidableEq

/-- A restart finds the entries of the data directory in any order. -/
def daemonStep (serde : Serde) (s : AppState) : DaemonLabel → Option AppState
  | .grpc request => some (Grpc.serve serde request s).2
  | .task index =>
    match s.spawned[index]? with
    | some task => some (runSpawned task { s with spawned := s.spawned.eraseIdx index }).2
    | none => none
  | .restart entries =>
    if entries.Perm (AppState.dataEntries s.fs s.config.dataDir) then
      some (AppState.restart serde s entries)
    else none

/-- The configuration that a request brings into the registry. Creating a server replaces
the volume path; the other requests are taken as they are. -/
def GrpcRequest.stored (dataDir : String) : GrpcRequest → Option ServerConfig
  | .createServer server _ _ => server.map fun cfg =>
    { Grpc.toDockerConfig cfg with volumePath := serverDir dataDir cfg.uuid }
  | .reinstallServer server _ _ | .syncServerConfig server => server.map Grpc.toDockerConfig
  | _ => none

/-- The server that a request takes out of the registry. -/
def GrpcRequest.removed : GrpcRequest → Option String
  | .deleteServer uuid _ => some uuid
  | _ => none

/-! ## Invariants -/

/-- Whether a call makes a container. -/
def DockerCall.creates : DockerCall → Bool
  | .createContainer _ _ => true
  | _ => false

/-- A property of the calls to Docker, the file system and the history of the registry. -/
abbrev DaemonProperty := List DockerCall → FS.FileSystem → List RegistryOp → Prop

/-- What each single effect has to keep, for configurations in `G` and the removal of
servers in `V`. -/
structure DaemonRules (serde : Serde) (dataDir : String) (G : ServerConfig → Prop)
    (V : String → Prop) (I : DaemonProperty) : Prop where
  limits : ∀ c memoryLimit cpuLimit diskLimit, G c →
    G { c with memoryLimit, cpuLimit, diskLimit }
  call : ∀ calls fs h c, c.creates = false → I calls fs h → I (c :: calls) fs h
  game : ∀ calls fs h c, G c → I calls fs h →
    I (.createContainer (DockerManager.containerName c.uuid) (DockerManager.gameSpec c) :: calls)
      fs h
  install : ∀ calls fs h c script image, G c → I calls fs h →
    I (.createContainer (Installer.containerName c.uuid)
      (Installer.installSpec c script image) :: calls) fs h
  home : ∀ calls fs h c, G c → I calls fs h →
    I calls (fs.createDirAll (lexical (serverDir dataDir c.uuid))).1 h
  store : ∀ calls fs h c, G c → I calls fs h →
    I calls (AppState.persistConfig serde fs dataDir c.uuid c) (.store c :: h)
  remove : ∀ calls fs h uuid, V uuid → I calls fs h →
    I calls (AppState.removePersisted fs dataDir uuid) (.remove uuid :: h)
  loaded : ∀ calls fs h entry c, I calls fs h →
    AppState.loadEntry serde fs dataDir entry = some c → G c

/-- Every configuration at hand is good, and the rest is as the property says. -/
structure Sound (dataDir : String) (G : ServerConfig → Prop) (I : DaemonProperty)
    (s : AppState) : Prop where
  dataDir : s.config.dataDir = dataDir
  registry : ∀ uuid c, s.serverConfigs.lookup uuid = some c → c.uuid = uuid ∧ G c
  pending : ∀ c script image, Spawned.install c script image ∈ s.spawned → G c
  property : I s.docker.calls s.fs s.history

/-- What a step has to bring along: a good configuration, a server that may be removed. -/
def Brings (dataDir : String) (G : ServerConfig → Prop) (V : String → Prop) :
    DaemonLabel → Prop
  | .grpc request => (∀ c ∈ request.stored dataDir, G c) ∧ ∀ uuid ∈ request.removed, V uuid
  | .task _ | .restart _ => True

section Rules

variable {serde : Serde} {dataDir : String} {G : ServerConfig → Prop} {V : String → Prop}
  {I : DaemonProperty} {c : ServerConfig} {uuid : String} {s t : AppState}

theorem Sound.call (ht : Sound dataDir G I t) {call : DockerCall}
    (hcall : ∀ calls fs h, I calls fs h → I (call :: calls) fs h) :
    Sound dataDir G I (Effect.apply serde t (.call call)) :=
  ⟨ht.dataDir, ht.registry, ht.pending, hcall _ _ _ ht.property⟩

theorem Sound.query (ht : Sound dataDir G I t) (query : DockerQuery) :
    Sound dataDir G I (Effect.apply serde t (.query query)) :=
  ⟨ht.dataDir, ht.registry, ht.pending, ht.property⟩

theorem Sound.buffers (ht : Sound dataDir G I t) (b : AList fun _ : String => List String) :
    Sound dataDir G I (Effect.apply serde t (.buffers b)) :=
  ⟨ht.dataDir, ht.registry, ht.pending, ht.property⟩

theorem Sound.post (ht : Sound dataDir G I t) (callback : Callback) :
    Sound dataDir G I (Effect.apply serde t (.post callback)) :=
  ⟨ht.dataDir, ht.registry, ht.pending, ht.property⟩

theorem Sound.spawn (ht : Sound dataDir G I t) {task : Spawned}
    (h : ∀ c script image, task = .install c script image → G c) :
    Sound dataDir G I (Effect.apply serde t (.spawn task)) := by
  refine ⟨ht.dataDir, ht.registry, fun c script image hmem => ?_, ht.property⟩
  rcases List.mem_append.mp hmem with hmem | hmem
  · exact ht.pending c script image hmem
  · exact h c script image (List.mem_singleton.mp hmem).symm

variable (R : DaemonRules serde dataDir G V I)

include R

theorem DaemonRules.makeDir (ht : Sound dataDir G I t) (hc : G c) (huuid : c.uuid = uuid) :
    Sound dataDir G I (Effect.apply serde t (.makeDir uuid)) := by
  subst huuid
  rw [Effect.apply]
  refine ⟨ht.dataDir, ht.registry, ht.pending, ?_⟩
  dsimp only
  rw [ht.dataDir]
  exact R.home _ _ _ c hc ht.property

theorem DaemonRules.stores (ht : Sound dataDir G I t) (hc : G c) :
    Sound dataDir G I (Effect.apply serde t (.store c)) := by
  refine ⟨ht.dataDir, fun uuid c' h => ?_, ht.pending, ?_⟩
  · by_cases hu : uuid = c.uuid
    · subst hu
      rw [Effect.apply, AppState.storeServerConfig, StateAction.modify, AList.lookup_insert] at h
      cases h
      exact ⟨rfl, hc⟩
    · rw [Effect.apply, AppState.storeServerConfig, StateAction.modify, AList.lookup_insert_ne hu] at h
      exact ht.registry uuid c' h
  · simp only [Effect.apply, AppState.storeServerConfig, StateAction.modify]
    rw [ht.dataDir]
    exact R.store _ _ _ c hc ht.property

theorem DaemonRules.removes (ht : Sound dataDir G I t) (hv : V uuid) :
    Sound dataDir G I (Effect.apply serde t (.remove uuid)) := by
  refine ⟨ht.dataDir, fun u c h => ?_, ht.pending, ?_⟩
  · by_cases hu : u = uuid
    · subst hu
      rw [Effect.apply, AppState.removeServerConfig, StateAction.modify, AList.lookup_erase] at h
      cases h
    · rw [Effect.apply, AppState.removeServerConfig, StateAction.modify, AList.lookup_erase_ne hu] at h
      exact ht.registry u c h
  · simp only [Effect.apply, AppState.removeServerConfig, StateAction.modify]
    rw [ht.dataDir]
    exact R.remove _ _ _ uuid hv ht.property

/-- Making a container of a good configuration. -/
theorem DaemonRules.creates (ht : Sound dataDir G I t) (hc : G c) {e : Effect}
    (he : CreateDoes c e) : Sound dataDir G I (e.apply serde t) := by
  cases he with
  | pull => exact ht.call fun calls fs h => R.call calls fs h _ rfl
  | create => exact ht.call fun calls fs h => R.game calls fs h c hc

theorem DaemonRules.container (ht : Sound dataDir G I t) {e : Effect}
    (he : ContainerDoes uuid e) : Sound dataDir G I (e.apply serde t) := by
  cases he <;> exact ht.call fun calls fs h => R.call calls fs h _ rfl

omit R in
theorem Sound.asks (ht : Sound dataDir G I t) {e : Effect} (he : ContainerAsks uuid e) :
    Sound dataDir G I (e.apply serde t) := by
  cases he <;> exact ht.query _

theorem DaemonRules.installs (ht : Sound dataDir G I t) (hc : G c) {script image : String}
    {e : Effect} (he : InstallDoes s c script image e) : Sound dataDir G I (e.apply serde t) := by
  cases he with
  | create => exact ht.call fun calls fs h => R.install calls fs h c script image hc
  | pull | remove | start => exact ht.call fun calls fs h => R.call calls fs h _ rfl
  | logs | wait => exact ht.query _
  | post status message => exact ht.post _

/-- A request that brings a good configuration along keeps the invariant. -/
theorem DaemonRules.serves (hs : Sound dataDir G I s) {request : GrpcRequest}
    (hstored : ∀ c ∈ request.stored dataDir, G c) (hremoved : ∀ u ∈ request.removed, V u) :
    Sound dataDir G I (Grpc.serve serde request s).2 := by
  refine (after_serve serde request s).preserves (I := Sound dataDir G I)
    (fun t e he ht => ?_) hs
  have hcreated : ∀ cfg script image, request = .createServer (some cfg) script image →
      G (cfg.created s.config.dataDir) := by
    rintro cfg script image rfl
    rw [hs.dataDir]
    exact hstored _ rfl
  cases he with
  | makeDir cfg script image => exact R.makeDir ht (hcreated cfg script image rfl) rfl
  | storeCreated cfg script image => exact R.stores ht (hcreated cfg script image rfl)
  | create cfg script image h => exact R.creates ht (hcreated cfg script image rfl) h
  | spawnCreated cfg script image =>
    refine ht.spawn fun c script' image' h => ?_
    cases h
    exact hcreated cfg script image rfl
  | storeReinstalled cfg script image => exact R.stores ht (hstored _ rfl)
  | spawnReinstalled cfg script image =>
    refine ht.spawn fun c script' image' h => ?_
    cases h
    exact hstored _ rfl
  | storeSynced cfg => exact R.stores ht (hstored _ rfl)
  | storeUpdated uuid memory cpu disk hlookup =>
    exact R.stores ht (R.limits _ _ _ _ (hs.registry _ _ hlookup).2)
  | recreate uuid action hlookup h => exact R.creates ht (hs.registry _ _ hlookup).2 h
  | remove uuid volumes => exact R.removes ht (hremoved uuid rfl)
  | dropBuffer uuid volumes b => exact ht.buffers b
  | delete _ _ h | power _ _ h | command _ _ h | update _ _ _ _ h => exact R.container ht h
  | powerStatus _ _ h | status _ h => exact ht.asks h
  | spawnPower uuid action name => exact ht.spawn fun _ _ _ h => nomatch h
  | version | listManaged => exact ht.query _

theorem DaemonRules.runs (hs : Sound dataDir G I s) {task : Spawned}
    (h : ∀ c script image, task = .install c script image → G c) :
    Sound dataDir G I (runSpawned task s).2 := by
  refine (after_runSpawned serde task s).preserves (I := Sound dataDir G I)
    (fun t e he ht => ?_) hs
  cases he with
  | install c script image he => exact R.installs ht (h c script image rfl) he
  | power uuid action he => exact R.container ht he
  | status uuid action he => exact ht.asks he

end Rules

/-! ### Steps and runs -/

section Runs

variable {serde : Serde} {dataDir : String} {G : ServerConfig → Prop} {V : String → Prop}
  {I : DaemonProperty} {s s' : AppState}

/-- Inserting one configuration after the other: the last one for a uuid stays. -/
theorem lookup_foldl_insert {configs : List ServerConfig} {uuid : String}
    {registry : AList fun _ : String => ServerConfig} :
    (configs.foldl (fun registry config => registry.insert config.uuid config) registry).lookup
        uuid =
      (configs.reverse.find? fun config => config.uuid = uuid).or (registry.lookup uuid) := by
  induction configs generalizing registry with
  | nil => rfl
  | cons config configs ih =>
    rw [List.foldl_cons, ih, List.reverse_cons, List.find?_append, Option.or_assoc]
    congr 1
    by_cases hu : config.uuid = uuid
    · rw [List.find?_cons_of_pos (by rw [hu]; exact decide_eq_true rfl), ← hu,
        AList.lookup_insert]
      rfl
    · rw [List.find?_cons_of_neg (by simpa using hu), List.find?_nil,
        AList.lookup_insert_ne (Ne.symm hu)]
      rfl

/-- What a restart finds in the registry it has read from an entry. -/
theorem lookup_loadConfigs {fs : FS.FileSystem} {entries : List FS.Name} {uuid : String}
    {c : ServerConfig}
    (h : (AppState.loadConfigs serde fs dataDir entries).lookup uuid = some c) :
    ∃ entry ∈ entries, AppState.loadEntry serde fs dataDir entry = some c ∧ c.uuid = uuid := by
  unfold AppState.loadConfigs at h
  rw [lookup_foldl_insert, AList.lookup_empty, Option.or_none] at h
  have hmem := List.mem_reverse.mp (List.mem_of_find?_eq_some h)
  obtain ⟨entry, hentry, hload⟩ := List.mem_filterMap.mp hmem
  have huuid := List.find?_some h
  exact ⟨entry, hentry, hload, of_decide_eq_true huuid⟩

/-- One step keeps the invariant. -/
theorem DaemonRules.step (R : DaemonRules serde dataDir G V I) {l : DaemonLabel}
    (hs : Sound dataDir G I s) (hl : Brings dataDir G V l) (hstep : daemonStep serde s l = some s') :
    Sound dataDir G I s' := by
  cases l with
  | grpc request =>
    cases hstep
    exact R.serves hs hl.1 hl.2
  | task index =>
    simp only [daemonStep] at hstep
    split at hstep
    next task htask =>
      cases hstep
      have hmem : task ∈ s.spawned := List.mem_of_getElem? htask
      have htaken : Sound dataDir G I { s with spawned := s.spawned.eraseIdx index } :=
        ⟨hs.dataDir, hs.registry, fun c script image h =>
          hs.pending c script image (List.mem_of_mem_eraseIdx h), hs.property⟩
      exact R.runs htaken fun c script image heq => hs.pending c script image (heq ▸ hmem)
    next => cases hstep
  | restart entries =>
    simp only [daemonStep] at hstep
    split at hstep
    next =>
      cases hstep
      refine ⟨hs.dataDir, fun uuid c h => ?_, fun c script image h => (nomatch h), hs.property⟩
      obtain ⟨entry, -, hload, huuid⟩ := lookup_loadConfigs h
      rw [hs.dataDir] at hload
      exact ⟨huuid, R.loaded _ _ _ entry c hs.property hload⟩
    next => cases hstep

/-- The registry keeps a configuration under its own uuid. -/
def AppState.Keyed (s : AppState) : Prop :=
  ∀ uuid c, s.serverConfigs.lookup uuid = some c → c.uuid = uuid

/-- Every run of the daemon keeps the registry keyed by uuid. -/
theorem keyed_run {serde : Serde} {s s' : AppState} (hs : s.Keyed) {ls : List DaemonLabel}
    (hrun : Transition.run (daemonStep serde) s ls = some s') : s'.Keyed := by
  have rules : DaemonRules serde s.config.dataDir (fun _ => True) (fun _ => True)
      (fun _ _ _ => True) :=
    { limits := fun _ _ _ _ h => h, call := fun _ _ _ _ _ h => h, game := fun _ _ _ _ _ h => h
      install := fun _ _ _ _ _ _ _ h => h, home := fun _ _ _ _ _ h => h
      store := fun _ _ _ _ _ h => h, remove := fun _ _ _ _ _ h => h
      loaded := fun _ _ _ _ _ _ _ => trivial }
  have hsound : Sound s.config.dataDir (fun _ => True) (fun _ _ _ => True) s :=
    ⟨rfl, fun u c h => ⟨hs u c h, trivial⟩, fun _ _ _ _ => trivial, trivial⟩
  have hsound' := Transition.run_preserves (fun t l t' ht hstep => rules.step ht (by
    cases l with
    | grpc request => exact ⟨fun _ _ => trivial, fun _ _ => trivial⟩
    | task _ | restart _ => trivial) hstep) hsound hrun
  exact fun u c h => (hsound'.registry u c h).1

end Runs

end Wings
