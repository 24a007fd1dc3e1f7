import NexusPanel.Panel.Database
import NexusPanel.Wings.Daemon

/-!
# Whose container a request acts on

Wings finds the container of a server by its name, and the name is made of the first eight
characters of the uuid without its dashes. The panel has a column for the same eight
characters, `uuidShort`, and the schema makes it unique. But the uuid is generated by the
database, after the hook that fills `uuidShort` has run: the hook finds no uuid and makes up
eight random digits. So the unique column says nothing about the uuids, and two servers whose
uuids begin alike have one container between them.
-/

namespace Wings

open StateAction

/-! ## Names of containers -/

/-- The container a call names. -/
def DockerCall.target : DockerCall → Option String
  | .pullImage _ => none
  | .createContainer name _ | .startContainer name | .stopContainer name _ | .killContainer name
  | .restartContainer name | .removeContainer name _ | .updateContainer name _ _
  | .exec name _ => some name

def DockerQuery.target : DockerQuery → Option String
  | .listManaged | .version => none
  | .listContainers name | .stats name | .logs name | .waitContainer name => some name

/-- The containers of a server: the one it runs in and the one it is installed in. -/
def containersOf (uuid : String) : List String :=
  [DockerManager.containerName uuid, Installer.containerName uuid]

/-- Between the two states the daemon has been asked about the container. -/
def Touched (s s' : AppState) (name : String) : Prop :=
  (∃ new, s'.docker.calls = new ++ s.docker.calls ∧ ∃ c ∈ new, c.target = some name) ∨
    ∃ new, s'.docker.queries = new ++ s.docker.queries ∧ ∃ q ∈ new, q.target = some name

/-! ## Requests for a server -/

/-- The server a gRPC request is for. -/
def GrpcRequest.server : GrpcRequest → Option String
  | .createServer server _ _ | .reinstallServer server _ _ | .syncServerConfig server =>
    server.map Proto.ServerConfig.uuid
  | .deleteServer uuid _ | .sendPowerAction uuid _ | .sendCommand uuid _ | .getServerStatus uuid
  | .updateResources uuid _ _ _ => some uuid
  | .getSystemInfo | .eventStream => none

/-- The server an HTTP request is for; a configuration in its body goes before its path. -/
def HttpRequest.server : HttpRequest → Option String
  | .systemInfo => none
  | .createServer server _ _ => some server.uuid
  | .deleteServer uuid _ | .powerAction uuid _ | .sendCommand uuid _ | .updateResources uuid _ _ _
  | .getStatus uuid | .files uuid _ => some uuid
  | .installServer uuid _ _ _ server => some ((server.map ServerConfig.uuid).getD uuid)

/-- The server a spawned task is for. -/
def Spawned.server : Spawned → String
  | .install config _ _ => config.uuid
  | .powerAction uuid _ => uuid

/-- What Wings does for a server: a request, a WebSocket session, or a spawned task. -/
inductive Acts (serde : Serde) (uuid : String) (s : AppState) : AppState → Prop
  | grpc (request : GrpcRequest) (h : request.server = some uuid) :
    Acts serde uuid s (Grpc.serve serde request s).2
  | http (request : HttpRequest) (h : request.server = some uuid) :
    Acts serde uuid s (Http.serve request s).2
  | webSocket (events : List Http.WsEvent) : Acts serde uuid s (Http.handleWs uuid events s).2
  | task (task : Spawned) (h : task.server = uuid) : Acts serde uuid s (runSpawned task s).2

/-! ## Containers of one server -/

/-- What Wings does for one server of the node touches no container of another one. -/
def OwnContainersOnly (serde : Serde) (db : Panel.Database) (nodeId : String) : Prop :=
  ∀ a ∈ db.servers, a.nodeId = nodeId → ∀ b ∈ db.servers, b.nodeId = nodeId → a.id ≠ b.id →
    ∀ s s', s.Keyed → Acts serde a.uuid s s' → ∀ name, Touched s s' name →
      name ∈ containersOf a.uuid ∧ name ∉ containersOf b.uuid

/-- The container names of the servers of the node are different. -/
def NamesDiffer (db : Panel.Database) (nodeId : String) : Prop :=
  ∀ a ∈ db.servers, a.nodeId = nodeId → ∀ b ∈ db.servers, b.nodeId = nodeId → a.id ≠ b.id →
    DockerManager.containerName a.uuid ≠ DockerManager.containerName b.uuid

/-- No two uuids on the node begin with the same eight characters, dashes left out. -/
def PrefixesDiffer (db : Panel.Database) (nodeId : String) : Prop :=
  ∀ a ∈ db.servers, a.nodeId = nodeId → ∀ b ∈ db.servers, b.nodeId = nodeId → a.id ≠ b.id →
    (DockerManager.undashed a.uuid).take 8 ≠ (DockerManager.undashed b.uuid).take 8

/-! ## The names -/

theorem containerName_inj {uuid uuid' : String} :
    DockerManager.containerName uuid = DockerManager.containerName uuid' ↔
      (DockerManager.undashed uuid).take 8 = (DockerManager.undashed uuid').take 8 := by
  unfold DockerManager.containerName
  rw [← String.toList_inj, String.toList_append, String.toList_append, List.append_cancel_left_eq,
    String.toList_ofList, String.toList_ofList]

theorem installName_inj {uuid uuid' : String} :
    Installer.containerName uuid = Installer.containerName uuid' ↔ uuid = uuid' := by
  unfold Installer.containerName
  rw [← String.toList_inj, String.toList_append, String.toList_append, List.append_cancel_left_eq,
    String.toList_inj]

/-- The name of an install container has a dash where a game container has none. -/
theorem containerName_ne_installName {uuid uuid' : String} :
    DockerManager.containerName uuid ≠ Installer.containerName uuid' := by
  intro h
  have hsplit : "nexus-install-".toList = "nexus-".toList ++ "install-".toList := by decide
  unfold DockerManager.containerName Installer.containerName at h
  rw [← String.toList_inj, String.toList_append, String.toList_append, hsplit, List.append_assoc,
    List.append_cancel_left_eq, String.toList_ofList] at h
  have hdash : '-' ∈ (DockerManager.undashed uuid).take 8 := by
    rw [h]
    exact List.mem_append_left _ (by decide)
  have hmem := List.mem_of_mem_take hdash
  unfold DockerManager.undashed at hmem
  simp at hmem

/-! ## What a request asks about -/

/-- Since `s₀`, the daemon has been asked about the given containers only. -/
structure Confined (s₀ : AppState) (names : List String) (s : AppState) : Prop where
  keyed : s.Keyed
  calls : ∃ new, s.docker.calls = new ++ s₀.docker.calls ∧
    ∀ c ∈ new, ∀ name ∈ c.target, name ∈ names
  queries : ∃ new, s.docker.queries = new ++ s₀.docker.queries ∧
    ∀ q ∈ new, ∀ name ∈ q.target, name ∈ names

theorem Confined.refl {s : AppState} {names : List String} (hs : s.Keyed) : Confined s names s where
  keyed := hs
  calls := ⟨[], rfl, fun _ h => nomatch h⟩
  queries := ⟨[], rfl, fun _ h => nomatch h⟩

theorem Confined.touched {s s' : AppState} {names : List String} {name : String}
    (h : Confined s names s') (ht : Touched s s' name) : name ∈ names := by
  rcases ht with ⟨new, hnew, c, hc, htarget⟩ | ⟨new, hnew, q, hq, htarget⟩
  · obtain ⟨new', hnew', hall⟩ := h.calls
    rw [hnew, List.append_cancel_right_eq] at hnew'
    exact hall c (hnew' ▸ hc) name htarget
  · obtain ⟨new', hnew', hall⟩ := h.queries
    rw [hnew, List.append_cancel_right_eq] at hnew'
    exact hall q (hnew' ▸ hq) name htarget

section Acts

variable {serde : Serde} {s₀ s t : AppState} {names : List String} {uuid : String}
  {c : ServerConfig} {e : Effect}

theorem Confined.call (ht : Confined s₀ names t) {call : DockerCall}
    (h : ∀ name ∈ call.target, name ∈ names) :
    Confined s₀ names (Effect.apply serde t (.call call)) := by
  refine ⟨ht.keyed, ?_, ht.queries⟩
  obtain ⟨new, hnew, hall⟩ := ht.calls
  refine ⟨call :: new, congrArg (call :: ·) hnew, fun c hc => ?_⟩
  rcases List.mem_cons.mp hc with rfl | hc
  · exact h
  · exact hall c hc

theorem Confined.query (ht : Confined s₀ names t) {query : DockerQuery}
    (h : ∀ name ∈ query.target, name ∈ names) :
    Confined s₀ names (Effect.apply serde t (.query query)) := by
  refine ⟨ht.keyed, ht.calls, ?_⟩
  obtain ⟨new, hnew, hall⟩ := ht.queries
  refine ⟨query :: new, congrArg (query :: ·) hnew, fun q hq => ?_⟩
  rcases List.mem_cons.mp hq with rfl | hq
  · exact h
  · exact hall q hq

/-- Effects that do not ask the daemon, the registry staying keyed. -/
theorem Confined.other (ht : Confined s₀ names t)
    (he : (∀ call, e ≠ .call call) ∧ ∀ query, e ≠ .query query) :
    Confined s₀ names (e.apply serde t) := by
  have hdocker : (e.apply serde t).docker = t.docker := by
    cases e with
    | call c => exact absurd rfl (he.1 c)
    | query q => exact absurd rfl (he.2 q)
    | _ => simp only [Effect.apply, AppState.storeServerConfig, AppState.removeServerConfig,
        StateAction.modify]
  refine ⟨?_, by rw [hdocker]; exact ht.calls, by rw [hdocker]; exact ht.queries⟩
  cases e with
  | call c => exact absurd rfl (he.1 c)
  | query q => exact absurd rfl (he.2 q)
  | store config =>
    intro u c' h
    rw [Effect.apply, AppState.storeServerConfig, StateAction.modify] at h
    by_cases hu : u = config.uuid
    · subst hu
      rw [AList.lookup_insert] at h
      cases h
      rfl
    · rw [AList.lookup_insert_ne hu] at h
      exact ht.keyed u c' h
  | remove removed =>
    intro u c h
    rw [Effect.apply, AppState.removeServerConfig, StateAction.modify] at h
    by_cases hu : u = removed
    · subst hu
      rw [AList.lookup_erase] at h
      cases h
    · rw [AList.lookup_erase_ne hu] at h
      exact ht.keyed u c h
  | makeDir | buffers | spawn | post | files =>
    intro u c h
    rw [Effect.apply] at h
    exact ht.keyed u c h

theorem gameName_mem {name : String}
    (h : some (DockerManager.containerName uuid) = some name) : name ∈ containersOf uuid := by
  cases h
  exact List.mem_cons_self

theorem installName_mem {name : String}
    (h : some (Installer.containerName uuid) = some name) : name ∈ containersOf uuid := by
  cases h
  exact List.mem_cons_of_mem _ List.mem_cons_self

theorem Confined.container (ht : Confined s₀ (containersOf uuid) t) (he : ContainerDoes uuid e) :
    Confined s₀ (containersOf uuid) (e.apply serde t) := by
  cases he <;> exact ht.call fun _ => gameName_mem

theorem Confined.asks (ht : Confined s₀ (containersOf uuid) t) (he : ContainerAsks uuid e) :
    Confined s₀ (containersOf uuid) (e.apply serde t) := by
  cases he <;> exact ht.query fun _ => gameName_mem

theorem Confined.creates (ht : Confined s₀ (containersOf uuid) t) (hc : c.uuid = uuid)
    (he : CreateDoes c e) : Confined s₀ (containersOf uuid) (e.apply serde t) := by
  subst hc
  cases he with
  | pull => exact ht.call fun _ h => nomatch h
  | create => exact ht.call fun _ => gameName_mem

theorem Confined.installs (ht : Confined s₀ (containersOf uuid) t) (hc : c.uuid = uuid)
    {script image : String} (he : InstallDoes s c script image e) :
    Confined s₀ (containersOf uuid) (e.apply serde t) := by
  subst hc
  cases he with
  | pull => exact ht.call fun _ h => nomatch h
  | create | remove | start => exact ht.call fun _ => installName_mem
  | logs | wait => exact ht.query fun _ => installName_mem
  | post => exact ht.other ⟨fun _ h => (nomatch h), fun _ h => nomatch h⟩

/-- A gRPC request asks about the containers of its server only. -/
theorem Confined.grpc (ht : Confined s₀ (containersOf uuid) t) (hs : s.Keyed)
    {request : GrpcRequest} (h : request.server = some uuid) (he : request.Does s e) :
    Confined s₀ (containersOf uuid) (e.apply serde t) := by
  cases he with
  | create cfg script image he =>
    cases h
    exact ht.creates rfl he
  | recreate u action hlookup he =>
    cases h
    exact ht.creates (hs _ _ hlookup) he
  | delete _ _ he | power _ _ he | command _ _ he | update _ _ _ _ he =>
    cases h
    exact ht.container he
  | powerStatus _ _ he | status _ he =>
    cases h
    exact ht.asks he
  | version | listManaged => cases h
  | makeDir | storeCreated | spawnCreated | dropBuffer | remove | storeReinstalled
  | spawnReinstalled | spawnPower | storeSynced | storeUpdated =>
    exact ht.other ⟨fun _ h => (nomatch h), fun _ h => nomatch h⟩

theorem Confined.http (ht : Confined s₀ (containersOf uuid) t) {request : HttpRequest}
    (h : request.server = some uuid) (he : request.Does s e) :
    Confined s₀ (containersOf uuid) (e.apply serde t) := by
  cases he with
  | version => cases h
  | create server script image he =>
    cases h
    refine ht.creates ?_ he
    rfl
  | installCreated server script image he =>
    cases h
    refine ht.installs ?_ he
    rfl
  | delete _ _ he | power _ _ he | command _ _ he | update _ _ _ _ he =>
    cases h
    exact ht.container he
  | status _ he =>
    cases h
    exact ht.asks he
  | install u given installScript image server script he =>
    refine ht.installs ?_ he
    cases server with
    | none => exact Option.some.inj h
    | some server => exact Option.some.inj h
  | makeDir | dropBuffer | files => exact ht.other ⟨fun _ h => (nomatch h), fun _ h => nomatch h⟩

/-- Whatever is done for a server asks about its containers only. -/
theorem Acts.confined {s' : AppState} (h : Acts serde uuid s s') (hs : s.Keyed) :
    Confined s (containersOf uuid) s' := by
  cases h with
  | grpc request hserver =>
    exact (after_serve serde request s).preserves (I := Confined s (containersOf uuid))
      (fun t e he ht => ht.grpc hs hserver he) (.refl hs)
  | http request hserver =>
    exact (after_http serde request s).preserves (I := Confined s (containersOf uuid))
      (fun t e he ht => ht.http hserver he) (.refl hs)
  | webSocket events =>
    refine (after_webSocket serde uuid events s).preserves (I := Confined s (containersOf uuid))
      (fun t e he ht => ?_) (.refl hs)
    cases he with
    | buffers b => exact ht.other ⟨fun _ h => (nomatch h), fun _ h => nomatch h⟩
    | stream he => exact ht.asks he
    | command he => exact ht.container he
  | task task hserver =>
    subst hserver
    refine (after_runSpawned serde task s).preserves
      (I := Confined s (containersOf task.server)) (fun t e he ht => ?_) (.refl hs)
    cases he with
    | install config script image he => exact ht.installs rfl he
    | power uuid action he => exact ht.container he
    | status uuid action he => exact ht.asks he

end Acts

/-! ## Names against requests -/

section Names

variable {serde : Serde} {db : Panel.Database} {nodeId uuid uuid' : String}

/-- Servers with different uuids and different names share no container. -/
theorem containersOf_disjoint (huuid : uuid ≠ uuid')
    (hname : DockerManager.containerName uuid ≠ DockerManager.containerName uuid') {name : String}
    (h : name ∈ containersOf uuid) : name ∉ containersOf uuid' := by
  unfold containersOf at h ⊢
  rw [List.mem_pair] at h ⊢
  rintro (h' | h')
  · rcases h with rfl | rfl
    · exact hname h'
    · exact containerName_ne_installName h'.symm
  · rcases h with rfl | rfl
    · exact containerName_ne_installName h'
    · exact huuid (installName_inj.mp h')

/-- A command for a server touches its game container. -/
theorem touched_sendCommand {s : AppState} {command : String} :
    Touched s (Grpc.serve serde (.sendCommand uuid command) s).2
      (DockerManager.containerName uuid) := by
  refine .inl ⟨[.exec (DockerManager.containerName uuid) command], ?_, _, List.mem_cons_self, rfl⟩
  have hserve : (Grpc.serve serde (.sendCommand uuid command) s).2 =
      (dockerCall (.exec (DockerManager.containerName uuid) command) s).2 :=
    (snd_bind_pure _ _ s).trans ((snd_mapErr _ _ s).trans (snd_bind_pure _ _ s))
  rw [hserve]
  exact calls_dockerCall _ s

end Names

/-- For every database of the panel and every node of it: the container names of the node's
servers are different, and what Wings does for one of them touches no container of another,
in any state and whatever the request, if and only if no two uuids on the node begin with the
same eight characters. -/
theorem ownContainersOnly_iff (serde : Serde) (db : Panel.Database) (nodeId : String) :
    NamesDiffer db nodeId ∧ OwnContainersOnly serde db nodeId ↔ PrefixesDiffer db nodeId := by
  constructor
  · rintro ⟨-, hown⟩ a ha han b hb hbn hab hprefix
    obtain ⟨-, hnot⟩ := hown a ha han b hb hbn hab
      (.fresh ⟨"", "", "", ""⟩ fun _ => .ok []) _ (fun _ _ h => nomatch h)
      (.grpc (.sendCommand a.uuid "") rfl) _ touched_sendCommand
    rw [containerName_inj.mpr hprefix] at hnot
    exact hnot List.mem_cons_self
  · intro h
    have hnames : NamesDiffer db nodeId := fun a ha han b hb hbn hab hname =>
      h a ha han b hb hbn hab (containerName_inj.mp hname)
    refine ⟨hnames, fun a ha han b hb hbn hab s s' hs hacts name htouched => ?_⟩
    have hname := hnames a ha han b hb hbn hab
    have hmem := (hacts.confined hs).touched htouched
    refine ⟨hmem, containersOf_disjoint (fun huuid => ?_) hname hmem⟩
    rw [huuid] at hname
    exact hname rfl

/-! ## The registry and the column -/

/-- If the column were made from the uuid, as the hook of the entity means to make it, the
schema would keep the names apart. -/
theorem prefixesDiffer_of_uuidShort {db : Panel.Database} (nodeId : String)
    (h : ∀ s ∈ db.servers, s.uuidShort.toList = (DockerManager.undashed s.uuid).take 8) :
    PrefixesDiffer db nodeId := by
  intro a ha _ b hb _ hab hprefix
  refine (db.constraints.1 a ha b hb hab).2.1 ?_
  rw [← String.toList_inj, h a ha, h b hb, hprefix]

/-! ## Two uuids that begin alike -/

section Counterexample

/-- Two servers on one node. Their uuids are different, and so are their short ids. -/
def twoServers : Panel.Database where
  nodes := .single ⟨"n", 4096, 0, 4096, 0⟩
  eggs := .single ⟨"e", "image", "run", none, "alpine:latest"⟩
  eggVariables := .empty
  users := .single (.withDefaults "owner" "owner@nexus.local" "owner" "")
  servers := ⟨[.withDefaults "1" "0b1c2d3e-1111-4111-8111-111111111111" "9f3a6c01" "first"
      "owner" "n" "t" "e" "a" 1024 1024 "run" "image",
    .withDefaults "2" "0b1c2d3e-2222-4222-8222-222222222222" "47d0be52" "second"
      "owner" "n" "t" "e" "b" 1024 1024 "run" "image"], by decide⟩
  allocations := ⟨[⟨"a", "n", "0.0.0.0", none, 25565, none, some "1"⟩,
    ⟨"b", "n", "0.0.0.0", none, 25566, none, some "2"⟩], by decide⟩
  constraints := by decide

/-- They have one container between them. -/
theorem names_collide :
    ¬(NamesDiffer twoServers "n" ∧ OwnContainersOnly .framed twoServers "n") := by
  rintro ⟨hnames, -⟩
  refine hnames _ (.head _) rfl _ (.tail _ (.head _)) rfl (by decide) ?_
  exact containerName_inj.mpr (by decide)

end Counterexample

end Wings
