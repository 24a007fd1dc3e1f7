import NexusPanel.Wings.Effects
import NexusPanel.Wings.PowerCalls

/-!
# The containers of game servers

Docker is outside the model, and what it has is not among what Wings keeps. But its answers say
which containers it has made and removed: a create and a start ask it for one, a delete has one
removed, and each goes on from there only if Docker did what it was asked (`createContainer_iff`,
`removeContainer_of_clears`). The containers that install scripts run in come and go with their
scripts and are left out; they publish no port.
-/

namespace Wings

open StateAction

/-- A container as it was asked for. -/
structure Container where
  name : String
  spec : ContainerSpec
deriving DecidableEq

namespace Container

/-- The container of a configuration. -/
def ofConfig (config : ServerConfig) : Container :=
  ⟨DockerManager.containerName config.uuid, DockerManager.gameSpec config⟩

/-- The uuid on the label of the container. -/
def server (c : Container) : Option String := c.spec.labels.lookup "nexus.server_uuid"

@[simp] theorem server_ofConfig (config : ServerConfig) :
    (ofConfig config).server = some config.uuid := rfl

end Container

namespace GrpcRequest

variable (serde : Serde) (s : AppState)

/-- What a request has a container made from: a create from what it is sent, a start that finds
none from the registry. -/
def makes : GrpcRequest → Option ServerConfig
  | .createServer (some cfg) _ _ => some (cfg.created s.config.dataDir)
  | .sendPowerAction uuid action =>
    if Grpc.powerActionOf action = some "start" ∧ s.listed = false then s.serverConfigs.lookup uuid
    else none
  | _ => none

/-- The request gets past the container. Behind it a create and a delete do nothing that can fail;
a start may still fail, when it comes to starting the container. -/
def passes : GrpcRequest → Bool
  | .sendPowerAction uuid _ => (Grpc.recreateMissing uuid s).1.isOk
  | r => (Grpc.serve serde r s).1.isOk

/-- What the request has had a container made from. -/
def made (r : GrpcRequest) : Option ServerConfig := if r.passes serde s then r.makes s else none

/-- The name of the container that the request has had removed. -/
def clears (r : GrpcRequest) : Option String :=
  match r with
  | .deleteServer uuid _ =>
    if r.passes serde s then some (DockerManager.containerName uuid) else none
  | _ => none

/-- The containers of game servers behind the request. -/
def containersAfter (r : GrpcRequest) (containers : List Container) : List Container :=
  ((r.made serde s).map Container.ofConfig).toList ++
    containers.filter fun c => r.clears serde s ≠ some c.name

/-- A container was there before, or is the one that the request makes. -/
theorem mem_containersAfter {serde : Serde} {s : AppState} {r : GrpcRequest} {c : Container}
    {containers : List Container} (h : c ∈ r.containersAfter serde s containers) :
    (∃ config, r.makes s = some config ∧ c = .ofConfig config) ∨ c ∈ containers := by
  rcases List.mem_append.mp h with hmade | hold
  · obtain ⟨config, hconfig, rfl⟩ := Option.map_eq_some_iff.mp (Option.mem_toList.mp hmade)
    rw [made, Option.ite_none_right_eq_some] at hconfig
    exact .inl ⟨config, hconfig.2, rfl⟩
  · exact .inr (List.mem_filter.mp hold).1

/-- Behind a delete that is answered, no container has the name of the server's. -/
theorem name_ne_of_delete {serde : Serde} {s : AppState} {c : Container}
    {containers : List Container} {uuid : String} {volumes : Bool} {response : GrpcResponse}
    (h : (Grpc.serve serde (.deleteServer uuid volumes) s).1 = .ok response)
    (hc : c ∈ (GrpcRequest.deleteServer uuid volumes).containersAfter serde s containers) :
    c.name ≠ DockerManager.containerName uuid := by
  have hpasses : (GrpcRequest.deleteServer uuid volumes).passes serde s = true := by
    rw [passes, h]
    · rfl
    · exact fun _ _ heq => by cases heq
  rcases List.mem_append.mp hc with hmade | hold
  · obtain ⟨config, hconfig, -⟩ := Option.map_eq_some_iff.mp (Option.mem_toList.mp hmade)
    rw [made, Option.ite_none_right_eq_some] at hconfig
    cases hconfig.2
  · have hkept := of_decide_eq_true (List.mem_filter.mp hold).2
    rw [clears, if_pos hpasses] at hkept
    exact fun hname => hkept (congrArg some hname.symm)

end GrpcRequest

/-! ## What Docker is asked for -/

section Called

variable {serde : Serde} {A : Effect → Prop} {s t : AppState} {c : DockerCall}
  {config : ServerConfig} {r : GrpcRequest} {name : String} {spec : ContainerSpec}

theorem callsSince_append {new : List DockerCall} (h : t.docker.calls = new ++ s.docker.calls) :
    callsSince s t = new.reverse := by
  simp [callsSince, h]

/-- The calls have been made since. -/
def Called (s : AppState) (calls : List DockerCall) (t : AppState) : Prop :=
  ∃ new, t.docker.calls = new ++ s.docker.calls ∧ ∀ c ∈ calls, c ∈ new

theorem Called.mem {calls : List DockerCall} (h : Called s calls t) (hc : c ∈ calls) :
    c ∈ callsSince s t := by
  obtain ⟨new, hnew, hcalls⟩ := h
  rw [callsSince_append hnew]
  exact List.mem_reverse.mpr (hcalls c hc)

theorem called_of_eq (h : t.docker = s.docker) : Called s [] t :=
  ⟨[], congrArg Docker.calls h, fun _ h => by cases h⟩

theorem called_call {calls : List DockerCall} (c : DockerCall) :
    Triple (Called s calls) (dockerCall c) (fun _ => Called s (c :: calls))
      (Called s (c :: calls)) := by
  refine Triple.of_snd ?_
  rintro t ⟨new, hnew, hcalls⟩
  refine ⟨c :: new, ?_, fun d hd => ?_⟩
  · rw [calls_dockerCall, hnew, List.cons_append]
  · rcases List.mem_cons.mp hd with rfl | hd
    · exact List.mem_cons_self
    · exact List.mem_cons_of_mem c (hcalls d hd)

/-- What was called stays called. -/
theorem keeps_called {calls : List DockerCall} (c : DockerCall) :
    Keeps (Called s calls) (dockerCall c) := by
  have hless : ∀ t, Called s (c :: calls) t → Called s calls t := by
    rintro t ⟨new, hnew, hcalls⟩
    exact ⟨new, hnew, fun d hd => hcalls d (List.mem_cons_of_mem c hd)⟩
  exact (called_call c).weaken (fun _ h => h) (fun _ t h => hless t h) hless

theorem keeps_called_status {ε : Type} {calls : List DockerCall} (uuid : String) :
    Keeps (Called s calls)
      ((DockerManager.getContainerStatus uuid).attempt : StateAction AppState ε (Option String)) :=
  Keeps.attempt (Keeps.bind (keeps_ask fun _ h => h) fun _ => Keeps.ofOption)

/-- What has been called since is among the effects. -/
theorem After.called (h : After serde A s t) (hc : c ∈ callsSince s t) : A (.call c) := by
  have hcalls : ∃ new, t.docker.calls = new ++ s.docker.calls ∧ ∀ c ∈ new, A (.call c) := by
    refine h.preserves
      (I := fun t => ∃ new, t.docker.calls = new ++ s.docker.calls ∧ ∀ c ∈ new, A (.call c))
      ?_ ⟨[], rfl, fun _ h => by cases h⟩
    rintro t e he ⟨new, hnew, hA⟩
    cases e with
    | call c =>
      refine ⟨c :: new, congrArg (c :: ·) hnew, fun d hd => ?_⟩
      rcases List.mem_cons.mp hd with rfl | hd
      · exact he
      · exact hA d hd
    | store _ =>
      simp only [Effect.apply, AppState.storeServerConfig, StateAction.modify]
      exact ⟨new, hnew, hA⟩
    | remove _ =>
      simp only [Effect.apply, AppState.removeServerConfig, StateAction.modify]
      exact ⟨new, hnew, hA⟩
    | query _ | makeDir _ | buffers _ | spawn _ | post _ | files _ _ => exact ⟨new, hnew, hA⟩
  obtain ⟨new, hnew, hA⟩ := hcalls
  rw [callsSince_append hnew] at hc
  exact hA c (List.mem_reverse.mp hc)

/-- The call that asks for the container of a configuration. -/
def createCall (config : ServerConfig) : DockerCall :=
  .createContainer (DockerManager.containerName config.uuid) (DockerManager.gameSpec config)

theorem called_createContainer (config : ServerConfig) :
    Triple (Called s []) (DockerManager.createServer config)
      (fun _ => Called s [createCall config]) (fun _ => True) := by
  refine Triple.bind ((keeps_called _).weaken (fun _ h => h) (fun _ _ h => h) fun _ _ => trivial)
    fun _ => ?_
  exact Triple.bind ((called_call (createCall config)).weaken (fun _ h => h) (fun _ _ h => h)
    fun _ _ => trivial) fun _ => Triple.pure fun _ h => h

/-- A create that is answered has asked for the container of what it was sent. -/
theorem called_createServer (cfg : Proto.ServerConfig) (script image : String) :
    Triple (fun t => t = s) (Grpc.createServer serde (some cfg) script image)
      (fun _ => Called s [createCall (cfg.created s.config.dataDir)]) (fun _ => True) := by
  refine Triple.bind (Triple.ofOption (Q := fun cfg' t => cfg' = cfg ∧ t = s)
    (fun a ha t ht => ⟨(Option.some.inj ha).symm, ht⟩) fun _ _ => trivial) fun cfg' =>
    Triple.assume fun hcfg => ?_
  subst hcfg
  have hdir : Triple (fun t => t = s) (Grpc.ensureServerDir cfg'.uuid)
      (fun dir t => dir = serverDir s.config.dataDir cfg'.uuid ∧ Called s [] t)
      (fun _ => True) := by
    refine Triple.bind (Triple.get (Q := fun u t => u = s ∧ t = s) fun _ h => ⟨h, h⟩) fun u =>
      Triple.assume fun hu => ?_
    subst hu
    refine Triple.bind (Q := fun _ => Called u []) (Triple.modify ?_) fun _ => ?_
    · rintro t rfl
      exact called_of_eq rfl
    refine Triple.bind (Q := fun _ => Called u []) (Triple.ensure (fun _ _ h => h)
      fun _ _ => trivial) fun _ => Triple.pure fun _ h => ⟨rfl, h⟩
  refine Triple.bind hdir fun dir => Triple.assume fun hdir => ?_
  subst hdir
  refine Triple.bind (Q := fun _ => Called s []) (Triple.mapErr (Triple.modify fun _ h => h))
    fun _ => ?_
  refine Triple.bind (Triple.mapErr (called_createContainer _)) fun id => ?_
  refine Triple.ite (fun _ => ?_) fun _ => Triple.pure fun _ h => h
  exact Triple.bind (Triple.modify fun _ h => h) fun _ => Triple.pure fun _ h => h

/-- A start that makes the container again has asked for it, however it ends. -/
theorem called_start {uuid : String} (hlisted : s.listed = false)
    (hstored : s.serverConfigs.lookup uuid = some config)
    (hpasses : (Grpc.recreateMissing uuid s).1.isOk = true) :
    Called s [createCall config] (Grpc.serve serde (.sendPowerAction uuid 0) s).2 := by
  obtain ⟨hleft, hdone⟩ := recreateMissing_eq s uuid
  have hserve : Grpc.serve serde (.sendPowerAction uuid 0) = Grpc.recreateMissing uuid >>= fun _ =>
      ((DockerManager.getContainerStatus uuid).attempt : Method (Option String)) >>= fun _ =>
      Grpc.internal "" (DockerManager.startServer uuid) >>= fun _ =>
      ((DockerManager.getContainerStatus uuid).attempt : Method (Option String)) >>= fun _ =>
      pure .done := rfl
  cases hresult : (Grpc.recreateMissing uuid s).1 with
  | error e =>
    rw [hresult] at hpasses
    cases hpasses
  | ok u =>
    have hstartable := hdone.mp ⟨u, hresult⟩
    have hmade : Called s [createCall config]
        (s.after (s.recreation uuid).reverse
          [.listContainers (DockerManager.containerName uuid)]) := by
      refine ⟨(s.recreation uuid).reverse, rfl, fun c hc => ?_⟩
      simp only [AppState.startable, hlisted, hstored, Option.isSome_some, Bool.false_or,
        Bool.true_and, Bool.and_eq_true, Bool.not_eq_true'] at hstartable
      rw [List.mem_singleton.mp hc, List.mem_reverse]
      simp [AppState.recreation, hlisted, hstored, hstartable.1, createCall]
    have hthere : Grpc.recreateMissing uuid s = (.ok u,
        s.after (s.recreation uuid).reverse
          [.listContainers (DockerManager.containerName uuid)]) := Prod.ext hresult hleft
    rw [hserve, bind_ok hthere]
    have hrest : Keeps (Called s [createCall config])
        (((DockerManager.getContainerStatus uuid).attempt : Method (Option String)) >>= fun _ =>
          Grpc.internal "" (DockerManager.startServer uuid) >>= fun _ =>
          ((DockerManager.getContainerStatus uuid).attempt : Method (Option String)) >>= fun _ =>
          pure GrpcResponse.done) := by
      refine Keeps.bind (keeps_called_status uuid) fun _ => ?_
      refine Keeps.bind (Keeps.mapErr (Keeps.bind (keeps_called _) fun _ => Keeps.pure)) fun _ => ?_
      exact Keeps.bind (keeps_called_status uuid) fun _ => Keeps.pure
    exact hrest.snd hmade

theorem powerActionOf_start {action : Nat} (h : Grpc.powerActionOf action = some "start") :
    action = 0 := by
  unfold Grpc.powerActionOf at h
  split at h
  next => rfl
  all_goals simp at h

/-- A power action that asks for a container is a start that found none. -/
theorem makes_of_called {uuid : String} {action : Nat}
    (hc : .createContainer name spec ∈
      callsSince s (Grpc.serve serde (.sendPowerAction uuid action) s).2) :
    ∃ config, (GrpcRequest.sendPowerAction uuid action).makes s = some config ∧
      (⟨name, spec⟩ : Container) = .ofConfig config := by
  have hcarried : .createContainer name spec ∈
      carriedOut serde (.sendPowerAction uuid action) s s := List.mem_append_left _ hc
  rw [carriedOut_sendPowerAction] at hcarried
  cases hname : Grpc.powerActionOf action with
  | none =>
    rw [hname] at hcarried
    cases hcarried
  | some name =>
    rw [hname, Option.elim_some] at hcarried
    unfold powerCalls at hcarried
    split at hcarried
    next =>
      rcases List.mem_append.mp hcarried with hmade | hstarted
      · unfold AppState.recreation at hmade
        split at hmade
        next => cases hmade
        next hlisted =>
          have hmissing : s.listed = false := by simpa using hlisted
          cases hstored : s.serverConfigs.lookup uuid with
          | none =>
            rw [hstored] at hmade
            cases hmade
          | some config =>
            simp only [hstored, List.mem_cons, reduceCtorEq, false_or] at hmade
            split at hmade
            next => cases hmade
            next =>
              cases List.mem_singleton.mp hmade
              exact ⟨config, by simp [GrpcRequest.makes, hname, hmissing, hstored], rfl⟩
      · split at hstarted
        next => cases List.mem_singleton.mp hstarted
        next => cases hstarted
    all_goals simp at hcarried

/-- A request that gets past the container asks Docker for the one that is made, and for no
other. -/
theorem createContainer_iff (h : r.passes serde s = true) :
    .createContainer name spec ∈ callsSince s (Grpc.serve serde r s).2 ↔
      ∃ config, r.made serde s = some config ∧ (⟨name, spec⟩ : Container) = .ofConfig config := by
  have hmade : r.made serde s = r.makes s := if_pos h
  rw [hmade]
  have hnone (hmakes : r.makes s = none) : ¬ ∃ config, r.makes s = some config ∧
      (⟨name, spec⟩ : Container) = .ofConfig config := by
    rw [hmakes]
    rintro ⟨config, hconfig, -⟩
    cases hconfig
  cases r with
  | createServer server script image =>
    constructor
    · intro hc
      cases (after_serve serde _ s).called hc with
      | create cfg script image hcreate =>
        cases hcreate
        exact ⟨_, rfl, rfl⟩
    · rintro ⟨config, hmakes, heq⟩
      cases server with
      | none => cases hmakes
      | some cfg =>
        cases hmakes
        cases heq
        have hok : (Grpc.serve serde (.createServer (some cfg) script image) s).1.isOk = true := h
        rw [Grpc.serve] at hok ⊢
        cases hanswer : (Grpc.createServer serde (some cfg) script image s).1 with
        | error e =>
          rw [hanswer] at hok
          cases hok
        | ok response =>
          exact ((called_createServer cfg script image).fst rfl hanswer).mem
            (List.mem_singleton_self _)
  | sendPowerAction uuid action =>
    refine ⟨makes_of_called, ?_⟩
    rintro ⟨config, hmakes, heq⟩
    unfold GrpcRequest.makes at hmakes
    rw [Option.ite_none_right_eq_some] at hmakes
    obtain ⟨⟨hstart, hlisted⟩, hstored⟩ := hmakes
    cases heq
    cases powerActionOf_start hstart
    exact (called_start hlisted hstored h).mem (List.mem_singleton_self _)
  | deleteServer uuid volumes =>
    refine iff_of_false (fun hc => ?_) (hnone rfl)
    cases (after_serve serde _ s).called hc with
    | delete uuid volumes hdoes => cases hdoes
  | reinstallServer server script image | syncServerConfig server | getSystemInfo | eventStream =>
    refine iff_of_false (fun hc => ?_) (hnone rfl)
    cases (after_serve serde _ s).called hc
  | sendCommand uuid command =>
    refine iff_of_false (fun hc => ?_) (hnone rfl)
    cases (after_serve serde _ s).called hc with
    | command uuid command hdoes => cases hdoes
  | getServerStatus uuid =>
    refine iff_of_false (fun hc => ?_) (hnone rfl)
    cases (after_serve serde _ s).called hc with
    | status uuid hdoes => cases hdoes
  | updateResources uuid memory cpu disk =>
    refine iff_of_false (fun hc => ?_) (hnone rfl)
    cases (after_serve serde _ s).called hc with
    | update uuid memory cpu disk hdoes => cases hdoes

/-- The call that removes the container of a server. -/
def removeCall (uuid : String) (volumes : Bool) : DockerCall :=
  .removeContainer (DockerManager.containerName uuid) volumes

theorem called_removeContainer (uuid : String) (volumes : Bool) :
    Triple (Called s []) (DockerManager.deleteServer uuid volumes)
      (fun _ => Called s [removeCall uuid volumes]) (fun _ => True) := by
  refine Triple.bind (Q := fun _ => Called s []) (Triple.attempt ?_) fun _ => ?_
  · exact (keeps_called _).weaken (fun _ h => h) (fun _ _ h => h) fun _ h => h
  · exact Triple.bind ((called_call (removeCall uuid volumes)).weaken (fun _ h => h)
      (fun _ _ h => h) fun _ _ => trivial) fun _ => Triple.pure fun _ h => h

/-- A delete that is answered has asked for the removal. -/
theorem called_deleteServer (uuid : String) (volumes : Bool) :
    Triple (Called s []) (Grpc.deleteServer uuid volumes)
      (fun _ => Called s [removeCall uuid volumes]) (fun _ => True) := by
  refine Triple.bind (Triple.mapErr (called_removeContainer uuid volumes)) fun _ => ?_
  refine Triple.bind (Q := fun _ => Called s [removeCall uuid volumes])
    (Triple.modify fun _ h => h) fun _ => ?_
  refine Triple.bind (Q := fun _ => Called s [removeCall uuid volumes])
    (Triple.mapErr (Triple.modify fun _ h => h)) fun _ => ?_
  exact Triple.pure fun _ h => h

/-- The container that a request has had removed is one that it asked Docker to remove. -/
theorem removeContainer_of_clears (h : r.clears serde s = some name) :
    ∃ volumes, .removeContainer name volumes ∈ callsSince s (Grpc.serve serde r s).2 := by
  unfold GrpcRequest.clears at h
  split at h
  next uuid volumes =>
    rw [Option.ite_none_right_eq_some] at h
    obtain ⟨hpasses, hname⟩ := h
    cases hname
    have hok : (Grpc.serve serde (.deleteServer uuid volumes) s).1.isOk = true := hpasses
    rw [Grpc.serve] at hok ⊢
    cases hanswer : (Grpc.deleteServer uuid volumes s).1 with
    | error e =>
      rw [hanswer] at hok
      cases hok
    | ok response =>
      exact ⟨volumes, ((called_deleteServer uuid volumes).fst (called_of_eq rfl) hanswer).mem
        (List.mem_singleton_self _)⟩
  next => cases h

end Called

end Wings
