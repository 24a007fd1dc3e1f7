import NexusPanel.Panel.ServerWebSocket
import NexusPanel.Wings.Grpc

/-!
# The power state from Docker to the screen

A poll carries the state of a container through four encodings. `docker_state_to_proto` makes a
number of the protocol out of Docker's word, the loader of the gateway turns the number into its
name, the gateway sends the name twice, and the hook of the browser reads it. Between the polls
the gateway sends the names of the actions that were carried out, and the hook reads these the
same way.

The hook reads every name of the enumeration as offline. So the screen agrees with the container
as long as the container does nothing, and no action is called like a state.
-/

namespace Joint

open Panel Wings

/-- The names of the enumeration, as the loader delivers them. -/
def enumName : ServerState → String
  | .offline => "STATE_OFFLINE"
  | .starting => "STATE_STARTING"
  | .running => "STATE_RUNNING"
  | .stopping => "STATE_STOPPING"
  | .unknown => "STATE_UNKNOWN"

/-- The state of the screen that stands for a state of the protocol. -/
def powerStateOf : ServerState → PowerState
  | .running => .running
  | .starting => .starting
  | .stopping => .stopping
  | .offline | .unknown => .offline

/-- The state of a status response; no other response has one. -/
def statusOf : GrpcResponse → WingsStatus
  | .status _ state _ => ⟨some (enumName state), []⟩
  | _ => ⟨none, []⟩

/-- The answer to `getServerStatus`. -/
def statusReply (uuid : String) (wings : AppState) : Reply :=
  match (Grpc.getServerStatus uuid wings).1 with
  | .ok response => .ok (statusOf response)
  | .error (.invalidArgument message) | .error (.notFound message) | .error (.internal message) =>
    .failed message

/-- What Docker says about the container of a server. -/
def dockerState (uuid : String) (wings : AppState) : Option String :=
  (DockerManager.getContainerStatus uuid wings).1.toOption

/-- What the gateway goes on with: a poll that Wings answers, one that fails on its way, and a
power action of the browser. -/
inductive Heard
  | polled (wings : AppState)
  | pollFailed (message : String)
  | acted (action : String) (reply : Reply)

section Browser

variable (servers : Table Server) (client uuid : String)

/-- The job that is gone on with. -/
def Heard.job : Heard → Pending × Reply
  | .polled wings => (.statusAsked .stats uuid, statusReply uuid wings)
  | .pollFailed message => (.statusAsked .stats uuid, .failed message)
  | .acted action reply => (.powerSent client uuid action, reply)

/-- The browser is in the room of its server. -/
def reaching : Output → Option ServerMessage
  | .client c _ message => if c = client then some message else none
  | .room server message => if server = uuid then some message else none
  | .sendCommand _ _ _ | .powerAction _ _ _ => none

/-- The messages that reach the browser. -/
def Heard.messages (heard : Heard) : List ServerMessage :=
  let (p, reply) := heard.job client uuid
  (resume servers p reply).1.filterMap (reaching client uuid)

/-- The most recently polled state of the container, after this. -/
def Heard.latest (polled : Option String) : Heard → Option String
  | .polled wings => (dockerState uuid wings).or polled
  | .pollFailed _ | .acted _ _ => polled

/-- The power state after each message, beside the most recently polled state. -/
def shown (screen : PowerState) (polled : Option String) :
    List Heard → List (PowerState × Option String)
  | [] => []
  | heard :: rest =>
    let after := screens screen (heard.messages servers client uuid)
    let latest := heard.latest uuid polled
    after.map (·, latest) ++ shown (after.getLastD screen) latest rest

/-- The power state for a polled state; a browser that has not heard of a poll is offline. -/
def expected (polled : Option String) : PowerState :=
  polled.elim .offline fun state => powerStateOf (Grpc.dockerStateToProto state)

/-- Nothing that the screen gets wrong: no poll of a container that is running or on its way
there, and no action whose text reads as a state. -/
def Heard.Quiet : Heard → Prop
  | .polled wings =>
    dockerState uuid wings ∉ [some "running", some "created", some "restarting"]
  | .acted action (.ok _) => ¬ReadsAsState action
  | .pollFailed _ | .acted _ (.failed _) => True

/-! ## One message after the other -/

variable {servers client uuid}

/-- Asking for the status is asking for the state of the container; whether there are statistics
changes nothing about the state. -/
theorem getServerStatus_of_some {wings : AppState} {state : String}
    (h : dockerState uuid wings = some state) : ∃ resources,
    (Grpc.getServerStatus uuid wings).1 =
      .ok (.status uuid (Grpc.dockerStateToProto state) resources) := by
  unfold dockerState at h
  cases hasked : DockerManager.getContainerStatus uuid wings with
  | mk reply wings' =>
    rw [hasked] at h
    cases reply with
    | error e => cases h
    | ok found =>
      cases h
      have hfirst : (DockerManager.getContainerStatus uuid).mapErr
          (fun e => Status.notFound e.message) wings = (.ok state, wings') := by
        rw [StateAction.mapErr, hasked]
      unfold Grpc.getServerStatus
      rw [StateAction.bind_ok hfirst]
      split
      next =>
        rw [StateAction.bind_attempt]
        exact ⟨_, rfl⟩
      next => exact ⟨false, rfl⟩

theorem getServerStatus_of_none {wings : AppState} (h : dockerState uuid wings = none) :
    ∃ message, (Grpc.getServerStatus uuid wings).1 = .error (.notFound message) := by
  unfold dockerState at h
  cases hasked : DockerManager.getContainerStatus uuid wings with
  | mk reply wings' =>
    rw [hasked] at h
    cases reply with
    | ok found => cases h
    | error e =>
      have hfirst : (DockerManager.getContainerStatus uuid).mapErr
          (fun e => Status.notFound e.message) wings = (.error (.notFound e.message), wings') := by
        rw [StateAction.mapErr, hasked]
      unfold Grpc.getServerStatus
      rw [StateAction.bind_error hfirst]
      exact ⟨e.message, rfl⟩

theorem statusReply_of_some {wings : AppState} {state : String}
    (h : dockerState uuid wings = some state) :
    statusReply uuid wings = .ok ⟨some (enumName (Grpc.dockerStateToProto state)), []⟩ := by
  obtain ⟨resources, hstatus⟩ := getServerStatus_of_some h
  rw [statusReply, hstatus]
  rfl

theorem statusReply_of_none {wings : AppState} (h : dockerState uuid wings = none) :
    ∃ message, statusReply uuid wings = .failed message := by
  obtain ⟨message, hstatus⟩ := getServerStatus_of_none h
  rw [statusReply, hstatus]
  exact ⟨message, rfl⟩

/-- The names of the enumeration all read as offline. -/
theorem mapGrpcState_enumName (state : ServerState) :
    mapGrpcState (.inl (enumName state)) = .offline := by
  cases state <;> decide +kernel

theorem expected_some_eq_offline {state : String} : expected (some state) = .offline ↔
    some state ∉ [some "running", some "created", some "restarting"] := by
  show powerStateOf (Grpc.dockerStateToProto state) = .offline ↔ _
  simp only [List.mem_cons, Option.some.injEq, List.not_mem_nil, or_false, not_or]
  unfold Grpc.dockerStateToProto
  split
  next h => simp [h, powerStateOf]
  next h =>
    split
    next hstarting => obtain rfl | rfl := hstarting <;> simp [powerStateOf]
    next hother =>
      rw [not_or] at hother
      split
      next => simp [h, hother, powerStateOf]
      next => simp [h, hother, powerStateOf]

/-- A poll sends the state twice. -/
theorem messages_polled_of_some {wings : AppState} {state : String}
    (h : dockerState uuid wings = some state) :
    (Heard.polled wings).messages servers client uuid =
      [.statsUpdate ⟨some (enumName (Grpc.dockerStateToProto state)), []⟩,
        .powerState (enumName (Grpc.dockerStateToProto state))] := by
  simp [Heard.messages, Heard.job, statusReply_of_some h, resume, pollMessages, reaching]

theorem messages_polled_of_none {wings : AppState} (h : dockerState uuid wings = none) :
    (Heard.polled wings).messages servers client uuid = [] := by
  obtain ⟨message, hfailed⟩ := statusReply_of_none h
  simp [Heard.messages, Heard.job, hfailed, resume]

theorem messages_acted {action : String} {status : WingsStatus} :
    (Heard.acted action (.ok status)).messages servers client uuid = [.powerState action] := by
  simp [Heard.messages, Heard.job, resume, reaching]

/-- While the container is polled as offline, what the gateway goes on with leaves the screen in
agreement exactly when it is quiet. -/
theorem agrees_iff_quiet {polled : Option String} {heard : Heard}
    (hpolled : expected polled = .offline) :
    (∀ p ∈ screens .offline (heard.messages servers client uuid),
      p = expected (heard.latest uuid polled)) ↔ heard.Quiet uuid := by
  cases heard with
  | polled wings =>
    cases hstate : dockerState uuid wings with
    | none =>
      rw [messages_polled_of_none hstate]
      simp [screens, Heard.Quiet, hstate]
    | some state =>
      rw [messages_polled_of_some hstate, Heard.Quiet, hstate, ← expected_some_eq_offline]
      simp [screens, onMessage, mapGrpcState_enumName, Heard.latest, hstate, eq_comm]
  | pollFailed message => simp [Heard.messages, Heard.job, resume, screens, Heard.Quiet]
  | acted action reply =>
    cases reply with
    | failed message =>
      simp [Heard.messages, Heard.job, resume, reaching, screens, onMessage, Heard.Quiet,
        Heard.latest, hpolled]
    | ok status =>
      rw [messages_acted, Heard.Quiet, ← mapGrpcState_eq_offline]
      simp [screens, onMessage, Heard.latest, hpolled]

theorem expected_latest {polled : Option String} {heard : Heard}
    (hpolled : expected polled = .offline) (h : heard.Quiet uuid) :
    expected (heard.latest uuid polled) = .offline := by
  cases heard with
  | pollFailed message => exact hpolled
  | acted action reply => exact hpolled
  | polled wings =>
    cases hstate : dockerState uuid wings with
    | none => rwa [Heard.latest, hstate, Option.none_or]
    | some state =>
      rw [Heard.Quiet, hstate] at h
      rw [Heard.latest, hstate, Option.some_or]
      exact expected_some_eq_offline.mpr h

/-- Behind screens that are all offline the screen is offline. -/
theorem getLastD_of_offline {after : List PowerState} (h : ∀ p ∈ after, p = .offline) :
    after.getLastD .offline = .offline := by
  cases hlast : after.getLast? with
  | none => rw [List.getLastD_eq_getLast?, hlast, Option.getD_none]
  | some p =>
    rw [List.getLastD_eq_getLast?, hlast, Option.getD_some]
    exact h p (List.mem_of_getLast? hlast)

theorem shown_agrees_iff {polled : Option String} (hpolled : expected polled = .offline)
    (run : List Heard) :
    (∀ x ∈ shown servers client uuid .offline polled run, x.1 = expected x.2) ↔
      ∀ heard ∈ run, heard.Quiet uuid := by
  induction run generalizing polled with
  | nil => simp [shown]
  | cons heard rest ih =>
    have hstep := @agrees_iff_quiet servers client uuid polled heard hpolled
    rw [List.forall_mem_cons, shown, List.forall_mem_append, List.forall_mem_map, hstep]
    refine and_congr_right fun hquiet => ?_
    have hlatest := expected_latest hpolled hquiet
    rw [getLastD_of_offline fun p hp => (hstep.mpr hquiet p hp).trans hlatest]
    exact ih hlatest

end Browser

/-- After each message the screen shows the container's power state exactly when everything the
gateway goes on with is quiet. -/
theorem screen_agrees_iff (servers : Table Server) (client uuid : String) (run : List Heard) :
    (∀ x ∈ shown servers client uuid .offline none run, x.1 = expected x.2) ↔
      ∀ heard ∈ run, heard.Quiet uuid :=
  shown_agrees_iff rfl run

/-- A Docker that answers every question with `running`. -/
def runningDaemon : AppState :=
  .fresh ⟨"https://panel.example.com", "tid", "token", "/data"⟩ fun _ => .ok ["running"]

/-- The first poll of a running container leaves the screen at offline. -/
theorem running_shown_as_offline : ¬ ∀ (servers : Table Server) (client uuid : String)
    (run : List Heard), ∀ x ∈ shown servers client uuid .offline none run, x.1 = expected x.2 := by
  intro h
  have hquiet := (shown_agrees_iff rfl _).mp (h .empty "k" "u" [.polled runningDaemon])
  have hrunning : dockerState "u" runningDaemon = some "running" := rfl
  have hpoll := hquiet _ List.mem_cons_self
  simp [Heard.Quiet, hrunning] at hpoll

end Joint
