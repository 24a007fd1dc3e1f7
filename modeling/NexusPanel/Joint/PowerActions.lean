import NexusPanel.Joint.System
import NexusPanel.Wings.PowerCalls

/-!
# A power action from the client to Docker

The name of an action goes through four hands. The REST route checks it against the enumeration;
the socket passes on what it is given. `mapPowerAction` turns it into the number of the protocol,
and turns what it does not know into 0, the number of a start. Wings turns the number into its own
enumeration, and that into a call.

So a known name keeps its meaning on both routes. An unknown one gets through on the socket only,
and there it is a start.
-/

namespace Panel

/-- The values of the enumeration, in its order. -/
def PowerAction.values : List PowerAction := [.start, .stop, .restart, .kill]

/-- `@IsEnum(PowerAction)` of `PowerActionDto`: the string has to be one of the values. -/
def PowerAction.ofValue? (action : String) : Option PowerAction :=
  PowerAction.values.find? fun a => a.value == action

/-- The two ways a client asks for a power action: `POST /servers/:uuid/power`, and the message
`send_power_action` on a socket. -/
inductive PowerRoute
  | rest (uuid : String) (user : CurrentUser)
  | socket (k : Socket)

/-- What a handler of the gateway goes on with. -/
def Pending.powerTask : Pending → Option Task
  | .findForPower _ _ serverUuid action => some (.gateway (.load serverUuid action))
  | _ => none

/-- The operation a message starts, when it is taken up. -/
def PowerRoute.tasks (action : String) : PowerRoute → List Task
  | .rest uuid user =>
    (PowerAction.ofValue? action).toList.map fun a => .power (.check uuid user a)
  | .socket k => (Gateway.handleSendPowerAction k action).filterMap Pending.powerTask

/-- The row that a lookup finds, when another turn follows. -/
def rowFound (found : List (ServersState × Settled)) (uuid : String) : Option Server :=
  match found with
  | (p, .ok) :: _ :: _ => (ServersService.findByUuid p.db.servers uuid).toOption
  | _ => none

/-- The server for which a message with an action gets past the checks of the panel, when these
are the stores and the replies its turns find. -/
def PowerRoute.granted (found : List (ServersState × Settled)) : PowerRoute → Option Server
  | .rest uuid user =>
    ((rowFound found uuid).filter fun server =>
      (ServersService.checkAccess server user.id user.rootAdmin).isOk).bind fun _ =>
        (rowFound found.tail uuid).filter fun server =>
          server.status ≠ some .installing ∧ server.status ≠ some .suspended
  | .socket k =>
    (truthy k.userId).bind fun _ => (truthy k.serverUuid).bind fun uuid => rowFound found uuid

end Panel

namespace Joint

open Panel Wings Transition

/-! ## What is performed -/

/-- What a message finds on its way: the panel's store and the reply at each turn of its
operation, the state of Wings when the request arrives, and the state in which Wings runs what
the request leaves behind. -/
structure PowerWorld where
  panel : List (ServersState × Panel.Settled)
  arrival : AppState
  later : AppState

/-- The Docker calls a message leads to. -/
def performed (serde : Serde) (js : Js) (route : PowerRoute) (action : String) (w : PowerWorld) :
    List DockerCall :=
  (route.tasks action).flatMap fun task =>
    ((serversSystem js).sends w.panel task).flatMap fun sent =>
      sent.calls.flatMap fun c => carriedOut serde (request c) w.arrival w.later

/-- A named action is the one power operation that is performed, on the container of the server
that the panel grants, unless it is a start and there is nothing to start. Any other string leads
to no call at all. -/
def KeepsMeaning (serde : Serde) (js : Js) (route : PowerRoute) (action : String)
    (w : PowerWorld) : Prop :=
  if action ∈ powerNames then
    (performed serde js route action w).filterMap DockerCall.power =
      ((route.granted w.panel).filter fun server =>
        action = "start" → w.arrival.startable server.uuid = true).toList.map fun server =>
          (action, DockerManager.containerName server.uuid)
  else performed serde js route action w = []

/-! ## The calls of the panel -/

section Calls

variable {js : Js} {found : List (ServersState × Panel.Settled)}

/-- The calls of an operation, turn by turn. -/
def callsOf (js : Js) (found : List (ServersState × Panel.Settled)) (task : Task) : List WingsCall :=
  ((serversSystem js).sends found task).flatMap Sent.calls

theorem callsOf_cons (p : ServersState) (reply : Panel.Settled) (task : Task) :
    callsOf js ((p, reply) :: found) task =
      (task.turn js p reply).output.calls ++
        (task.turn js p reply).next.elim [] (callsOf js found) := by
  simp only [callsOf, Tasks.sends, List.flatMap_cons, serversSystem]
  cases (task.turn js p reply).next <;> rfl

/-- A turn that makes no call and goes on with `next`. -/
def Silent (u : ServersTurn Task) (next : Option Task) : Prop :=
  u.output.calls = [] ∧ u.next = next

/-- A task that looks a server up and makes no call: what comes behind is for the row it finds. -/
theorem callsOf_lookup {task : Task} {uuid : String} {next : Server → Option Task}
    (hfailed : ∀ p message, Silent (task.turn js p (.failed message)) none)
    (hok : ∀ p, Silent (task.turn js p .ok)
      ((ServersService.findByUuid p.db.servers uuid).toOption.bind next)) :
    callsOf js found task = (rowFound found uuid).toList.flatMap fun server =>
      (next server).elim [] (callsOf js found.tail) := by
  rcases found with _ | ⟨⟨p, _ | message⟩, found⟩
  · rfl
  · obtain ⟨hcalls, hnext⟩ := hok p
    rw [callsOf_cons, hcalls, hnext, List.nil_append, List.tail_cons]
    cases found with
    | nil =>
      simp only [rowFound, Option.toList_none, List.flatMap_nil]
      cases (ServersService.findByUuid p.db.servers uuid).toOption.bind next <;> rfl
    | cons first found =>
      simp only [rowFound]
      cases (ServersService.findByUuid p.db.servers uuid).toOption <;> simp
  · obtain ⟨hcalls, hnext⟩ := hfailed p message
    rw [callsOf_cons, hcalls, hnext]
    rfl

/-- An operation that stands before its call makes it, and is done. -/
theorem callsOf_call {task : Task} {c : WingsCall} (hturn : ∀ p reply,
    (task.turn js p reply).output.calls = [c] ∧ (task.turn js p reply).next = none) :
    callsOf js found task = if found = [] then [] else [c] := by
  cases found with
  | nil => rfl
  | cons first found =>
    obtain ⟨hcalls, hnext⟩ := hturn first.1 first.2
    rw [callsOf_cons, hcalls, hnext]
    rfl

/-- A row is found where another turn follows. -/
theorem rowFound_tail {uuid : String} {server : Server} (h : rowFound found uuid = some server) :
    found.tail ≠ [] := by
  unfold rowFound at h
  split at h
  · simp
  · cases h

/-- The call of either operation, behind a row that was found. -/
theorem callsOf_found (task : Task) (action : String) {uuid : String} {server : Server}
    (hrow : rowFound found uuid = some server)
    (hturn : ∀ p reply, (task.turn js p reply).output.calls =
        [.sendPowerAction server (mapPowerAction action)] ∧ (task.turn js p reply).next = none) :
    callsOf js found.tail task = [.sendPowerAction server (mapPowerAction action)] := by
  rw [callsOf_call hturn, if_neg (rowFound_tail hrow)]

/-- The second half of the REST route, behind the check of the owner. -/
theorem callsOf_load (uuid : String) (action : Panel.PowerAction) :
    callsOf js found (.power (.load uuid action)) =
      ((rowFound found uuid).filter fun server =>
        server.status ≠ some .installing ∧ server.status ≠ some .suspended).toList.map fun server =>
          .sendPowerAction server (mapPowerAction action.value) := by
  have hlookup : callsOf js found (.power (.load uuid action)) =
      (rowFound found uuid).toList.flatMap fun server =>
        (if server.status ≠ some .installing ∧ server.status ≠ some .suspended then
          some (Task.power (.call server action)) else none).elim [] (callsOf js found.tail) := by
    refine callsOf_lookup (fun p message => ⟨rfl, rfl⟩) fun p => ?_
    simp only [Task.turn, ServersService.PowerTask.turn, ServersTurn.read]
    cases ServersService.findByUuid p.db.servers uuid with
    | error e => exact ⟨rfl, rfl⟩
    | ok server =>
      simp only [ServersTurn.returned, Except.toOption, Option.bind_some]
      by_cases hinstalling : server.status = some .installing
      · simp only [hinstalling]
        exact ⟨rfl, rfl⟩
      by_cases hsuspended : server.status = some .suspended
      · simp only [hsuspended]
        exact ⟨rfl, rfl⟩
      · rw [if_pos ⟨hinstalling, hsuspended⟩]
        simp only [ServersTurn.throwIf, hinstalling, hsuspended]
        exact ⟨rfl, rfl⟩
  rw [hlookup]
  cases hrow : rowFound found uuid with
  | none => rfl
  | some server =>
    have hcall := @callsOf_found js _ (.power (.call server action)) action.value _ _ hrow
      fun p reply => by cases reply <;> exact ⟨rfl, rfl⟩
    by_cases hstatus : server.status ≠ some .installing ∧ server.status ≠ some .suspended
    · simp [Option.filter, hstatus, hcall]
    · simp [Option.filter, hstatus]

/-- The REST route makes one call, for the server that is granted. -/
theorem callsOf_rest (uuid : String) (user : CurrentUser) (action : Panel.PowerAction) :
    callsOf js found (.power (.check uuid user action)) =
      ((PowerRoute.rest uuid user).granted found).toList.map fun server =>
        .sendPowerAction server (mapPowerAction action.value) := by
  have hlookup : callsOf js found (.power (.check uuid user action)) =
      (rowFound found uuid).toList.flatMap fun server =>
        (if (ServersService.checkAccess server user.id user.rootAdmin).isOk then
          some (Task.power (.load uuid action)) else none).elim [] (callsOf js found.tail) := by
    refine callsOf_lookup (fun p message => ⟨rfl, rfl⟩) fun p => ?_
    simp only [Task.turn, ServersService.PowerTask.turn, ServersTurn.read]
    cases ServersService.findByUuid p.db.servers uuid with
    | error e => exact ⟨rfl, rfl⟩
    | ok server =>
      simp only [ServersTurn.returned, Except.toOption, Option.bind_some]
      cases ServersService.checkAccess server user.id user.rootAdmin <;> exact ⟨rfl, rfl⟩
  rw [hlookup]
  simp only [PowerRoute.granted]
  cases rowFound found uuid with
  | none => rfl
  | some server =>
    cases haccess : (ServersService.checkAccess server user.id user.rootAdmin).isOk with
    | false => simp [haccess]
    | true => simp [Option.filter, haccess, callsOf_load]

/-- So does the socket. -/
theorem callsOf_socket (k : Socket) (action : String) :
    ((PowerRoute.socket k).tasks action).flatMap (callsOf js found) =
      ((PowerRoute.socket k).granted found).toList.map fun server =>
        .sendPowerAction server (mapPowerAction action) := by
  simp only [PowerRoute.tasks, PowerRoute.granted, Gateway.handleSendPowerAction]
  cases truthy k.userId with
  | none => rfl
  | some userId =>
    cases truthy k.serverUuid with
    | none => rfl
    | some uuid =>
      have hlookup : callsOf js found (.gateway (.load uuid action)) =
          (rowFound found uuid).toList.flatMap fun server =>
            (some (Task.gateway (.call server action))).elim [] (callsOf js found.tail) := by
        refine callsOf_lookup (fun p message => ⟨rfl, rfl⟩) fun p => ?_
        simp only [Task.turn, GatewayTask.turn, ServersTurn.read]
        cases ServersService.findByUuid p.db.servers uuid <;> exact ⟨rfl, rfl⟩
      have htasks : List.filterMap Pending.powerTask [.findForPower k.id userId uuid action] =
          [.gateway (.load uuid action)] := rfl
      simp only [htasks, List.flatMap_singleton, hlookup, Option.bind_some]
      cases hrow : rowFound found uuid with
      | none => rfl
      | some server =>
        have hcall := @callsOf_found js _ (.gateway (.call server action)) action _ _ hrow
          fun p reply => by cases reply <;> exact ⟨rfl, rfl⟩
        simp [hcall]

end Calls

/-! ## The number on the wire -/

/-- What Wings understands of an action: its name when it has one, and otherwise a start. -/
theorem powerActionOf_mapPowerAction (action : String) :
    Grpc.powerActionOf (mapPowerAction action) =
      some (if action ∈ powerNames then action else "start") := by
  by_cases h : action ∈ powerNames
  · rw [if_pos h]
    simp only [powerNames, List.mem_cons, List.not_mem_nil, or_false] at h
    rcases h with rfl | rfl | rfl | rfl <;> rfl
  · rw [if_neg h]
    simp only [powerNames, List.mem_cons, List.not_mem_nil, or_false, not_or] at h
    have hzero : mapPowerAction action = 0 := by
      unfold mapPowerAction
      split
      next => exact absurd rfl h.1
      next => exact absurd rfl h.2.1
      next => exact absurd rfl h.2.2.1
      next => exact absurd rfl h.2.2.2
      next => rfl
    rw [hzero]
    rfl

/-- The check of the REST route lets the names through as they are, and nothing else. -/
theorem value_ofValue? (action : String) : (PowerAction.ofValue? action).map PowerAction.value =
    if action ∈ powerNames then some action else none := by
  by_cases h : action ∈ powerNames
  · rw [if_pos h]
    simp only [powerNames, List.mem_cons, List.not_mem_nil, or_false] at h
    rcases h with rfl | rfl | rfl | rfl <;> rfl
  · rw [if_neg h]
    simp only [powerNames, List.mem_cons, List.not_mem_nil, or_false, not_or] at h
    obtain ⟨hstart, hstop, hrestart, hkill⟩ := h
    simp [PowerAction.ofValue?, PowerAction.values, PowerAction.value, Ne.symm hstart,
      Ne.symm hstop, Ne.symm hrestart, Ne.symm hkill]

section Performed

variable (serde : Serde) (js : Js) (w : PowerWorld)

/-- What is performed of an operation are the calls of Wings for those of the panel. -/
theorem performed_eq (route : PowerRoute) (action : String) :
    performed serde js route action w =
      ((route.tasks action).flatMap (callsOf js w.panel)).flatMap fun c =>
        carriedOut serde (request c) w.arrival w.later := by
  simp only [performed, callsOf, List.flatMap_assoc]

/-- On the REST route, a name is carried out for the server that is granted. -/
theorem performed_rest (uuid : String) (user : CurrentUser) (action : String) :
    performed serde js (.rest uuid user) action w =
      if action ∈ powerNames then
        ((PowerRoute.rest uuid user).granted w.panel).toList.flatMap fun server =>
          powerCalls w.arrival server.uuid action
      else [] := by
  have hvalue := value_ofValue? action
  rw [performed_eq]
  simp only [PowerRoute.tasks]
  cases haction : PowerAction.ofValue? action with
  | none =>
    rw [haction] at hvalue
    split at hvalue
    · cases hvalue
    next h => simp [h]
  | some a =>
    rw [haction] at hvalue
    split at hvalue
    next h =>
      cases hvalue
      rw [if_pos h]
      simp [callsOf_rest, List.flatMap_map, request, carriedOut_sendPowerAction,
        powerActionOf_mapPowerAction, h]
    · cases hvalue

/-- On the socket, so is a string that is no name: as a start. -/
theorem performed_socket (k : Socket) (action : String) :
    performed serde js (.socket k) action w =
      ((PowerRoute.socket k).granted w.panel).toList.flatMap fun server =>
        powerCalls w.arrival server.uuid (if action ∈ powerNames then action else "start") := by
  rw [performed_eq, callsOf_socket]
  simp [List.flatMap_map, request, carriedOut_sendPowerAction, powerActionOf_mapPowerAction]

end Performed

/-! ## When an action keeps its meaning -/

/-- On the REST route always. On the socket when the string is a name, when the panel does not get
as far as a server, and when a start finds neither a container nor a configuration. -/
def MeaningKept (route : PowerRoute) (action : String) (w : PowerWorld) : Prop :=
  match route with
  | .rest _ _ => True
  | .socket k => action ∈ powerNames ∨
      ∀ server, (PowerRoute.socket k).granted w.panel = some server →
        w.arrival.listed = false ∧ w.arrival.serverConfigs.lookup server.uuid = none

/-- The power operation of a name that is carried out for the server that is granted. -/
theorem power_granted {s : AppState} {action : String} (h : action ∈ powerNames)
    (granted : Option Server) :
    (granted.toList.flatMap fun server => powerCalls s server.uuid action).filterMap
        DockerCall.power =
      (granted.filter fun server =>
        action = "start" → s.startable server.uuid = true).toList.map fun server =>
          (action, DockerManager.containerName server.uuid) := by
  cases granted with
  | none => rfl
  | some server =>
    simp only [Option.toList_some, List.flatMap_singleton, power_powerCalls h]
    by_cases hstart : action = "start" → s.startable server.uuid = true
    · simp only [if_pos hstart, Option.filter, decide_eq_true hstart]
      rfl
    · simp only [if_neg hstart, Option.filter, decide_eq_false hstart]
      rfl

/-- A power action keeps its meaning exactly on the REST route, and on the socket when it is named
or comes to nothing. -/
theorem power_meaning_iff (serde : Serde) (js : Js) (route : PowerRoute) (action : String)
    (w : PowerWorld) : KeepsMeaning serde js route action w ↔ MeaningKept route action w := by
  by_cases h : action ∈ powerNames
  · refine iff_of_true ?_ ?_
    · rw [KeepsMeaning, if_pos h]
      cases route with
      | rest uuid user =>
        rw [performed_rest, if_pos h]
        exact power_granted h _
      | socket k =>
        rw [performed_socket, if_pos h]
        exact power_granted h _
    · cases route with
      | rest uuid user => trivial
      | socket k => exact .inl h
  · rw [KeepsMeaning, if_neg h]
    cases route with
    | rest uuid user =>
      rw [performed_rest, if_neg h]
      exact iff_of_true rfl trivial
    | socket k =>
      rw [performed_socket, if_neg h]
      -- what is performed is a start, so the calls of a start decide
      simp only [MeaningKept, h, false_or]
      cases (PowerRoute.socket k).granted w.panel with
      | none => simp
      | some server => simp [powerCalls_start_eq_nil]

/-- A socket of the owner, bound to the server of `oneServer`, and a Wings whose Docker lists a
container. -/
def ownersSocket : Socket := ⟨"c", some "owner", some "u", ["server:u"]⟩

def oneServerWorld : PowerWorld where
  panel := List.replicate 2 (⟨.oneServer none, [], []⟩, .ok)
  arrival := .fresh ⟨"https://panel", "id", "token", "/data"⟩ fun _ => .ok ["exited"]
  later := .fresh ⟨"https://panel", "id", "token", "/data"⟩ fun _ => .ok ["running"]

/-- A request to shut down starts the server. -/
theorem shutdown_starts :
    performed .framed .plain (.socket ownersSocket) "shutdown" oneServerWorld =
        [.startContainer "nexus-u"] ∧
      ¬KeepsMeaning .framed .plain (.socket ownersSocket) "shutdown" oneServerWorld := by
  have hperformed : performed .framed .plain (.socket ownersSocket) "shutdown" oneServerWorld =
      [.startContainer "nexus-u"] := by decide +kernel
  refine ⟨hperformed, ?_⟩
  rw [KeepsMeaning, if_neg (by decide), hperformed]
  simp

end Joint
