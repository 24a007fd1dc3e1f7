import NexusPanel.Panel.ServersSystem
import NexusPanel.Wings.Daemon

/-!
# The panel and its daemons as one system

The panel is the pool of its operations, and every node runs one Wings. A turn of the panel
that calls Wings is answered by the Wings of the server's node: its method runs, and the turn
goes on with the result. An answer may also get lost, and so may the request. Between the
turns, Wings runs what it has spawned or is restarted, and a callback that it has posted is
delivered to the panel, where it starts an operation of its own.
-/

namespace Joint

open Panel Wings Transition

/-! ## The protocol -/

/-- What the panel's configuration is on the wire. Numbers are taken modulo their width. -/
def toProto (config : WingsServerConfig) : Proto.ServerConfig where
  uuid := config.uuid
  dockerImage := config.dockerImage
  startupCommand := config.startupCommand
  environment := config.environment
  memoryLimitMb := .ofInt config.memoryLimit
  cpuLimit := .ofInt config.cpuLimit
  diskLimitMb := .ofInt config.diskLimit
  portMappings := config.portMappings.map fun pm => ⟨.ofNat pm.1, .ofNat pm.2⟩
  volumePath := config.volumePath

/-- The gRPC request of a call. -/
def request : WingsCall → GrpcRequest
  | .getSystemInfo _ => .getSystemInfo
  | .createServer _ config script image => .createServer (some (toProto config)) script image
  | .deleteServer server removeVolumes => .deleteServer server.uuid removeVolumes
  | .reinstallServer _ config script image =>
    .reinstallServer (some (toProto config)) script image
  | .sendPowerAction server action => .sendPowerAction server.uuid action

/-- The node a call goes to. -/
def nodeOf : WingsCall → String
  | .getSystemInfo node => node.id
  | .createServer server _ _ _ | .deleteServer server _ | .reinstallServer server _ _ _
  | .sendPowerAction server _ => server.nodeId

/-! ## States and steps -/

structure State where
  panel : ServersPool
  /-- The Wings of each node. -/
  wings : String → AppState

/-- What may happen next. When a call of the panel fails, `reached` says whether it has
reached Wings nevertheless. -/
inductive Label
  | panel (l : ServersLabel) (reached : Bool)
  | task (node : String) (index : Nat)
  | restart (node : String) (entries : List FS.Name)
  | deliver (node uuid : String) (index : Nat)

section Step

variable (serde : Serde) (js : Js)

/-- A call and its reply: it is successful when the method is. -/
def exchange (reached : Bool) (reply : Settled) (wings : String → AppState) (c : WingsCall) :
    Option (String → AppState) :=
  let served := Grpc.serve serde (request c) (wings (nodeOf c))
  let wings' := Function.update wings (nodeOf c) served.2
  match reply, served.1 with
  | .ok, .ok _ => some wings'
  | .ok, .error _ => none
  | .failed _, _ => some (if reached then wings' else wings)

/-- The reply a step of the panel goes on with, and the calls it makes. -/
def sent (p : ServersPool) (l : ServersLabel) : Settled × List WingsCall :=
  match l with
  | .turn i reply =>
    match p.tasks[i]? with
    | some task => (reply, (task.turn js p.store reply).output.calls)
    | none => (reply, [])
  | _ => (.ok, [])

/-- A callback arrives at the route of the server its address names. -/
def deliver (s : State) (node uuid : String) (index : Nat) : Option State := do
  let post ← (s.wings node).posts[index]?
  guard (post.url = Installer.callbackUrl (s.wings node).config.panelUrl uuid)
  let panel ← serversStep js s.panel (.start (.callback (.receive uuid post.status)))
  some ⟨panel, Function.update s.wings node
    { s.wings node with posts := (s.wings node).posts.eraseIdx index }⟩

def step (s : State) : Label → Option State
  | .panel l reached => do
    let panel ← serversStep js s.panel l
    let (reply, calls) := sent js s.panel l
    let wings ← calls.foldlM (exchange serde reached reply) s.wings
    some ⟨panel, wings⟩
  | .task node index => do
    let wings ← daemonStep serde (s.wings node) (.task index)
    some { s with wings := Function.update s.wings node wings }
  | .restart node entries => do
    let wings ← daemonStep serde (s.wings node) (.restart entries)
    some { s with wings := Function.update s.wings node wings }
  | .deliver node uuid index => deliver js s node uuid index

end Step

/-! ## What a step does -/

section Steps

variable {serde : Serde} {js : Js} {s s' : State} {wings wings' : String → AppState}
  {c : WingsCall} {reached : Bool}

theorem exchange_ok (h : exchange serde reached .ok wings c = some wings') :
    (∃ response, (Grpc.serve serde (request c) (wings (nodeOf c))).1 = .ok response) ∧
      wings' = Function.update wings (nodeOf c)
        (Grpc.serve serde (request c) (wings (nodeOf c))).2 := by
  simp only [exchange] at h
  split at h
  next response _ heq =>
    cases h
    exact ⟨⟨response, heq⟩, rfl⟩
  next => cases h
  next heq => cases heq

/-- Whatever the reply, Wings has either not been reached or has run the method. -/
theorem exchange_cases {reply : Settled} (h : exchange serde reached reply wings c = some wings') :
    wings' = wings ∨ wings' = Function.update wings (nodeOf c)
      (Grpc.serve serde (request c) (wings (nodeOf c))).2 := by
  cases reply with
  | ok => exact .inr (exchange_ok h).2
  | failed message =>
    simp only [exchange, Option.some.injEq] at h
    rw [← h]
    cases reached with
    | false => exact .inl rfl
    | true => exact .inr rfl

/-- A step of the panel leaves the daemons alone, or is a turn that calls one of them. -/
theorem step_panel {l : ServersLabel} (h : step serde js s (.panel l reached) = some s') :
    serversStep js s.panel l = some s'.panel ∧
      ((∀ i reply task, l = .turn i reply → s.panel.tasks[i]? = some task → task.call = none) ∧
          s'.wings = s.wings ∨
        ∃ i reply task c, l = .turn i reply ∧ s.panel.tasks[i]? = some task ∧
          task.call = some c ∧ exchange serde reached reply s.wings c = some s'.wings) := by
  simp only [step, Option.bind_eq_bind, Option.bind_eq_some_iff] at h
  obtain ⟨panel, hpanel, wings, hwings, h⟩ := h
  cases h
  refine ⟨hpanel, ?_⟩
  cases l with
  | start task | outside event =>
    cases hwings
    exact .inl ⟨fun _ _ _ h => (nomatch h), rfl⟩
  | turn i reply =>
    obtain ⟨task, htask, -⟩ := Tasks.step_turn hpanel
    simp only [sent, htask, (task.performs js).calls] at hwings
    cases hcall : task.call with
    | none =>
      rw [hcall] at hwings
      cases hwings
      refine .inl ⟨fun j reply' task' h htask' => ?_, rfl⟩
      cases h
      rw [htask] at htask'
      cases htask'
      exact hcall
    | some c =>
      rw [hcall] at hwings
      simp only [Option.toList_some, List.foldlM_cons, List.foldlM_nil] at hwings
      obtain ⟨w, hw, hlast⟩ := Option.bind_eq_some_iff.mp hwings
      cases hlast
      exact .inr ⟨i, reply, task, c, rfl, htask, hcall, hw⟩

end Steps

end Joint
