import NexusPanel.Wings.Effects

/-!
# Authentication of the three interfaces of Wings

A request reaches a handler through one of three doors: the HTTP router with
`auth_middleware` in front of the protected routes, the WebSocket route with a check of its
own, and the tonic service, which `main` starts without an interceptor. The panel sends its
credential on every gRPC call, but nothing on this side looks at it.

A request is `Authenticated` when a managing handler runs only with a credential that
matches the configured token, and when a request without one changes nothing. Every HTTP and
WebSocket request is; a gRPC request is exactly when its method only reads or its metadata
happens to carry a matching credential.
-/

namespace Wings

open StateAction

/-! ## Requests and handlers -/

/-- A request as it arrives, with the place its credential would stand in. -/
inductive Arrival
  | health
  | http (authorization : Option String) (request : HttpRequest)
  | webSocket (token : Option String) (uuid : String) (events : List Http.WsEvent)
  | grpc (authorization : Option String) (request : GrpcRequest)

/-- A handler that has been entered. -/
inductive Entered
  | health
  | http (request : HttpRequest)
  | webSocket (uuid : String) (events : List Http.WsEvent)
  | grpc (request : GrpcRequest)

/-- The handler a request gets to, if it passes the door. -/
def enters (config : Config) : Arrival → Option Entered
  | .health => some .health
  | .http authorization request =>
    match authMiddleware config authorization with
    | .ok _ => some (.http request)
    | .error _ => none
  | .webSocket token uuid events =>
    match token.map (wsAuth config) with
    | some (.ok _) => some (.webSocket uuid events)
    | _ => none
  | .grpc _ request => some (.grpc request)

/-- The state after the handler. -/
def Entered.run (serde : Serde) (s : AppState) : Entered → AppState
  | .health => s
  | .http request => (Http.serve request s).2
  | .webSocket uuid events => (Http.handleWs uuid events s).2
  | .grpc request => (Grpc.serve serde request s).2

/-- The state after the request. -/
def receive (serde : Serde) (s : AppState) (a : Arrival) : AppState :=
  match enters s.config a with
  | some h => h.run serde s
  | none => s

/-! ## Requests with an effect -/

def HttpRequest.manages : HttpRequest → Bool
  | .createServer .. | .deleteServer .. | .powerAction .. | .sendCommand ..
  | .updateResources .. | .installServer .. => true
  | .systemInfo | .getStatus _ | .files _ _ => false

def GrpcRequest.manages : GrpcRequest → Bool
  | .createServer .. | .deleteServer .. | .reinstallServer .. | .sendPowerAction ..
  | .sendCommand .. | .syncServerConfig _ | .updateResources .. => true
  | .getServerStatus _ | .getSystemInfo | .eventStream => false

/-- Whether the handler creates, deletes, reinstalls, powers, reconfigures or commands a
server. A WebSocket session runs commands. -/
def Entered.manages : Entered → Bool
  | .health => false
  | .http request => request.manages
  | .webSocket _ _ => true
  | .grpc request => request.manages

/-- The bearer token of an `Authorization` header. -/
def bearer (authorization : Option String) : Option String :=
  (authorization.bind headerToStr).bind (Text.stripPrefix? "Bearer ")

def Arrival.credential : Arrival → Option String
  | .health => none
  | .http authorization _ | .grpc authorization _ => bearer authorization
  | .webSocket token _ _ => token

/-- The configured token, alone or behind the configured id (any id when none is
configured). -/
def Matches (config : Config) (credential : String) : Prop :=
  credential = config.token ∨
    ∃ tid, (config.tokenId = "" ∨ tid = config.tokenId) ∧
      credential = tid ++ "." ++ config.token

def Carries (config : Config) (a : Arrival) : Prop :=
  ∃ credential ∈ a.credential, Matches config credential

/-- Docker, the registry, the console buffers and the files are as they were, nothing new is
under way, and the panel has not been told anything. -/
structure Unchanged (s s' : AppState) : Prop where
  docker : s'.docker.calls = s.docker.calls
  registry : s'.serverConfigs = s.serverConfigs
  buffers : s'.consoleBuffers = s.consoleBuffers
  files : s'.fs = s.fs
  tasks : s'.spawned = s.spawned
  posts : s'.posts = s.posts

/-- Managing takes a matching credential, and a request without one changes nothing. -/
def Authenticated (serde : Serde) (s : AppState) (a : Arrival) : Prop :=
  (∀ h, enters s.config a = some h → h.manages = true → Carries s.config a) ∧
    (¬Carries s.config a → Unchanged s (receive serde s a))

/-- A gRPC call of a managing method carries a matching credential. -/
def GrpcCredentialed (config : Config) (a : Arrival) : Prop :=
  ∀ authorization request, a = .grpc authorization request → request.manages = true →
    Carries config a

/-! ## The doors -/

theorem Unchanged.refl (s : AppState) : Unchanged s s := ⟨rfl, rfl, rfl, rfl, rfl, rfl⟩

/-- What `auth_middleware` lets through carries a matching credential. -/
theorem matches_of_authMiddleware {config : Config} {authorization : Option String} {u : Unit}
    (h : authMiddleware config authorization = .ok u) :
    ∃ credential ∈ bearer authorization, Matches config credential := by
  unfold authMiddleware at h
  split at h
  next => cases h
  next credential hbearer =>
    refine ⟨credential, hbearer, ?_⟩
    split at h
    next tid tok hsplit =>
      split at h
      next => cases h
      next hid =>
        split at h
        next => cases h
        next htok =>
          refine .inr ⟨tid, ?_, ?_⟩
          · by_cases hempty : config.tokenId = ""
            · exact .inl hempty
            · exact .inr (by_contra fun hne => hid ⟨hempty, hne⟩)
          · rw [← not_not.mp htok]
            exact Text.splitFirst?_eq_some hsplit
    next =>
      split at h
      next => cases h
      next htok => exact .inl (not_not.mp htok)

/-- What `ws_handler` lets through is a matching credential. -/
theorem matches_of_wsAuth {config : Config} {token : String} {u : Unit}
    (h : wsAuth config token = .ok u) : Matches config token := by
  unfold wsAuth at h
  split at h
  next tid tok hsplit =>
    split at h
    next heq =>
      obtain ⟨rfl, rfl⟩ := heq
      exact .inr ⟨_, .inr rfl, Text.splitFirst?_eq_some hsplit⟩
    next => cases h
  next =>
    split at h
    next heq => exact .inl heq
    next => cases h

/-- Past the HTTP and the WebSocket door there is a matching credential. -/
theorem carries_of_enters {config : Config} {a : Arrival} {h : Entered}
    (henter : enters config a = some h) (hmanages : h.manages = true)
    (hgrpc : GrpcCredentialed config a) : Carries config a := by
  cases a with
  | health =>
    cases henter
    cases hmanages
  | http authorization request =>
    simp only [enters] at henter
    split at henter
    next hok => exact matches_of_authMiddleware hok
    next => cases henter
  | webSocket token uuid events =>
    simp only [enters] at henter
    split at henter
    next hok =>
      obtain ⟨t, rfl, ht⟩ := Option.map_eq_some_iff.mp hok
      exact ⟨t, rfl, matches_of_wsAuth ht⟩
    next => cases henter
  | grpc authorization request =>
    cases henter
    exact hgrpc authorization request rfl hmanages

/-! ## The methods that only read -/

section Reading

variable {s : AppState}

/-- A query changes nothing. -/
theorem Unchanged.query {t : AppState} {serde : Serde} (h : Unchanged s t) (query : DockerQuery) :
    Unchanged s (Effect.apply serde t (.query query)) :=
  ⟨h.docker, h.registry, h.buffers, h.files, h.tasks, h.posts⟩

/-- A method that does not manage leaves everything as it was. -/
theorem unchanged_of_not_manages {serde : Serde} {request : GrpcRequest}
    (h : request.manages = false) : Unchanged s (Grpc.serve serde request s).2 := by
  refine (after_serve serde request s).preserves (I := Unchanged s) (fun t e he ht => ?_) (.refl s)
  cases he with
  | status uuid he => cases he <;> exact ht.query _
  | version | listManaged => exact ht.query _
  | _ => cases h

end Reading

/-- A request without a credential changes nothing, unless it is a managing gRPC call. -/
theorem unchanged_of_not_carries {serde : Serde} {s : AppState} {a : Arrival}
    (hgrpc : GrpcCredentialed s.config a) (h : ¬Carries s.config a) :
    Unchanged s (receive serde s a) := by
  unfold receive
  cases a with
  | health => exact .refl s
  | http authorization request =>
    simp only [enters]
    split
    next h' heq =>
      split at heq
      next hok => exact absurd (matches_of_authMiddleware hok) h
      next => cases heq
    next => exact .refl s
  | webSocket token uuid events =>
    simp only [enters]
    split
    next h' heq =>
      split at heq
      next hok =>
        obtain ⟨t, rfl, ht⟩ := Option.map_eq_some_iff.mp hok
        exact absurd ⟨t, rfl, matches_of_wsAuth ht⟩ h
      next => cases heq
    next => exact .refl s
  | grpc authorization request =>
    have hread : request.manages = false := by
      rw [Bool.eq_false_iff]
      exact fun hmanages => h (hgrpc authorization request rfl hmanages)
    exact unchanged_of_not_manages hread

/-- For every configuration, state and behaviour of Docker, and every request on any of the
three interfaces: the request is authenticated if and only if it is not a gRPC call of a
managing method without a matching credential. -/
theorem authenticated_iff (serde : Serde) (s : AppState) (a : Arrival) :
    Authenticated serde s a ↔ GrpcCredentialed s.config a := by
  constructor
  · rintro ⟨hmanaging, -⟩ authorization request rfl hmanages
    exact hmanaging (.grpc request) rfl hmanages
  · intro hgrpc
    exact ⟨fun h henter hmanages => carries_of_enters henter hmanages hgrpc,
      unchanged_of_not_carries hgrpc⟩

/-! ## A call without a credential -/

section Counterexample

/-- A configured daemon that has not been asked anything yet. -/
def idleState : AppState where
  config := ⟨"https://panel.example.com", "tid-123", "my-secret-token", "/data"⟩
  docker := ⟨[], [], 0, fun _ => .ok ["ok"]⟩
  consoleBuffers := ∅
  serverConfigs := ∅
  fs := ⟨[]⟩
  spawned := []
  posts := []
  history := []

/-- Deleting a server over gRPC needs no credential: the handler runs, and Docker is called. -/
theorem grpc_unauthenticated :
    ¬Authenticated ⟨fun _ => "", fun _ => none⟩ idleState
      (.grpc none (.deleteServer "0b1c" false)) := by
  rintro ⟨hmanaging, -⟩
  obtain ⟨credential, hmem, -⟩ := hmanaging _ rfl rfl
  cases hmem

end Counterexample

end Wings
