import NexusPanel.Foundation.Pool
import NexusPanel.Wings.Grpc

/-!
# The gRPC service, one turn at a time

`Wings.Grpc` runs a method in one go. Here the methods that take a server's mutex or write the
registry are cut where they can be interrupted: where they await the mutex or Docker, and between
the steps of the lock map, as the runtime has several threads. A request that is served is a task
of a pool. Its handler arrives, asks for the mutex of its server, waits for it, works through the
points of its guarded section and answers; a stop, restart or kill goes on in the background
when the handler has answered.

Some things are not cut further, or left out. The pieces in which an image is pulled are one turn.
The registry and the console buffers have locks of their own, and what is done under one of
these is one turn, a configuration's way to its file included. A request is not cancelled while it
is served, and no uuid is such that the name of its container cannot be made
(`DockerManager.sliced`).

A mutex is a number. The map `serverLocks` says which one a uuid has now, and a handler keeps
the one it was given. A waiting handler takes a mutex when it finds it free, in whatever order
the turns come; the order of arrival is one of them.

A call to Docker that changes the state of a server's container takes two turns, so that it
can be seen to be outstanding. What the containers are doing is part of the store, and
changes from outside. Docker's answer comes with the turn.
-/

namespace Wings.Service

open Transition

/-- A `ServerStateChanged` event. -/
structure StateChanged where
  uuid : String
  previousState : ServerState
  newState : ServerState
deriving DecidableEq, Repr

/-- The state the handlers share: that of the daemon, the lock map with the number of mutexes
made so far and those that are locked, the state of each container, and, newest first, the
events emitted and the requests answered, with whether they succeeded. -/
structure Store where
  app : AppState
  serverLocks : AList fun _ : String => Nat
  made : Nat
  held : List Nat
  containers : String → Option String
  events : List StateChanged
  responses : List (GrpcRequest × Bool)

/-- Docker's answer. -/
abbrev Answer := Except String (List String)

/-- Where a handler is in its guarded section. -/
inductive Point
  | power (action : Nat)
  | lookup
  | pull (config : ServerConfig)
  | create (config : ServerConfig)
  | before (action : String)
  | start (previous : String)
  | starting (previous : String)
  | started (previous : String)
  | update (memory : UInt64) (cpu : UInt32) (disk : UInt64)
  | read (memory : UInt64) (cpu : UInt32) (disk : UInt64)
  | store (config : ServerConfig)
  | stop (removeVolumes : Bool)
  | remove (removeVolumes : Bool)
  | dropBuffer
  | removeConfig
  | removeLock
deriving DecidableEq

/-- Where the background part of a power action is. -/
inductive Background
  | issue (action previous : String)
  | calling (action previous : String)
  | finished (previous : String)
deriving DecidableEq

/-- Where a handler is. One that is leaving has come to its result and still holds the
guard. -/
inductive Stage
  | arrived
  | waiting (lock : Nat)
  | inside (lock : Nat) (point : Point)
  | leaving (lock : Nat) (ok : Bool)
  | answered
deriving DecidableEq

structure Task where
  request : GrpcRequest
  stage : Stage
  background : Option Background
deriving DecidableEq

/-! ## The store -/

namespace Store

def call (c : DockerCall) (s : Store) : Store :=
  { s with app := { s.app with docker := { s.app.docker with calls := c :: s.app.docker.calls } } }

def query (q : DockerQuery) (s : Store) : Store :=
  { s with
    app := { s.app with docker := { s.app.docker with queries := q :: s.app.docker.queries } } }

/-- `get_lock`: the mutex of a server, which is made when there is none. -/
def getLock (uuid : String) (s : Store) : Nat × Store :=
  match s.serverLocks.lookup uuid with
  | some lock => (lock, s)
  | none => (s.made,
      { s with serverLocks := s.serverLocks.insert uuid s.made, made := s.made + 1 })

def emit (event : StateChanged) (s : Store) : Store := { s with events := event :: s.events }

def setContainer (name : String) (state : Option String) (s : Store) : Store :=
  { s with containers := fun n => if n = name then state else s.containers n }

end Store

/-! ## Turns -/

/-- `get_container_status`: nothing when the call fails or lists no container. -/
def statusOf : Answer → Option String
  | .ok states => states.head?
  | .error _ => none

/-- `unwrap_or_else(|_| "unknown")`. -/
def stateOf (answer : Answer) : String := (statusOf answer).getD "unknown"

def isOk : Answer → Bool
  | .ok _ => true
  | .error _ => false

def stateChanged (uuid previous new : String) : StateChanged :=
  ⟨uuid, Grpc.dockerStateToProto previous, Grpc.dockerStateToProto new⟩

/-- The call of a power action that runs in the background. -/
def powerCall (uuid action : String) : DockerCall :=
  match action with
  | "stop" => .stopContainer (DockerManager.containerName uuid) 30
  | "restart" => .restartContainer (DockerManager.containerName uuid)
  | _ => .killContainer (DockerManager.containerName uuid)

/-- The server whose mutex a method takes, and the point at which it enters its section. -/
def guardedSection : GrpcRequest → Option (String × Point)
  | .sendPowerAction uuid action => some (uuid, .power action)
  | .updateResources uuid memory cpu disk => some (uuid, .update memory cpu disk)
  | .deleteServer uuid removeVolumes => some (uuid, .stop removeVolumes)
  | _ => none

def guarded (request : GrpcRequest) : Option String := (guardedSection request).map Prod.fst

/-- The requests whose handlers are modelled: those that take a mutex, and those that write
the registry without one. -/
def modelled : GrpcRequest → Bool
  | .sendPowerAction _ _ | .updateResources _ _ _ _ | .deleteServer _ _
  | .syncServerConfig _ | .reinstallServer _ _ _ => true
  | _ => false

section Turns

variable (serde : Serde)

/-- One turn in the guarded section: the store, the next point or the result, and what is
spawned. -/
def pointTurn (uuid : String) (answer : Answer) (s : Store) :
    Point → Store × (Point ⊕ Bool) × Option Background
  | .power action =>
    match Grpc.powerActionOf action with
    | none => (s, .inr false, none)
    | some name =>
      if name = "start" then
        (s.query (.listContainers (DockerManager.containerName uuid)),
          .inl (if (statusOf answer).isSome then .before name else .lookup), none)
      else (s, .inl (.before name), none)
  | .lookup =>
    match s.app.serverConfigs.lookup uuid with
    | some config => (s, .inl (.pull config), none)
    | none => (s, .inr false, none)
  | .pull config =>
    (s.call (.pullImage config.dockerImage),
      if isOk answer then .inl (.create config) else .inr false, none)
  | .create config =>
    let name := DockerManager.containerName config.uuid
    let s := s.call (.createContainer name (DockerManager.gameSpec config))
    if isOk answer then (s.setContainer name (some "created"), .inl (.before "start"), none)
    else (s, .inr false, none)
  | .before action =>
    let s := s.query (.listContainers (DockerManager.containerName uuid))
    if action = "start" then (s, .inl (.start (stateOf answer)), none)
    else (s, .inr true, some (.issue action (stateOf answer)))
  | .start previous =>
    (s.call (.startContainer (DockerManager.containerName uuid)), .inl (.starting previous), none)
  | .starting previous => (s, if isOk answer then .inl (.started previous) else .inr false, none)
  | .started previous =>
    ((s.query (.listContainers (DockerManager.containerName uuid))).emit
      (stateChanged uuid previous (stateOf answer)), .inr true, none)
  | .update memory cpu disk =>
    (s.call (.updateContainer (DockerManager.containerName uuid)
      (some (memory * 1024 * 1024).toInt64) (some (cpu.toUInt64.toInt64 * 10000000))),
      if isOk answer then .inl (.read memory cpu disk) else .inr false, none)
  | .read memory cpu disk =>
    match s.app.serverConfigs.lookup uuid with
    | some config => (s, .inl (.store { config with
        memoryLimit := memory, cpuLimit := cpu.toUInt64, diskLimit := disk }), none)
    | none => (s, .inr true, none)
  | .store config =>
    ({ s with app := (AppState.storeServerConfig serde config s.app).2 }, .inr true, none)
  | .stop removeVolumes =>
    (s.call (.stopContainer (DockerManager.containerName uuid) 10), .inl (.remove removeVolumes),
      none)
  | .remove removeVolumes =>
    let name := DockerManager.containerName uuid
    let s := s.call (.removeContainer name removeVolumes)
    if isOk answer then (s.setContainer name none, .inl .dropBuffer, none)
    else (s, .inr false, none)
  | .dropBuffer =>
    ({ s with app := { s.app with consoleBuffers := s.app.consoleBuffers.erase uuid } },
      .inl .removeConfig, none)
  | .removeConfig =>
    ({ s with app := (AppState.removeServerConfig uuid s.app).2 }, .inl .removeLock, none)
  | .removeLock => ({ s with serverLocks := s.serverLocks.erase uuid }, .inr true, none)

/-- One turn in the background, and where it goes on. -/
def backgroundTurn (uuid : String) (answer : Answer) (s : Store) :
    Background → Store × Option Background
  | .issue action previous => (s.call (powerCall uuid action), some (.calling action previous))
  | .calling _ previous => (s, if isOk answer then some (.finished previous) else none)
  | .finished previous =>
    ((s.query (.listContainers (DockerManager.containerName uuid))).emit
      (stateChanged uuid previous (stateOf answer)), none)

/-- A write to the registry without a mutex. The install that a reinstall leaves to the
runtime does not come back to the registry. -/
def unguardedTurn (request : GrpcRequest) (s : Store) : Store :=
  match request with
  | .syncServerConfig (some cfg) =>
    { s with
      app := (AppState.storeServerConfig serde (Grpc.toDockerConfig cfg) s.app).2
      responses := (request, true) :: s.responses }
  | .reinstallServer (some cfg) script image =>
    let app := (AppState.storeServerConfig serde (Grpc.toDockerConfig cfg) s.app).2
    { s with
      app := { app with
        spawned := app.spawned ++ [.install (Grpc.toDockerConfig cfg) script image] }
      responses := (request, true) :: s.responses }
  | _ => { s with responses := (request, false) :: s.responses }

/-- One turn of a handler. -/
def handlerTurn (answer : Answer) (s : Store) (t : Task) : Store × Task :=
  match t.stage with
  | .arrived =>
    match guarded t.request with
    | some uuid => ((s.getLock uuid).2, { t with stage := .waiting (s.getLock uuid).1 })
    | none => (unguardedTurn serde t.request s, { t with stage := .answered })
  | .waiting lock =>
    match guardedSection t.request with
    | some (_, point) =>
      if lock ∈ s.held then (s, t)
      else ({ s with held := lock :: s.held }, { t with stage := .inside lock point })
    | none => (s, t)
  | .inside lock point =>
    match guarded t.request with
    | some uuid =>
      match pointTurn serde uuid answer s point with
      | (s, next, spawned) => (s, { t with
          stage := next.elim (.inside lock) (.leaving lock)
          background := spawned.or t.background })
    | none => (s, t)
  | .leaving lock ok =>
    ({ s with held := s.held.erase lock, responses := (t.request, ok) :: s.responses },
      { t with stage := .answered })
  | .answered => (s, t)

/-- What takes a turn: the handler of a request or its background part. -/
inductive Strand
  | handler
  | background
deriving DecidableEq

def taskTurn (strand : Strand) (answer : Answer) (s : Store) (t : Task) : Store × Task :=
  match strand, guarded t.request, t.background with
  | .handler, _, _ => handlerTurn serde answer s t
  | .background, some uuid, some background =>
    match backgroundTurn uuid answer s background with
    | (s, background) => (s, { t with background })
  | .background, _, _ => (s, t)

theorem handlerTurn_request {answer : Answer} {s : Store} {t : Task} :
    (handlerTurn serde answer s t).2.request = t.request := by
  obtain ⟨request, stage, background⟩ := t
  cases stage with
  | arrived =>
    simp only [handlerTurn]
    split <;> rfl
  | waiting lock =>
    simp only [handlerTurn]
    split
    · split <;> rfl
    · rfl
  | inside lock point =>
    simp only [handlerTurn]
    split <;> rfl
  | leaving | answered => rfl

/-- A task works on one request. -/
theorem taskTurn_request {strand : Strand} {answer : Answer} {s : Store} {t : Task} :
    (taskTurn serde strand answer s t).2.request = t.request := by
  cases strand with
  | handler => exact handlerTurn_request serde
  | background =>
    simp only [taskTurn]
    split
    next h => cases h
    next => rfl
    next => rfl

/-- A task is over when its handler has answered and nothing runs in the background. -/
def Task.over (t : Task) : Bool := t.stage == .answered && t.background.isNone

/-- The requests as tasks of a pool. From outside, a container may change its state. -/
def tasks : Tasks Store Task (Strand × Answer) Unit (String × Option String) where
  turn s reply t :=
    match taskTurn serde reply.1 reply.2 s t with
    | (s, t) => ⟨s, (), if t.over then none else some t⟩
  starts t := modelled t.request && t.stage == .arrived && t.background.isNone
  outside s event := some (s.setContainer event.1 event.2)

end Turns

/-! ## One turn of the pool -/

section Pool

variable {serde : Serde} {p p' : Pool Store Task} {i : Nat} {strand : Strand} {answer : Answer}

/-- The state of a service and the requests it is working on. -/
abbrev State := Pool Store Task

/-- What may happen next. -/
abbrev Label := PoolLabel Task (Strand × Answer) (String × Option String)

/-- A turn of the pool is a turn of the task at its position. -/
theorem step_turn (h : (tasks serde).step p (.turn i (strand, answer)) = some p') :
    ∃ t, p.tasks[i]? = some t ∧ p'.store = (taskTurn serde strand answer p.store t).1 ∧
      p'.tasks = (if (taskTurn serde strand answer p.store t).2.over then [] else
        [(taskTurn serde strand answer p.store t).2]) ++ p.tasks.eraseIdx i := by
  obtain ⟨t, ht, rfl⟩ := Tasks.step_turn h
  refine ⟨t, ht, rfl, ?_⟩
  simp only [tasks]
  split <;> rfl

/-- A task that arrives has not done anything. -/
theorem step_start {t : Task} (h : (tasks serde).step p (.start t) = some p') :
    t = ⟨t.request, .arrived, none⟩ ∧ p' = ⟨p.store, t :: p.tasks⟩ := by
  obtain ⟨hstarts, rfl⟩ := Tasks.step_start h
  obtain ⟨request, stage, background⟩ := t
  simp only [tasks, Bool.and_eq_true, beq_iff_eq, Option.isNone_iff_eq_none] at hstarts
  obtain ⟨⟨-, rfl⟩, rfl⟩ := hstarts
  exact ⟨rfl, rfl⟩

theorem step_outside {event : String × Option String}
    (h : (tasks serde).step p (.outside event) = some p') :
    p' = ⟨p.store.setContainer event.1 event.2, p.tasks⟩ := by
  obtain ⟨store, hstore, rfl⟩ := Tasks.step_outside h
  cases hstore
  rfl

/-- A turn changes a count of unfinished tasks by what it makes of its task. -/
theorem count_turn {q : Task → Bool} (hq : ∀ t, t.over = true → q t = false) {t : Task}
    (ht : p.tasks[i]? = some t)
    (h : (tasks serde).step p (.turn i (strand, answer)) = some p') :
    p'.count q + (if q t then 1 else 0) =
      p.count q + if q (taskTurn serde strand answer p.store t).2 then 1 else 0 := by
  rw [Pool.count_turn ht h]
  congr 1
  simp only [tasks]
  split
  next hover => rw [hq _ hover]; rfl
  next => simp [List.countP_cons]

/-- A task after a turn is one that was there before, or what the turn made of its task. -/
theorem mem_turn {t u : Task} (ht : p.tasks[i]? = some t)
    (h : (tasks serde).step p (.turn i (strand, answer)) = some p') (hu : u ∈ p'.tasks) :
    u = (taskTurn serde strand answer p.store t).2 ∨ u ∈ p.tasks.eraseIdx i := by
  obtain ⟨t', ht', -, htasks⟩ := step_turn h
  cases ht.symm.trans ht'
  rw [htasks] at hu
  rcases List.mem_append.mp hu with hu | hu
  · split at hu
    · cases hu
    · exact .inl (List.mem_singleton.mp hu)
  · exact .inr hu

end Pool

/-! ## A service that has just started -/

/-- Nothing is in the lock map and nothing is at work. -/
def started (app : AppState) (containers : String → Option String) : State :=
  ⟨⟨app, ∅, 0, [], containers, [], []⟩, []⟩

/-- A request arrives. -/
def arrives (request : GrpcRequest) : Label := .start ⟨request, .arrived, none⟩

/-- The handler of the task at the position takes a turn, and Docker answers as told. -/
def handles (i : Nat) (answer : Answer) : Label := .turn i (.handler, answer)

/-- The background part of the task at the position takes a turn. -/
def runs (i : Nat) (answer : Answer) : Label := .turn i (.background, answer)

end Wings.Service
