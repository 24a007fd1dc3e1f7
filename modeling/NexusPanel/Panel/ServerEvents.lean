import NexusPanel.Panel.ServersService

/-!
# Who hears of a server

The server-sent events of the panel. A connection is opened for the account its request was
authenticated as and keeps the role that account had then. `EventHandlers` turns what the
daemons report into events and hands them to `SseService.emit`, which decides for each open
connection whether it receives one. The handlers name no recipients, so the decision is left to
the tables of event types, and these look at the role alone.

Accounts, their roles and the ownership of servers change from outside.
-/

namespace Panel

open Transition

/-! ## SseService -/

/-- A value in the data of an event. -/
inductive Datum
  | text (value : String)
  | number (value : Rat)
deriving DecidableEq

structure SseEvent where
  type : String
  data : List (String × Datum)
  targetUserIds : Option (List String)
deriving DecidableEq

/-- An open connection; the subject it writes to is the connection itself. -/
structure SseConnection where
  id : String
  userId : String
  isAdmin : Bool
deriving DecidableEq, Repr

instance : Keyed String SseConnection := ⟨SseConnection.id⟩

namespace SseService

def adminOnlyEvents : List String := ["node.status", "node.heartbeat"]

def ownerEvents : List String :=
  ["server.status", "server.install.complete", "server.install.failed", "server.created",
    "server.deleted", "server.stats", "server.console"]

def shouldReceive (conn : SseConnection) (event : SseEvent) : Bool :=
  match event.targetUserIds with
  | some (id :: ids) => (id :: ids).contains conn.userId
  | some [] | none =>
    if event.type ∈ adminOnlyEvents then conn.isAdmin
    else if event.type ∈ ownerEvents then conn.isAdmin
    else true

/-- The connections that receive the event. -/
def emit (connections : Table SseConnection) (event : SseEvent) : List (SseConnection × SseEvent) :=
  (connections.find fun conn => shouldReceive conn event).map fun conn => (conn, event)

theorem mem_emit {connections : Table SseConnection} {event event' : SseEvent}
    {conn : SseConnection} :
    (conn, event') ∈ emit connections event ↔
      event' = event ∧ conn ∈ connections ∧ shouldReceive conn event = true := by
  simp only [emit, List.mem_map, Prod.mk.injEq, Table.mem_find]
  constructor
  · rintro ⟨conn, ⟨hconn, hreceives⟩, rfl, rfl⟩
    exact ⟨rfl, hconn, hreceives⟩
  · rintro ⟨rfl, hconn, hreceives⟩
    exact ⟨conn, ⟨hconn, hreceives⟩, rfl, rfl⟩

end SseService

/-! ## EventHandlers -/

/-- What a daemon reports about a server. -/
inductive ServerEvent
  | stateChanged (uuid previousState newState : String)
  | installed (uuid : String)
  | installFailed (uuid errorMessage : String)
  | stats (uuid : String) (cpuPercent : Rat)
      (memoryBytes memoryLimit networkRxBytes networkTxBytes diskBytes : Nat)
  | console (uuid line : String)
deriving DecidableEq

namespace ServerEvent

def uuid : ServerEvent → String
  | stateChanged uuid _ _ | installed uuid | installFailed uuid _ | stats uuid _ _ _ _ _ _
  | console uuid _ => uuid

/-- What the handler of the event emits. -/
def sseEvent : ServerEvent → SseEvent
  | stateChanged uuid previousState newState =>
    ⟨"server.status", [("uuid", .text uuid), ("state", .text newState),
      ("previousState", .text previousState)], none⟩
  | installed uuid => ⟨"server.install.complete", [("uuid", .text uuid)], none⟩
  | installFailed uuid errorMessage =>
    ⟨"server.install.failed", [("uuid", .text uuid), ("error", .text errorMessage)], none⟩
  | stats uuid cpuPercent memoryBytes memoryLimit networkRxBytes networkTxBytes diskBytes =>
    ⟨"server.stats", [("uuid", .text uuid), ("cpuPercent", .number cpuPercent),
      ("memoryBytes", .number memoryBytes), ("memoryLimit", .number memoryLimit),
      ("networkRxBytes", .number networkRxBytes), ("networkTxBytes", .number networkTxBytes),
      ("diskBytes", .number diskBytes)], none⟩
  | console uuid line => ⟨"server.console", [("uuid", .text uuid), ("line", .text line)], none⟩

/-- What an install that has ended leaves in the row of its server. -/
def outcome : ServerEvent → Option Lifecycle
  | installed _ => some (ServersService.installOutcome true)
  | installFailed _ _ => some (ServersService.installOutcome false)
  | _ => none

/-- Every event of a server is in the table that looks at the role. -/
theorem shouldReceive_sseEvent (conn : SseConnection) (event : ServerEvent) :
    SseService.shouldReceive conn event.sseEvent = conn.isAdmin := by
  cases event
  all_goals
    rw [SseService.shouldReceive, sseEvent]
    simp only [SseService.adminOnlyEvents, SseService.ownerEvents, List.mem_cons, String.reduceEq,
      List.not_mem_nil, or_self, or_false, or_true, if_true, ite_self]

end ServerEvent

/-! ## Requests and reports in flight -/

structure SseState where
  users : Table User
  servers : Table Server
  connections : Table SseConnection

/-- A request for the stream, or the handler of a report. -/
inductive SseTask
  | validate (userId connectionId : String)
  | sse (userId : String) (rootAdmin : Bool) (connectionId : String)
  | handle (event : ServerEvent)
  | emit (event : ServerEvent)
deriving DecidableEq

abbrev SseTurn := Turn SseState (List (SseConnection × SseEvent)) SseTask

/-- The handlers of installs write the row of their server first, the others emit at once. -/
def SseTask.turn (s : SseState) (reply : Settled) : SseTask → SseTurn
  | .validate userId connectionId =>
    match reply, s.users.findOne fun u => u.id == userId && u.enabled with
    | .ok, some user => ⟨s, [], some (.sse user.id user.rootAdmin connectionId)⟩
    | _, _ => ⟨s, [], none⟩
  | .sse userId rootAdmin connectionId =>
    ⟨{ s with connections :=
        (s.connections.insert ⟨connectionId, userId, rootAdmin⟩).getD s.connections }, [], none⟩
  | .handle event =>
    match event.outcome, reply with
    | some columns, .ok =>
      ⟨{ s with servers :=
          s.servers.update (fun x => x.uuid == event.uuid) columns.set columns.set_key }, [],
        some (.emit event)⟩
    | some _, .failed _ => ⟨s, [], none⟩
    | none, _ => ⟨s, SseService.emit s.connections event.sseEvent, none⟩
  | .emit event => ⟨s, SseService.emit s.connections event.sseEvent, none⟩

def SseTask.starts : SseTask → Bool
  | .validate _ _ | .handle _ => true
  | .sse _ _ _ | .emit _ => false

inductive SseOutside
  | close (connectionId : String)
  | change (users : Table User) (servers : Table Server)

def SseState.outside (s : SseState) : SseOutside → Option SseState
  | .close connectionId =>
    some { s with connections := s.connections.delete fun conn => conn.id == connectionId }
  | .change users servers => some { s with users, servers }

def sseSystem : Tasks SseState SseTask Settled (List (SseConnection × SseEvent)) SseOutside where
  turn := SseTask.turn
  starts := SseTask.starts
  outside := SseState.outside

abbrev SsePool := Pool SseState SseTask
abbrev SseLabel := PoolLabel SseTask Settled SseOutside

def sseStep : SsePool → SseLabel → Option SsePool := sseSystem.step

/-! ## The right people -/

/-- A root admin, or the owner of the server, as the tables are now. -/
def Entitled (s : SseState) (userId uuid : String) : Prop :=
  (∃ u ∈ s.users, u.id = userId ∧ u.rootAdmin = true) ∨
    ∃ server ∈ s.servers, server.uuid = uuid ∧ server.userId = userId

/-- The event the task emits in its turn. -/
def SseTask.emits : SseTask → Option ServerEvent
  | .handle event => if event.outcome.isNone then some event else none
  | .emit event => some event
  | _ => none

/-- The event that the step emits. -/
def emitted (p : SsePool) : SseLabel → Option ServerEvent
  | .turn i _ => p.tasks[i]?.bind SseTask.emits
  | _ => none

/-- What the step sends on the connections. -/
def delivered (p : SsePool) (l : SseLabel) : List (SseConnection × SseEvent) :=
  match sseSystem.turnOf p l with
  | some u => u.output
  | none => []

/-- The step sends the event on a connection exactly when it emits it, the connection is open
and its user is entitled to it. -/
def ReachesRight (p : SsePool) (l : SseLabel) : Prop :=
  ∀ conn event, (conn, event) ∈ delivered p l ↔
    conn ∈ p.store.connections ∧ ∃ report, emitted p l = some report ∧ event = report.sseEvent ∧
      Entitled p.store conn.userId report.uuid

/-- When an event is emitted, the role that an open connection was opened with says whether its
user is entitled to the event. -/
def RolesSuffice (p : SsePool) (l : SseLabel) : Prop :=
  ∀ report, emitted p l = some report → ∀ conn ∈ p.store.connections,
    (conn.isAdmin = true ↔ Entitled p.store conn.userId report.uuid)

/-- What a turn sends is what `emit` makes of the event it emits. -/
theorem SseTask.turn_output (s : SseState) (reply : Settled) (task : SseTask) :
    (task.turn s reply).output =
      match task.emits with
      | some report => SseService.emit s.connections report.sseEvent
      | none => [] := by
  cases task with
  | validate userId connectionId =>
    simp only [turn, emits]
    split <;> rfl
  | sse userId rootAdmin connectionId => rfl
  | emit event => rfl
  | handle event =>
    cases houtcome : event.outcome with
    | none => simp [turn, emits, houtcome]
    | some columns => cases reply <;> simp [turn, emits, houtcome]

/-- A step sends an event on the open connections of admins, as they were when they opened. -/
theorem mem_delivered {p : SsePool} {l : SseLabel} {conn : SseConnection} {event : SseEvent} :
    (conn, event) ∈ delivered p l ↔ ∃ report, emitted p l = some report ∧
      event = report.sseEvent ∧ conn ∈ p.store.connections ∧ conn.isAdmin = true := by
  cases l with
  | start task => simp [delivered, emitted, Tasks.turnOf]
  | outside event => simp [delivered, emitted, Tasks.turnOf]
  | turn i reply =>
    cases htask : p.tasks[i]? with
    | none => simp [delivered, emitted, Tasks.turnOf, htask]
    | some task =>
      have hsent : delivered p (.turn i reply) = (task.turn p.store reply).output := by
        simp only [delivered, Tasks.turnOf, htask, Option.map_some]
        rfl
      rw [hsent, SseTask.turn_output]
      simp only [emitted, htask, Option.bind_some]
      cases hemits : task.emits with
      | none => simp
      | some report =>
        simp only [SseService.mem_emit, ServerEvent.shouldReceive_sseEvent, Option.some.injEq,
          exists_eq_left']

theorem reachesRight_iff_rolesSuffice {p : SsePool} {l : SseLabel} :
    ReachesRight p l ↔ RolesSuffice p l := by
  constructor
  · intro hright report hreport conn hconn
    have hsent := hright conn report.sseEvent
    rw [mem_delivered, hreport] at hsent
    constructor
    · intro hadmin
      obtain ⟨-, report', heq, -, hentitled⟩ := hsent.mp ⟨report, rfl, rfl, hconn, hadmin⟩
      cases heq
      exact hentitled
    · intro hentitled
      obtain ⟨-, -, -, -, hadmin⟩ := hsent.mpr ⟨hconn, report, rfl, rfl, hentitled⟩
      exact hadmin
  · intro hroles conn event
    rw [mem_delivered]
    constructor
    · rintro ⟨report, hreport, hevent, hconn, hadmin⟩
      exact ⟨hconn, report, hreport, hevent, (hroles report hreport conn hconn).mp hadmin⟩
    · rintro ⟨hconn, report, hreport, hevent, hentitled⟩
      exact ⟨report, hreport, hevent, hconn, (hroles report hreport conn hconn).mpr hentitled⟩

/-- In every run the events reach the right people exactly as long as the roles that the
connections were opened with say who these are. -/
theorem events_reach_right_iff (p : SsePool) (ls : List SseLabel) :
    Along sseStep ReachesRight p ls ↔ Along sseStep RolesSuffice p ls :=
  along_iff (I := fun _ => True) (fun _ _ _ _ _ => trivial)
    (fun _ _ _ => reachesRight_iff_rolesSuffice) trivial

/-! ## When nobody's role changes -/

def IsRootAdmin (users : Table User) (userId : String) : Prop :=
  ∃ u ∈ users, u.id = userId ∧ u.rootAdmin = true

/-- The role a connection has, or is about to be opened with, is the one its user has. -/
def Captured (p : SsePool) : Prop :=
  p.Holds
    (fun s => ∀ conn ∈ s.connections, conn.isAdmin = true ↔ IsRootAdmin s.users conn.userId)
    fun s t => ∀ userId rootAdmin connectionId, t = .sse userId rootAdmin connectionId →
      (rootAdmin = true ↔ IsRootAdmin s.users userId)

/-- A change from outside makes nobody an admin and takes the role from nobody. -/
def RolesKept (p : SsePool) : SseLabel → Prop
  | .outside (.change users _) =>
    ∀ userId, IsRootAdmin users userId ↔ IsRootAdmin p.store.users userId
  | _ => True

/-- Whoever is connected and owns the server of an event is a root admin as well. -/
def OwnersAreAdmins (p : SsePool) (l : SseLabel) : Prop :=
  ∀ report, emitted p l = some report → ∀ conn ∈ p.store.connections,
    ∀ server ∈ p.store.servers, server.uuid = report.uuid → server.userId = conn.userId →
      IsRootAdmin p.store.users conn.userId

theorem isRootAdmin_of_mem {users : Table User} {user : User} (h : user ∈ users) :
    IsRootAdmin users user.id ↔ user.rootAdmin = true := by
  constructor
  · rintro ⟨u, hu, hid, hadmin⟩
    rwa [← Table.eq_of_key hu h hid]
  · exact fun hadmin => ⟨user, h, rfl, hadmin⟩

/-- A turn leaves the users alone. -/
theorem SseTask.turn_users (s : SseState) (reply : Settled) (task : SseTask) :
    (task.turn s reply).store.users = s.users := by
  cases task with
  | validate userId connectionId =>
    simp only [turn]
    split <;> rfl
  | sse userId rootAdmin connectionId => rfl
  | emit event => rfl
  | handle event =>
    simp only [turn]
    split <;> rfl

/-- A new connection is the one its request asked for. -/
theorem SseTask.turn_connections {s : SseState} {reply : Settled} {task : SseTask}
    {conn : SseConnection} (h : conn ∈ (task.turn s reply).store.connections) :
    conn ∈ s.connections ∨ task = .sse conn.userId conn.isAdmin conn.id := by
  cases task with
  | validate userId connectionId =>
    simp only [turn] at h
    split at h
    all_goals exact .inl h
  | emit event => exact .inl h
  | handle event =>
    simp only [turn] at h
    split at h
    all_goals exact .inl h
  | sse userId rootAdmin connectionId =>
    simp only [turn] at h
    cases hinsert : s.connections.insert ⟨connectionId, userId, rootAdmin⟩ with
    | none =>
      rw [hinsert, Option.getD_none] at h
      exact .inl h
    | some connections =>
      rw [hinsert, Option.getD_some] at h
      rcases ((Table.insert_eq_some hinsert).2 conn).mp h with rfl | hold
      · exact .inr rfl
      · exact .inl hold

/-- The role that a request goes on with is the one its user has. -/
theorem SseTask.turn_next {s : SseState} {reply : Settled} {task : SseTask}
    {userId connectionId : String} {rootAdmin : Bool}
    (h : (task.turn s reply).next = some (.sse userId rootAdmin connectionId)) :
    rootAdmin = true ↔ IsRootAdmin s.users userId := by
  cases task with
  | validate sub id =>
    simp only [turn] at h
    split at h
    next user hfind =>
      cases h
      exact (isRootAdmin_of_mem (Table.findOne_mem hfind)).symm
    next => cases h
  | sse userId rootAdmin connectionId => cases h
  | emit event => cases h
  | handle event =>
    simp only [turn] at h
    split at h <;> cases h

theorem captured_step {p p' : SsePool} {l : SseLabel} (hp : Captured p) (hkept : RolesKept p l)
    (hstep : sseStep p l = some p') : Captured p' := by
  cases l with
  | start task =>
    refine hp.start ?_ hstep
    rintro userId rootAdmin connectionId rfl
    cases (Tasks.step_start hstep).1
  | turn i reply =>
    refine hp.turn (fun task htask _ conn hconn => ?_) (fun task _ _ t hnext => ?_)
      (fun task _ _ t _ ht => ?_) hstep
    · change _ ↔ IsRootAdmin (task.turn p.store reply).store.users conn.userId
      rw [SseTask.turn_users]
      rcases SseTask.turn_connections hconn with hold | rfl
      · exact hp.store conn hold
      · exact hp.tasks _ htask _ _ _ rfl
    · rintro userId rootAdmin connectionId rfl
      change _ ↔ IsRootAdmin (task.turn p.store reply).store.users userId
      rw [SseTask.turn_users]
      exact SseTask.turn_next hnext
    · change ∀ userId rootAdmin connectionId, t = .sse userId rootAdmin connectionId →
        (rootAdmin = true ↔ IsRootAdmin (task.turn p.store reply).store.users userId)
      rwa [SseTask.turn_users]
  | outside event =>
    cases event with
    | close connectionId =>
      refine hp.outside (fun store hstore conn hconn => ?_) (fun store hstore t _ ht => ?_) hstep
      · cases hstore
        exact hp.store conn (Table.mem_delete.mp hconn).1
      · cases hstore
        exact ht
    | change users servers =>
      refine hp.outside (fun store hstore conn hconn => ?_) (fun store hstore t _ ht => ?_) hstep
      · cases hstore
        exact (hp.store conn hconn).trans (hkept conn.userId).symm
      · cases hstore
        intro userId rootAdmin connectionId htask
        exact (ht userId rootAdmin connectionId htask).trans (hkept userId).symm

/-- A connection's role speaks for its user unless the user is an owner and no admin. -/
theorem rolesSuffice_iff_of_captured {p : SsePool} {l : SseLabel} (hp : Captured p) :
    RolesSuffice p l ↔ OwnersAreAdmins p l := by
  constructor
  · intro hroles report hreport conn hconn server hserver huuid howner
    have hadmin := (hroles report hreport conn hconn).mpr (.inr ⟨server, hserver, huuid, howner⟩)
    exact (hp.store conn hconn).mp hadmin
  · intro howners report hreport conn hconn
    refine (hp.store conn hconn).trans ⟨.inl, ?_⟩
    rintro (hadmin | ⟨server, hserver, huuid, howner⟩)
    · exact hadmin
    · exact howners report hreport conn hconn server hserver huuid howner

/-- As long as roles stay as they are, the events reach the right people exactly when no owner
is left out. -/
theorem events_reach_right_of_rolesKept {p : SsePool} {ls : List SseLabel} (hp : Captured p)
    (hkept : Along sseStep RolesKept p ls) :
    Along sseStep RolesSuffice p ls ↔ Along sseStep OwnersAreAdmins p ls := by
  constructor
  · intro hroles
    exact (along_and.mpr ⟨hkept, hroles⟩).weaken
      (fun _ _ _ hs hC hstep => captured_step hs hC.1 hstep)
      (fun _ _ hs hC => (rolesSuffice_iff_of_captured hs).mp hC.2) hp
  · intro howners
    exact (along_and.mpr ⟨hkept, howners⟩).weaken
      (fun _ _ _ hs hC hstep => captured_step hs hC.1 hstep)
      (fun _ _ hs hC => (rolesSuffice_iff_of_captured hs).mpr hC.2) hp

/-! ## The owner is left out -/

/-- One account without a role, its server, and nobody connected. -/
def ownerOffline : SsePool :=
  ⟨⟨⟨[.withDefaults "owner" "owner@nexus.local" "owner" ""], by decide⟩,
    ⟨[.withDefaults "1" "u" "u" "server" "owner" "n" "t" "e" "a" 1024 1024 "run" "image"],
      by decide⟩, .empty⟩, []⟩

/-- The owner opens the stream, and the server prints a line. -/
def consoleRun : List SseLabel :=
  [.start (.validate "owner" "c"), .turn 0 .ok, .turn 0 .ok, .start (.handle (.console "u" "hi")),
    .turn 0 .ok]

/-- The line does not reach the owner. -/
theorem owner_misses_console :
    ¬ ∀ p ls, p.store.connections.rows = [] → p.tasks = [] → Along sseStep ReachesRight p ls := by
  intro h
  have hrun := h ownerOffline consoleRun rfl rfl
  have hreaches := along_iff_forall.mp hrun (consoleRun.take 4) (.turn 0 .ok) [] rfl _ rfl
  have hsent := (hreaches ⟨"c", "owner", false⟩ (ServerEvent.console "u" "hi").sseEvent).mpr
    ⟨List.mem_singleton.mpr rfl, .console "u" "hi", rfl, rfl,
      .inr ⟨_, List.mem_singleton.mpr rfl, rfl, rfl⟩⟩
  obtain ⟨-, -, -, -, hadmin⟩ := mem_delivered.mp hsent
  cases hadmin

end Panel
