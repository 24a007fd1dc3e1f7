import NexusPanel.Foundation.Registers
import NexusPanel.Panel.ServerEvents

/-!
# The order of the daemons' events

`EventHandlers` keeps the state that it was last told of each server in memory, and writes the
outcome of an install into the row of its server. Every event says when it was made, and no
handler reads that. So the state and the two columns are registers: what was processed last
counts, and an event that comes late overwrites what a newer one has left.
-/

namespace Panel

open Register

/-- An event with the time of its making. -/
structure Report where
  event : ServerEvent
  timestampMs : Int
deriving DecidableEq

structure HandlersState where
  serverStates : Record String
  servers : Table Server

namespace HandlersState

/-- The columns that an install leaves in the row of its server. -/
def settle (s : HandlersState) (uuid : String) (columns : Lifecycle) : HandlersState :=
  { s with servers := s.servers.update (fun x => x.uuid == uuid) columns.set columns.set_key }

def getServerState (s : HandlersState) (uuid : String) : Option String := s.serverStates.get uuid

end HandlersState

namespace EventHandlers

/-- What the handler of an event keeps. Statistics go to a cache of their own, and console lines
are only passed on. -/
def handle (s : HandlersState) (report : Report) : HandlersState :=
  match report.event with
  | .stateChanged uuid _ newState => { s with serverStates := s.serverStates.set uuid newState }
  | .installed uuid => s.settle uuid (ServersService.installOutcome true)
  | .installFailed uuid _ => s.settle uuid (ServersService.installOutcome false)
  | .stats _ _ _ _ _ _ _ | .console _ _ => s

def handleAll (s : HandlersState) (order : List Report) : HandlersState := order.foldl handle s

end EventHandlers

open EventHandlers

/-! ## What an event says about a server -/

namespace Report

/-- The state it reports. -/
def newState (uuid : String) (report : Report) : Option String :=
  match report.event with
  | .stateChanged u _ newState => if u = uuid then some newState else none
  | _ => none

/-- The columns `installed` and `status` that it stands for. -/
def columns (uuid : String) (report : Report) : Option (Int × Option ServerStatus) :=
  match report.event with
  | .installed u => if u = uuid then some (1, none) else none
  | .installFailed u _ => if u = uuid then some (2, some .installFailed) else none
  | _ => none

end Report

/-- The server is left as the newest event of each kind says. -/
structure NewestWins (s : HandlersState) (uuid : String) (order : List Report) : Prop where
  cached : (handleAll s order).getServerState uuid =
    (newestWritten Report.timestampMs (Report.newState uuid) order).or (s.getServerState uuid)
  columns : ∀ row ∈ (handleAll s order).servers, row.uuid = uuid →
    ∀ columns ∈ newestWritten Report.timestampMs (Report.columns uuid) order,
      (row.installed, row.status) = columns

/-- The server is left as the event of each kind says that was processed last. -/
structure LastWins (s : HandlersState) (uuid : String) (order : List Report) : Prop where
  cached : (handleAll s order).getServerState uuid =
    (lastWritten (Report.newState uuid) order).or (s.getServerState uuid)
  columns : ∀ row ∈ (handleAll s order).servers, row.uuid = uuid →
    ∀ columns ∈ lastWritten (Report.columns uuid) order, (row.installed, row.status) = columns

/-! ## The registers -/

/-- What an event does to one row. -/
def settled (row : Server) (report : Report) : Server :=
  match report.columns row.uuid with
  | some columns => { row with installed := columns.1, status := columns.2 }
  | none => row

theorem getServerState_handle (s : HandlersState) (report : Report) (uuid : String) :
    (handle s report).getServerState uuid =
      (report.newState uuid).or (s.getServerState uuid) := by
  obtain ⟨event, time⟩ := report
  cases event with
  | stateChanged u previousState newState =>
    have hset : (handle s ⟨.stateChanged u previousState newState, time⟩).getServerState uuid =
        if uuid = u then some newState else s.getServerState uuid :=
      Record.get_set s.serverStates u uuid newState
    rw [hset, Report.newState]
    by_cases h : uuid = u
    · simp [h]
    · have hne : u ≠ uuid := fun heq => h heq.symm
      simp [h, hne]
  | installed u | installFailed u error | stats | console => rfl

theorem rows_settle (s : HandlersState) (uuid : String) (columns : Lifecycle) :
    (s.settle uuid columns).servers.rows =
      s.servers.rows.map fun x => if x.uuid == uuid then columns.set x else x := rfl

/-- A handler treats every row by itself. -/
theorem rows_handle (s : HandlersState) (report : Report) :
    (handle s report).servers.rows = s.servers.rows.map fun row => settled row report := by
  obtain ⟨event, time⟩ := report
  have hsame : s.servers.rows = s.servers.rows.map fun row => row := (List.map_id' _).symm
  cases event with
  | stateChanged u previousState newState => exact hsame
  | stats | console => exact hsame
  | installed u =>
    rw [show (handle s ⟨.installed u, time⟩) = s.settle u (ServersService.installOutcome true)
      from rfl, rows_settle]
    refine List.map_congr_left fun row _ => ?_
    by_cases h : u = row.uuid
    · simp [settled, Report.columns, h, Lifecycle.set, ServersService.installOutcome]
    · have hne : row.uuid ≠ u := fun heq => h heq.symm
      simp [settled, Report.columns, h, hne]
  | installFailed u error =>
    rw [show (handle s ⟨.installFailed u error, time⟩) =
      s.settle u (ServersService.installOutcome false) from rfl, rows_settle]
    refine List.map_congr_left fun row _ => ?_
    by_cases h : u = row.uuid
    · simp [settled, Report.columns, h, Lifecycle.set, ServersService.installOutcome]
    · have hne : row.uuid ≠ u := fun heq => h heq.symm
      simp [settled, Report.columns, h, hne]

theorem rows_handleAll (s : HandlersState) (order : List Report) :
    (handleAll s order).servers.rows = s.servers.rows.map fun row => order.foldl settled row := by
  induction order generalizing s with
  | nil => exact (List.map_id' _).symm
  | cons report order ih =>
    show (handleAll (handle s report) order).servers.rows = _
    rw [ih, rows_handle, List.map_map]
    rfl

theorem uuid_settled (row : Server) (report : Report) : (settled row report).uuid = row.uuid := by
  unfold settled
  split <;> rfl

theorem columns_settled {row : Server} {report : Report} {uuid : String} (h : row.uuid = uuid) :
    ((settled row report).installed, (settled row report).status) =
      (report.columns uuid).getD (row.installed, row.status) := by
  rw [settled, h]
  split
  next columns hcolumns => rw [hcolumns]; rfl
  next hcolumns => rw [hcolumns]; rfl

/-- The two columns of the rows of one server are a register. -/
theorem columns_settledAll {row : Server} {uuid : String} (order : List Report)
    (h : row.uuid = uuid) :
    ((order.foldl settled row).installed, (order.foldl settled row).status) =
      (lastWritten (Report.columns uuid) order).getD (row.installed, row.status) :=
  holds_lastWritten (fun row : Server => (row.installed, row.status))
    (fun row => row.uuid = uuid) (fun row report h => (uuid_settled row report).trans h)
    (fun _ _ h => columns_settled h) order h

theorem uuid_settledAll (row : Server) (order : List Report) :
    (order.foldl settled row).uuid = row.uuid := by
  induction order generalizing row with
  | nil => rfl
  | cons report order ih => exact (ih _).trans (uuid_settled row report)

theorem lastWins (s : HandlersState) (uuid : String) (order : List Report) :
    LastWins s uuid order where
  cached := by
    induction order generalizing s with
    | nil => rfl
    | cons report order ih =>
      show (handleAll (handle s report) order).getServerState uuid = _
      rw [ih, getServerState_handle, lastWritten_cons, Option.or_assoc]
  columns := by
    intro row hrow huuid columns hcolumns
    rw [← Table.mem_rows, rows_handleAll] at hrow
    obtain ⟨old, -, rfl⟩ := List.mem_map.mp hrow
    rw [uuid_settledAll] at huuid
    rw [columns_settledAll order huuid, Option.mem_def.mp hcolumns]
    rfl

/-- What is processed last counts; and so the newest event does when the events come in the order
in which they were made. -/
theorem last_event_wins (s : HandlersState) (uuid : String) (order : List Report) :
    LastWins s uuid order ∧ (InOrder Report.timestampMs order → NewestWins s uuid order) := by
  refine ⟨lastWins s uuid order, fun h => ⟨?_, ?_⟩⟩
  · rw [newestWritten_of_inOrder h]
    exact (lastWins s uuid order).cached
  · rw [newestWritten_of_inOrder h]
    exact (lastWins s uuid order).columns

/-- A server that has started is shown as starting when the event of that comes late. -/
theorem late_event_wins : ¬ ∀ (s : HandlersState) (uuid : String) (reports order : List Report),
    (reports.map Report.timestampMs).Nodup → order.Perm reports → NewestWins s uuid order := by
  intro h
  have hcached := (h ⟨[], .empty⟩ "u"
    [⟨.stateChanged "u" "STATE_OFFLINE" "STATE_STARTING", 1⟩,
      ⟨.stateChanged "u" "STATE_STARTING" "STATE_RUNNING", 2⟩]
    [⟨.stateChanged "u" "STATE_STARTING" "STATE_RUNNING", 2⟩,
      ⟨.stateChanged "u" "STATE_OFFLINE" "STATE_STARTING", 1⟩]
    (by decide) (.swap _ _ [])).cached
  exact absurd hcached (by decide)

end Panel
