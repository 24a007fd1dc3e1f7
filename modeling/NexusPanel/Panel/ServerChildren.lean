import NexusPanel.Panel.Auth
import NexusPanel.Panel.ServerAccess

/-!
# The children of a server

Schedules, subusers and databases, addressed as `/servers/:uuid/…/:id`. Every handler looks
the server up by its uuid and checks that the caller may use it, and then hands the second
parameter, and nothing else, to the service.

A service loads the row with that id, and what it answers and writes is determined by the row
it has loaded; `withRow` is that shape, and each operation is an instance of it.
-/

namespace Panel

open Fallible

/-! ## The services -/

/-- What a service does with the row it has loaded. -/
inductive RowWrite (ρ : Type)
  | none
  | save (row : ρ)
  | remove

/-- The statement, issued for the row `row`. -/
def RowWrite.apply {ρ : Type} [Keyed String ρ] (t : Table ρ) (row : ρ) : RowWrite ρ → Table ρ
  | .none => t
  | .save row' => t.save row'
  | .remove => t.delete fun r => Keyed.key r == Keyed.key row

/-- `findOne({ where: { id } })`, an error when there is no such row, and then an answer and
a statement that the row determines. -/
def withRow {ρ α : Type} [Keyed String ρ] (t : Table ρ) (id message : String)
    (f : ρ → α × RowWrite ρ) : Except HttpException (α × Table ρ) := do
  let row ← orThrow (t.findOne fun r => Keyed.key r == id) (.notFound message)
  return ((f row).1, (f row).2.apply t row)

structure ScheduleTaskDto where
  sequence : Int
  action : ScheduleTaskAction
  payload : String
  timeOffset : Option Int
deriving DecidableEq, Repr

structure UpdateScheduleDto where
  name : Option String
  cronMinute : Option String
  cronHour : Option String
  cronDayOfMonth : Option String
  cronMonth : Option String
  cronDayOfWeek : Option String
  isActive : Option Bool
  tasks : Option (List ScheduleTaskDto)
deriving DecidableEq, Repr

namespace SchedulesService

def findById (t : Table Schedule) (id : String) : Except HttpException (Schedule × Table Schedule) :=
  withRow t id "Schedule not found" fun schedule => (schedule, .none)

/-- `taskRepo.create`; the database gives the id. -/
def createTask (scheduleId taskId : String) (t : ScheduleTaskDto) : ScheduleTask :=
  { id := taskId, scheduleId, action := t.action, sequence := t.sequence, payload := t.payload
    timeOffset := t.timeOffset.getD 0 }

/-- The fields of the request that are not `undefined`. The old tasks are removed before the
new ones are saved with the schedule. -/
def assign (id : String) (dto : UpdateScheduleDto) (taskId : Nat → String) (schedule : Schedule) :
    Schedule :=
  { schedule with
    name := dto.name.getD schedule.name
    cronMinute := dto.cronMinute.getD schedule.cronMinute
    cronHour := dto.cronHour.getD schedule.cronHour
    cronDayOfMonth := dto.cronDayOfMonth.getD schedule.cronDayOfMonth
    cronMonth := dto.cronMonth.getD schedule.cronMonth
    cronDayOfWeek := dto.cronDayOfWeek.getD schedule.cronDayOfWeek
    isActive := dto.isActive.getD schedule.isActive
    tasks := match dto.tasks with
      | some tasks => tasks.mapIdx fun i t => createTask id (taskId i) t
      | none => schedule.tasks }

def update (t : Table Schedule) (id : String) (dto : UpdateScheduleDto) (taskId : Nat → String) :
    Except HttpException (Schedule × Table Schedule) :=
  withRow t id "Schedule not found" fun schedule =>
    (assign id dto taskId schedule, .save (assign id dto taskId schedule))

def delete (t : Table Schedule) (id : String) : Except HttpException (Unit × Table Schedule) :=
  withRow t id "Schedule not found" fun _ => ((), .remove)

def executeSchedule (t : Table Schedule) (now : Nat) (id : String) :
    Except HttpException (String × Table Schedule) :=
  withRow t id "Schedule not found" fun schedule =>
    (s!"Schedule '{schedule.name}' execution triggered", .save { schedule with lastRunAt := now })

end SchedulesService

namespace SubusersService

def update (t : Table ServerSubuser) (id : String) (permissions : List String) :
    Except HttpException (ServerSubuser × Table ServerSubuser) :=
  withRow t id "Subuser not found" fun subuser =>
    ({ subuser with permissions }, .save { subuser with permissions })

def remove (t : Table ServerSubuser) (id : String) :
    Except HttpException (Unit × Table ServerSubuser) :=
  withRow t id "Subuser not found" fun _ => ((), .remove)

end SubusersService

namespace DatabasesService

def delete (t : Table ServerDatabase) (id : String) :
    Except HttpException (Unit × Table ServerDatabase) :=
  withRow t id "Database not found" fun _ => ((), .remove)

end DatabasesService

/-! ## The controllers -/

/-- The tables the three controllers work on. -/
structure ServerTables where
  servers : Table Server
  schedules : Table Schedule
  subusers : Table ServerSubuser
  databases : Table ServerDatabase

/-- The operations on one child of a server, with the parameter `:id` and the body. -/
inductive ChildOperation
  | scheduleFindById (id : String)
  | scheduleUpdate (id : String) (dto : UpdateScheduleDto) (taskId : Nat → String)
  | scheduleDelete (id : String)
  | scheduleExecute (id : String) (now : Nat)
  | subuserUpdate (id : String) (permissions : List String)
  | subuserRemove (id : String)
  | databaseDelete (id : String)

inductive ChildAnswer
  | schedule (schedule : Schedule)
  | message (message : String)
  | subuser (subuser : ServerSubuser)
  | noContent
deriving DecidableEq, Repr

/-- `getServerWithAccess`; `DatabasesController` has the same two calls inline. -/
def getServerWithAccess (db : ServerTables) (uuid : String) (user : CurrentUser) :
    Except HttpException Server := do
  let server ← ServersService.findByUuid db.servers uuid
  ServersService.checkAccess server user.id user.rootAdmin
  return server

/-- The call the handler makes once the server has been checked. -/
def ChildOperation.call (db : ServerTables) :
    ChildOperation → Except HttpException (ChildAnswer × ServerTables)
  | .scheduleFindById id =>
    (SchedulesService.findById db.schedules id).map fun (schedule, schedules) =>
      (.schedule schedule, { db with schedules })
  | .scheduleUpdate id dto taskId =>
    (SchedulesService.update db.schedules id dto taskId).map fun (schedule, schedules) =>
      (.schedule schedule, { db with schedules })
  | .scheduleDelete id =>
    (SchedulesService.delete db.schedules id).map fun (_, schedules) =>
      (.noContent, { db with schedules })
  | .scheduleExecute id now =>
    (SchedulesService.executeSchedule db.schedules now id).map fun (message, schedules) =>
      (.message message, { db with schedules })
  | .subuserUpdate id permissions =>
    (SubusersService.update db.subusers id permissions).map fun (subuser, subusers) =>
      (.subuser subuser, { db with subusers })
  | .subuserRemove id =>
    (SubusersService.remove db.subusers id).map fun (_, subusers) =>
      (.noContent, { db with subusers })
  | .databaseDelete id =>
    (DatabasesService.delete db.databases id).map fun (_, databases) =>
      (.noContent, { db with databases })

/-- `/servers/:uuid/…/:id`. -/
def ChildOperation.handle (db : ServerTables) (user : CurrentUser) (uuid : String)
    (op : ChildOperation) : Except HttpException (ChildAnswer × ServerTables) := do
  let _ ← getServerWithAccess db uuid user
  op.call db

/-- The answer, and the tables after it; a refused request leaves them as they were. -/
def ChildOperation.serve (db : ServerTables) (user : CurrentUser) (uuid : String)
    (op : ChildOperation) : Except HttpException ChildAnswer × ServerTables :=
  match op.handle db user uuid with
  | .ok (answer, db') => (.ok answer, db')
  | .error e => (.error e, db)

end Panel
