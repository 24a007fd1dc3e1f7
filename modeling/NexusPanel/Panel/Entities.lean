import NexusPanel.Foundation.Table

/-!
# Rows of the panel's database

The entities under `database/entities`, one structure a table, with the columns the services
read and write. Identifiers are UUID strings and times are seconds. The relations of an
entity (`server.node`, `user.sessions`, …) are lookups in the tables, not fields.
-/

namespace Panel

/-- A row of `users`. -/
structure User where
  id : String
  email : String
  username : String
  password : String
  rootAdmin : Bool
  usesTotp : Bool
  totpSecret : Option String
  pendingTotpSecret : Option String
  backupCodes : Option (List String)
  enabled : Bool
  avatarUrl : Option String
  lastLogin : Option Nat
  createdAt : Nat
  updatedAt : Nat
deriving DecidableEq, Repr

/-- A row of `sessions`. -/
structure Session where
  id : String
  userId : String
  refreshToken : String
  ipAddress : String
  userAgent : String
  lastActiveAt : Nat
  revoked : Bool
  createdAt : Nat
  updatedAt : Nat
deriving DecidableEq, Repr

/-- The `status` column of a server; the column is nullable, and null means that nothing
special is going on. -/
inductive ServerStatus
  | installing
  | installFailed
  | suspended
  | restoringBackup
  | transferring
deriving DecidableEq, Repr

/-- A row of `servers`. `allocationId` is a plain unique column: no foreign key guards it. -/
structure Server where
  id : String
  externalId : Option String
  uuid : String
  uuidShort : String
  name : String
  description : Option String
  userId : String
  nodeId : String
  nestId : String
  eggId : String
  allocationId : String
  memory : Int
  swap : Int
  disk : Int
  io : Int
  cpu : Int
  threads : Option String
  oomDisabled : Bool
  startup : String
  image : String
  envVariables : List (String × String)
  installed : Int
  status : Option ServerStatus
deriving DecidableEq, Repr

/-- A row of `servers` of which only the columns without a default are given. -/
def Server.withDefaults (id uuid uuidShort name userId nodeId nestId eggId allocationId : String)
    (memory disk : Int) (startup image : String) : Server :=
  { id, externalId := none, uuid, uuidShort, name, description := none, userId, nodeId, nestId
    eggId, allocationId, memory, swap := 0, disk, io := 500, cpu := 100, threads := none
    oomDisabled := false, startup, image, envVariables := [], installed := 0, status := none }

/-- A row of `users` of which only the columns without a default are given. -/
def User.withDefaults (id email username password : String) : User :=
  { id, email, username, password, rootAdmin := false, usesTotp := false, totpSecret := none
    pendingTotpSecret := none, backupCodes := none, enabled := true, avatarUrl := none
    lastLogin := none, createdAt := 0, updatedAt := 0 }

instance : Keyed String User := ⟨User.id⟩
instance : Keyed String Session := ⟨Session.id⟩
instance : Keyed String Server := ⟨Server.id⟩

/-- A row of `allocations`. A one-to-one relation makes `serverId` unique among the rows that
have one, and a foreign key makes it name a server. -/
structure Allocation where
  id : String
  nodeId : String
  ip : String
  ipAlias : Option String
  port : Nat
  notes : Option String
  serverId : Option String
deriving DecidableEq, Repr

/-- The columns of `nodes` that say how much a node can hold. -/
structure Node where
  id : String
  memory : Int
  memoryOverallocate : Int
  disk : Int
  diskOverallocate : Int
deriving DecidableEq, Repr

/-- The columns of `eggs` that servers are made from. -/
structure Egg where
  id : String
  dockerImage : String
  startup : String
  scriptInstall : Option String
  scriptContainer : String
deriving DecidableEq, Repr

/-- A row of `egg_variables`. -/
structure EggVariable where
  id : String
  eggId : String
  name : String
  envVariable : String
  defaultValue : String
  rules : String
deriving DecidableEq, Repr

inductive ScheduleTaskAction
  | command
  | power
  | backup
deriving DecidableEq, Repr

/-- A row of `schedule_tasks`. -/
structure ScheduleTask where
  id : String
  scheduleId : String
  action : ScheduleTaskAction
  sequence : Int
  payload : String
  timeOffset : Int
deriving DecidableEq, Repr

/-- A row of `schedules` with its tasks: a task goes with the schedule its foreign key names
(`CASCADE`), and no service reads one without the other. -/
structure Schedule where
  id : String
  serverId : String
  name : String
  cronDayOfWeek : String
  cronDayOfMonth : String
  cronMonth : String
  cronHour : String
  cronMinute : String
  isActive : Bool
  isProcessing : Bool
  lastRunAt : Option Nat
  nextRunAt : Option Nat
  tasks : List ScheduleTask
deriving DecidableEq, Repr

/-- A row of `server_subusers`; the column is a JSON array of permission names. -/
structure ServerSubuser where
  id : String
  serverId : String
  userId : String
  permissions : List String
deriving DecidableEq, Repr

/-- A row of `databases`. -/
structure ServerDatabase where
  id : String
  serverId : String
  databaseHostId : String
  database : String
  username : String
  password : String
  remote : String
  maxConnections : Int
deriving DecidableEq, Repr

instance : Keyed String Allocation := ⟨Allocation.id⟩
instance : Keyed String Node := ⟨Node.id⟩
instance : Keyed String Egg := ⟨Egg.id⟩
instance : Keyed String EggVariable := ⟨EggVariable.id⟩
instance : Keyed String Schedule := ⟨Schedule.id⟩
instance : Keyed String ServerSubuser := ⟨ServerSubuser.id⟩
instance : Keyed String ServerDatabase := ⟨ServerDatabase.id⟩

/-- What a handler throws; `internal` stands for an error of a library or of the database. -/
inductive HttpException
  | badRequest (message : String)
  | unauthorized (message : String)
  | forbidden (message : String)
  | notFound (message : String)
  | conflict (message : String)
  | internal (message : String)
deriving DecidableEq, Repr

/-- How an awaited statement ended. -/
abbrev Awaited := Except HttpException Unit

/-- A string property is truthy when it is present and not empty. -/
def truthy : Option String → Option String
  | some "" => none
  | o => o

theorem truthy_eq_some {o : Option String} {v : String} (h : truthy o = some v) :
    o = some v := by
  unfold truthy at h
  split at h
  · cases h
  · exact h

end Panel
