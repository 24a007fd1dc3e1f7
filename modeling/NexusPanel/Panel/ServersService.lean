import NexusPanel.Foundation.Pool
import NexusPanel.Foundation.Rounding
import NexusPanel.Panel.Auth
import NexusPanel.Panel.Database
import NexusPanel.Panel.EggVariables
import NexusPanel.Panel.Gateway
import NexusPanel.Panel.ServerAccess

/-!
# The operations on servers and allocations

The routes of `ServersService`, its install callback, the two event handlers, the gateway's
power action and the routes that delete allocations, each cut at its `await`s. A task is where
an operation stands: the statement or the call to Wings it is about to issue, with what it has
loaded so far. A turn issues it, runs the code behind it up to the next `await`, and says
where the operation goes on. So a row that was loaded may be out of date by the time the
operation acts on it, and an operation may stop after any of its statements.

Two things are not in the database. The nodes whose heartbeat is fresh are in memory, and
`installs` is a history variable, which no code reads: the servers whose install was accepted
and has neither failed to start nor been reported by a callback.
-/

namespace Panel

open Transition

/-! ## Requests and calls -/

structure CreateServerDto where
  name : String
  description : Option String
  userId : String
  nodeId : String
  eggId : String
  allocationId : String
  memory : Int
  cpu : Int
  disk : Int
  envVariables : Option (Record String)
  nestId : String
  swap : Option Int
  io : Option Int
  threads : Option String
  oomDisabled : Option Bool
  startup : Option String
  image : Option String
  externalId : Option String
deriving DecidableEq, Repr

structure UpdateServerDto where
  name : Option String
  description : Option String
  memory : Option Int
  cpu : Option Int
  disk : Option Int
  envVariables : Option (Record String)
  swap : Option Int
  io : Option Int
  threads : Option String
  oomDisabled : Option Bool
  startup : Option String
  image : Option String
  externalId : Option String
deriving DecidableEq, Repr

/-- What the database and the entity generate for a new row of `servers`. -/
structure Generated where
  id : String
  uuid : String
  uuidShort : String
deriving DecidableEq, Repr

inductive PowerAction
  | start
  | stop
  | restart
  | kill
deriving DecidableEq, Repr

/-- The values of the enumeration. -/
def PowerAction.value : PowerAction → String
  | .start => "start"
  | .stop => "stop"
  | .restart => "restart"
  | .kill => "kill"

structure WingsServerConfig where
  uuid : String
  dockerImage : String
  startupCommand : String
  environment : Record String
  memoryLimit : Int
  cpuLimit : Int
  diskLimit : Int
  /-- Host port and container port. -/
  portMappings : List (Nat × Nat)
  volumePath : String
deriving DecidableEq, Repr

/-- The calls of `WingsService`, with the entity whose node they go to. -/
inductive WingsCall
  | getSystemInfo (node : Node)
  | createServer (server : Server) (config : WingsServerConfig) (installScript image : String)
  | deleteServer (server : Server) (removeVolumes : Bool)
  | reinstallServer (server : Server) (config : WingsServerConfig) (installScript image : String)
  | sendPowerAction (server : Server) (action : Nat)
deriving DecidableEq, Repr

/-- How an awaited statement or call ended. -/
inductive Settled
  | ok
  | failed (message : String)
deriving DecidableEq, Repr

/-- What a route answers. -/
inductive Answer
  | server (server : Server)
  | message (message : String)
  | success
  | noContent
deriving DecidableEq, Repr

/-! ## Turns -/

structure ServersState where
  db : Database
  online : List String
  installs : List String

/-- The calls a turn makes, and the answer when the operation ends. -/
structure Sent where
  calls : List WingsCall
  answer : Option (Except HttpException Answer)

abbrev ServersTurn (τ : Type) := Turn ServersState Sent τ

namespace ServersTurn

variable {τ α : Type} (p : ServersState) (reply : Settled)

def goOn (task : τ) : ServersTurn τ := ⟨p, ⟨[], none⟩, some task⟩

def finish (result : Except HttpException Answer) : ServersTurn τ := ⟨p, ⟨[], some result⟩, none⟩

/-- A query: when it fails, so does the operation. -/
def read (k : ServersTurn τ) : ServersTurn τ :=
  match reply with
  | .ok => k
  | .failed message => finish p (.error (.internal message))

/-- What the query found, or an exception. -/
def found (row : Option α) (e : HttpException) (k : α → ServersTurn τ) : ServersTurn τ :=
  match row with
  | some row => k row
  | none => finish p (.error e)

/-- A result, or the exception that came instead. -/
def returned (result : Except HttpException α) (k : α → ServersTurn τ) : ServersTurn τ :=
  match result with
  | .ok a => k a
  | .error e => finish p (.error e)

/-- Throw when the test succeeds. -/
def throwIf (bad : Bool) (e : HttpException) (k : ServersTurn τ) : ServersTurn τ :=
  if bad then finish p (.error e) else k

/-- A statement; one that breaks a constraint fails. -/
def execute (st : Statement) (k : ServersState → ServersTurn τ) : ServersTurn τ :=
  match reply with
  | .ok =>
    match p.db.exec st with
    | some db => k { p with db }
    | none => finish p (.error (.internal "constraint violation"))
  | .failed message => finish p (.error (.internal message))

/-- A call to Wings. -/
def call (c : WingsCall) (onOk : ServersTurn τ) (onError : String → ServersTurn τ) :
    ServersTurn τ :=
  let u := match reply with
    | .ok => onOk
    | .failed message => onError message
  { u with output := { u.output with calls := c :: u.output.calls } }

/-! What holds of a turn however it ends holds of every shape of turn that ends so. -/

variable {p : ServersState} {reply : Settled} {P : ServersTurn τ → Prop} {k : ServersTurn τ}
  {e : HttpException}

theorem read_ind (hfail : ∀ e, P (finish p (.error e))) (h : reply = .ok → P k) :
    P (read p reply k) := by
  cases reply with
  | ok => exact h rfl
  | failed message => exact hfail _

theorem found_ind {row : Option α} {k : α → ServersTurn τ} (hfail : ∀ e, P (finish p (.error e)))
    (h : ∀ a, row = some a → P (k a)) : P (found p row e k) := by
  cases row with
  | some a => exact h a rfl
  | none => exact hfail _

theorem returned_ind {result : Except HttpException α} {k : α → ServersTurn τ}
    (hfail : ∀ e, P (finish p (.error e))) (h : ∀ a, result = .ok a → P (k a)) :
    P (returned p result k) := by
  cases result with
  | ok a => exact h a rfl
  | error e => exact hfail _

theorem throwIf_ind {bad : Bool} (hfail : ∀ e, P (finish p (.error e))) (h : bad = false → P k) :
    P (throwIf p bad e k) := by
  cases bad with
  | false => exact h rfl
  | true => exact hfail _

end ServersTurn

open ServersTurn

namespace ServersState

/-- The install of the server was accepted. -/
def accept (p : ServersState) (serverId : String) : ServersState :=
  { p with installs := serverId :: p.installs }

/-- One install of the server is over. -/
def settle (p : ServersState) (serverId : String) : ServersState :=
  { p with installs := p.installs.erase serverId }

/-- The relation `server.allocation`: the allocation that is assigned to the server. -/
def allocationOf (p : ServersState) (server : Server) : Option Allocation :=
  p.db.allocations.findOne fun a => a.serverId == some server.id

/-- The relation `server.egg`. -/
def eggOf (p : ServersState) (server : Server) : Option Egg :=
  p.db.eggs.findOne fun e => e.id == server.eggId

end ServersState

namespace ServersService

/-! ## Creating a server -/

/-- The row that `create` saves: columns that are not given get their defaults. -/
def newServer (dto : CreateServerDto) (gen : Generated) (startup image : String)
    (env : Record String) : Server :=
  { id := gen.id, externalId := dto.externalId, uuid := gen.uuid, uuidShort := gen.uuidShort
    name := dto.name, description := dto.description, userId := dto.userId, nodeId := dto.nodeId
    nestId := dto.nestId, eggId := dto.eggId, allocationId := dto.allocationId
    memory := dto.memory, swap := dto.swap.getD 0, disk := dto.disk, io := dto.io.getD 500
    cpu := dto.cpu, threads := dto.threads, oomDisabled := dto.oomDisabled.getD false
    startup, image, envVariables := env, installed := 0, status := some .installing }

def wingsConfig (server : Server) (allocation : Allocation) : WingsServerConfig :=
  { uuid := server.uuid, dockerImage := server.image, startupCommand := server.startup
    environment := server.envVariables, memoryLimit := server.memory, cpuLimit := server.cpu
    diskLimit := server.disk, portMappings := [(allocation.port, allocation.port)]
    volumePath := "/srv/daemon-data/" ++ server.uuid }

/-- What a node may hold of a resource, with its overallocation in per cent. JavaScript rounds
behind each operation; two columns of 32 bits do not get beyond the doubles. -/
def capacity (amount overallocate : Int) : Rat :=
  Rounding.double (amount *
    Rounding.double (1 + Rounding.double ((overallocate : Rat) / 100)))

/-- There is no room for what is requested. The sum comes from the database as a text. -/
def exceeds (limit : Rat) (allocated requested : Int) : Bool :=
  decide (limit < Rounding.double (Rounding.double allocated + requested))

def notEnough (resource : String) (limit : Rat) (allocated requested : Int) : HttpException :=
  .badRequest (s!"Not enough {resource} on node. Available: " ++
    toString ⌊Rounding.double (limit - Rounding.double allocated)⌋ ++
    s!"MB, Requested: {requested}MB")

inductive CreateTask
  | findNode (dto : CreateServerDto) (gen : Generated)
  | checkAvailability (dto : CreateServerDto) (gen : Generated) (node : Node)
  | findEgg (dto : CreateServerDto) (gen : Generated) (node : Node)
  | findAllocation (dto : CreateServerDto) (gen : Generated) (node : Node) (egg : Egg)
  | findUser (dto : CreateServerDto) (gen : Generated) (node : Node) (egg : Egg)
  | sumCapacity (dto : CreateServerDto) (gen : Generated) (node : Node) (egg : Egg)
  | findVariables (dto : CreateServerDto) (gen : Generated) (egg : Egg)
  | insert (server : Server)
  | load (id : String)
  | wings (server : Server) (config : WingsServerConfig) (script image : String)
  | markFailed (id message : String)
deriving DecidableEq, Repr

/-- `create`. The checks look at the rows as they are when each is loaded; the transaction
looks at nothing but the constraints. -/
def CreateTask.turn (js : Js) (p : ServersState) (reply : Settled) :
    CreateTask → ServersTurn CreateTask
  | .findNode dto gen =>
    read p reply <|
    found p (p.db.nodes.findOne fun n => n.id == dto.nodeId) (.notFound "Node not found")
      fun node =>
    throwIf p (node.id ∉ p.online) (.badRequest "Node is offline") <|
    goOn p (.checkAvailability dto gen node)
  | .checkAvailability dto gen node =>
    call reply (.getSystemInfo node) (goOn p (.findEgg dto gen node)) fun _ =>
      finish p (.error (.badRequest "Wings daemon is not reachable on this node"))
  | .findEgg dto gen node =>
    read p reply <|
    found p (p.db.eggs.findOne fun e => e.id == dto.eggId) (.notFound "Egg not found") fun egg =>
    goOn p (.findAllocation dto gen node egg)
  | .findAllocation dto gen node egg =>
    read p reply <|
    found p (p.db.allocations.findOne fun a => a.id == dto.allocationId)
      (.notFound "Allocation not found") fun allocation =>
    throwIf p (allocation.nodeId ≠ dto.nodeId)
      (.badRequest "Allocation does not belong to the specified node") <|
    throwIf p (truthy allocation.serverId).isSome
      (.badRequest "Allocation is already assigned to a server") <|
    goOn p (.findUser dto gen node egg)
  | .findUser dto gen node egg =>
    read p reply <|
    found p (p.db.users.findOne fun u => u.id == dto.userId) (.notFound "User not found")
      fun _ =>
    goOn p (.sumCapacity dto gen node egg)
  | .sumCapacity dto gen node egg =>
    let onNode := p.db.servers.find fun s => s.nodeId == dto.nodeId
    let allocatedMemory := (onNode.map Server.memory).sum
    let allocatedDisk := (onNode.map Server.disk).sum
    let maxMemory := capacity node.memory node.memoryOverallocate
    let maxDisk := capacity node.disk node.diskOverallocate
    read p reply <|
    throwIf p (exceeds maxMemory allocatedMemory dto.memory)
      (notEnough "memory" maxMemory allocatedMemory dto.memory) <|
    throwIf p (exceeds maxDisk allocatedDisk dto.disk)
      (notEnough "disk" maxDisk allocatedDisk dto.disk) <|
    goOn p (.findVariables dto gen egg)
  | .findVariables dto gen egg =>
    let eggVariables := p.db.eggVariables.find fun v => v.eggId == dto.eggId
    let env := resolveVariables dto.envVariables eggVariables
    read p reply <|
    throwIf p (!(validateServerVariables js env eggVariables).isEmpty)
      (.badRequest "Variable validation failed") <|
    found p (renderStartup js env egg.startup) (.internal "Invalid regular expression")
      fun startup =>
    goOn p (.insert (newServer dto gen startup ((truthy dto.image).getD egg.dockerImage) env))
  | .insert server =>
    execute p reply (.createServer server) fun p => goOn (p.accept server.id) (.load server.id)
  | .load id =>
    match reply, findById p.db.servers id with
    | .failed message, _ => finish (p.settle id) (.error (.internal message))
    | .ok, .error e => finish (p.settle id) (.error e)
    | .ok, .ok server =>
      match p.allocationOf server, p.eggOf server with
      | some allocation, some egg =>
        goOn p (.wings server (wingsConfig server allocation)
          ((truthy egg.scriptInstall).getD "") egg.scriptContainer)
      | none, _ =>
        goOn (p.settle id) (.markFailed id "Cannot read properties of null (reading 'port')")
      | some _, none =>
        goOn (p.settle id)
          (.markFailed id "Cannot read properties of null (reading 'scriptInstall')")
  | .wings server config script image =>
    call reply (.createServer server config script image) (finish p (.ok (.server server)))
      fun message => goOn (p.settle server.id) (.markFailed server.id message)
  | .markFailed id message =>
    execute p reply (.updateServer id ⟨none, some (some .installFailed)⟩) fun p =>
      finish p (.error (.badRequest ("Failed to create server on Wings: " ++ message)))

/-! ## Updating and deleting a server -/

/-- `Object.assign(server, dto)`. -/
def assign (dto : UpdateServerDto) (server : Server) : Server :=
  { server with
    name := dto.name.getD server.name
    description := dto.description.orElse fun _ => server.description
    memory := dto.memory.getD server.memory
    cpu := dto.cpu.getD server.cpu
    disk := dto.disk.getD server.disk
    envVariables := dto.envVariables.getD server.envVariables
    swap := dto.swap.getD server.swap
    io := dto.io.getD server.io
    threads := dto.threads.orElse fun _ => server.threads
    oomDisabled := dto.oomDisabled.getD server.oomDisabled
    startup := dto.startup.getD server.startup
    image := dto.image.getD server.image
    externalId := dto.externalId.orElse fun _ => server.externalId }

inductive UpdateTask
  | check (uuid : String) (user : CurrentUser) (dto : UpdateServerDto)
  | load (uuid : String) (dto : UpdateServerDto)
  | save (server : Server) (allocation : Option Allocation)
deriving DecidableEq, Repr

def UpdateTask.turn (p : ServersState) (reply : Settled) : UpdateTask → ServersTurn UpdateTask
  | .check uuid user dto =>
    read p reply <|
    returned p (findByUuid p.db.servers uuid) fun server =>
    returned p (checkAccess server user.id user.rootAdmin) fun _ =>
    goOn p (.load uuid dto)
  | .load uuid dto =>
    read p reply <|
    returned p (findByUuid p.db.servers uuid) fun server =>
    goOn p (.save (assign dto server) (p.allocationOf server))
  | .save server allocation =>
    execute p reply (.saveServer server (allocation.map Allocation.id)) fun p =>
      finish p (.ok (.server server))

inductive DeleteTask
  | load (uuid : String)
  | wings (server : Server) (allocation : Option Allocation)
  | free (allocation : Allocation) (server : Server)
  | remove (server : Server)
deriving DecidableEq, Repr

/-- `delete`. A failure of Wings is only logged. -/
def DeleteTask.turn (p : ServersState) (reply : Settled) : DeleteTask → ServersTurn DeleteTask
  | .load uuid =>
    read p reply <|
    returned p (findByUuid p.db.servers uuid) fun server =>
    goOn p (.wings server (p.allocationOf server))
  | .wings server allocation =>
    let next := goOn p (match allocation with
      | some allocation => .free allocation server
      | none => .remove server)
    call reply (.deleteServer server false) next fun _ => next
  | .free allocation server =>
    execute p reply (.freeAllocation allocation.id) fun p => goOn p (.remove server)
  | .remove server =>
    execute p reply (.removeServer server.id) fun p => finish p (.ok .noContent)

/-! ## Power -/

inductive PowerTask
  | check (uuid : String) (user : CurrentUser) (action : PowerAction)
  | load (uuid : String) (action : PowerAction)
  | call (server : Server) (action : PowerAction)
deriving DecidableEq, Repr

/-- The REST route. The guard looks at the status of the row it has loaded. -/
def PowerTask.turn (p : ServersState) (reply : Settled) : PowerTask → ServersTurn PowerTask
  | .check uuid user action =>
    read p reply <|
    returned p (findByUuid p.db.servers uuid) fun server =>
    returned p (checkAccess server user.id user.rootAdmin) fun _ =>
    goOn p (.load uuid action)
  | .load uuid action =>
    read p reply <|
    returned p (findByUuid p.db.servers uuid) fun server =>
    throwIf p (server.status = some .installing)
      (.badRequest "Cannot perform power action on a server that is still installing") <|
    throwIf p (server.status = some .suspended)
      (.badRequest "Cannot perform power action on a suspended server") <|
    goOn p (.call server action)
  | .call server action =>
    ServersTurn.call reply (.sendPowerAction server (mapPowerAction action.value))
      (finish p (.ok (.message s!"Power action '{action.value}' sent")))
      fun message => finish p (.error (.internal message))

/-! ## Suspension -/

inductive SuspendTask
  | find (uuid : String)
  | load (id : String)
  | kill (server : Server)
  | write (server : Server)
  | reload (id : String)
deriving DecidableEq, Repr

/-- `suspend`; Wings is not told, and a failure of the kill is only logged. -/
def SuspendTask.turn (p : ServersState) (reply : Settled) :
    SuspendTask → ServersTurn SuspendTask
  | .find uuid =>
    read p reply <|
    returned p (findByUuid p.db.servers uuid) fun server => goOn p (.load server.id)
  | .load id =>
    read p reply <|
    returned p (findById p.db.servers id) fun server =>
    throwIf p (server.status = some .suspended) (.badRequest "Server is already suspended") <|
    goOn p (.kill server)
  | .kill server =>
    call reply (.sendPowerAction server (mapPowerAction PowerAction.kill.value))
      (goOn p (.write server)) fun _ => goOn p (.write server)
  | .write server =>
    execute p reply (.updateServer server.id ⟨none, some (some .suspended)⟩) fun p =>
      goOn p (.reload server.id)
  | .reload id =>
    read p reply <|
    returned p (findById p.db.servers id) fun server => finish p (.ok (.server server))

inductive UnsuspendTask
  | find (uuid : String)
  | load (id : String)
  | write (server : Server)
  | reload (id : String)
deriving DecidableEq, Repr

def UnsuspendTask.turn (p : ServersState) (reply : Settled) :
    UnsuspendTask → ServersTurn UnsuspendTask
  | .find uuid =>
    read p reply <|
    returned p (findByUuid p.db.servers uuid) fun server => goOn p (.load server.id)
  | .load id =>
    read p reply <|
    returned p (findById p.db.servers id) fun server =>
    throwIf p (server.status ≠ some .suspended) (.badRequest "Server is not suspended") <|
    goOn p (.write server)
  | .write server =>
    execute p reply (.updateServer server.id ⟨none, some none⟩) fun p => goOn p (.reload server.id)
  | .reload id =>
    read p reply <|
    returned p (findById p.db.servers id) fun server => finish p (.ok (.server server))

/-! ## Installs -/

inductive ReinstallTask
  | find (uuid : String)
  | load (id : String)
  | mark (server : Server) (allocation : Option Allocation) (egg : Option Egg)
  | wings (server : Server) (config : WingsServerConfig) (script image : String)
  | reload (id : String)
deriving DecidableEq, Repr

def reinstallFailed (message : String) : Except HttpException Answer :=
  .error (.badRequest ("Failed to reinstall server on Wings: " ++ message))

/-- `reinstall`: the status is left as it is, and so is `installed` when Wings fails. -/
def ReinstallTask.turn (p : ServersState) (reply : Settled) :
    ReinstallTask → ServersTurn ReinstallTask
  | .find uuid =>
    read p reply <|
    returned p (findByUuid p.db.servers uuid) fun server => goOn p (.load server.id)
  | .load id =>
    read p reply <|
    returned p (findById p.db.servers id) fun server =>
    goOn p (.mark server (p.allocationOf server) (p.eggOf server))
  | .mark server allocation egg =>
    execute p reply (.updateServer server.id ⟨some 0, none⟩) fun p =>
    match allocation, egg with
    | some allocation, some egg =>
      goOn (p.accept server.id) (.wings server (wingsConfig server allocation)
        ((truthy egg.scriptInstall).getD "") egg.scriptContainer)
    | none, _ => finish p (reinstallFailed "Cannot read properties of null (reading 'port')")
    | some _, none =>
      finish p (reinstallFailed "Cannot read properties of null (reading 'scriptInstall')")
  | .wings server config script image =>
    call reply (.reinstallServer server config script image) (goOn p (.reload server.id))
      fun message => finish (p.settle server.id) (reinstallFailed message)
  | .reload id =>
    read p reply <|
    returned p (findById p.db.servers id) fun server => finish p (.ok (.server server))

/-- The columns an install leaves behind. -/
def installOutcome (succeeded : Bool) : Lifecycle :=
  if succeeded then ⟨some 1, some none⟩ else ⟨some 2, some (some .installFailed)⟩

inductive CallbackTask
  | receive (uuid status : String)
  | load (uuid status : String)
  | write (server : Server) (status : String)
deriving DecidableEq, Repr

/-- `POST /servers/:uuid/install-status` and `updateInstallStatus`. -/
def CallbackTask.turn (p : ServersState) (reply : Settled) :
    CallbackTask → ServersTurn CallbackTask
  | .receive uuid status =>
    throwIf p (status ≠ "success" ∧ status ≠ "failed")
      (.badRequest "Invalid status: must be \"success\" or \"failed\"") <|
    goOn p (.load uuid status)
  | .load uuid status =>
    read p reply <|
    returned p (findByUuid p.db.servers uuid) fun server => goOn p (.write server status)
  | .write server status =>
    execute p reply (.updateServer server.id (installOutcome (status = "success"))) fun p =>
      finish (p.settle server.id) (.ok .success)

end ServersService

/-- The handlers of `server.installed` and `server.install.failed`: one statement each. -/
inductive EventTask
  | handleInstallComplete (uuid : String)
  | handleInstallFailed (uuid : String)
deriving DecidableEq, Repr

def EventTask.turn (p : ServersState) (reply : Settled) : EventTask → ServersTurn EventTask
  | .handleInstallComplete uuid =>
    execute p reply (.updateServerByUuid uuid (ServersService.installOutcome true)) fun p =>
      finish p (.ok .noContent)
  | .handleInstallFailed uuid =>
    execute p reply (.updateServerByUuid uuid (ServersService.installOutcome false)) fun p =>
      finish p (.ok .noContent)

/-- `handleSendPowerAction` of a bound socket, behind its first `await`. -/
inductive GatewayTask
  | load (serverUuid action : String)
  | call (server : Server) (action : String)
deriving DecidableEq, Repr

/-- There is no guard. -/
def GatewayTask.turn (p : ServersState) (reply : Settled) : GatewayTask → ServersTurn GatewayTask
  | .load serverUuid action =>
    read p reply <|
    returned p (ServersService.findByUuid p.db.servers serverUuid) fun server =>
    goOn p (.call server action)
  | .call server action =>
    ServersTurn.call reply (.sendPowerAction server (mapPowerAction action))
      (finish p (.ok (.message action))) fun message => finish p (.error (.internal message))

/-! ## Allocations -/

/-- The routes that delete allocations: the administrator's, which names the node, the one of
`AllocationsService`, and the one for all free allocations of a node. -/
inductive AllocationTask
  | adminFind (nodeId id : String)
  | find (id : String)
  | remove (id : String)
  | bulkDelete (nodeId : String)
deriving DecidableEq, Repr

def AllocationTask.turn (p : ServersState) (reply : Settled) :
    AllocationTask → ServersTurn AllocationTask
  | .adminFind nodeId id =>
    read p reply <|
    found p (p.db.allocations.findOne fun a => a.id == id && a.nodeId == nodeId)
      (.badRequest "Allocation not found") fun allocation =>
    throwIf p (truthy allocation.serverId).isSome
      (.badRequest "Cannot delete an assigned allocation") <|
    goOn p (.remove allocation.id)
  | .find id =>
    read p reply <|
    found p (p.db.allocations.findOne fun a => a.id == id) (.notFound "Allocation not found")
      fun allocation =>
    throwIf p allocation.serverId.isSome (.badRequest "Cannot delete an assigned allocation") <|
    goOn p (.remove allocation.id)
  | .remove id =>
    execute p reply (.removeAllocation id) fun p => finish p (.ok .noContent)
  | .bulkDelete nodeId =>
    execute p reply (.removeUnassigned nodeId) fun p => finish p (.ok .noContent)

end Panel
