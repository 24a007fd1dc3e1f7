import NexusPanel.Wings.State

/-!
# The gRPC service of Wings

`WingsGrpcService`, method by method, as actions on `AppState`. A method runs in one go: the
per-server locks therefore do not appear. What a method spawns is left in `spawned` and runs
as a step of its own (`runSpawned`). Events that Wings pushes to its channel are left out, as
nothing here reads them.
-/

namespace Wings

open StateAction

/-! ## Messages -/

namespace Proto

structure PortMapping where
  hostPort : UInt32
  containerPort : UInt32
deriving DecidableEq, Repr

/-- `ServerConfig` of the protocol. -/
structure ServerConfig where
  uuid : String
  dockerImage : String
  startupCommand : String
  environment : List (String × String)
  memoryLimitMb : UInt64
  cpuLimit : UInt32
  diskLimitMb : UInt64
  portMappings : List PortMapping
  volumePath : String
deriving DecidableEq, Repr

end Proto

/-- The requests of `WingsService`. -/
inductive GrpcRequest
  | createServer (server : Option Proto.ServerConfig) (installScript installDockerImage : String)
  | deleteServer (uuid : String) (removeVolumes : Bool)
  | reinstallServer (server : Option Proto.ServerConfig)
      (installScript installDockerImage : String)
  | sendPowerAction (uuid : String) (action : Nat)
  | sendCommand (uuid command : String)
  | syncServerConfig (server : Option Proto.ServerConfig)
  | getServerStatus (uuid : String)
  | getSystemInfo
  | updateResources (uuid : String) (memoryLimitMb : UInt64) (cpuLimit : UInt32)
      (diskLimitMb : UInt64)
  | eventStream
deriving DecidableEq, Repr

/-- A `tonic::Status`. -/
inductive Status
  | invalidArgument (message : String)
  | notFound (message : String)
  | internal (message : String)
deriving DecidableEq, Repr

/-- The states of `docker_state_to_proto`. -/
inductive ServerState
  | offline
  | starting
  | running
  | stopping
  | unknown
deriving DecidableEq, Repr

inductive GrpcResponse
  | created (containerId uuid : String)
  | status (uuid : String) (state : ServerState) (resources : Bool)
  | systemInfo (dockerVersion : String)
  | done
deriving DecidableEq, Repr

/-- A method of the service. -/
abbrev Method (α : Type) := StateAction AppState Status α

namespace Grpc

variable (serde : Serde)

def toDockerConfig (cfg : Proto.ServerConfig) : ServerConfig where
  uuid := cfg.uuid
  dockerImage := cfg.dockerImage
  startupCommand := cfg.startupCommand
  environment := cfg.environment
  memoryLimit := cfg.memoryLimitMb
  cpuLimit := cfg.cpuLimit.toUInt64
  diskLimit := cfg.diskLimitMb
  portMappings := cfg.portMappings.map fun pm =>
    ⟨pm.hostPort.toUInt16, pm.containerPort.toUInt16⟩
  volumePath := cfg.volumePath

def dockerStateToProto (state : String) : ServerState :=
  if state = "running" then .running
  else if state = "created" ∨ state = "restarting" then .starting
  else if state ∈ ["paused", "exited", "dead", "removing"] then .offline
  else .unknown

/-- A Wings error as an internal status, its text after the given words. -/
def internal {α : Type} (words : String) (h : Handler α) : Method α :=
  h.mapErr fun e => .internal (words ++ e.message)

/-- Leave a task to the runtime. -/
def spawn {ε : Type} (task : Spawned) : StateAction AppState ε Unit :=
  modify fun s => { s with spawned := s.spawned ++ [task] }

/-- Make the directory of a server. -/
def ensureServerDir (uuid : String) : Method String := do
  let s ← get
  let dir := serverDir s.config.dataDir uuid
  let made := s.fs.createDirAll (lexical dir)
  modify fun s => { s with fs := made.1 }
  ensure made.2.isNone (.internal "create_dir_all")
  return dir

/-- The stored volume path is the directory that is made, whatever the request says. -/
def createServer (server : Option Proto.ServerConfig) (script image : String) :
    Method GrpcResponse := do
  let cfg ← ofOption server (.invalidArgument "Missing server config")
  let dir ← ensureServerDir cfg.uuid
  let dockerCfg := { toDockerConfig cfg with volumePath := dir }
  internal "" (AppState.storeServerConfig serde dockerCfg)
  let containerId ← internal "Docker create failed: " (DockerManager.createServer dockerCfg)
  if script ≠ "" ∧ image ≠ "" then
    spawn (.install dockerCfg script image)
    return .created containerId dockerCfg.uuid
  else
    return .created containerId dockerCfg.uuid

def deleteServer (uuid : String) (removeVolumes : Bool) : Method GrpcResponse := do
  internal "" (DockerManager.deleteServer uuid removeVolumes)
  modify fun s => { s with consoleBuffers := s.consoleBuffers.erase uuid }
  internal "" (AppState.removeServerConfig uuid)
  pure .done

/-- The configuration is stored as the request has it. -/
def reinstallServer (server : Option Proto.ServerConfig) (script image : String) :
    Method GrpcResponse := do
  let cfg ← ofOption server (.invalidArgument "Missing server config")
  let dockerCfg := toDockerConfig cfg
  internal "" (AppState.storeServerConfig serde dockerCfg)
  spawn (.install dockerCfg script image)
  pure .done

/-- `PowerAction::try_from`. -/
def powerActionOf (action : Nat) : Option String :=
  match action with
  | 0 => some "start"
  | 1 => some "stop"
  | 2 => some "restart"
  | 3 => some "kill"
  | _ => none

/-- A missing container is recreated from the stored configuration. -/
def recreateMissing (uuid : String) : Method Unit := do
  let status ← (DockerManager.getContainerStatus uuid).attempt
  if status.isSome then
    return ()
  else
    let stored ← internal "" (AppState.getServerConfig uuid)
    let cfg ← ofOption stored
      (.notFound "Server config not found in registry, cannot recreate container")
    let _ ← internal "Failed to recreate container: " (DockerManager.createServer cfg)
    return ()

/-- A start is carried out at once; the other actions are answered at once and carried out
later. The state of the container is asked for before and after. -/
def sendPowerAction (uuid : String) (action : Nat) : Method GrpcResponse := do
  let name ← ofOption (powerActionOf action) (.invalidArgument "Invalid power action")
  if name = "start" then
    recreateMissing uuid
    let _ ← ((DockerManager.getContainerStatus uuid).attempt : Method (Option String))
    internal "" (DockerManager.startServer uuid)
    let _ ← ((DockerManager.getContainerStatus uuid).attempt : Method (Option String))
    return .done
  else
    let _ ← ((DockerManager.getContainerStatus uuid).attempt : Method (Option String))
    spawn (.powerAction uuid name)
    return .done

def sendCommand (uuid command : String) : Method GrpcResponse := do
  internal "" (DockerManager.sendCommand uuid command)
  pure .done

/-- The configuration is stored as the request has it. -/
def syncServerConfig (server : Option Proto.ServerConfig) : Method GrpcResponse := do
  let cfg ← ofOption server (.invalidArgument "Missing server config")
  internal "" (AppState.storeServerConfig serde (toDockerConfig cfg))
  pure .done

def getServerStatus (uuid : String) : Method GrpcResponse := do
  let state ← (DockerManager.getContainerStatus uuid).mapErr
    fun e => .notFound e.message
  if state = "running" then
    let stats ← (DockerManager.getStats uuid).attempt
    pure (.status uuid (dockerStateToProto state) stats.isSome)
  else
    pure (.status uuid (dockerStateToProto state) false)

/-- The Docker version, and `"unknown"` when it cannot be had; the listing of the managed
containers is a query too. -/
def getSystemInfo : Method GrpcResponse := do
  let version ← DockerManager.dockerVersion.attempt
  let _ ← ((dockerQuery .listManaged).attempt : Method (Option (List String)))
  pure (.systemInfo (version.getD "unknown"))

def updateResources (uuid : String) (memoryLimitMb : UInt64) (cpuLimit : UInt32)
    (diskLimitMb : UInt64) : Method GrpcResponse := do
  let _ ← internal "Docker update failed: "
    (dockerCall (.updateContainer (DockerManager.containerName uuid)
      (some (memoryLimitMb * 1024 * 1024).toInt64)
      (some (cpuLimit.toUInt64.toInt64 * 10000000))))
  let stored ← internal "" (AppState.getServerConfig uuid)
  match stored with
  | some cfg =>
    internal "" (AppState.storeServerConfig serde
      { cfg with
        memoryLimit := memoryLimitMb
        cpuLimit := cpuLimit.toUInt64
        diskLimit := diskLimitMb })
    return .done
  | none => return .done

/-- The service: `main` adds it to the tonic server without an interceptor. -/
def serve : GrpcRequest → Method GrpcResponse
  | .createServer server script image => createServer serde server script image
  | .deleteServer uuid removeVolumes => deleteServer uuid removeVolumes
  | .reinstallServer server script image => reinstallServer serde server script image
  | .sendPowerAction uuid action => sendPowerAction uuid action
  | .sendCommand uuid command => sendCommand uuid command
  | .syncServerConfig server => syncServerConfig serde server
  | .getServerStatus uuid => getServerStatus uuid
  | .getSystemInfo => getSystemInfo
  | .updateResources uuid memory cpu disk => updateResources serde uuid memory cpu disk
  | .eventStream => pure .done

end Grpc

/-- The power actions that are carried out in the background. -/
def powerTask (uuid action : String) : Handler Unit :=
  match action with
  | "stop" => DockerManager.stopServer uuid 30
  | "restart" => DockerManager.restartServer uuid
  | "kill" => DockerManager.killServer uuid
  | _ => pure ()

/-- A spawned task, run to its end; its failure is only logged. -/
def runSpawned : Spawned → Handler Unit
  | .install config script image => do
    let _ ← Installer.install config script image
  | .powerAction uuid action => do
    powerTask uuid action
    let _ ← ((DockerManager.getContainerStatus uuid).attempt : Handler (Option String))

end Wings
