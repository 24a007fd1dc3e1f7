import NexusPanel.Wings.Files
import NexusPanel.Wings.Grpc

/-!
# The HTTP interface of Wings

`build_router`: the public health check, the routes behind `auth_middleware`, and the
WebSocket route with its own check of the `token` query parameter.
-/

namespace Wings

open StateAction

/-! ## Credentials -/

/-- `HeaderValue::to_str`: visible ASCII and tabs only. -/
def headerToStr (value : String) : Option String :=
  if value.toList.all fun c => c = '\t' ∨ (32 ≤ c.toNat ∧ c.toNat < 127) then some value else none

/-- The check of `auth_middleware`, on the `Authorization` header. -/
def authMiddleware (config : Config) (authorization : Option String) : Except WingsError Unit :=
  match (authorization.bind headerToStr).bind (Text.stripPrefix? "Bearer ") with
  | none => .error .authFailed
  | some bearer =>
    match Text.splitFirst? '.' bearer with
    | some (tid, tok) =>
      if config.tokenId ≠ "" ∧ tid ≠ config.tokenId then .error .authFailed
      else if tok ≠ config.token then .error .authFailed
      else .ok ()
    | none => if bearer ≠ config.token then .error .authFailed else .ok ()

/-- The check of `ws_handler`, on the `token` query parameter. -/
def wsAuth (config : Config) (token : String) : Except WingsError Unit :=
  match Text.splitFirst? '.' token with
  | some (tid, tok) =>
    if tid = config.tokenId ∧ tok = config.token then .ok () else .error .authFailed
  | none => if token = config.token then .ok () else .error .authFailed

/-! ## Routes -/

/-- The requests to the protected routes. -/
inductive HttpRequest
  | systemInfo
  | createServer (server : ServerConfig) (installScript installDockerImage : Option String)
  | deleteServer (uuid : String) (removeVolumes : Bool)
  | powerAction (uuid action : String)
  | sendCommand (uuid command : String)
  | updateResources (uuid : String) (memoryLimit cpuLimit diskLimit : Option UInt64)
  | getStatus (uuid : String)
  | installServer (uuid : String) (script installScript installImage : Option String)
      (server : Option ServerConfig)
  | files (uuid : String) (request : FileRequest)

inductive HttpResponse
  | success
  | created (containerId uuid : String)
  | status (uuid state : String) (resources : Bool)
  | output (output : List String)
  | version (dockerVersion : String)
  | files (response : FileResponse)
deriving DecidableEq, Repr

namespace Http

/-- Run an operation on the files. -/
def onFiles {α : Type} (m : FileAction α) : Handler α := fun s =>
  match m s.fs with
  | (r, fs) => (r, { s with fs })

/-- The volume path is the server's directory, as in the gRPC method; nothing is stored in
the registry. -/
def createServer (server : ServerConfig) (script image : Option String) :
    Handler HttpResponse := do
  let s ← get
  let dir := serverDir s.config.dataDir server.uuid
  onFiles (makeDirs (lexical dir))
  let config := { server with volumePath := dir }
  let containerId ← DockerManager.createServer config
  match script, image with
  | some script, some image =>
    let _ ← ((Installer.install config script image).attempt : Handler (Option (List String)))
  | _, _ => pure ()
  pure (.created containerId config.uuid)

def deleteServer (uuid : String) (removeVolumes : Bool) : Handler HttpResponse := do
  DockerManager.deleteServer uuid removeVolumes
  modify fun s => { s with consoleBuffers := s.consoleBuffers.erase uuid }
  pure .success

def powerAction (uuid action : String) : Handler HttpResponse := do
  match action with
  | "start" => DockerManager.startServer uuid
  | "stop" => DockerManager.stopServer uuid 30
  | "restart" => DockerManager.restartServer uuid
  | "kill" => DockerManager.killServer uuid
  | other => fail (.config ("Unknown power action: " ++ other))
  pure .success

def updateResources (uuid : String) (memoryLimit cpuLimit : Option UInt64) :
    Handler HttpResponse := do
  let _ ← dockerCall (.updateContainer (DockerManager.containerName uuid)
    (memoryLimit.map fun m => (m * 1024 * 1024).toInt64)
    (cpuLimit.map fun c => c.toInt64 * 10000000))
  pure .success

def getStatus (uuid : String) : Handler HttpResponse := do
  let state ← DockerManager.getContainerStatus uuid
  if state = "running" then
    let stats ← (DockerManager.getStats uuid).attempt
    pure (.status uuid state stats.isSome)
  else
    pure (.status uuid state false)

/-- A missing configuration is replaced by an empty one for the server's directory. -/
def installServer (uuid : String) (script installScript image : Option String)
    (server : Option ServerConfig) : Handler HttpResponse := do
  let script ← ofOption (installScript.orElse fun _ => script)
    (.config "Missing install script")
  let image ← ofOption image (.config "Missing install image")
  let s ← get
  let config := server.getD ⟨uuid, "", "", [], 0, 0, 0, [], serverDir s.config.dataDir uuid⟩
  let output ← Installer.install config script image
  pure (.output output)

/-- The handlers of the protected routes. -/
def serve : HttpRequest → Handler HttpResponse
  | .systemInfo => do
    let version ← DockerManager.dockerVersion
    pure (.version version)
  | .createServer server script image => createServer server script image
  | .deleteServer uuid removeVolumes => deleteServer uuid removeVolumes
  | .powerAction uuid action => powerAction uuid action
  | .sendCommand uuid command => do
    DockerManager.sendCommand uuid command
    pure .success
  | .updateResources uuid memory cpu _ => updateResources uuid memory cpu
  | .getStatus uuid => getStatus uuid
  | .installServer uuid script installScript image server =>
    installServer uuid script installScript image server
  | .files uuid request => do
    let s ← get
    let response ← onFiles (serveFiles (serverDir s.config.dataDir uuid) request)
    pure (.files response)

/-- A line of a container's standard output or error: it goes to the console buffer, which holds
500 lines. -/
def pushLine (uuid line : String) : Handler Unit := do
  let lines ← AppState.getOrCreateBuffer uuid
  let kept := if 500 ≤ lines.length then lines.drop 1 else lines
  modify fun s => { s with consoleBuffers := s.consoleBuffers.insert uuid (kept ++ [line]) }

/-- What happens on an open WebSocket. -/
inductive WsEvent
  | command (command : String)
  | log (line : String)
deriving DecidableEq, Repr

/-- A WebSocket session: the buffer is replayed, the statistics and the log are streamed, log
lines are recorded, and the client's commands are run; the failure of a command is ignored. Items
of the log that are neither standard output nor standard error are passed over and no event. -/
def handleWs (uuid : String) (events : List WsEvent) : Handler (List String) := do
  let replay ← AppState.getOrCreateBuffer uuid
  let name := DockerManager.containerName uuid
  let _ ← ((dockerQuery (.stats name)).attempt : Handler (Option (List String)))
  let _ ← ((dockerQuery (.logs name)).attempt : Handler (Option (List String)))
  forEach events fun
    | .command command => do
      let _ ← ((DockerManager.sendCommand uuid command).attempt : Handler (Option Unit))
    | .log line => pushLine uuid line
  pure replay

end Http

end Wings
