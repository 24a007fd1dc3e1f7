import Mathlib.Data.List.AList
import NexusPanel.Foundation.Action
import NexusPanel.Foundation.FileOperations
import NexusPanel.Foundation.Text

/-!
# The Docker side of Wings

`DockerManager` and the installer: which calls Wings makes to the Docker daemon, with which
arguments. The daemon itself is outside: the state keeps what it has been asked, newest
first, and its answers come from a sequence that is given with the state, so a statement
about every state is a statement about every behaviour of the daemon. The panel is outside
too: the state keeps the callbacks that were posted to it.
-/

namespace Wings

open StateAction

/-! ## Configuration and state -/

structure PortMapping where
  hostPort : UInt16
  containerPort : UInt16
deriving DecidableEq, Repr

/-- `docker::ServerConfig`. The environment is a map; the list is one order of its entries. -/
structure ServerConfig where
  uuid : String
  dockerImage : String
  startupCommand : String
  environment : List (String × String)
  memoryLimit : UInt64
  cpuLimit : UInt64
  diskLimit : UInt64
  portMappings : List PortMapping
  volumePath : String
deriving DecidableEq, Repr

/-- The parts of `Config` the handlers read. -/
structure Config where
  panelUrl : String
  tokenId : String
  token : String
  dataDir : String
deriving DecidableEq, Repr

inductive WingsError
  | docker (message : String)
  | io (message : String)
  | pathTraversal
  | serverNotFound (uuid : String)
  | fileTooLarge
  | config (message : String)
  | authFailed
deriving DecidableEq, Repr

/-- `WingsError`'s `Display`. -/
def WingsError.message : WingsError → String
  | .docker message => "Docker error: " ++ message
  | .io message => "IO error: " ++ message
  | .pathTraversal => "Path traversal detected"
  | .serverNotFound uuid => "Server not found: " ++ uuid
  | .fileTooLarge => "File too large"
  | .config message => "Configuration error: " ++ message
  | .authFailed => "Authentication failed"

/-- What a container is created from. With `tty` it prints to a terminal. -/
structure ContainerSpec where
  image : String
  cmd : List String
  env : List String
  binds : List String
  portBindings : List (String × String)
  memory : Option Int64
  nanoCpus : Option Int64
  tty : Bool
  labels : List (String × String)
deriving DecidableEq

/-- The calls that change the daemon. -/
inductive DockerCall
  | pullImage (image : String)
  | createContainer (name : String) (spec : ContainerSpec)
  | startContainer (name : String)
  | stopContainer (name : String) (timeout : Nat)
  | killContainer (name : String)
  | restartContainer (name : String)
  | removeContainer (name : String) (volumes : Bool)
  | updateContainer (name : String) (memory nanoCpus : Option Int64)
  | exec (name command : String)
deriving DecidableEq

/-- The calls that only read. -/
inductive DockerQuery
  | listContainers (name : String)
  | listManaged
  | stats (name : String)
  | logs (name : String)
  | waitContainer (name : String)
  | version
deriving DecidableEq

/-- What has been asked of the daemon, and what it answers to the next questions: an error, or
the items of a stream or a list, as text. -/
structure Docker where
  calls : List DockerCall
  queries : List DockerQuery
  asked : Nat
  answers : Nat → Except String (List String)

/-- A request to the panel's `install-status` route. -/
structure Callback where
  url : String
  authorization : String
  status : String
  message : Option String
deriving DecidableEq, Repr

/-- Work that a handler leaves to a spawned task: running an install script, or a power
action whose answer nobody waits for. -/
inductive Spawned
  | install (config : ServerConfig) (script image : String)
  | powerAction (uuid action : String)
deriving DecidableEq

/-- What has been done to the registry of server configurations. -/
inductive RegistryOp
  | store (config : ServerConfig)
  | remove (uuid : String)
deriving DecidableEq

/-- `AppState`, with the file system the daemon works on, the tasks it has spawned and the
callbacks it has posted, newest first. The history of the registry, newest first too, is there
for statements: no handler reads it. -/
structure AppState where
  config : Config
  docker : Docker
  consoleBuffers : AList fun _ : String => List String
  serverConfigs : AList fun _ : String => ServerConfig
  fs : FS.FileSystem
  spawned : List Spawned
  posts : List Callback
  history : List RegistryOp

/-- A handler of Wings. -/
abbrev Handler (α : Type) := StateAction AppState WingsError α

/-! ## Calls to the daemon -/

/-- A question to the daemon, which is kept, and its answer. -/
def ask (keep : Docker → Docker) : Handler (List String) := do
  let s ← get
  modify fun s => { s with docker := { keep s.docker with asked := s.docker.asked + 1 } }
  match s.docker.answers s.docker.asked with
  | .ok answer => pure answer
  | .error message => fail (.docker message)

/-- What keeping a question preserves, asking it preserves. -/
theorem keeps_ask {I : AppState → Prop} {keep : Docker → Docker}
    (h : ∀ s, I s → I { s with docker := { keep s.docker with asked := s.docker.asked + 1 } }) :
    Keeps I (ask keep) := by
  refine Keeps.bind Keeps.get fun t => Keeps.bind (Keeps.modify h) fun _ => ?_
  split
  · exact Keeps.pure
  · exact Keeps.fail

/-- A call that changes the daemon. -/
def dockerCall (c : DockerCall) : Handler (List String) :=
  ask fun d => { d with calls := c :: d.calls }

theorem calls_dockerCall (c : DockerCall) (s : AppState) :
    (dockerCall c s).2.docker.calls = c :: s.docker.calls := by
  have hcalls : Triple (fun t => t = s) (dockerCall c)
      (fun _ t => t.docker.calls = c :: s.docker.calls)
      (fun t => t.docker.calls = c :: s.docker.calls) := by
    refine Triple.bind (Triple.get (Q := fun _ t => t = s) fun _ h => h) fun u => ?_
    refine Triple.bind (Q := fun _ t => t.docker.calls = c :: s.docker.calls)
      (Triple.modify ?_) fun _ => ?_
    · rintro t rfl
      rfl
    · split
      · exact Keeps.pure
      · exact Keeps.fail
  exact hcalls.snd rfl

/-- A call that changes nothing. -/
def dockerQuery (q : DockerQuery) : Handler (List String) :=
  ask fun d => { d with queries := q :: d.queries }

namespace DockerManager

/-- The uuid without dashes. -/
def undashed (uuid : String) : List Char := uuid.toList.filter (· ≠ '-')

/-- `&short[..min(8, short.len())]`, where `short` is the uuid without dashes: the bytes before
the ninth. A slice that ends inside a character panics. -/
def sliced (uuid : String) : Option (List Char) :=
  Text.sliceTo (min 8 (Text.byteLength (undashed uuid))) (undashed uuid)

/-- `nexus-` and the first eight characters of the uuid without dashes. These are its first eight
bytes when the uuid is ASCII, as those are that the panel generates (`sliced_of_ascii`); the
names that others get, or the panic instead, are left out. -/
def containerName (uuid : String) : String :=
  "nexus-" ++ String.ofList ((undashed uuid).take 8)

theorem sliced_of_ascii {uuid : String} (h : Text.isAscii uuid = true) :
    sliced uuid = some ((undashed uuid).take 8) := by
  refine Text.sliceTo_of_bytes (fun c hc => ?_) 8
  have hascii := List.all_eq_true.mp h c (List.mem_filter.mp hc).1
  exact Char.utf8Size_eq_one_iff.mpr (of_decide_eq_true hascii)

/-- The bind of a volume: `{volume_path}:/server`. -/
def bindOf (volumePath : String) : String := volumePath ++ ":/server"

/-- The container of a game server. -/
def gameSpec (config : ServerConfig) : ContainerSpec where
  image := config.dockerImage
  cmd := Text.splitWhitespace config.startupCommand
  env := config.environment.map fun (k, v) => k ++ "=" ++ v
  binds := [bindOf config.volumePath]
  portBindings := config.portMappings.map fun pm =>
    (toString pm.containerPort ++ "/tcp", "0.0.0.0:" ++ toString pm.hostPort)
  memory := some (config.memoryLimit * 1024 * 1024).toInt64
  nanoCpus := some (config.cpuLimit * 10000000).toInt64
  tty := true
  labels := [("nexus.managed", "true"), ("nexus.server_uuid", config.uuid)]

/-- The answer is the id of the container. -/
def createServer (config : ServerConfig) : Handler String := do
  let _ ← dockerCall (.pullImage config.dockerImage)
  let id ← dockerCall (.createContainer (containerName config.uuid) (gameSpec config))
  pure (id.headD "")

def startServer (uuid : String) : Handler Unit := do
  let _ ← dockerCall (.startContainer (containerName uuid))

def stopServer (uuid : String) (timeout : Nat) : Handler Unit := do
  let _ ← dockerCall (.stopContainer (containerName uuid) timeout)

def killServer (uuid : String) : Handler Unit := do
  let _ ← dockerCall (.killContainer (containerName uuid))

def restartServer (uuid : String) : Handler Unit := do
  let _ ← dockerCall (.restartContainer (containerName uuid))

/-- Stopping may fail, a container that is already stopped for one. -/
def deleteServer (uuid : String) (removeVolumes : Bool) : Handler Unit := do
  let _ ← (dockerCall (.stopContainer (containerName uuid) 10)).attempt
  let _ ← dockerCall (.removeContainer (containerName uuid) removeVolumes)

def sendCommand (uuid command : String) : Handler Unit := do
  let _ ← dockerCall (.exec (containerName uuid) command)

/-- The statistics are those of the first item of the stream. -/
def getStats (uuid : String) : Handler String := do
  let stats ← dockerQuery (.stats (containerName uuid))
  ofOption stats.head? (.serverNotFound uuid)

/-- The state of the first container that is listed under the name. -/
def getContainerStatus (uuid : String) : Handler String := do
  let states ← dockerQuery (.listContainers (containerName uuid))
  ofOption states.head? (.serverNotFound uuid)

def dockerVersion : Handler String := do
  let version ← dockerQuery .version
  pure (version.headD "unknown")

end DockerManager

namespace Installer

def containerName (uuid : String) : String := "nexus-install-" ++ uuid

/-- The container of an install script. -/
def installSpec (config : ServerConfig) (script image : String) : ContainerSpec where
  image := image
  cmd := ["/bin/sh", "-c", script]
  env := []
  binds := [DockerManager.bindOf config.volumePath]
  portBindings := []
  memory := none
  nanoCpus := none
  tty := false
  labels := []

def callbackUrl (panelUrl uuid : String) : String :=
  Text.trimEnd '/' panelUrl ++ "/api/v1/servers/" ++ uuid ++ "/install-status"

/-- Tell the panel, if its address and a credential are known. Nobody looks at the answer. -/
def notify (panelUrl panelAuth : Option String) (uuid status : String)
    (message : Option String) : Handler Unit :=
  match panelUrl, panelAuth with
  | some url, some auth => modify fun s => { s with
      posts := ⟨callbackUrl url uuid, "Bearer " ++ auth, status, message⟩ :: s.posts }
  | _, _ => pure ()

/-- The last fifty lines. -/
def lastLines (output : List String) : String :=
  "\n".intercalate (output.reverse.take 50).reverse

/-- Pull, remove what is left of an earlier run, create, start, read the log, wait, tell the
panel, remove. A failure before the wait has answered, and a wait that fails, end the run
there; errors in the log are passed over. A wait that ends without an answer counts as a
success. -/
def runInstall (config : ServerConfig) (script image : String)
    (panelUrl panelAuth : Option String) : Handler (List String) := do
  let name := containerName config.uuid
  let _ ← dockerCall (.pullImage image)
  let _ ← (dockerCall (.removeContainer name false)).attempt
  let _ ← dockerCall (.createContainer name (installSpec config script image))
  let _ ← dockerCall (.startContainer name)
  let log ← (dockerQuery (.logs name)).attempt
  let output := log.getD []
  let exit ← dockerQuery (.waitContainer name)
  match exit.head?.filter (· ≠ "0") with
  | some code =>
    notify panelUrl panelAuth config.uuid "failed" (some (lastLines output))
    let _ ← (dockerCall (.removeContainer name false)).attempt
    fail (.io ("Install script exited with code " ++ code))
  | none =>
    notify panelUrl panelAuth config.uuid "success" none
    let _ ← (dockerCall (.removeContainer name false)).attempt
    pure output

/-- An install run as the handlers start it: with the panel's address and the credential of
this node. -/
def install (config : ServerConfig) (script image : String) : Handler (List String) := do
  let s ← get
  runInstall config script image (some s.config.panelUrl)
    (some (s.config.tokenId ++ "." ++ s.config.token))

end Installer

/-- The callback of an install run that starts in the state. -/
def reportOf (s : AppState) (uuid status : String) (message : Option String) : Callback where
  url := Installer.callbackUrl s.config.panelUrl uuid
  authorization := "Bearer " ++ (s.config.tokenId ++ "." ++ s.config.token)
  status
  message

end Wings
