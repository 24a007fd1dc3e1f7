import NexusPanel.Foundation.Framing
import NexusPanel.Wings.Docker

/-!
# The registry of server configurations

`AppState` keeps the configuration of every server in memory and in a file
`.nexus-config.json` in the server's directory, next to the files the game server writes.
A restart reads the files back: one entry of the data directory after the other, keyed by
the uuid inside the file.

The JSON encoding is a parameter. Failures to write the file are ignored, as in the source.
-/

namespace Wings

open StateAction

/-- `serde_json` at `ServerConfig`. -/
structure Serde where
  encode : ServerConfig → String
  decode : String → Option ServerConfig

/-- What `serde_json` writes it reads back. -/
def Serde.RoundTrips (serde : Serde) : Prop := ∀ c, serde.decode (serde.encode c) = some c

/-- `Path::join` on path strings. -/
def joinPath (base name : String) : String :=
  if FS.isAbsolute name then name
  else if base = "" ∨ base.toList.getLast? = some '/' then base ++ name
  else base ++ "/" ++ name

/-- The components `Path::components` iterates over: a dot is dropped. -/
def lexical (path : String) : List FS.Name := (FS.components path).filter (· ≠ ".")

/-- `Path::new(data_dir).join(uuid)`, the directory of a server. -/
def serverDir (dataDir uuid : String) : String := joinPath dataDir uuid

def configFile : String := ".nexus-config.json"

namespace AppState

variable (serde : Serde)

def getOrCreateBuffer (uuid : String) : Handler (List String) := do
  let s ← get
  match s.consoleBuffers.lookup uuid with
  | some lines => pure lines
  | none =>
    modify fun s => { s with consoleBuffers := s.consoleBuffers.insert uuid [] }
    pure []

/-- Make the directory and write the file; neither failure is looked at. -/
def persistConfig (fs : FS.FileSystem) (dataDir uuid : String) (config : ServerConfig) :
    FS.FileSystem :=
  let dir := serverDir dataDir uuid
  let (fs, _) := fs.createDirAll (lexical dir)
  match fs.writeFile (FS.components (joinPath dir configFile)) (serde.encode config) with
  | .ok fs => fs
  | .error _ => fs

def storeServerConfig (config : ServerConfig) : Handler Unit :=
  modify fun s => { s with
    serverConfigs := s.serverConfigs.insert config.uuid config
    fs := persistConfig serde s.fs s.config.dataDir config.uuid config
    history := .store config :: s.history }

def getServerConfig (uuid : String) : Handler (Option ServerConfig) := do
  let s ← get
  pure (s.serverConfigs.lookup uuid)

/-- Remove the file; a failure is not looked at. -/
def removePersisted (fs : FS.FileSystem) (dataDir uuid : String) : FS.FileSystem :=
  match fs.removeFile (FS.components (joinPath (serverDir dataDir uuid) configFile)) with
  | .ok fs => fs
  | .error _ => fs

def removeServerConfig (uuid : String) : Handler Unit :=
  modify fun s => { s with
    serverConfigs := s.serverConfigs.erase uuid
    fs := removePersisted s.fs s.config.dataDir uuid
    history := .remove uuid :: s.history }

/-- The configuration in one entry of the data directory, when there is one. -/
def loadEntry (fs : FS.FileSystem) (dataDir : String) (entry : FS.Name) : Option ServerConfig :=
  (fs.readFile (FS.components (joinPath (joinPath dataDir entry) configFile))).bind serde.decode

/-- `load_configs`, with the entries in the order in which `read_dir` lists them. -/
def loadConfigs (fs : FS.FileSystem) (dataDir : String) (entries : List FS.Name) :
    AList fun _ : String => ServerConfig :=
  (entries.filterMap (loadEntry serde fs dataDir)).foldl
    (fun configs config => configs.insert config.uuid config) ∅

/-- What `read_dir` lists: nothing when the data directory cannot be read. The empty path
leads nowhere. -/
def dataEntries (fs : FS.FileSystem) (dataDir : String) : List FS.Name :=
  if dataDir = "" then []
  else
    match fs.resolve (FS.components dataDir) with
    | .found p => if fs.lookup p = some .dir then fs.children p else []
    | _ => []

/-- `AppState::new` after a restart: the registry from disk, empty buffers, and nothing
spawned. -/
def restart (s : AppState) (entries : List FS.Name) : AppState :=
  { s with
    consoleBuffers := ∅
    serverConfigs := loadConfigs serde s.fs s.config.dataDir entries
    spawned := [] }

/-- A daemon on an empty disk that has not been asked anything yet. -/
def fresh (config : Config) (answers : Nat → Except String (List String)) : AppState where
  config
  docker := ⟨[], [], 0, answers⟩
  consoleBuffers := ∅
  serverConfigs := ∅
  fs := ⟨[]⟩
  spawned := []
  posts := []
  history := []

end AppState

/-! ## An encoding that can be read back -/

section Framed

open Framing

def ServerConfig.fields (c : ServerConfig) : List (List Char) :=
  [c.uuid.toList, c.dockerImage.toList, c.startupCommand.toList, c.volumePath.toList,
    ofNat c.memoryLimit.toNat, ofNat c.cpuLimit.toNat, ofNat c.diskLimit.toNat,
    pack (flatten (c.environment.map fun kv => (kv.1.toList, kv.2.toList))),
    pack (flatten (c.portMappings.map fun pm =>
      (ofNat pm.hostPort.toNat, ofNat pm.containerPort.toNat)))]

def ServerConfig.ofFields : List (List Char) → Option ServerConfig
  | [uuid, image, startup, volume, memory, cpu, disk, environment, ports] =>
    some
      { uuid := .ofList uuid, dockerImage := .ofList image, startupCommand := .ofList startup
        environment := (pairUp (unpack environment)).map fun kv => (.ofList kv.1, .ofList kv.2)
        memoryLimit := .ofNat memory.length, cpuLimit := .ofNat cpu.length
        diskLimit := .ofNat disk.length
        portMappings := (pairUp (unpack ports)).map fun pm =>
          ⟨.ofNat pm.1.length, .ofNat pm.2.length⟩
        volumePath := .ofList volume }
  | _ => none

/-- An encoding that stands in for JSON where one is needed that reads back. -/
def Serde.framed : Serde where
  encode c := String.ofList (pack c.fields)
  decode text := ServerConfig.ofFields (unpack text.toList)

theorem Serde.framed_roundTrips : Serde.framed.RoundTrips := by
  intro c
  have henv : ∀ env : List (String × String),
      (env.map fun kv => (kv.1.toList, kv.2.toList)).map
        (fun kv => (String.ofList kv.1, String.ofList kv.2)) = env := by
    intro env
    rw [List.map_map]
    exact (List.map_congr_left fun kv _ => by simp).trans (List.map_id env)
  have hports : ∀ ports : List PortMapping,
      (ports.map fun pm => (ofNat pm.hostPort.toNat, ofNat pm.containerPort.toNat)).map
        (fun pm => (⟨.ofNat pm.1.length, .ofNat pm.2.length⟩ : PortMapping)) = ports := by
    intro ports
    rw [List.map_map]
    exact (List.map_congr_left fun pm _ => by simp).trans (List.map_id ports)
  simp only [framed, String.toList_ofList, unpack_pack, ServerConfig.fields,
    ServerConfig.ofFields, pairUp_flatten, henv, hports, length_ofNat, UInt64.ofNat_toNat,
    String.ofList_toList]

end Framed

end Wings
