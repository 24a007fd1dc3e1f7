import NexusPanel.Foundation.Json
import NexusPanel.Wings.State

/-!
# The JSON of a configuration

`ServerConfig` and `PortMapping` derive `Serialize` and `Deserialize`. A field is written under
its own name; when reading it may come under its alias too, in any order, and fields that are
not known are passed over. A field that is missing, or comes twice, under whatever name, is an
error. A struct may also come as an array of its fields. The environment is a map: of two
entries with one key the later one counts.

The text of a JSON value is left to `serde_json`, which is a parameter; `plainJson` is the one
that the library of this development writes and reads.
-/

namespace Wings

open Json (Value)

/-- `serde_json`, between values and text. -/
structure JsonText where
  toStringPretty : Value → String
  fromStr : String → Option Value

def plainJson : JsonText := ⟨Json.write, Json.read⟩

/-! ## Derived readers -/

/-- The values of the fields, each of which goes by several names. -/
def structFields (fields : List (List String)) : Value → Option (List Value)
  | .obj entries => fields.mapM fun names =>
    match entries.filter fun entry => entry.1 ∈ names with
    | [entry] => some entry.2
    | _ => none
  | .arr items => if items.length = fields.length then some items else none
  | _ => none

def asString : Value → Option String
  | .str text => some text
  | _ => none

def asU64 : Value → Option UInt64
  | .nat n => if n < 2 ^ 64 then some (.ofNat n) else none
  | _ => none

def asU16 : Value → Option UInt16
  | .nat n => if n < 2 ^ 16 then some (.ofNat n) else none
  | _ => none

/-- `HashMap::insert`. -/
def insertEntry (env : List (String × String)) (entry : String × String) :
    List (String × String) := env.filter (·.1 ≠ entry.1) ++ [entry]

def asStringMap : Value → Option (List (String × String))
  | .obj entries => do
    let env ← entries.mapM fun entry => (asString entry.2).map fun text => (entry.1, text)
    pure (env.foldl insertEntry [])
  | _ => none

/-! ## The two structs -/

def PortMapping.toJson (pm : PortMapping) : Value :=
  .obj [("host_port", .nat pm.hostPort.toNat), ("container_port", .nat pm.containerPort.toNat)]

def PortMapping.fieldNames : List (List String) :=
  [["host_port", "hostPort"], ["container_port", "containerPort"]]

def PortMapping.ofJson (v : Value) : Option PortMapping := do
  match ← structFields PortMapping.fieldNames v with
  | [hostPort, containerPort] => pure ⟨← asU16 hostPort, ← asU16 containerPort⟩
  | _ => none

def asPortMappings : Value → Option (List PortMapping)
  | .arr items => items.mapM PortMapping.ofJson
  | _ => none

def ServerConfig.toJson (c : ServerConfig) : Value :=
  .obj
    [("uuid", .str c.uuid), ("docker_image", .str c.dockerImage),
      ("startup_command", .str c.startupCommand),
      ("environment", .obj (c.environment.map fun entry => (entry.1, .str entry.2))),
      ("memory_limit", .nat c.memoryLimit.toNat), ("cpu_limit", .nat c.cpuLimit.toNat),
      ("disk_limit", .nat c.diskLimit.toNat),
      ("port_mappings", .arr (c.portMappings.map PortMapping.toJson)),
      ("volume_path", .str c.volumePath)]

def ServerConfig.fieldNames : List (List String) :=
  [["uuid"], ["docker_image", "dockerImage"], ["startup_command", "startupCommand"],
    ["environment"], ["memory_limit", "memoryLimit"], ["cpu_limit", "cpuLimit"],
    ["disk_limit", "diskLimit"], ["port_mappings", "portMappings"],
    ["volume_path", "volumePath"]]

def ServerConfig.ofJson (v : Value) : Option ServerConfig := do
  match ← structFields ServerConfig.fieldNames v with
  | [uuid, dockerImage, startupCommand, environment, memoryLimit, cpuLimit, diskLimit,
      portMappings, volumePath] =>
    pure
      { uuid := ← asString uuid
        dockerImage := ← asString dockerImage
        startupCommand := ← asString startupCommand
        environment := ← asStringMap environment
        memoryLimit := ← asU64 memoryLimit
        cpuLimit := ← asU64 cpuLimit
        diskLimit := ← asU64 diskLimit
        portMappings := ← asPortMappings portMappings
        volumePath := ← asString volumePath }
  | _ => none

/-- What is written to a configuration file, and how it is read. -/
def Serde.json (text : JsonText) : Serde where
  encode c := text.toStringPretty c.toJson
  decode content := (text.fromStr content).bind ServerConfig.ofJson

/-! ## What is written is read back -/

/-- The environment is a map: no key comes twice. -/
def ServerConfig.HasMap (c : ServerConfig) : Prop := (c.environment.map Prod.fst).Nodup

instance (c : ServerConfig) : Decidable c.HasMap := inferInstanceAs (Decidable (List.Nodup _))

theorem asU64_toNat (n : UInt64) : asU64 (.nat n.toNat) = some n := by
  rw [asU64, if_pos n.toNat_lt, UInt64.ofNat_toNat]

theorem asU16_toNat (n : UInt16) : asU16 (.nat n.toNat) = some n := by
  rw [asU16, if_pos n.toNat_lt, UInt16.ofNat_toNat]

theorem PortMapping.ofJson_toJson (pm : PortMapping) :
    PortMapping.ofJson pm.toJson = some pm := by
  simp [PortMapping.ofJson, PortMapping.toJson, structFields, PortMapping.fieldNames, asU16_toNat]

/-- A list that is written item by item is read item by item. -/
theorem mapM_map_some {α β : Type} {f : α → β} {g : β → Option α} (h : ∀ a, g (f a) = some a)
    (l : List α) : (l.map f).mapM g = some l := by
  induction l with
  | nil => rfl
  | cons a l ih =>
    rw [List.map_cons, List.mapM_cons, h, ih]
    rfl

/-- Entries with keys that are not there yet are put behind the others. -/
theorem foldl_insertEntry (env env' : List (String × String))
    (h : ((env ++ env').map Prod.fst).Nodup) : env'.foldl insertEntry env = env ++ env' := by
  induction env' generalizing env with
  | nil => rw [List.foldl_nil, List.append_nil]
  | cons entry rest ih =>
    have hnew : insertEntry env entry = env ++ [entry] := by
      rw [insertEntry, List.filter_eq_self.mpr]
      intro e he
      have hdisjoint := List.disjoint_of_nodup_append (by rwa [List.map_append] at h)
      refine decide_eq_true fun heq => hdisjoint (List.mem_map_of_mem he) ?_
      rw [heq]
      exact List.mem_map_of_mem List.mem_cons_self
    rw [List.foldl_cons, hnew, ih, List.append_assoc]
    · rfl
    · rwa [List.append_assoc]

theorem asStringMap_entries {env : List (String × String)} (h : (env.map Prod.fst).Nodup) :
    asStringMap (.obj (env.map fun entry => (entry.1, .str entry.2))) = some env := by
  have hread : (env.map fun entry => (entry.1, Value.str entry.2)).mapM
      (fun entry => (asString entry.2).map fun text => (entry.1, text)) = some env :=
    mapM_map_some (f := fun entry : String × String => (entry.1, Value.str entry.2))
      (g := fun entry => (asString entry.2).map fun text => (entry.1, text)) (fun _ => rfl) env
  rw [asStringMap, hread]
  exact congrArg some (foldl_insertEntry [] env h)

theorem ServerConfig.ofJson_toJson {c : ServerConfig} (h : c.HasMap) :
    ServerConfig.ofJson c.toJson = some c := by
  have hfields : structFields ServerConfig.fieldNames c.toJson =
      some [.str c.uuid, .str c.dockerImage, .str c.startupCommand,
        .obj (c.environment.map fun entry => (entry.1, .str entry.2)), .nat c.memoryLimit.toNat,
        .nat c.cpuLimit.toNat, .nat c.diskLimit.toNat,
        .arr (c.portMappings.map PortMapping.toJson), .str c.volumePath] := by
    simp [structFields, ServerConfig.fieldNames, ServerConfig.toJson]
  have hports : asPortMappings (.arr (c.portMappings.map PortMapping.toJson)) =
      some c.portMappings := mapM_map_some PortMapping.ofJson_toJson c.portMappings
  rw [ServerConfig.ofJson, hfields]
  simp [asString, asU64_toNat, asStringMap_entries h, hports]

theorem naturalEntries_strings (env : List (String × String)) :
    Json.NaturalEntries (env.map fun entry => (entry.1, .str entry.2)) := by
  induction env with
  | nil => trivial
  | cons entry env ih => exact ⟨trivial, ih⟩

theorem naturalItems_ports (ports : List PortMapping) :
    Json.NaturalItems (ports.map PortMapping.toJson) := by
  induction ports with
  | nil => trivial
  | cons pm ports ih => exact ⟨⟨trivial, trivial, trivial⟩, ih⟩

theorem ServerConfig.natural_toJson (c : ServerConfig) : c.toJson.Natural :=
  ⟨trivial, trivial, trivial, naturalEntries_strings c.environment, trivial, trivial, trivial,
    naturalItems_ports c.portMappings, trivial, trivial⟩

/-- The value of a configuration is read back as it was written. -/
def JsonText.RoundTrips (text : JsonText) : Prop :=
  ∀ c : ServerConfig, text.fromStr (text.toStringPretty c.toJson) = some c.toJson

theorem plainJson_roundTrips : plainJson.RoundTrips := by
  have hread (v : Value) (hv : v.Natural) :
      plainJson.fromStr (plainJson.toStringPretty v) = some v := Json.read_write hv
  exact fun c => hread c.toJson c.natural_toJson

/-- The file of a configuration holds the whole configuration. -/
theorem Serde.json_decode_encode {text : JsonText} (htext : text.RoundTrips) {c : ServerConfig}
    (h : c.HasMap) : (Serde.json text).decode ((Serde.json text).encode c) = some c := by
  have hread := htext c
  simp only [Serde.json]
  rw [hread]
  exact ServerConfig.ofJson_toJson h

end Wings
