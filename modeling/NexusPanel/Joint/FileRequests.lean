import NexusPanel.Panel.ChildConfinement
import NexusPanel.Panel.NodeCredentials
import NexusPanel.Wings.ConfigJson
import NexusPanel.Wings.Http

/-!
# File requests of the panel

`httpRequest` sends an object of strings to a file route of Wings: as JSON, in UTF-8, with the
node's credential. Wings checks the credential, reads a body of at most two megabytes, and hands
the fields to the handler of the route. What arrives is what was sent (`received_httpRequest`).

Between the socket and the handlers stand axum and `serde_json`, which are followed as they are
documented: `DefaultBodyLimit` refuses a body of more than two megabytes, and the extractor `Json`
reads one that is a JSON text in UTF-8 into the struct by its derived `Deserialize`. The bodies of
these routes are objects of strings, so `serde_json`'s bounds on depth and on numbers do not matter
for what the panel sends.
-/

namespace Panel

/-! ## The panel -/

/-- A `POST` to `/api/servers/:uuid/files/…`. -/
structure FilesCall where
  authorization : String
  uuid : String
  route : String
  body : ByteArray

/-- `httpRequest`, with a body of strings. -/
def httpRequest (node : Credential) (uuid route : String) (body : List (String × String)) :
    FilesCall :=
  ⟨node.authorization, uuid, route, (Json.stringify body).toUTF8⟩

namespace WingsService

def writeFile (node : Credential) (serverUuid filePath content : String) : FilesCall :=
  httpRequest node serverUuid "write" [("path", filePath), ("content", content)]

def renameFile (node : Credential) (serverUuid filePath newName : String) : FilesCall :=
  httpRequest node serverUuid "rename" [("from", filePath), ("to", newName)]

end WingsService

end Panel

namespace Wings

open Panel StateAction

/-! ## Wings -/

/-- The limit of `DefaultBodyLimit`, which axum puts on the extractors that read a whole body. -/
def bodyLimit : Nat := 2097152

/-- `Json<WriteRequest>` and `Json<RenameRequest>`. -/
def FileRequest.ofBody (route : String) (body : Json.Value) : Option FileRequest :=
  match route with
  | "write" => do
    match ← structFields [["path"], ["content"]] body with
    | [path, content] => pure (.write (← asString path) (← asString content))
    | _ => none
  | "rename" => do
    match ← structFields [["from"], ["to"]] body with
    | [src, dst] => pure (.rename (← asString src) (← asString dst))
    | _ => none
  | _ => none

/-- The request that gets to a handler, behind the middleware and `Json`. -/
def received (config : Config) (call : FilesCall) : Option FileRequest :=
  match authMiddleware config (some call.authorization) with
  | .error _ => none
  | .ok () =>
    if call.body.size ≤ bodyLimit then
      ((String.fromUTF8? call.body).bind Json.read).bind (FileRequest.ofBody call.route)
    else none

/-- What a request leaves behind when it is answered with a success. -/
def answered (s : AppState) (call : FilesCall) : Option AppState :=
  (received s.config call).bind fun request =>
    match Http.serve (.files call.uuid request) s with
    | (.ok _, s') => some s'
    | (.error _, _) => none

/-! ## Handlers that succeed -/

theorem validated_ok {root requested : String} {fs fs' : FS.FileSystem} {p : FS.Path}
    (h : validated root requested fs = (.ok p, fs')) :
    fs' = fs ∧ validatePath fs root requested = .ok p := by
  rw [validated_eq] at h
  obtain ⟨hvalid, rfl⟩ := Prod.mk.inj h
  exact ⟨rfl, hvalid⟩

theorem change_ok {f : FS.FileSystem → Except FS.IoError FS.FileSystem} {fs fs' : FS.FileSystem}
    {u : Unit} (h : change f fs = (.ok u, fs')) : f fs = .ok fs' := by
  unfold change at h
  split at h
  next fs₁ hok =>
    cases h
    exact hok
  next => cases h

/-! ## What arrives -/

theorem fromUTF8?_toUTF8 (text : String) : String.fromUTF8? text.toUTF8 = some text := by
  rw [String.fromUTF8?, dif_pos]
  rfl

section Arrival

variable {config : Config} {node : Credential} {uuid route : String}
  {fields : List (String × String)} {request : FileRequest} {s s' : AppState} {call : FilesCall}

/-- A body of strings is read as it was written. -/
theorem received_httpRequest (h : received config (httpRequest node uuid route fields) = some request) :
    FileRequest.ofBody route (Json.ofStrings fields) = some request := by
  unfold received httpRequest at h
  split at h
  next => cases h
  next =>
    split at h
    · rw [fromUTF8?_toUTF8, Option.bind_some, Json.read_stringify, Option.bind_some] at h
      exact h
    · cases h

/-- A body that is not too large gets to its handler. -/
theorem received_eq (hauth : authMiddleware config (some node.authorization) = .ok ())
    (hsize : (Json.stringify fields).toUTF8.size ≤ bodyLimit) :
    received config (httpRequest node uuid route fields) =
      FileRequest.ofBody route (Json.ofStrings fields) := by
  have hauth' : authMiddleware config (some (httpRequest node uuid route fields).authorization) =
      .ok () := hauth
  have hsize' : (httpRequest node uuid route fields).body.size ≤ bodyLimit := hsize
  rw [received, hauth']
  dsimp only
  rw [if_pos hsize']
  change ((String.fromUTF8? (Json.stringify fields).toUTF8).bind Json.read).bind _ = _
  rw [fromUTF8?_toUTF8, Option.bind_some, Json.read_stringify, Option.bind_some]
  rfl

theorem ofBody_write (path content : String) :
    FileRequest.ofBody "write" (Json.ofStrings [("path", path), ("content", content)]) =
      some (.write path content) := by
  rfl

theorem ofBody_rename (src dst : String) :
    FileRequest.ofBody "rename" (Json.ofStrings [("from", src), ("to", dst)]) =
      some (.rename src dst) := by
  rfl

/-- A request is answered with a success when its handler succeeds on the files of the server. -/
theorem answered_iff (hreceived : received s.config call = some request) :
    answered s call = some s' ↔ ∃ response fs,
      serveFiles (serverDir s.config.dataDir call.uuid) request s.fs = (.ok response, fs) ∧
        s' = { s with fs } := by
  have hserve : Http.serve (.files call.uuid request) s =
      (match serveFiles (serverDir s.config.dataDir call.uuid) request s.fs with
        | (.ok response, fs) => (.ok (.files response), { s with fs })
        | (.error e, fs) => (.error e, { s with fs })) := by
    rw [Http.serve, bind_ok (show (StateAction.get : Handler AppState) s = (.ok s, s) from rfl)]
    cases hfiles : serveFiles (serverDir s.config.dataDir call.uuid) request s.fs with
    | mk result fs =>
      cases result with
      | ok response => exact bind_ok (by simp only [Http.onFiles, hfiles])
      | error e => exact bind_error (by simp only [Http.onFiles, hfiles])
  rw [answered, hreceived, Option.bind_some, hserve]
  cases serveFiles (serverDir s.config.dataDir call.uuid) request s.fs with
  | mk result fs =>
    cases result with
    | ok response =>
      constructor
      · intro h
        exact ⟨response, fs, rfl, (Option.some.inj h).symm⟩
      · rintro ⟨_, _, heq, rfl⟩
        cases heq
        rfl
    | error e =>
      constructor
      · intro h
        cases h
      · rintro ⟨_, _, heq, -⟩
        cases heq

/-- What the handler of a request of the panel has done. -/
theorem answered_files (hbody : FileRequest.ofBody route (Json.ofStrings fields) = some request)
    (h : answered s (httpRequest node uuid route fields) = some s') :
    ∃ response, serveFiles (serverDir s.config.dataDir uuid) request s.fs =
      (.ok response, s'.fs) := by
  obtain ⟨request', hreceived, -⟩ := Option.bind_eq_some_iff.mp h
  cases hbody.symm.trans (received_httpRequest hreceived)
  obtain ⟨response, fs, hserved, rfl⟩ := (answered_iff hreceived).mp h
  exact ⟨response, hserved⟩

end Arrival

end Wings

namespace Joint

open Panel Wings FS

/-! ## One server -/

section OneServer

/-- The owner of the server. -/
def serverOwner : CurrentUser := ⟨"owner", "owner@nexus.local", false⟩

def ownedServer : Server :=
  .withDefaults "1" "3f0e" "3f0e" "game" "owner" "n" "t" "e" "a" 1024 1024 "" ""

def oneServer : ServerTables := ⟨.single ownedServer, .empty, .empty, .empty⟩

def nodeCredential : Credential := ⟨"id", "secret"⟩

/-- The daemon of the node, with the directory of the server and what else is on the disk. -/
def serverDisk (entries : List (Path × Entry)) : AppState :=
  { AppState.fresh ⟨"https://panel", "id", "secret", "/data"⟩ fun _ => .ok [] with
    fs := ⟨(["data"], .dir) :: (["data", "3f0e"], .dir) :: entries⟩ }

theorem owner_granted : getServerWithAccess oneServer "3f0e" serverOwner = .ok ownedServer := by
  decide +kernel

theorem daemon_accepts (entries : List (Path × Entry)) :
    authMiddleware (serverDisk entries).config (some nodeCredential.authorization) = .ok () := by
  have haccepts : authMiddleware ⟨"https://panel", "id", "secret", "/data"⟩
      (some nodeCredential.authorization) = .ok () := by decide +kernel
  exact haccepts

end OneServer

end Joint
