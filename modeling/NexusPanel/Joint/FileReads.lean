import NexusPanel.Foundation.PercentEncoding
import NexusPanel.Joint.FileUploads
import NexusPanel.Wings.FileStore

/-!
# Reading through the panel

A path that the panel writes goes to Wings in the JSON of a body; one that it lists or reads goes
there in the query of a URL. The panel encodes it with `encodeURIComponent`, `fetch` encodes the
URL once more, and Wings parses the query. What arrives is the path (`queried_readFile`).

What comes back is the text of the file without a byte order mark: `Response.text` takes that away.
So a text that is written is read again unless it begins with U+FEFF (`read_exact_iff`). It is
never too large to be read, because a body that is accepted is smaller than that.

The libraries in between are followed as they are documented: `encodeURIComponent` and the encoding of
a query as ECMAScript and the URL standard have them, axum's `Query`, which reads a form-encoded query
into the struct by its derived `Deserialize`, and hyper's bound on a request target.
-/

namespace Panel

open PercentEncoding Fallible

/-! ## The panel -/

/-- A `GET` of `/api/servers/:uuid/…`, with its query as it is sent. -/
structure FilesQuery where
  authorization : String
  uuid : String
  route : String
  query : List UInt8

/-- The bytes that `encodeURIComponent` keeps. -/
def uriComponentKeeps (b : UInt8) : Bool :=
  b.toNat < 0x80 && ((Char.ofNat b.toNat).isAlphanum ||
    ['-', '_', '.', '!', '~', '*', '\x27', '(', ')'].contains (Char.ofNat b.toNat))

/-- `encodeURIComponent`. The text is ASCII, and stands here as its bytes. -/
def encodeURIComponent (text : String) : List UInt8 := encode uriComponentKeeps (utf8 text)

/-- The bytes that the query of an `http` URL keeps. -/
def queryKeeps (b : UInt8) : Bool :=
  0x20 < b.toNat && b.toNat < 0x7F && !(['"', '#', '\x27', '<', '>'].contains (Char.ofNat b.toNat))

/-- What `fetch` sends of the text behind the question mark of a URL: tabs and line breaks are
dropped, and the fragment is. -/
def sentQuery (text : List UInt8) : List UInt8 :=
  encode queryKeeps
    ((text.filter fun b => b ≠ 0x09 ∧ b ≠ 0x0A ∧ b ≠ 0x0D).takeWhile fun b => b ≠ 0x23)

/-- `httpRequest`, with a query and no body. -/
def httpQuery (node : Credential) (uuid route : String) (query : List UInt8) : FilesQuery :=
  ⟨node.authorization, uuid, route, sentQuery query⟩

namespace WingsService

def listFiles (node : Credential) (serverUuid filePath : String) : FilesQuery :=
  httpQuery node serverUuid "files" (utf8 "path=" ++ encodeURIComponent filePath)

def readFile (node : Credential) (serverUuid filePath : String) : FilesQuery :=
  httpQuery node serverUuid "files/read" (utf8 "path=" ++ encodeURIComponent filePath)

end WingsService

structure WriteFileDto where
  path : String
  content : String
deriving DecidableEq, Repr

namespace FilesController

/-- The call that a request to read makes. Without a path, `undefined` is put into the URL. -/
def readFile (db : ServerTables) (nodes : String → Credential) (uuid : String)
    (path : Option String) (user : CurrentUser) : Except HttpException FilesQuery := do
  let server ← getServerWithAccess db uuid user
  return WingsService.readFile (nodes server.nodeId) server.uuid (path.getD "undefined")

/-- The call that a request to write makes; the path of the body is checked by `@IsNotEmpty`. -/
def writeFile (db : ServerTables) (nodes : String → Credential) (uuid : String)
    (dto : WriteFileDto) (user : CurrentUser) : Except HttpException FilesCall := do
  require (dto.path != "") (.badRequest "path should not be empty")
  let server ← getServerWithAccess db uuid user
  return WingsService.writeFile (nodes server.nodeId) server.uuid dto.path dto.content

end FilesController

end Panel

namespace Wings

open Panel PercentEncoding StateAction

/-! ## Wings -/

/-- `Query<PathQuery>`. The derived reader refuses a field that is given twice and passes over names
that it does not know. -/
def pathQuery (query : List UInt8) : Option (Option String) :=
  match (parse query).filter fun pair => pair.1 = "path" with
  | [] => some none
  | [pair] => some (some pair.2)
  | _ => none

def FileRequest.ofQuery (route : String) (query : List UInt8) : Option FileRequest :=
  match route with
  | "files" => (pathQuery query).map .list
  | "files/read" => (pathQuery query).map .read
  | _ => none

/-- The longest request target that hyper accepts: it answers a longer one with 414. -/
def uriLimit : Nat := 65534

/-- The length of the request target. -/
def targetSize (uuid route : String) (query : List UInt8) : Nat :=
  ("/api/servers/" ++ uuid ++ "/" ++ route ++ "?").utf8ByteSize + query.length

/-- The request that gets to a handler. -/
def queried (config : Config) (call : FilesQuery) : Option FileRequest :=
  match authMiddleware config (some call.authorization) with
  | .error _ => none
  | .ok () =>
    if targetSize call.uuid call.route call.query ≤ uriLimit then
      FileRequest.ofQuery call.route call.query
    else none

/-- What a request is answered with when it succeeds. -/
def replied (s : AppState) (call : FilesQuery) : Option FileResponse :=
  (queried s.config call).bind fun request =>
    match (Http.serve (.files call.uuid request) s).1 with
    | .ok (.files response) => some response
    | _ => none

/-! ## What arrives -/

section Arrival

variable {config : Config} {node : Credential} {uuid route path : String}

/-- The bytes that are kept on the whole way. -/
def keptOnWay (b : UInt8) : Bool := uriComponentKeeps b && queryKeeps b

theorem formSafe_keptOnWay : FormSafe keptOnWay := by
  constructor <;> decide

theorem queryKeeps_hexDigit {n : Nat} (h : n < 16) : queryKeeps (hexDigit n) = true := by
  interval_cases n <;> decide

/-- What the panel puts into the URL is a query with one pair. -/
theorem query_eq (path : String) :
    utf8 "path=" ++ encodeURIComponent path = serialize uriComponentKeeps [("path", path)] := by
  have hname : encode uriComponentKeeps (utf8 "path") = utf8 "path" := by decide +kernel
  have hequals : utf8 "path=" = utf8 "path" ++ [equals] := by decide +kernel
  rw [hequals, List.append_assoc]
  simp only [serialize, List.map_cons, List.map_nil, List.intercalate_singleton, serializePair,
    hname]
  rfl

/-- `fetch` leaves the query one, with more of it encoded. -/
theorem sentQuery_eq (path : String) :
    sentQuery (utf8 "path=" ++ encodeURIComponent path) = serialize keptOnWay [("path", path)] := by
  have hplain : ∀ b ∈ serialize uriComponentKeeps [("path", path)],
      (b ≠ 0x09 ∧ b ≠ 0x0A ∧ b ≠ 0x0D) ∧ b ≠ 0x23 := by
    intro b hb
    rcases mem_serialize hb with hkept | rfl | rfl | rfl | ⟨n, hn, rfl⟩
    · have hne (a : UInt8) (ha : uriComponentKeeps a = false) : b ≠ a := by
        rintro rfl
        rw [ha] at hkept
        cases hkept
      exact ⟨⟨hne _ (by decide), hne _ (by decide), hne _ (by decide)⟩, hne _ (by decide)⟩
    · decide
    · decide
    · decide
    · interval_cases n <;> decide
  have hfilter : ((serialize uriComponentKeeps [("path", path)]).filter
      fun b => b ≠ 0x09 ∧ b ≠ 0x0A ∧ b ≠ 0x0D) = serialize uriComponentKeeps [("path", path)] :=
    List.filter_eq_self.mpr fun b hb => decide_eq_true (hplain b hb).1
  have htake : ((serialize uriComponentKeeps [("path", path)]).takeWhile fun b => b ≠ 0x23) =
      serialize uriComponentKeeps [("path", path)] :=
    List.takeWhile_eq_self_iff.mpr fun b hb => decide_eq_true (hplain b hb).2
  rw [query_eq, sentQuery, hfilter, htake]
  exact encode_serialize (by decide) (fun _ => queryKeeps_hexDigit) (by decide) (by decide) _

theorem pathQuery_sentQuery (path : String) :
    pathQuery (sentQuery (utf8 "path=" ++ encodeURIComponent path)) = some (some path) := by
  rw [sentQuery_eq, pathQuery, parse_serialize formSafe_keptOnWay]
  rfl

/-- A handler that succeeds on the files of the server. -/
theorem serve_files_ok {s : AppState} {request : FileRequest} {response : FileResponse}
    {fs : FS.FileSystem} (h : serveFiles (serverDir s.config.dataDir uuid) request s.fs =
      (.ok response, fs)) :
    Http.serve (.files uuid request) s = (.ok (.files response), { s with fs }) := by
  have hget : (StateAction.get : Handler AppState) s = (.ok s, s) := rfl
  rw [Http.serve, bind_ok hget]
  exact bind_ok (by simp only [Http.onFiles, h])

/-- What the panel sends for this path. -/
def pathSent (path : String) : List UInt8 := sentQuery (utf8 "path=" ++ encodeURIComponent path)

/-- The path that is listed or read arrives as it is, whatever it is, when the credential is accepted
and the URL is not too long; otherwise no request arrives. -/
theorem queried_path (config : Config) (node : Credential) (uuid path : String) :
    (queried config (WingsService.listFiles node uuid path) =
      if authMiddleware config (some node.authorization) = .ok () ∧
          targetSize uuid "files" (pathSent path) ≤ uriLimit
        then some (.list (some path)) else none) ∧
    queried config (WingsService.readFile node uuid path) =
      if authMiddleware config (some node.authorization) = .ok () ∧
          targetSize uuid "files/read" (pathSent path) ≤ uriLimit
        then some (.read (some path)) else none := by
  have hqueried (route : String) (request : FileRequest)
      (hrequest : FileRequest.ofQuery route (pathSent path) = some request) :
      queried config ⟨node.authorization, uuid, route, pathSent path⟩ =
        if authMiddleware config (some node.authorization) = .ok () ∧
            targetSize uuid route (pathSent path) ≤ uriLimit
          then some request else none := by
    rw [queried]
    cases authMiddleware config (some node.authorization) with
    | error e => exact (if_neg fun h => by cases h.1).symm
    | ok u =>
      dsimp only
      rw [hrequest]
      exact if_congr (iff_of_eq (by simp)) rfl rfl
  constructor
  · exact hqueried "files" _ (congrArg (Option.map FileRequest.list) (pathQuery_sentQuery path))
  · exact hqueried "files/read" _ (congrArg (Option.map FileRequest.read) (pathQuery_sentQuery path))

end Arrival

end Wings

namespace Joint

open Panel Wings StateAction FS Fallible

/-! ## Writing and reading -/

/-- A write that succeeds: the panel makes the call, and the Wings of the server's node answers it
with a success. -/
def WritesFile (db : ServerTables) (nodes : String → Credential) (uuid : String)
    (dto : WriteFileDto) (user : CurrentUser) (s s' : AppState) : Prop :=
  ∃ call, FilesController.writeFile db nodes uuid dto user = .ok call ∧ answered s call = some s'

/-- The text that a request to read is answered with: what the panel makes of the answer of
Wings, which is no JSON. -/
def readThrough (db : ServerTables) (nodes : String → Credential) (uuid : String)
    (path : Option String) (user : CurrentUser) (s : AppState) : Option String :=
  match FilesController.readFile db nodes uuid path user with
  | .error _ => none
  | .ok call =>
    match replied s call with
    | some (.content content) => some (Utf8.decodeText content.toUTF8)
    | _ => none

section Reading

variable {db : ServerTables} {nodes : String → Credential} {uuid path : String}
  {dto : WriteFileDto} {user : CurrentUser} {s s' : AppState} {p : Path}

/-- A write to a server that the user may use, with a body that is not too large and that Wings can
write. -/
theorem writesFile_of_served {server : Server} {response : FileResponse} {fs : FileSystem}
    (hpath : dto.path ≠ "") (hserver : getServerWithAccess db uuid user = .ok server)
    (hauth : authMiddleware s.config (some (nodes server.nodeId).authorization) = .ok ())
    (hsize : (Json.stringify [("path", dto.path), ("content", dto.content)]).toUTF8.size ≤ bodyLimit)
    (hserved : serveFiles (serverDir s.config.dataDir server.uuid) (.write dto.path dto.content)
      s.fs = (.ok response, fs)) :
    WritesFile db nodes uuid dto user s { s with fs } := by
  refine ⟨WingsService.writeFile (nodes server.nodeId) server.uuid dto.path dto.content, ?_, ?_⟩
  · simp only [FilesController.writeFile, bind_eq_ok, pure_eq_ok]
    exact ⟨(), by simp [require, hpath], server, hserver, rfl⟩
  · exact (answered_iff ((received_eq hauth hsize).trans (ofBody_write ..))).mpr
      ⟨response, fs, hserved, rfl⟩

/-- What a write that succeeds has sent, and done. -/
theorem written_of_writesFile (h : WritesFile db nodes uuid dto user s s') :
    ∃ server response, getServerWithAccess db uuid user = .ok server ∧ server.uuid = uuid ∧
      authMiddleware s.config (some (nodes server.nodeId).authorization) = .ok () ∧
      dto.content.utf8ByteSize ≤ bodyLimit ∧
      serveFiles (serverDir s.config.dataDir uuid) (.write dto.path dto.content) s.fs =
        (.ok response, s'.fs) ∧ s' = { s with fs := s'.fs } := by
  obtain ⟨call, hwrite, hanswered⟩ := h
  simp only [FilesController.writeFile, bind_eq_ok, pure_eq_ok] at hwrite
  obtain ⟨-, -, server, hserver, rfl⟩ := hwrite
  obtain rfl : server.uuid = uuid := by
    simpa only [beq_iff_eq] using Table.findOne_sat (getServerWithAccess_ok hserver).1
  obtain ⟨request, hreceived, -⟩ := Option.bind_eq_some_iff.mp hanswered
  obtain rfl := Option.some.inj ((ofBody_write ..).symm.trans (received_httpRequest hreceived))
  obtain ⟨response, fs, hserved, rfl⟩ := (answered_iff hreceived).mp hanswered
  refine ⟨server, response, hserver, rfl, ?_, ?_, hserved, rfl⟩
  · unfold received at hreceived
    split at hreceived
    next => cases hreceived
    next hauth => exact hauth
  · unfold received at hreceived
    split at hreceived
    next => cases hreceived
    next =>
      split at hreceived
      next hsize =>
        have hcontent : ("content", dto.content) ∈ [("path", dto.path), ("content", dto.content)] := by
          simp
        exact Nat.le_trans (Json.size_stringify hcontent) hsize
      next => cases hreceived

/-- A text that has been written through the panel is read through it, under every spelling of the
path that does not climb above the root and fits into a request target, without the byte order
mark that the text may begin with. -/
theorem read_of_writesFile (hplain : PlainRoot s.fs (names (serverDir s.config.dataDir uuid)))
    (hwrite : WritesFile db nodes uuid dto user s s') (hp : placeOf dto.path = some p)
    (hq : placeOf path = some p) (hnul : '\x00' ∉ path.toList)
    (hsize : targetSize uuid "files/read" (pathSent path) ≤ uriLimit) :
    readThrough db nodes uuid (some path) user s' = some (Utf8.withoutMark dto.content) := by
  obtain ⟨server, response, hserver, rfl, hauth, hcontent, hserved, hs'⟩ :=
    written_of_writesFile hwrite
  rw [hs']
  have hread := (holds_of_write hplain hp hserved).read hq hnul
  have hfits : dto.content.utf8ByteSize ≤ maxFileSize := Nat.le_trans hcontent (by decide)
  rw [if_pos hfits] at hread
  have hqueried := (queried_path s.config (nodes server.nodeId) server.uuid path).2
  rw [if_pos ⟨hauth, hsize⟩] at hqueried
  have hcall : FilesController.readFile db nodes server.uuid (some path) user =
      .ok (WingsService.readFile (nodes server.nodeId) server.uuid path) := by
    rw [FilesController.readFile, hserver]
    rfl
  have hreplied : replied { s with fs := s'.fs }
      (WingsService.readFile (nodes server.nodeId) server.uuid path) =
        some (.content dto.content) := by
    have hserve : Http.serve (.files server.uuid (.read (some path))) { s with fs := s'.fs } =
        (.ok (.files (.content dto.content)), { s with fs := s'.fs }) := serve_files_ok hread
    rw [replied, hqueried, Option.bind_some]
    change (match (Http.serve (.files server.uuid (.read (some path))) { s with fs := s'.fs }).1 with
      | .ok (.files response) => some response
      | _ => none) = _
    rw [hserve]
  rw [readThrough, hcall]
  dsimp only
  rw [hreplied]
  dsimp only
  rw [Utf8.decodeText_encode]

/-- So it is read as it was written unless it begins with the mark. -/
theorem read_exact_iff (hplain : PlainRoot s.fs (names (serverDir s.config.dataDir uuid)))
    (hwrite : WritesFile db nodes uuid dto user s s') (hp : placeOf dto.path = some p)
    (hq : placeOf path = some p) (hnul : '\x00' ∉ path.toList)
    (hsize : targetSize uuid "files/read" (pathSent path) ≤ uriLimit) :
    readThrough db nodes uuid (some path) user s' = some dto.content ↔
      dto.content.toList.head? ≠ some '\uFEFF' := by
  rw [read_of_writesFile hplain hwrite hp hq hnul hsize, Option.some.injEq, Utf8.withoutMark_eq_iff]

end Reading

section Examples

/-- A note with a mark in front, in a directory that is made for it. -/
def markedNote : WriteFileDto := ⟨"/my notes/ü.txt", "\uFEFFhi"⟩

def notedDisk : AppState :=
  { serverDisk [] with
    fs := ((serverDisk []).fs.set ["data", "3f0e", "my notes"] .dir).set
      ["data", "3f0e", "my notes", "ü.txt"] (.file markedNote.content) }

theorem writes_markedNote : WritesFile oneServer (fun _ => nodeCredential) "3f0e" markedNote
    serverOwner (serverDisk []) notedDisk := by
  have hserved : serveFiles (serverDir (serverDisk []).config.dataDir ownedServer.uuid)
      (.write markedNote.path markedNote.content) (serverDisk []).fs =
        (.ok .success, notedDisk.fs) := by decide +kernel
  have hsize : (Json.stringify [("path", markedNote.path),
      ("content", markedNote.content)]).toUTF8.size ≤ bodyLimit := by decide +kernel
  exact writesFile_of_served (by decide) owner_granted (daemon_accepts []) hsize hserved

theorem plainRoot_serverDisk :
    PlainRoot (serverDisk []).fs (names (serverDir (serverDisk []).config.dataDir "3f0e")) := by
  have hnames : names (serverDir (serverDisk []).config.dataDir "3f0e") = ["data", "3f0e"] := by
    decide +kernel
  have hdata : (serverDisk []).fs.DirPath ["data"] := (FileSystem.DirPath.nil _).snoc (by decide) (by decide)
  rw [hnames]
  refine ⟨hdata.snoc (by decide) (by decide), linkFree_of_entries ?_⟩
  intro x hx target
  simp only [serverDisk, List.mem_cons, List.not_mem_nil, or_false] at hx
  rcases hx with rfl | rfl <;> simp

/-- The note is read, under another spelling, without the mark. -/
theorem markedNote_read : readThrough oneServer (fun _ => nodeCredential) "3f0e"
    (some "my notes//./ü.txt") serverOwner notedDisk = some "hi" := by
  have hmark : Utf8.withoutMark markedNote.content = "hi" := by decide +kernel
  have hplace : placeOf markedNote.path = some ["my notes", "ü.txt"] := by decide +kernel
  have hspelling : placeOf "my notes//./ü.txt" = some ["my notes", "ü.txt"] := by decide +kernel
  rw [← hmark]
  exact read_of_writesFile plainRoot_serverDisk writes_markedNote hplace hspelling (by decide)
    (by decide +kernel)

end Examples

end Joint
