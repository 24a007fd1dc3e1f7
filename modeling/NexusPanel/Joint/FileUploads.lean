import NexusPanel.Foundation.FileFrames
import NexusPanel.Foundation.Utf8
import NexusPanel.Joint.FileRequests

/-!
# Uploads through the panel

`FilesController.upload` turns the bytes of the file into a string and writes that with `writeFile`,
like the text of an editor. Everything behind that is exact: the JSON, the UTF-8 of the body, the
string of Wings and its bytes in the file. The first step is not. Bytes that are no UTF-8 are
replaced, and Wings stores something else than was uploaded.

The route of Wings that takes a file as it is, `upload`, is not used by the panel.
-/

namespace Panel

/-- What multer makes of the part of the form that is called `file`. -/
structure UploadedFile where
  originalname : String
  buffer : ByteArray

namespace FilesController

/-- The call that an upload makes; the path is `/` unless the query has one. `nodes` has the
credential of each node. -/
def upload (db : ServerTables) (nodes : String → Credential) (uuid : String)
    (path : Option String) (file : UploadedFile) (user : CurrentUser) :
    Except HttpException FilesCall := do
  let server ← getServerWithAccess db uuid user
  let content := Utf8.decode file.buffer
  return WingsService.writeFile (nodes server.nodeId) server.uuid
    (path.getD "/" ++ "/" ++ file.originalname) content

end FilesController

end Panel

namespace Joint

open Panel Wings StateAction FS Fallible

/-- An upload that succeeds: the panel makes the call, and the Wings of the server's node answers
it with a success. -/
def Uploads (db : ServerTables) (nodes : String → Credential) (uuid : String)
    (path : Option String) (file : UploadedFile) (user : CurrentUser) (s s' : AppState) : Prop :=
  ∃ call, FilesController.upload db nodes uuid path file user = .ok call ∧
    answered s call = some s'

/-- The file that an upload writes is the one at the path as Wings validates it, and it has the
bytes. -/
def StoresBytes (s s' : AppState) (uuid : String) (path : Option String) (file : UploadedFile) :
    Prop :=
  ∃ p content, validatePath s.fs (serverDir s.config.dataDir uuid)
      (path.getD "/" ++ "/" ++ file.originalname) = .ok p ∧
    s'.fs.readFile p = some content ∧ content.toUTF8 = file.buffer

/-- A write that succeeds: the file at the validated path has the content. -/
theorem serveFiles_write_ok {fs fs' : FileSystem} {root path content : String}
    {response : FileResponse}
    (h : serveFiles root (.write path content) fs = (.ok response, fs')) :
    ∃ p, validatePath fs root path = .ok p ∧ fs'.readFile p = some content := by
  rw [serveFiles] at h
  obtain ⟨p, _, hvalidated, hrest⟩ := ok_of_bind h
  obtain ⟨rfl, hvalid⟩ := validated_ok hvalidated
  obtain ⟨_, _, hwrite, hrest⟩ := ok_of_bind hrest
  cases hrest
  obtain ⟨_, fs₁, -, hchange⟩ := ok_of_bind hwrite
  exact ⟨p, hvalid, FileSystem.readFile_of_writeFile (change_ok hchange)⟩

section Uploading

variable {db : ServerTables} {nodes : String → Credential} {uuid : String}
  {path : Option String} {file : UploadedFile} {user : CurrentUser} {s s' : AppState}

/-- An upload to a server that the user may use, with a file that is not too large and that Wings
can write. -/
theorem uploads_of_served {server : Server} {response : FileResponse} {fs : FileSystem}
    {requested : String} (hserver : getServerWithAccess db uuid user = .ok server)
    (hrequested : requested = path.getD "/" ++ "/" ++ file.originalname)
    (hauth : authMiddleware s.config (some (nodes server.nodeId).authorization) = .ok ())
    (hsize : (Json.stringify [("path", requested),
      ("content", Utf8.decode file.buffer)]).toUTF8.size ≤ bodyLimit)
    (hserved : serveFiles (serverDir s.config.dataDir server.uuid)
      (.write requested (Utf8.decode file.buffer)) s.fs = (.ok response, fs)) :
    Uploads db nodes uuid path file user s { s with fs } := by
  subst hrequested
  refine ⟨_, by rw [FilesController.upload, hserver]; rfl, ?_⟩
  exact (answered_iff ((received_eq hauth hsize).trans (ofBody_write ..))).mpr
    ⟨response, fs, hserved, rfl⟩

/-- What an upload that succeeds has written. -/
theorem stored_of_uploads (h : Uploads db nodes uuid path file user s s') :
    ∃ p, validatePath s.fs (serverDir s.config.dataDir uuid)
        (path.getD "/" ++ "/" ++ file.originalname) = .ok p ∧
      s'.fs.readFile p = some (Utf8.decode file.buffer) := by
  obtain ⟨call, hupload, hanswered⟩ := h
  simp only [FilesController.upload, bind_eq_ok, pure_eq_ok] at hupload
  obtain ⟨server, hserver, rfl⟩ := hupload
  obtain rfl : server.uuid = uuid :=
    by simpa only [beq_iff_eq] using Table.findOne_sat (getServerWithAccess_ok hserver).1
  obtain ⟨response, hserved⟩ := answered_files (ofBody_write ..) hanswered
  exact serveFiles_write_ok hserved

/-- An upload that succeeds stores the bytes that were uploaded exactly when these are the UTF-8 of
a text. -/
theorem upload_exact_iff (h : Uploads db nodes uuid path file user s s') :
    StoresBytes s s' uuid path file ↔ ∃ text : String, text.toUTF8 = file.buffer := by
  obtain ⟨p, hvalid, hread⟩ := stored_of_uploads h
  rw [← Utf8.encode_decode_iff]
  constructor
  · rintro ⟨q, content, hq, hcontent, hbytes⟩
    cases hvalid.symm.trans hq
    cases hread.symm.trans hcontent
    exact hbytes
  · intro hbytes
    exact ⟨p, _, hvalid, hread, hbytes⟩

end Uploading

/-! ## An upload of one byte -/

section Examples

/-- The file is written. -/
def uploadedDisk (content : String) : AppState :=
  { serverDisk [] with fs := (serverDisk []).fs.set ["data", "3f0e", "a.dat"] (.file content) }

theorem uploads_byte {b : UInt8} {content : String} (hcontent : Utf8.decode ⟨#[b]⟩ = content)
    (hserved : serveFiles "/data/3f0e" (.write "//a.dat" content) (serverDisk []).fs =
      (.ok .success, (uploadedDisk content).fs))
    (hsize : (Json.stringify [("path", "//a.dat"), ("content", content)]).toUTF8.size ≤ bodyLimit) :
    Uploads oneServer (fun _ => nodeCredential) "3f0e" none ⟨"a.dat", ⟨#[b]⟩⟩ serverOwner
      (serverDisk []) (uploadedDisk content) := by
  subst hcontent
  have hrequested : "//a.dat" = "/" ++ "/" ++ "a.dat" := by decide
  exact uploads_of_served owner_granted hrequested (daemon_accepts []) hsize hserved

/-- A letter is stored. -/
theorem letter_stored : StoresBytes (serverDisk []) (uploadedDisk "A") "3f0e" none ⟨"a.dat", ⟨#[65]⟩⟩ := by
  have hserved : serveFiles "/data/3f0e" (.write "//a.dat" "A") (serverDisk []).fs =
      (.ok .success, (uploadedDisk "A").fs) := by decide +kernel
  have hsize : (Json.stringify [("path", "//a.dat"), ("content", "A")]).toUTF8.size ≤ bodyLimit := by
    decide +kernel
  have hcontent : Utf8.decode ⟨#[65]⟩ = "A" := by decide +kernel
  refine (upload_exact_iff (uploads_byte hcontent hserved hsize)).mpr ⟨"A", ?_⟩
  decide +kernel

/-- The byte 0xFF is stored as U+FFFD. -/
theorem byte_replaced : Uploads oneServer (fun _ => nodeCredential) "3f0e" none
      ⟨"a.dat", ⟨#[255]⟩⟩ serverOwner (serverDisk []) (uploadedDisk "\uFFFD") ∧
    ¬ StoresBytes (serverDisk []) (uploadedDisk "\uFFFD") "3f0e" none ⟨"a.dat", ⟨#[255]⟩⟩ := by
  have hserved : serveFiles "/data/3f0e" (.write "//a.dat" "\uFFFD") (serverDisk []).fs =
      (.ok .success, (uploadedDisk "\uFFFD").fs) := by decide +kernel
  have hsize : (Json.stringify [("path", "//a.dat"),
      ("content", "\uFFFD")]).toUTF8.size ≤ bodyLimit := by decide +kernel
  have hcontent : Utf8.decode ⟨#[255]⟩ = "\uFFFD" := by decide +kernel
  have huploads := uploads_byte hcontent hserved hsize
  refine ⟨huploads, ?_⟩
  rintro ⟨p, content, hp, hread, hbytes⟩
  obtain ⟨q, hq, hstored⟩ := stored_of_uploads huploads
  cases hp.symm.trans hq
  rw [hread] at hstored
  cases hstored
  revert hbytes
  decide +kernel

end Examples

end Joint
