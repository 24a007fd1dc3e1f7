import Mathlib.Data.Char
import Mathlib.Data.List.Lex
import NexusPanel.Wings.State

/-!
# The file API

`validate_path` and the operations behind the file routes. A path that exists when it is
validated is resolved by the operating system; any other path is normalised by its text
alone, from the canonical root, and is used as it then stands.

The operations act on the file system, and what they changed before they failed stays. What
a zip or tar extraction does is left to the request: the archive formats are libraries.
-/

namespace Wings

open StateAction FS

/-! ## validate_path -/

/-- The loop over the components of a path that does not exist. -/
def normalize (canonicalRoot : Path) : Path → List Name → Option Path
  | normalized, [] => some normalized
  | normalized, c :: cs =>
    if c = "." then normalize canonicalRoot normalized cs
    else if c = ".." then
      if !canonicalRoot.isPrefixOf normalized || normalized = canonicalRoot then none
      else if !canonicalRoot.isPrefixOf normalized.dropLast then none
      else normalize canonicalRoot normalized.dropLast cs
    else normalize canonicalRoot (normalized ++ [c]) cs

/-- `requested_path.trim_start_matches('/')`. -/
def trimSlashes (requested : String) : String :=
  String.ofList (requested.toList.dropWhile (· == '/'))

/-- Validates and resolves a requested path to ensure it stays within `server_root`. -/
def validatePath (fs : FileSystem) (serverRoot requested : String) : Except WingsError Path :=
  if '\x00' ∈ requested.toList then .error .pathTraversal
  else
    let clean := trimSlashes requested
    if isAbsolute clean then .error .pathTraversal
    else
      let joined := components (joinPath serverRoot clean)
      match fs.canonicalize (components serverRoot) with
      | none => .error (.io "Server root does not exist")
      | some canonicalRoot =>
        if fs.exists joined then
          match fs.canonicalize joined with
          | none => .error (.io "entity not found")
          | some resolved =>
            if canonicalRoot.isPrefixOf resolved then .ok resolved else .error .pathTraversal
        else
          match normalize canonicalRoot canonicalRoot (components clean) with
          | none => .error .pathTraversal
          | some normalized =>
            if canonicalRoot.isPrefixOf normalized then .ok normalized
            else .error .pathTraversal

/-! ## Operations -/

/-- An operation on the files. -/
abbrev FileAction (α : Type) := StateAction FileSystem WingsError α

/-- A call of the standard library that makes one change or fails. -/
def change (f : FileSystem → Except IoError FileSystem) : FileAction Unit := fun fs =>
  match f fs with
  | .ok fs' => (.ok (), fs')
  | .error _ => (.error (.io "I/O error"), fs)

/-- `create_dir_all(path)?`. -/
def makeDirs (p : Path) : FileAction Unit := fun fs =>
  match fs.createDirAll p with
  | (fs', none) => (.ok (), fs')
  | (fs', some _) => (.error (.io "I/O error"), fs')

structure FileEntry where
  name : String
  isDirectory : Bool
  size : Nat
deriving DecidableEq, Repr

def maxFileSize : Nat := 10 * 1024 * 1024

/-- What `DirEntry::metadata` says: a link is not followed. -/
def fileEntry (fs : FileSystem) (dir : Path) (name : Name) : FileEntry :=
  match fs.lookup (dir ++ [name]) with
  | some .dir => ⟨name, true, 0⟩
  | some (.file content) => ⟨name, false, content.utf8ByteSize⟩
  | some (.link target) => ⟨name, false, target.utf8ByteSize⟩
  | none => ⟨name, false, 0⟩

/-- Directories first, then by name without case. -/
def entryBefore (a b : FileEntry) : Bool :=
  if a.isDirectory = b.isDirectory then
    a.name.toList.map Char.toLower ≤ b.name.toList.map Char.toLower
  else a.isDirectory

def listDirectory (p : Path) : FileAction (List FileEntry) := do
  let fs ← get
  match fs.resolve p with
  | .found dir =>
    ensure (fs.lookup dir = some .dir) (.io "not a directory")
    pure (((fs.children dir).map (fileEntry fs dir)).mergeSort entryBefore)
  | _ => fail (.io "No such file or directory")

def readFile (p : Path) : FileAction String := do
  let fs ← get
  let content ← ofOption (fs.readFile p) (.io "No such file or directory")
  ensure (content.utf8ByteSize ≤ maxFileSize) .fileTooLarge
  pure content

/-- The missing parents are made, then the file is written. -/
def writeFile (p : Path) (content : String) : FileAction Unit := do
  makeDirs p.dropLast
  change fun fs => fs.writeFile p content

def createDirectory (p : Path) : FileAction Unit := makeDirs p

def renameEntry (src dst : Path) : FileAction Unit := change fun fs => fs.rename src dst

def deleteEntry (p : Path) : FileAction Unit := do
  let fs ← get
  if fs.isDir p then change fun fs => fs.removeDirAll p
  else change fun fs => fs.removeFile p

def deleteEntries (paths : List Path) : FileAction Unit := forEach paths deleteEntry

/-- `File::create(dest)` and whatever bytes the archive ends up with. -/
def compress (dest : Path) (archive : String) : FileAction Unit :=
  change fun fs => fs.writeFile dest archive

/-- What an extraction leaves behind, and whether it failed. -/
structure Extraction where
  result : FileSystem
  failed : Bool

/-- The extension after the last dot of the file name, unless that dot starts it. -/
def extension (p : Path) : String :=
  match p.getLast? with
  | none => ""
  | some name =>
    let rev := name.toList.reverse
    if '.' ∈ rev.dropLast then String.ofList (rev.takeWhile (· ≠ '.')).reverse else ""

def decompress (archive : Path) (extraction : Extraction) : FileAction Unit := do
  let fs ← get
  ensure (extension archive ∈ ["zip", "gz", "tgz"])
    (.io ("Unsupported archive format: " ++ extension archive))
  ensure (fs.readFile archive).isSome (.io "No such file or directory")
  modify fun _ => extraction.result
  ensure (!extraction.failed) (.io "extraction failed")

/-! ## Routes -/

/-- The bodies of the file routes. A compression carries the bytes it writes, a decompression
what the archive library does. -/
inductive FileRequest
  | list (path : Option String)
  | read (path : Option String)
  | write (path content : String)
  | directory (path : String)
  | rename (src dst : String)
  | delete (paths : List String)
  | compress (paths : List String) (destination : String) (archive : String)
  | decompress (path destination : String) (extraction : Extraction)
  | upload (fields : List (Option String × String))

inductive FileResponse
  | files (files : List FileEntry)
  | content (content : String)
  | success
deriving DecidableEq, Repr

/-- `validate_path(&root, requested)?` in the file system as it is now. -/
def validated (root requested : String) : FileAction Path := do
  let fs ← get
  match validatePath fs root requested with
  | .ok p => pure p
  | .error e => fail e

theorem validated_eq (root requested : String) (fs : FileSystem) :
    validated root requested fs = (validatePath fs root requested, fs) := by
  rw [validated, bind_ok (show (StateAction.get : FileAction FileSystem) fs = (.ok fs, fs) from rfl)]
  cases validatePath fs root requested <;> rfl

/-- Every path of a list is validated before anything is done. -/
def validatedAll (root : String) : List String → FileAction (List Path)
  | [] => pure []
  | requested :: rest => do
    let p ← validated root requested
    let ps ← validatedAll root rest
    pure (p :: ps)

/-- One field of an upload: no parent is made for it. -/
def uploadField (root : String) (field : Option String × String) : FileAction Unit := do
  let p ← validated root (field.1.getD "upload")
  change fun fs => fs.writeFile p field.2

/-- The file routes, on the files under a server's root. -/
def serveFiles (root : String) : FileRequest → FileAction FileResponse
  | .list path => do
    let p ← validated root (path.getD "/")
    return .files (← listDirectory p)
  | .read path => do
    let p ← validated root (path.getD "/")
    return .content (← readFile p)
  | .write path content => do
    let p ← validated root path
    writeFile p content
    return .success
  | .directory path => do
    let p ← validated root path
    createDirectory p
    return .success
  | .rename src dst => do
    let p ← validated root src
    let q ← validated root dst
    renameEntry p q
    return .success
  | .delete paths => do
    let ps ← validatedAll root paths
    deleteEntries ps
    return .success
  | .compress paths destination archive => do
    let _ ← validatedAll root paths
    let dest ← validated root destination
    Wings.compress dest archive
    return .success
  | .decompress path destination extraction => do
    let archive ← validated root path
    let _ ← validated root destination
    Wings.decompress archive extraction
    return .success
  | .upload fields => do
    forEach fields (uploadField root)
    return .success

end Wings
