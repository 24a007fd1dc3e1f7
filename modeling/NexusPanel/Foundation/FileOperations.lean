import NexusPanel.Foundation.FileSystem

/-!
# Operations on a file system

The calls of a standard library, on top of the walk. Opening follows links, also a final one
that dangles, so writing may create a file at a link's target; the calls that work on a
directory entry (`mkdir`, `removeFile`, `removeDirAll`, `rename`) resolve the directory and
take the last name as it is.

A call either fails without a change or makes one change; `createDirAll` may leave the
directories it made before it failed, so it returns the file system in either case.
-/

namespace FS

/-- The kinds of failure callers tell apart. -/
inductive IoError
  | notFound
  | alreadyExists
  | other
deriving DecidableEq, Repr

namespace FileSystem

/-! ## Changes -/

def set (fs : FileSystem) (p : Path) (e : Entry) : FileSystem :=
  ⟨(p, e) :: fs.entries.filter fun x => x.1 ≠ p⟩

/-- Drop the entry at `p` and everything below it. -/
def removeTree (fs : FileSystem) (p : Path) : FileSystem :=
  ⟨fs.entries.filter fun x => !p.isPrefixOf x.1⟩

/-- Move the entry at `src`, with everything below it, over `dst`. -/
def moveTree (fs : FileSystem) (src dst : Path) : FileSystem :=
  ⟨((fs.entries.filter fun x => src.isPrefixOf x.1).map fun x =>
      (dst ++ x.1.drop src.length, x.2)) ++
    fs.entries.filter fun x => !src.isPrefixOf x.1 && !dst.isPrefixOf x.1⟩

/-! ## Queries -/

/-- The names in a directory. -/
def children (fs : FileSystem) (p : Path) : List Name :=
  (fs.entries.filterMap fun x => if x.1.dropLast = p then x.1.getLast? else none).dedup

def «exists» (fs : FileSystem) (path : List Name) : Bool :=
  match fs.resolve path with
  | .found _ => true
  | _ => false

def isDir (fs : FileSystem) (path : List Name) : Bool :=
  match fs.resolve path with
  | .found p => fs.lookup p == some .dir
  | _ => false

/-- `realpath`. -/
def canonicalize (fs : FileSystem) (path : List Name) : Option Path :=
  match fs.resolve path with
  | .found p => some p
  | _ => none

def readFile (fs : FileSystem) (path : List Name) : Option String :=
  match fs.resolve path with
  | .found p =>
    match fs.lookup p with
    | some (.file content) => some content
    | _ => none
  | _ => none

/-- The directory a path ends in and the last name, which is not followed. -/
def entryAt (fs : FileSystem) (path : List Name) : Except IoError (Path × Name) :=
  match path.getLast? with
  | none => .error .alreadyExists
  | some name =>
    match fs.resolve path.dropLast with
    | .found dir =>
      if fs.lookup dir = some .dir ∧ IsNormal name then .ok (dir, name) else .error .other
    | .absent _ _ | .missing => .error .notFound
    | .refused => .error .other

/-! ## Calls -/

/-- Create or truncate the file a path leads to. -/
def writeFile (fs : FileSystem) (path : List Name) (content : String) :
    Except IoError FileSystem :=
  match fs.resolve path with
  | .found p =>
    match fs.lookup p with
    | some (.file _) => .ok (fs.set p (.file content))
    | _ => .error .other
  | .absent dir name => .ok (fs.set (dir ++ [name]) (.file content))
  | .missing => .error .notFound
  | .refused => .error .other

def mkdir (fs : FileSystem) (path : List Name) : Except IoError FileSystem :=
  match fs.entryAt path with
  | .ok (dir, name) =>
    match fs.lookup (dir ++ [name]) with
    | none => .ok (fs.set (dir ++ [name]) .dir)
    | some _ => .error .alreadyExists
  | .error e => .error e

/-- `create_dir_all`, over the components from the last to the first. -/
def createDirAllRev (fs : FileSystem) : List Name → FileSystem × Option IoError
  | [] => (fs, none)
  | name :: up =>
    let path := (name :: up).reverse
    match fs.mkdir path with
    | .ok fs' => (fs', none)
    | .error .notFound =>
      match fs.createDirAllRev up with
      | (fs', some e) => (fs', some e)
      | (fs', none) =>
        match fs'.mkdir path with
        | .ok fs'' => (fs'', none)
        | .error e => (fs', if fs'.isDir path then none else some e)
    | .error e => (fs, if fs.isDir path then none else some e)

def createDirAll (fs : FileSystem) (path : List Name) : FileSystem × Option IoError :=
  fs.createDirAllRev path.reverse

def removeFile (fs : FileSystem) (path : List Name) : Except IoError FileSystem :=
  match fs.entryAt path with
  | .ok (dir, name) =>
    match fs.lookup (dir ++ [name]) with
    | some (.file _) | some (.link _) => .ok (fs.removeTree (dir ++ [name]))
    | some .dir => .error .other
    | none => .error .notFound
  | .error e => .error e

/-- A link is removed itself; what it points to stays. -/
def removeDirAll (fs : FileSystem) (path : List Name) : Except IoError FileSystem :=
  match fs.entryAt path with
  | .ok (dir, name) =>
    match fs.lookup (dir ++ [name]) with
    | some .dir | some (.link _) => .ok (fs.removeTree (dir ++ [name]))
    | some (.file _) => .error .other
    | none => .error .notFound
  | .error e => .error e

/-- Whether an entry may replace another one. -/
def replaceable (fs : FileSystem) (e : Entry) (dst : Path) : Bool :=
  match e, fs.lookup dst with
  | _, none => true
  | .dir, some .dir => fs.children dst == []
  | .dir, some _ => false
  | _, some .dir => false
  | _, some _ => true

def rename (fs : FileSystem) (src dst : List Name) : Except IoError FileSystem :=
  match fs.entryAt src, fs.entryAt dst with
  | .ok (d₁, n₁), .ok (d₂, n₂) =>
    let p := d₁ ++ [n₁]
    let q := d₂ ++ [n₂]
    match fs.lookup p with
    | none => .error .notFound
    | some e =>
      if p = q then .ok fs
      else if p.isPrefixOf q || !fs.replaceable e q then .error .other
      else .ok (fs.moveTree p q)
  | .error e, _ => .error e
  | _, .error e => .error e

/-! ## Frames -/

section Frames

variable {fs fs' : FileSystem} {p q : Path}

theorem lookup_filter (keep : Path → Bool) {l : List (Path × Entry)} (h : keep q = true) :
    (l.filter fun x => keep x.1).lookup q = l.lookup q := by
  induction l with
  | nil => rfl
  | cons x l ih =>
    obtain ⟨k, e⟩ := x
    by_cases hkq : q = k
    · subst hkq
      rw [List.filter_cons_of_pos (by exact h), List.lookup_cons_self, List.lookup_cons_self]
    · have hne : (q == k) = false := beq_eq_false_iff_ne.mpr hkq
      rw [List.lookup_cons, hne]
      by_cases hk : keep k = true
      · rw [List.filter_cons_of_pos (by exact hk), List.lookup_cons, hne]
        exact ih
      · rw [List.filter_cons_of_neg (by exact hk)]
        exact ih

theorem lookup_filter_none (keep : Path → Bool) {l : List (Path × Entry)} (h : keep q = false) :
    (l.filter fun x => keep x.1).lookup q = none := by
  rw [List.lookup_eq_none_iff]
  intro x hx
  have hkeep := List.of_mem_filter hx
  rw [bne_iff_ne]
  rintro rfl
  rw [h] at hkeep
  cases hkeep

theorem lookup_set (hp : p ≠ []) (e : Entry) :
    (fs.set p e).lookup q = if q = p then some e else fs.lookup q := by
  unfold lookup set
  by_cases hq : q = []
  · subst hq
    rw [if_pos rfl, if_neg (Ne.symm hp), if_pos rfl]
  · rw [if_neg hq, if_neg hq]
    by_cases hqp : q = p
    · subst hqp
      rw [if_pos rfl, List.lookup_cons_self]
    · rw [if_neg hqp, List.lookup_cons, beq_eq_false_iff_ne.mpr hqp]
      exact lookup_filter (fun r => decide (r ≠ p)) (decide_eq_true hqp)

theorem lookup_removeTree (hp : p ≠ []) :
    (fs.removeTree p).lookup q = if p <+: q then none else fs.lookup q := by
  unfold lookup removeTree
  by_cases hq : q = []
  · subst hq
    rw [if_pos rfl, if_neg (fun h => hp (List.prefix_nil.mp h)), if_pos rfl]
  · rw [if_neg hq, if_neg hq]
    split
    next h =>
      exact lookup_filter_none (fun r => !p.isPrefixOf r)
        (by rw [List.isPrefixOf_iff_prefix.mpr h]; rfl)
    next h =>
      exact lookup_filter (fun r => !p.isPrefixOf r)
        (by rw [Bool.not_eq_true', ← Bool.not_eq_true, List.isPrefixOf_iff_prefix]; exact h)

end Frames

/-! ## Contents -/

section Contents

variable {fs fs' : FileSystem} {P : String → Prop} {p : Path} {path : List Name}

/-- Every regular file, wherever it is, has a content that satisfies `P`. -/
def AllFiles (P : String → Prop) (fs : FileSystem) : Prop :=
  ∀ p content, fs.lookup p = some (.file content) → P content

theorem AllFiles.set {e : Entry} (h : fs.AllFiles P) (he : ∀ content, e = .file content → P content) :
    (fs.set p e).AllFiles P := by
  intro q content hq
  by_cases hp : p = []
  · -- The root is a directory whatever is stored for it.
    subst hp
    unfold lookup FileSystem.set at hq
    by_cases hroot : q = []
    · rw [if_pos hroot] at hq
      cases hq
    · rw [if_neg hroot, List.lookup_cons, beq_eq_false_iff_ne.mpr hroot] at hq
      refine h q content ?_
      rw [lookup, if_neg hroot, ← hq]
      exact (lookup_filter (fun r => decide (r ≠ [])) (decide_eq_true hroot)).symm
  · rw [lookup_set hp] at hq
    split at hq
    · exact he content (Option.some.inj hq)
    · exact h q content hq

theorem AllFiles.removeTree (h : fs.AllFiles P) (hp : p ≠ []) : (fs.removeTree p).AllFiles P := by
  intro q content hq
  rw [lookup_removeTree hp] at hq
  split at hq
  · cases hq
  · exact h q content hq

theorem AllFiles.mkdir (h : fs.AllFiles P) (hmk : fs.mkdir path = .ok fs') : fs'.AllFiles P := by
  unfold FileSystem.mkdir at hmk
  split at hmk
  next =>
    split at hmk
    · cases hmk
      exact h.set fun content heq => nomatch heq
    · cases hmk
  next => cases hmk

theorem AllFiles.createDirAllRev {rev : List Name} (h : fs.AllFiles P) :
    (fs.createDirAllRev rev).1.AllFiles P := by
  induction rev with
  | nil => exact h
  | cons name up ih =>
    unfold FileSystem.createDirAllRev
    dsimp only
    split
    next fs' hmk => exact h.mkdir hmk
    next =>
      split
      next fs' e heq =>
        rw [heq] at ih
        exact ih
      next fs' heq =>
        rw [heq] at ih
        split
        next fs'' hmk => exact AllFiles.mkdir ih hmk
        next => exact ih
    next => exact h

theorem AllFiles.createDirAll (h : fs.AllFiles P) : (fs.createDirAll path).1.AllFiles P :=
  h.createDirAllRev

theorem AllFiles.writeFile {content : String} (h : fs.AllFiles P) (hcontent : P content)
    (hwrite : fs.writeFile path content = .ok fs') : fs'.AllFiles P := by
  have hfile : ∀ c, Entry.file content = .file c → P c := by
    rintro c ⟨⟩
    exact hcontent
  unfold FileSystem.writeFile at hwrite
  split at hwrite
  next =>
    split at hwrite
    · cases hwrite
      exact h.set hfile
    · cases hwrite
  next =>
    cases hwrite
    exact h.set hfile
  next => cases hwrite
  next => cases hwrite

theorem AllFiles.removeFile (h : fs.AllFiles P) (hremove : fs.removeFile path = .ok fs') :
    fs'.AllFiles P := by
  unfold FileSystem.removeFile at hremove
  split at hremove
  next dir name _ =>
    have hne : dir ++ [name] ≠ [] := List.append_ne_nil_of_right_ne_nil _ (List.cons_ne_nil _ _)
    split at hremove
    · cases hremove
      exact h.removeTree hne
    · cases hremove
      exact h.removeTree hne
    · cases hremove
    · cases hremove
  next => cases hremove

/-- What is read is the content of some file. -/
theorem AllFiles.readFile {content : String} (h : fs.AllFiles P)
    (hread : fs.readFile path = some content) : P content := by
  unfold FileSystem.readFile at hread
  split at hread
  next q _ =>
    split at hread
    next c hfile =>
      cases hread
      exact h q content hfile
    next => cases hread
  next => cases hread

end Contents

end FileSystem

end FS
