import NexusPanel.Foundation.Descent
import NexusPanel.Wings.BulkDeletion

/-!
# Archives

`compress` creates the archive, and then adds what it finds: for a directory that was asked for, all
that a walk through it comes to, and for anything else the file itself. The archive is the only file
that changes meanwhile, so the files are taken as they are after its creation, and reading the
archive itself gives what it holds by then.

The archive format is the library's. It turns the entries into bytes, refuses a name that was used
before or lets it be used again, stops in a content that is too large for it, and extracts.

A name of the operating system is bytes, and an entry's name is the text that `to_string_lossy` makes
of it. A volume has finitely many names; those that are no text stand here as strings that nothing
else on it uses, and `lossy` gives the text of each name.
-/

namespace FS.FileSystem

/-- The regular file that opening a path for reading opens, and its content. -/
def openFile (fs : FileSystem) (path : List Name) : Option (Path × String) :=
  match fs.resolve path with
  | .found loc =>
    match fs.lookup loc with
    | some (.file content) => some (loc, content)
    | _ => none
  | _ => none

/-- The location of the file that is created or truncated. -/
def createdAt (fs : FileSystem) (path : List Name) : Option Path :=
  match fs.resolve path with
  | .found loc => some loc
  | .absent dir name => some (dir ++ [name])
  | _ => none

end FS.FileSystem

namespace Wings

open StateAction FS FileSystem

/-! ## The archive library -/

/-- The name of an archive entry: the names between its slashes, and whether it ends in one. -/
structure EntryName where
  parts : List Name
  slash : Bool
deriving DecidableEq, Repr

inductive ZipEntry
  | dir (parts : List Name)
  | file (parts : List Name) (content : String)
deriving DecidableEq, Repr

def ZipEntry.name : ZipEntry → EntryName
  | .dir parts => ⟨parts, true⟩
  | .file parts _ => ⟨parts, false⟩

/-- What an extraction into an empty directory leaves there. -/
abbrev Extracted := List Name → Option Entry

/-- The library: whether it refuses a name that was used, which contents it takes in full (without
`large_file` they have to be smaller than 4 GiB), the bytes in the file while entries are added, after
the end of the directory was written, and when the writer is dropped before that, and the extraction,
which may fail. -/
structure ZipLibrary where
  refuses : Bool
  takes : String → Bool
  written : List ZipEntry → String
  finished : List ZipEntry → String
  dropped : List ZipEntry → String
  extract : String → Option Extracted

/-! ## compress -/

/-- An entry that was added, with the location that its content was read from. The content is what was
handed to the library; an entry that it does not take in full counts, since the part before it stops
is in the file. -/
structure Packed where
  entry : ZipEntry
  origin : Option Path
deriving DecidableEq, Repr

def Packed.name (m : Packed) : EntryName := m.entry.name

/-- All of the entry is in the archive. -/
def Packed.taken (library : ZipLibrary) (m : Packed) : Bool :=
  match m.entry with
  | .dir _ => true
  | .file _ content => library.takes content

/-- What stays the same while the archive is written. -/
structure Packing where
  lossy : Name → Name
  library : ZipLibrary
  files : FileSystem
  archive : Path

abbrev PackAction (α : Type) := StateAction (List Packed) WingsError α

/-- `start_file` and `add_directory`. -/
def startEntry (w : Packing) (entry : ZipEntry) : PackAction Unit := do
  let packed ← get
  ensure (!(w.library.refuses && decide (entry.name ∈ packed.map Packed.name)))
    (.io "Duplicate filename")
  modify fun packed => packed ++ [⟨entry, none⟩]

/-- `start_file`, `File::open`, `read_to_end` and `write_all`. -/
def packFile (w : Packing) (parts : List Name) (path : Path) : PackAction Unit := do
  startEntry w (.file parts "")
  let packed ← get
  let (loc, content) ← ofOption (w.files.openFile path) (.io "No such file or directory")
  let buf := if loc = w.archive then w.library.written (packed.map Packed.entry) else content
  modify fun packed => packed.dropLast ++ [⟨.file parts buf, some loc⟩]
  ensure (w.library.takes buf) (.io "Large file option has not been set")

/-- The name of an entry of a walk that started at a path begins with the last name of the path. -/
def entryParts (w : Packing) (path : Path) (rest : List Name) : List Name :=
  (path.getLast?.toList ++ rest).map w.lossy

def packEntry (w : Packing) (path : Path) (rest : List Name) : PackAction Unit :=
  if w.files.isDir (path ++ rest) then startEntry w (.dir (entryParts w path rest))
  else packFile w (entryParts w path rest) (path ++ rest)

def packPath (w : Packing) (path : Path) : PackAction Unit :=
  if w.files.isDir path then forEach (w.files.walkDir 64 path) (packEntry w path)
  else packFile w (entryParts w path []) path

/-- The answer, the files afterwards, and what was added to the archive. -/
structure Compression where
  answer : Except WingsError Unit
  files : FileSystem
  packed : List Packed

def compressTo (lossy : Name → Name) (library : ZipLibrary) (paths : List Path) (dest : Path)
    (fs : FileSystem) : Compression :=
  match fs.writeFile dest "", fs.createdAt dest with
  | .ok files, some archive =>
    let w : Packing := ⟨lossy, library, files, archive⟩
    match forEach paths (packPath w) [] with
    | (.ok _, packed) =>
      ⟨.ok (), files.set archive (.file (library.finished (packed.map Packed.entry))), packed⟩
    | (.error e, packed) =>
      ⟨.error e, files.set archive (.file (library.dropped (packed.map Packed.entry))), packed⟩
  | _, _ => ⟨.error (.io "I/O error"), fs, []⟩

/-- `compress_files`: all paths are validated, and then the destination. -/
def compressFiles (lossy : Name → Name) (library : ZipLibrary) (serverRoot : String)
    (requested : List String) (destination : String) (fs : FileSystem) : Compression :=
  match validatedAll serverRoot requested fs with
  | (.ok paths, _) =>
    match validatePath fs serverRoot destination with
    | .ok dest => compressTo lossy library paths dest fs
    | .error e => ⟨.error e, fs, []⟩
  | (.error e, _) => ⟨.error e, fs, []⟩

/-! ## One visit after the other -/

/-- An entry that `compress` looks at: a path that was asked for, and how to get from there to the
entry. -/
structure Visit where
  path : Path
  rest : List Name
deriving DecidableEq, Repr

/-- The path that is used for the entry. -/
def Visit.full (v : Visit) : Path := v.path ++ v.rest

def Visit.parts (w : Packing) (v : Visit) : List Name := entryParts w v.path v.rest

def visitsOf (fs : FileSystem) (path : Path) : List Visit :=
  if fs.isDir path then (fs.walkDir 64 path).map fun rest => ⟨path, rest⟩ else [⟨path, []⟩]

/-- All that `compress` looks at, in its order. -/
def visits (fs : FileSystem) (paths : List Path) : List Visit := paths.flatMap (visitsOf fs)

/-- The name that an entry gets. -/
def Visit.name (w : Packing) (v : Visit) : EntryName := ⟨v.parts w, w.files.isDir v.full⟩

/-- The location that is read for an entry. -/
def Visit.origin (w : Packing) (v : Visit) : Option Path :=
  if w.files.isDir v.full then none else (w.files.openFile v.full).map Prod.fst

/-- A directory, or a file that can be opened. -/
def Visit.Readable (w : Packing) (v : Visit) : Prop :=
  w.files.isDir v.full = true ∨ w.files.openFile v.full ≠ none

def pack (w : Packing) (v : Visit) : PackAction Unit := packEntry w v.path v.rest

/-- What a visit adds to what was packed before. -/
def Visit.packed (w : Packing) (before : List Packed) (v : Visit) : Option Packed :=
  if w.files.isDir v.full then some ⟨.dir (v.parts w), none⟩
  else (w.files.openFile v.full).map fun (loc, content) =>
    ⟨.file (v.parts w) (if loc = w.archive then
      w.library.written (before.map Packed.entry ++ [.file (v.parts w) ""]) else content), some loc⟩

/-- What the visits add to what was packed, one after the other. -/
def packedAfter (w : Packing) : List Packed → List Visit → List Packed
  | packed, [] => packed
  | packed, v :: vs => packedAfter w (packed ++ (v.packed w packed).toList) vs

/-- The visits can follow on what was packed: no name is used again if the library refuses that,
all files can be opened, and the library takes what is read. -/
structure Fits (w : Packing) (packed : List Packed) (vs : List Visit) : Prop where
  fresh : w.library.refuses = true → (packed.map Packed.name ++ vs.map (Visit.name w)).Nodup
  readable : ∀ v ∈ vs, v.Readable w
  taken : ∀ before v after, vs = before ++ v :: after →
    ∀ m, v.packed w (packedAfter w packed before) = some m → m.taken w.library = true

section Run

variable {w : Packing} {packed : List Packed} {v v' : Visit} {vs before : List Visit} {m : Packed}
  {loc : Path} {content : String}

theorem startEntry_eq (w : Packing) (entry : ZipEntry) (packed : List Packed) :
    startEntry w entry packed =
      if w.library.refuses = true ∧ entry.name ∈ packed.map Packed.name then
        (.error (.io "Duplicate filename"), packed)
      else (.ok (), packed ++ [⟨entry, none⟩]) := by
  have hget : (StateAction.get : PackAction (List Packed)) packed = (.ok packed, packed) := rfl
  unfold startEntry
  rw [bind_ok hget]
  by_cases hused : w.library.refuses = true ∧ entry.name ∈ packed.map Packed.name
  · have htest : (!(w.library.refuses && decide (entry.name ∈ packed.map Packed.name))) = false := by
      rw [hused.1, decide_eq_true hused.2]
      rfl
    rw [if_pos hused, htest]
    rfl
  · have htest : (!(w.library.refuses && decide (entry.name ∈ packed.map Packed.name))) = true := by
      rw [Bool.not_eq_true', Bool.and_eq_false_iff, decide_eq_false_iff_not, ← Bool.not_eq_true]
      exact not_and_or.mp hused
    rw [if_neg hused, htest]
    rfl

theorem packFile_eq (w : Packing) (parts : List Name) (path : Path) (packed : List Packed) :
    packFile w parts path packed =
      if w.library.refuses = true ∧ (⟨parts, false⟩ : EntryName) ∈ packed.map Packed.name then
        (.error (.io "Duplicate filename"), packed)
      else
        match w.files.openFile path with
        | none => (.error (.io "No such file or directory"), packed ++ [⟨.file parts "", none⟩])
        | some (loc, content) =>
          let m : Packed := ⟨.file parts (if loc = w.archive then
            w.library.written (packed.map Packed.entry ++ [.file parts ""]) else content), some loc⟩
          if m.taken w.library then (.ok (), packed ++ [m])
          else (.error (.io "Large file option has not been set"), packed ++ [m]) := by
  have hstart := startEntry_eq w (.file parts "") packed
  have hname : (ZipEntry.file parts "").name = ⟨parts, false⟩ := rfl
  rw [hname] at hstart
  unfold packFile
  split at hstart
  next hused =>
    rw [if_pos hused]
    exact bind_error hstart
  next hused =>
    have hget : (StateAction.get : PackAction (List Packed)) (packed ++ [⟨.file parts "", none⟩]) =
        (.ok (packed ++ [⟨.file parts "", none⟩]), packed ++ [⟨.file parts "", none⟩]) := rfl
    rw [if_neg hused, bind_ok hstart, bind_ok hget]
    cases hopen : w.files.openFile path with
    | none => rfl
    | some opened =>
      obtain ⟨loc, content⟩ := opened
      have hentries : (packed ++ [(⟨.file parts "", none⟩ : Packed)]).map Packed.entry =
          packed.map Packed.entry ++ [.file parts ""] := List.map_append
      have hreplace (m m' : Packed) : (StateAction.modify fun packed => packed.dropLast ++ [m'] :
          PackAction Unit) (packed ++ [m]) = (.ok (), packed ++ [m']) := by
        simp only [StateAction.modify, List.dropLast_concat]
      have hensure (b : Bool) (packed : List Packed) :
          (StateAction.ensure b (.io "Large file option has not been set") : PackAction Unit) packed =
            if b then (.ok (), packed)
            else (.error (.io "Large file option has not been set"), packed) := by
        cases b <;> rfl
      dsimp only
      rw [← hentries]
      refine (bind_ok rfl).trans ((bind_ok (hreplace _ _)).trans ?_)
      exact hensure _ _

/-- One visit: a name that may not be used again, a file that cannot be read, a content that is too
large, or an addition. -/
theorem pack_eq (w : Packing) (v : Visit) (packed : List Packed) :
    pack w v packed =
      if w.library.refuses = true ∧ v.name w ∈ packed.map Packed.name then
        (.error (.io "Duplicate filename"), packed)
      else
        match v.packed w packed with
        | none => (.error (.io "No such file or directory"),
            packed ++ [⟨.file (v.parts w) "", none⟩])
        | some m =>
          if m.taken w.library then (.ok (), packed ++ [m])
          else (.error (.io "Large file option has not been set"), packed ++ [m]) := by
  have hpack : pack w v = if w.files.isDir v.full then startEntry w (.dir (v.parts w))
      else packFile w (v.parts w) v.full := rfl
  unfold Visit.packed Visit.name
  rw [hpack]
  by_cases hdir : w.files.isDir v.full = true
  · rw [if_pos hdir, if_pos hdir, hdir]
    exact startEntry_eq w (.dir (v.parts w)) packed
  · rw [if_neg hdir, if_neg hdir, Bool.eq_false_iff.mpr hdir, packFile_eq]
    cases w.files.openFile v.full with
    | none => rfl
    | some opened => rfl

/-- An addition has the name, and the origin, of its visit. -/
theorem packed_spec (h : v.packed w packed = some m) :
    m.name = v.name w ∧ m.origin = v.origin w ∧ v.Readable w := by
  unfold Visit.packed at h
  unfold Visit.name Visit.origin Visit.Readable
  split at h
  next hdir =>
    cases h
    rw [hdir, if_pos rfl]
    exact ⟨rfl, rfl, .inl rfl⟩
  next hdir =>
    obtain ⟨⟨loc, content⟩, hopen, rfl⟩ := Option.map_eq_some_iff.mp h
    rw [if_neg hdir, Bool.eq_false_iff.mpr hdir, hopen]
    exact ⟨rfl, rfl, .inr (by simp)⟩

theorem packed_none : v.packed w packed = none ↔ ¬ v.Readable w := by
  unfold Visit.packed Visit.Readable
  split
  next hdir => simp [hdir]
  next hdir => simp [hdir]

theorem forall_cons_split {α : Type} {a : α} {l : List α} {P : List α → α → Prop} :
    (∀ before b after, a :: l = before ++ b :: after → P before b) ↔
      P [] a ∧ ∀ before b after, l = before ++ b :: after → P (a :: before) b := by
  constructor
  · exact fun h =>
      ⟨h [] a l rfl, fun before b after heq => h (a :: before) b after (by rw [heq]; rfl)⟩
  · rintro ⟨hfirst, hrest⟩ before b after heq
    cases before with
    | nil =>
      cases heq
      exact hfirst
    | cons first before =>
      cases heq
      exact hrest before b after rfl

theorem packedAfter_cons (h : v.packed w packed = some m) :
    packedAfter w packed (v :: vs) = packedAfter w (packed ++ [m]) vs := by
  rw [packedAfter, h]
  rfl

theorem names_snoc (h : v.packed w packed = some m) :
    (packed ++ [m]).map Packed.name ++ vs.map (Visit.name w) =
      packed.map Packed.name ++ (v :: vs).map (Visit.name w) := by
  rw [List.map_append, List.map_singleton, (packed_spec h).1, List.append_assoc]
  rfl

/-- After an addition the rest has to follow on one more name. -/
theorem fits_cons (h : v.packed w packed = some m) :
    Fits w packed (v :: vs) ↔ m.taken w.library = true ∧ Fits w (packed ++ [m]) vs := by
  have htaken : (∀ before v' after, v :: vs = before ++ v' :: after →
      ∀ m', v'.packed w (packedAfter w packed before) = some m' → m'.taken w.library = true) ↔
      m.taken w.library = true ∧ ∀ before v' after, vs = before ++ v' :: after →
        ∀ m', v'.packed w (packedAfter w (packed ++ [m]) before) = some m' →
          m'.taken w.library = true := by
    rw [forall_cons_split]
    refine and_congr ?_ (forall₄_congr fun before v' after _ => by rw [packedAfter_cons h])
    rw [packedAfter, h]
    exact ⟨fun hm => hm m rfl, fun hm m' heq => Option.some.inj heq ▸ hm⟩
  constructor
  · rintro ⟨hfresh, hreadable, hall⟩
    obtain ⟨hm, hrest⟩ := htaken.mp hall
    refine ⟨hm, ?_, fun v' hv' => hreadable v' (List.mem_cons_of_mem v hv'), hrest⟩
    rw [names_snoc h]
    exact hfresh
  · rintro ⟨hm, hfresh, hreadable, hrest⟩
    refine ⟨?_, List.forall_mem_cons.mpr ⟨(packed_spec h).2.2, hreadable⟩, htaken.mpr ⟨hm, hrest⟩⟩
    rw [← names_snoc h]
    exact hfresh

theorem Fits.head (h : Fits w packed (v :: vs)) :
    ¬ (w.library.refuses = true ∧ v.name w ∈ packed.map Packed.name) ∧
      ∃ m, v.packed w packed = some m ∧ m.taken w.library = true := by
  refine ⟨fun ⟨hrefuses, hused⟩ => ?_, ?_⟩
  · have hdisjoint := List.disjoint_of_nodup_append (h.fresh hrefuses)
    exact hdisjoint hused List.mem_cons_self
  · have hreadable := h.readable v List.mem_cons_self
    cases hm : v.packed w packed with
    | none => exact absurd hreadable (packed_none.mp hm)
    | some m => exact ⟨m, rfl, ((fits_cons hm).mp h).1⟩

/-- Nothing may follow when the names so far are distinct, or when used ones are not refused. -/
theorem fits_nil_iff :
    Fits w packed [] ↔ (w.library.refuses = true → (packed.map Packed.name).Nodup) := by
  constructor
  · intro h hrefuses
    have hfresh := h.fresh hrefuses
    rwa [List.map_nil, List.append_nil] at hfresh
  · intro h
    refine ⟨fun hrefuses => ?_, by simp, by simp⟩
    rw [List.map_nil, List.append_nil]
    exact h hrefuses

/-- A name that may be used leaves the names distinct. -/
theorem fits_snoc (hfits : Fits w packed []) (hm : v.packed w packed = some m)
    (hused : ¬ (w.library.refuses = true ∧ v.name w ∈ packed.map Packed.name)) :
    Fits w (packed ++ [m]) [] := by
  rw [fits_nil_iff] at hfits ⊢
  intro hrefuses
  rw [List.map_append, List.map_singleton, (packed_spec hm).1]
  refine List.Nodup.append (hfits hrefuses) (List.nodup_singleton _) ?_
  rw [List.disjoint_singleton]
  exact fun hmem => hused ⟨hrefuses, hmem⟩

/-- Induction over a run: it ends, it stops at a name that may not be used again, at a file that
cannot be read or at one that is too large, or it adds what the next visit adds and goes on. -/
theorem forEach_pack_induction
    {motive : List Packed → List Visit → Except WingsError Unit × List Packed → Prop}
    (done : ∀ packed, motive packed [] (.ok (), packed))
    (refused : ∀ packed v vs, w.library.refuses = true ∧ v.name w ∈ packed.map Packed.name →
      motive packed (v :: vs) (.error (.io "Duplicate filename"), packed))
    (unread : ∀ packed v vs, v.packed w packed = none →
      motive packed (v :: vs)
        (.error (.io "No such file or directory"), packed ++ [⟨.file (v.parts w) "", none⟩]))
    (cut : ∀ packed v vs m,
      ¬ (w.library.refuses = true ∧ v.name w ∈ packed.map Packed.name) →
      v.packed w packed = some m → m.taken w.library = false →
      motive packed (v :: vs) (.error (.io "Large file option has not been set"), packed ++ [m]))
    (added : ∀ packed v vs m,
      ¬ (w.library.refuses = true ∧ v.name w ∈ packed.map Packed.name) →
      v.packed w packed = some m → m.taken w.library = true →
      motive (packed ++ [m]) vs (forEach vs (pack w) (packed ++ [m])) →
      motive packed (v :: vs) (forEach vs (pack w) (packed ++ [m])))
    (packed : List Packed) (vs : List Visit) :
    motive packed vs (forEach vs (pack w) packed) := by
  induction vs generalizing packed with
  | nil => exact done packed
  | cons v vs ih =>
    have hcons : forEach (v :: vs) (pack w) = pack w v >>= fun _ => forEach vs (pack w) := rfl
    have hpack := pack_eq w v packed
    rw [hcons]
    split at hpack
    next hused =>
      rw [bind_error hpack]
      exact refused packed v vs hused
    next hused =>
      split at hpack
      next hnone =>
        rw [bind_error hpack]
        exact unread packed v vs hnone
      next m hm =>
        split at hpack
        next htaken =>
          rw [bind_ok hpack]
          exact added packed v vs m hused hm htaken (ih (packed ++ [m]))
        next hcut =>
          rw [bind_error hpack]
          exact cut packed v vs m hused hm (Bool.eq_false_iff.mpr hcut)

/-- The visits that can follow on what was packed go through, and nothing else does. -/
theorem forEach_pack_ok (hnil : Fits w packed []) :
    (forEach vs (pack w) packed).1 = .ok () ↔ Fits w packed vs := by
  induction packed, vs using forEach_pack_induction (w := w) with
  | done packed => exact iff_of_true rfl hnil
  | refused packed v vs hused =>
    exact iff_of_false (by simp) fun hfits => hfits.head.1 hused
  | unread packed v vs hnone =>
    refine iff_of_false (by simp) fun hfits => ?_
    obtain ⟨m, hm, -⟩ := hfits.head.2
    rw [hnone] at hm
    cases hm
  | cut packed v vs m _ hm hcut =>
    refine iff_of_false (by simp) fun hfits => ?_
    rw [((fits_cons hm).mp hfits).1] at hcut
    cases hcut
  | added packed v vs m hused hm htaken ih =>
    rw [fits_cons hm]
    exact (ih (fits_snoc hnil hm hused)).trans (and_iff_right htaken).symm

/-- A run that goes through adds one entry for each visit, in their order. -/
theorem forEach_pack_added (hok : (forEach vs (pack w) packed).1 = .ok ()) :
    (forEach vs (pack w) packed).2.map (fun m => (m.name, m.origin)) =
      packed.map (fun m => (m.name, m.origin)) ++ vs.map fun v => (v.name w, v.origin w) := by
  induction packed, vs using forEach_pack_induction (w := w) with
  | done packed => rw [List.map_nil, List.append_nil]
  | refused packed v vs => cases hok
  | unread packed v vs => cases hok
  | cut packed v vs => cases hok
  | added packed v vs m _ hm _ ih =>
    obtain ⟨hname, horigin, -⟩ := packed_spec hm
    refine (ih hok).trans ?_
    rw [List.map_append, List.map_singleton, hname, horigin, List.append_assoc]
    rfl

end Run

/-- Going through the paths is making the visits. -/
theorem forEach_packPath (w : Packing) (paths : List Path) :
    forEach paths (packPath w) = forEach (visits w.files paths) (pack w) := by
  have hpath : packPath w = fun path => forEach (visitsOf w.files path) (pack w) := by
    funext path
    unfold packPath visitsOf
    by_cases hdir : w.files.isDir path = true
    · rw [if_pos hdir, if_pos hdir, forEach_map]
      rfl
    · have hpack : pack w ⟨path, []⟩ = if w.files.isDir (path ++ []) then
          startEntry w (.dir (entryParts w path []))
          else packFile w (entryParts w path []) (path ++ []) := rfl
      rw [List.append_nil, if_neg hdir] at hpack
      rw [if_neg hdir, if_neg hdir, forEach_singleton, hpack]
  unfold visits
  rw [forEach_flatMap, hpath]

end Wings
