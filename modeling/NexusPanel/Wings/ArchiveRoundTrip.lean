import NexusPanel.Wings.ArchiveNames

/-!
# Compressing and extracting again

In a tree without links the only ways to lose a file are its name, its depth, its size and the archive
itself: two entries whose names are the same text get in each other's way, the walk stops 64 levels
below the path it started at, the library stops in a content that is too large for it, and creating
the archive empties a selected file of that name.
-/

namespace Wings

open StateAction FS FileSystem

/-! ## What a round trip is -/

/-- `decompress` of an archive of the library. For any other extension the file is not read as
one. -/
def unzip (library : ZipLibrary) (archive : Path) (fs : FileSystem) :
    Except WingsError Extracted :=
  if extension archive = "zip" then
    match fs.openFile archive with
    | none => .error (.io "No such file or directory")
    | some (_, bytes) =>
      match library.extract bytes with
      | none => .error (.io "invalid Zip archive")
      | some tree => .ok tree
  else .error (.io ("Unsupported archive format: " ++ extension archive))

/-- A selected file, or a file below a selected directory. -/
def Selected (fs : FileSystem) (paths : List Path) (loc : Path) (content : String) : Prop :=
  fs.Real loc ∧ fs.lookup loc = some (.file content) ∧ ∃ p ∈ paths, p <+: loc

/-- Compressing and extracting both succeed, and each selected file gets its content back, read from
the file itself, in a place of its own. -/
structure Recreated (library : ZipLibrary) (fs : FileSystem) (paths : List Path) (dest : Path)
    (c : Compression) : Prop where
  compressed : c.answer = .ok ()
  extracted : ∃ tree, unzip library dest c.files = .ok tree ∧ ∃ place : Path → List Name,
    (∀ loc content loc' content', Selected fs paths loc content →
      Selected fs paths loc' content' → place loc = place loc' → loc = loc') ∧
    ∀ loc content, Selected fs paths loc content → tree (place loc) = some (.file content) ∧
      ∃ m ∈ c.packed, m.entry = .file (place loc) content ∧ m.origin = some loc

/-- Whatever the library does with used names, nothing gets lost. -/
def RoundTrips (lossy : Name → Name) (takes : String → Bool) (fs : FileSystem)
    (serverRoot : String) (requested : List String) (destination : String) (paths : List Path)
    (dest : Path) : Prop :=
  ∀ library : ZipLibrary, library.Restores → library.takes = takes →
    Recreated library fs paths dest
      (compressFiles lossy library serverRoot requested destination fs)

/-! ## The request -/

section Request

variable {fs : FileSystem} {serverRoot requestedPath : String} {root p loc dest : Path}

/-- Without links an accepted path leads to itself, if it leads anywhere. -/
theorem resolve_accepted (hroot : fs.LeadsTo (components serverRoot) root)
    (hlinks : LinkFree fs root) (h : validatePath fs serverRoot requestedPath = .ok p) :
    (∀ loc, fs.resolve p = .found loc → loc = p) ∧
      ∀ dir name, fs.resolve p = .absent dir name →
        p = dir ++ [name] ∧ fs.DirPath dir ∧ IsNormal name := by
  obtain ⟨⟨names, rfl⟩, hnames⟩ := accepted_below hroot h
  rw [resolve_dirPath_append names hroot.dirPath]
  exact walk_plain hroot.dirPath hlinks fun n hn => hnames n (List.mem_append_right _ hn)

theorem real_of_exists (hroot : fs.LeadsTo (components serverRoot) root)
    (hlinks : LinkFree fs root) (h : validatePath fs serverRoot requestedPath = .ok p)
    (hexists : fs.exists p = true) : fs.Real p := by
  obtain ⟨loc, hloc⟩ := exists_iff.mp hexists
  have heq := (resolve_accepted hroot hlinks h).1 loc hloc
  rw [← heq]
  exact resolve_real hloc

/-- Where the archive is created: at its path, in a directory, and in no directory's place. -/
theorem created_at (hroot : fs.LeadsTo (components serverRoot) root)
    (hlinks : LinkFree fs root) (h : validatePath fs serverRoot requestedPath = .ok dest)
    {files : FileSystem} (hcreated : fs.writeFile dest "" = .ok files) :
    fs.createdAt dest = some dest ∧ files = fs.set dest (.file "") ∧ fs.lookup dest ≠ some .dir ∧
      ∃ dir name, dest = dir ++ [name] ∧ fs.DirPath dir ∧ IsNormal name := by
  obtain ⟨hfound, habsent⟩ := resolve_accepted hroot hlinks h
  unfold FileSystem.writeFile at hcreated
  unfold createdAt
  split at hcreated
  next loc hloc =>
    obtain rfl := hfound loc hloc
    rw [hloc]
    split at hcreated
    next old hfile =>
      cases hcreated
      refine ⟨rfl, rfl, by simp [hfile], ?_⟩
      rcases resolve_real hloc with hdir | ⟨dir, name, content, hpath, hdir, hname, -⟩
      · rw [hdir.lookup] at hfile
        cases hfile
      · exact ⟨dir, name, hpath, hdir, hname⟩
    next => cases hcreated
  next dir name hloc =>
    obtain ⟨rfl, hdir, hname⟩ := habsent dir name hloc
    rw [hloc]
    cases hcreated
    refine ⟨rfl, rfl, ?_, dir, name, rfl, hdir, hname⟩
    rw [lookup_of_absent hloc]
    simp
  next => cases hcreated
  next => cases hcreated

end Request

/-! ## When nothing gets lost -/

/-- A selection of existing entries, in a server's directory without links, and an archive outside
the selected directories. -/
structure Selection (fs : FileSystem) (serverRoot : String) (requested : List String)
    (destination : String) (paths : List Path) (dest : Path) : Prop where
  linkFree : ∃ root, fs.LeadsTo (components serverRoot) root ∧ LinkFree fs root
  accepted : acceptedAll fs serverRoot requested = some paths
  distinct : paths.Nodup
  existing : ∀ p ∈ paths, fs.exists p = true
  destination : validatePath fs serverRoot destination = .ok dest
  zip : extension dest = "zip"
  outside : ∀ p ∈ paths, fs.isDir p = true → ¬ p <+: dest

section Lossless

variable {lossy : Name → Name} {takes : String → Bool} {fs : FileSystem}
  {serverRoot destination : String} {requested : List String} {paths : List Path}
  {dest p loc : Path} {content : String} {w : Packing} {library : ZipLibrary}

theorem Selection.real (h : Selection fs serverRoot requested destination paths dest)
    (hp : p ∈ paths) : fs.Real p := by
  obtain ⟨root, hroot, hlinks⟩ := h.linkFree
  obtain ⟨r, -, hr⟩ := mem_acceptedAll h.accepted hp
  exact real_of_exists hroot hlinks hr (h.existing p hp)

theorem Selection.below (h : Selection fs serverRoot requested destination paths dest)
    (hp : p ∈ paths) : LinkFree fs p := by
  obtain ⟨root, hroot, hlinks⟩ := h.linkFree
  obtain ⟨r, -, hr⟩ := mem_acceptedAll h.accepted hp
  exact fun q target hq => hlinks q target ((accepted_below hroot hr).1.trans hq)

/-- The files while the archive is written, when it can be created. -/
theorem Selection.opened (h : Selection fs serverRoot requested destination paths dest)
    {files : FileSystem} (hcreated : fs.writeFile dest "" = .ok files) (lossy : Name → Name)
    (library : ZipLibrary) :
    Opened lossy library fs serverRoot requested destination paths dest
      ⟨lossy, library, files, dest⟩ := by
  obtain ⟨root, hroot, hlinks⟩ := h.linkFree
  exact ⟨h.accepted, h.destination, hcreated,
    (created_at hroot hlinks h.destination hcreated).1, rfl, rfl⟩

/-- The selection lies apart from the archive, unless that is one of the selected files. -/
theorem Selection.clear (h : Selection fs serverRoot requested destination paths dest)
    {files : FileSystem} (hcreated : fs.writeFile dest "" = .ok files) (hnot : dest ∉ paths)
    (hp : p ∈ paths) : ¬ p <+: dest := by
  intro hpre
  obtain ⟨root, hroot, hlinks⟩ := h.linkFree
  obtain ⟨-, -, -, dir, name, rfl, hdir, -⟩ := created_at hroot hlinks h.destination hcreated
  rcases List.prefix_concat_iff.mp hpre with rfl | hpre'
  · exact hnot hp
  · have hp' := hdir.of_prefix hpre'
    exact h.outside p hp ((isDir_of_real (.inl hp')).mpr hp'.lookup) hpre

theorem Selection.tidy (h : Selection fs serverRoot requested destination paths dest)
    {files : FileSystem} (hcreated : fs.writeFile dest "" = .ok files) (hnot : dest ∉ paths) :
    Tidy ⟨lossy, library, files, dest⟩ paths := by
  obtain ⟨root, hroot, hlinks⟩ := h.linkFree
  obtain ⟨-, rfl, hnotdir, dir, name, hpath, -, -⟩ :=
    created_at hroot hlinks h.destination hcreated
  have hne : dest ≠ [] := by
    rw [hpath]
    exact List.append_ne_nil_of_right_ne_nil _ (List.cons_ne_nil _ _)
  refine ⟨fun p hp => ?_, fun p hp q target hq => ?_, fun p hp => h.clear hcreated hnot hp⟩
  · refine (real_set hne hnotdir ?_).mpr (h.real hp)
    rintro rfl
    exact hnot hp
  · rw [lookup_set hne]
    split
    next => simp
    next => exact h.below hp q target hq

/-- At and below the paths everything is as before while the archive is written, -/
theorem Selection.kept (h : Selection fs serverRoot requested destination paths dest)
    {files : FileSystem} (hcreated : fs.writeFile dest "" = .ok files) (hnot : dest ∉ paths)
    (hp : p ∈ paths) (hpre : p <+: loc) :
    (files.Real loc ↔ fs.Real loc) ∧ files.lookup loc = fs.lookup loc := by
  obtain ⟨root, hroot, hlinks⟩ := h.linkFree
  obtain ⟨-, rfl, hnotdir, dir, name, hpath, -, -⟩ :=
    created_at hroot hlinks h.destination hcreated
  have hne : dest ≠ [] := by
    rw [hpath]
    exact List.append_ne_nil_of_right_ne_nil _ (List.cons_ne_nil _ _)
  have hloc : loc ≠ dest := by
    rintro rfl
    exact h.clear hcreated hnot hp hpre
  exact ⟨real_set hne hnotdir hloc, by rw [lookup_set hne, if_neg hloc]⟩

/-- and so is what is selected. -/
theorem Selection.selected_iff (h : Selection fs serverRoot requested destination paths dest)
    {files : FileSystem} (hcreated : fs.writeFile dest "" = .ok files) (hnot : dest ∉ paths) :
    Selected fs paths loc content ↔ Selected files paths loc content := by
  unfold Selected
  constructor
  · rintro ⟨hreal, hfile, p, hp, hpre⟩
    obtain ⟨hkept, hlookup⟩ := h.kept hcreated hnot hp hpre
    exact ⟨hkept.mpr hreal, hlookup.trans hfile, p, hp, hpre⟩
  · rintro ⟨hreal, hfile, p, hp, hpre⟩
    obtain ⟨hkept, hlookup⟩ := h.kept hcreated hnot hp hpre
    exact ⟨hkept.mp hreal, hlookup.symm.trans hfile, p, hp, hpre⟩

theorem PackedAll.nodup_names {packed : List Packed} (hall : PackedAll w paths packed)
    (hnames : ((visits w.files paths).map (Visit.name w)).Nodup) :
    (packed.map Packed.name).Nodup := by
  rw [hall.names]
  exact hnames

/-- Extracting the archive is extracting what was written when it was finished. -/
theorem Selection.unzip_ok (h : Selection fs serverRoot requested destination paths dest)
    {files : FileSystem} (hcreated : fs.writeFile dest "" = .ok files)
    (hok : (compressFiles lossy library serverRoot requested destination fs).answer = .ok ())
    {tree : Extracted} :
    unzip library dest (compressFiles lossy library serverRoot requested destination fs).files =
        .ok tree ↔
      library.extract (library.finished (List.map Packed.entry
        (forEach (visits files paths) (pack ⟨lossy, library, files, dest⟩) []).2)) = some tree := by
  obtain ⟨root, hroot, hlinks⟩ := h.linkFree
  obtain ⟨-, -, hnotdir, dir, name, rfl, hdir, hname⟩ :=
    created_at hroot hlinks h.destination hcreated
  have hne : dir ++ [name] ≠ [] := List.append_ne_nil_of_right_ne_nil _ (List.cons_ne_nil _ _)
  have hopen (bytes : String) : (fs.set (dir ++ [name]) (.file bytes)).openFile (dir ++ [name]) =
      some (dir ++ [name], bytes) := by
    refine openFile_eq_some.mpr ⟨resolve_of_real (real_set_self hdir hname hnotdir), ?_⟩
    rw [lookup_set hne, if_pos rfl]
  unfold unzip
  rw [if_pos h.zip, (h.opened hcreated lossy library).files hok, hopen]
  dsimp only
  cases library.extract (library.finished (List.map Packed.entry
    (forEach (visits files paths) (pack ⟨lossy, library, files, dir ++ [name]⟩) []).2)) with
  | none => simp
  | some tree' => simp

/-- The archive itself cannot be recreated: by the time it is read it holds something else. -/
theorem Selection.apart (h : Selection fs serverRoot requested destination paths dest)
    (hround : RoundTrips lossy takes fs serverRoot requested destination paths dest)
    {files : FileSystem} (hcreated : fs.writeFile dest "" = .ok files) : dest ∉ paths := by
  intro hmem
  obtain ⟨root, hroot, hlinks⟩ := h.linkFree
  obtain ⟨-, -, hnotdir, -⟩ := created_at hroot hlinks h.destination hcreated
  have hreal := h.real hmem
  have hfile : ∃ content, fs.lookup dest = some (.file content) := by
    rcases hreal with hdir | ⟨dir, name, content, -, -, -, hfile⟩
    · exact absurd hdir.lookup hnotdir
    · exact ⟨content, hfile⟩
  obtain ⟨content, hfile⟩ := hfile
  obtain ⟨library, hlibrary, htakes, -, hwritten⟩ := exists_restoring true takes (content ++ "+")
  obtain ⟨-, tree, -, place, -, hplace⟩ := hround library hlibrary htakes
  obtain ⟨-, m, hm, hentry, horigin⟩ :=
    hplace dest content ⟨hreal, hfile, dest, hmem, List.prefix_rfl⟩
  have hsound := (h.opened hcreated lossy library).sound m hm
  unfold Packed.Sound at hsound
  rw [hentry, horigin] at hsound
  obtain ⟨-, -, -, harchive⟩ := hsound
  obtain ⟨entries, hcontent⟩ := harchive rfl
  rw [hwritten] at hcontent
  have hlength := congrArg (fun text => text.toList.length) hcontent
  simp at hlength

/-- Two entries of one text get the same name, or one that is both a directory's and a file's. -/
theorem Selection.parts_inj (h : Selection fs serverRoot requested destination paths dest)
    (hround : RoundTrips lossy takes fs serverRoot requested destination paths dest)
    {files : FileSystem} (hcreated : fs.writeFile dest "" = .ok files) {v v' : Visit}
    (hv : v ∈ visits files paths) (hv' : v' ∈ visits files paths)
    (hparts : (v.path.getLast?.toList ++ v.rest).map lossy =
      (v'.path.getLast?.toList ++ v'.rest).map lossy) : v = v' := by
  obtain ⟨library, hlibrary, htakes, hrefuses, -⟩ := exists_restoring true takes ""
  obtain ⟨hok, tree, hunzip, -⟩ := hround library hlibrary htakes
  let w : Packing := ⟨lossy, library, files, dest⟩
  have hfits : Fits w [] (visits files paths) := (h.opened hcreated lossy library).answer.mp hok
  have hnames := hfits.fresh hrefuses
  rw [List.map_nil, List.nil_append] at hnames
  have hall : PackedAll w paths _ := packedAll_of_fits hfits
  have hextract := (h.unzip_ok hcreated hok).mp hunzip
  -- A directory and a file of one name would have to be extracted to the same place.
  have hkinds {u u' : Visit} (hu : u ∈ visits files paths) (hu' : u' ∈ visits files paths)
      (hparts : u.parts w = u'.parts w) (hdir : files.isDir u.full = true)
      (hfile : files.isDir u'.full = false) : False := by
    obtain ⟨m, hm, hmname, -⟩ := hall.of_visit hu
    obtain ⟨m', hm', hmname', -⟩ := hall.of_visit hu'
    have hentry := entry_of_dir (hmname.trans (congrArg (EntryName.mk _) hdir))
    obtain ⟨content, hentry'⟩ := entry_of_file (hmname'.trans (congrArg (EntryName.mk _) hfile))
    have hlast := hlibrary.restores _ tree hextract _
      (lastOf_of_nodup (hall.nodup_names hnames) hm)
    have hlast' := hlibrary.restores _ tree hextract _
      (lastOf_of_nodup (hall.nodup_names hnames) hm')
    rw [hentry, hparts] at hlast
    rw [hentry'] at hlast'
    have heq := hlast.symm.trans hlast'
    cases heq
  have hsame : v.parts w = v'.parts w := hparts
  cases hd : files.isDir v.full with
  | true =>
    cases hd' : files.isDir v'.full with
    | true =>
      refine List.inj_on_of_nodup_map hnames hv hv' ?_
      unfold Visit.name
      rw [hsame, hd, hd']
    | false => exact (hkinds hv hv' hsame hd hd').elim
  | false =>
    cases hd' : files.isDir v'.full with
    | true => exact (hkinds hv' hv hsame.symm hd' hd).elim
    | false =>
      refine List.inj_on_of_nodup_map hnames hv hv' ?_
      unfold Visit.name
      rw [hsame, hd, hd']

/-- A file that is read for the archive is visited. -/
theorem Selection.visited (h : Selection fs serverRoot requested destination paths dest)
    (hrecreated : Recreated library fs paths dest
      (compressFiles lossy library serverRoot requested destination fs))
    {files : FileSystem} (hcreated : fs.writeFile dest "" = .ok files) (hnot : dest ∉ paths)
    (hsel : Selected fs paths loc content) :
    Fits ⟨lossy, library, files, dest⟩ [] (visits files paths) ∧
      ∃ v ∈ visits files paths, v.full = loc ∧ v.rest.length ≤ 64 := by
  obtain ⟨hok, tree, -, place, -, hplace⟩ := hrecreated
  have hopened := h.opened hcreated lossy library
  have htidy : Tidy ⟨lossy, library, files, dest⟩ paths := h.tidy hcreated hnot
  have hfits := hopened.answer.mp hok
  refine ⟨hfits, ?_⟩
  obtain ⟨-, m, hm, -, horigin⟩ := hplace loc content hsel
  rw [hopened.packed] at hm
  obtain ⟨v, hv, -, hvorigin⟩ := (packedAll_of_fits hfits).visit_of hm
  obtain ⟨-, hlength, hreal⟩ := (mem_visits htidy).mp hv
  obtain ⟨hloc, -⟩ := (origin_of_real hreal).mp (hvorigin.symm.trans horigin)
  exact ⟨v, hv, hloc.symm, hlength⟩

/-- So it is not too deep, -/
theorem Selection.depth (h : Selection fs serverRoot requested destination paths dest)
    (hrecreated : Recreated library fs paths dest
      (compressFiles lossy library serverRoot requested destination fs))
    {files : FileSystem} (hcreated : fs.writeFile dest "" = .ok files) (hnot : dest ∉ paths)
    (hsel : Selected fs paths loc content) :
    ∃ p ∈ paths, p <+: loc ∧ loc.length ≤ p.length + 64 := by
  obtain ⟨-, v, hv, rfl, hlength⟩ := h.visited hrecreated hcreated hnot hsel
  have hpath := (of_mem_visits hv).1
  refine ⟨v.path, hpath, List.prefix_append _ _, ?_⟩
  unfold Visit.full
  rw [List.length_append]
  omega

/-- and not too large. -/
theorem Selection.small (h : Selection fs serverRoot requested destination paths dest)
    (hrecreated : Recreated library fs paths dest
      (compressFiles lossy library serverRoot requested destination fs))
    {files : FileSystem} (hcreated : fs.writeFile dest "" = .ok files) (hnot : dest ∉ paths)
    (hsel : Selected fs paths loc content) : library.takes content = true := by
  obtain ⟨hfits, v, hv, rfl, -⟩ := h.visited hrecreated hcreated hnot hsel
  have htidy : Tidy ⟨lossy, library, files, dest⟩ paths := h.tidy hcreated hnot
  obtain ⟨hpath, -, hreal⟩ := (mem_visits htidy).mp hv
  have hfile := ((h.selected_iff hcreated hnot).mp hsel).2.1
  exact hfits.takes hv hreal (htidy.ne_archive hpath) hfile

end Lossless

section Volumes

end Volumes

end Wings
