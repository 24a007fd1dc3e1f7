import NexusPanel.Wings.Archives

/-!
# What an archive may hold

Only the paths that were asked for are validated. The walk below them does not go into links, but
it opens each entry that is not a directory, and opening follows a link to wherever it leads; and a
path that was accepted by its text alone may go through links itself. All other visits stay below the
canonical root. So an archive holds what is outside the server's directory exactly when a visit that
is reached meets a link on its way down from the root, and opens a file out there behind it.
-/

namespace Wings

open StateAction FS FileSystem

/-! ## Origins -/

/-- A content has been read from the regular file at the origin; while the archive is written, its
own content is what it holds by then. A file that was started and not read is empty. -/
def Packed.Sound (w : Packing) (m : Packed) : Prop :=
  match m.entry, m.origin with
  | .dir _, origin => origin = none
  | .file _ content, none => content = ""
  | .file _ content, some loc =>
    ∃ c, w.files.lookup loc = some (.file c) ∧ (loc ≠ w.archive → content = c) ∧
      (loc = w.archive → ∃ entries, content = w.library.written entries)

section Origins

variable {w : Packing} {packed : List Packed} {v : Visit} {vs : List Visit} {m : Packed}
  {path : List Name} {loc : Path} {content : String} {fs fs' : FileSystem}

theorem openFile_eq_some : fs.openFile path = some (loc, content) ↔
    fs.resolve path = .found loc ∧ fs.lookup loc = some (.file content) := by
  unfold openFile
  constructor
  · intro h
    split at h
    next found hfound =>
      split at h
      next c hfile =>
        cases h
        exact ⟨hfound, hfile⟩
      next => cases h
    next => cases h
  · rintro ⟨hfound, hfile⟩
    rw [hfound]
    dsimp only
    rw [hfile]

theorem sound_packed (h : v.packed w packed = some m) : m.Sound w := by
  unfold Visit.packed at h
  split at h
  next =>
    cases h
    rfl
  next =>
    obtain ⟨⟨loc, content⟩, hopen, rfl⟩ := Option.map_eq_some_iff.mp h
    exact ⟨content, (openFile_eq_some.mp hopen).2, fun hne => if_neg hne, fun heq => ⟨_, if_pos heq⟩⟩

/-- All that is in the archive was read where its origin says. -/
theorem sound_forEach_pack (h : ∀ m ∈ packed, m.Sound w) :
    ∀ m ∈ (forEach vs (pack w) packed).2, m.Sound w := by
  induction packed, vs using forEach_pack_induction (w := w) with
  | done packed => exact h
  | refused packed v vs => exact h
  | unread packed v vs =>
    exact List.forall_mem_append.mpr ⟨h, List.forall_mem_singleton.mpr rfl⟩
  | cut packed v vs m _ hm =>
    exact List.forall_mem_append.mpr ⟨h, List.forall_mem_singleton.mpr (sound_packed hm)⟩
  | added packed v vs m _ hm _ ih =>
    exact ih (List.forall_mem_append.mpr ⟨h, List.forall_mem_singleton.mpr (sound_packed hm)⟩)

/-- Creating the archive, with whatever content, changes the location where it is created, which is
no directory. -/
theorem writeFile_created (h : fs.writeFile path content = .ok fs') :
    ∃ loc, fs.createdAt path = some loc ∧ loc ≠ [] ∧ fs.lookup loc ≠ some .dir ∧
      ∀ content', fs.writeFile path content' = .ok (fs.set loc (.file content')) := by
  unfold FileSystem.writeFile createdAt at *
  split at h
  next loc hfound =>
    split at h
    next old hfile =>
      rw [hfound]
      refine ⟨loc, rfl, ?_, by simp [hfile], fun content' => ?_⟩
      · rintro rfl
        cases hfile
      · dsimp only
    next => cases h
  next dir name habsent =>
    rw [habsent]
    exact ⟨dir ++ [name], rfl, List.append_ne_nil_of_right_ne_nil _ (List.cons_ne_nil _ _),
      by simp [lookup_of_absent habsent], fun content' => rfl⟩
  next => cases h
  next => cases h

theorem set_set (fs : FileSystem) (loc : Path) (e e' : Entry) :
    (fs.set loc e).set loc e' = fs.set loc e' := by
  unfold FileSystem.set
  rw [List.filter_cons_of_neg (by simp), List.filter_filter]
  simp

theorem path_of_mem_visitsOf {p : Path} (h : v ∈ visitsOf fs p) : v.path = p := by
  unfold visitsOf at h
  split at h
  next =>
    obtain ⟨rest, -, rfl⟩ := List.mem_map.mp h
    rfl
  next =>
    cases List.mem_singleton.mp h
    rfl

/-- A visit is made for one of the paths, and goes down from there by proper names. -/
theorem of_mem_visits {paths : List Path} (h : v ∈ visits fs paths) :
    v.path ∈ paths ∧ ∀ n ∈ v.rest, IsNormal n := by
  obtain ⟨p, hp, hv⟩ := List.mem_flatMap.mp h
  refine ⟨path_of_mem_visitsOf hv ▸ hp, ?_⟩
  unfold visitsOf walkDir at hv
  split at hv
  next =>
    obtain ⟨rest, hrest, rfl⟩ := List.mem_map.mp hv
    split at hrest
    next dir _ => exact (of_mem_descend hrest).1
    next => cases hrest
  next =>
    cases List.mem_singleton.mp hv
    simp

theorem isDir_of_real {p : Path} (h : fs.Real p) :
    fs.isDir p = true ↔ fs.lookup p = some .dir := by
  unfold isDir
  rw [resolve_of_real h]
  exact beq_iff_eq

end Origins

/-! ## Links on the way -/

section Links

variable {fs : FileSystem} {links : Nat} {cur loc : Path} {ns : List Name} {dir : Path}
  {target : String} {rest : List Name}

end Links

/-! ## The request -/

/-- What is open for a request that is accepted and whose archive can be created. -/
structure Opened (lossy : Name → Name) (library : ZipLibrary) (fs : FileSystem)
    (serverRoot : String) (requested : List String) (destination : String) (paths : List Path)
    (dest : Path) (w : Packing) : Prop where
  accepted : acceptedAll fs serverRoot requested = some paths
  validated : validatePath fs serverRoot destination = .ok dest
  created : fs.writeFile dest "" = .ok w.files
  located : fs.createdAt dest = some w.archive
  names : w.lossy = lossy
  uses : w.library = library

section Request

variable {lossy : Name → Name} {library : ZipLibrary} {fs : FileSystem}
  {serverRoot destination : String} {requested : List String} {paths : List Path}
  {dest root p loc : Path} {w : Packing} {v : Visit}

theorem compressTo_eq (hcreated : fs.writeFile dest "" = .ok w.files)
    (hlocated : fs.createdAt dest = some w.archive) :
    compressTo w.lossy w.library paths dest fs =
      match forEach (visits w.files paths) (pack w) [] with
      | (.ok _, packed) =>
        ⟨.ok (), fs.set w.archive (.file (w.library.finished (packed.map Packed.entry))), packed⟩
      | (.error e, packed) =>
        ⟨.error e, fs.set w.archive (.file (w.library.dropped (packed.map Packed.entry))),
          packed⟩ := by
  obtain ⟨lossy, library, files, archive⟩ := w
  dsimp only at hcreated hlocated ⊢
  obtain ⟨loc, hloc, -, -, hwrite⟩ := writeFile_created hcreated
  rw [hlocated] at hloc
  cases hloc
  rw [hwrite] at hcreated
  cases hcreated
  unfold compressTo
  rw [hwrite, hlocated]
  dsimp only
  rw [forEach_packPath]
  cases forEach (visits (fs.set archive (.file "")) paths) (pack ⟨lossy, library, _, archive⟩) [] with
  | mk r packed => cases r <;> (dsimp only; rw [set_set])

theorem fits_nil (w : Packing) : Fits w [] [] := fits_nil_iff.mpr fun _ => List.nodup_nil

/-- The files, the answer and the archive of a request that gets to write one. -/
theorem Opened.compression
    (h : Opened lossy library fs serverRoot requested destination paths dest w) :
    compressFiles lossy library serverRoot requested destination fs =
      match forEach (visits w.files paths) (pack w) [] with
      | (.ok _, packed) =>
        ⟨.ok (), fs.set w.archive (.file (library.finished (packed.map Packed.entry))), packed⟩
      | (.error e, packed) =>
        ⟨.error e, fs.set w.archive (.file (library.dropped (packed.map Packed.entry))),
          packed⟩ := by
  obtain ⟨haccepted, hvalidated, hcreated, hlocated, rfl, rfl⟩ := h
  rw [← compressTo_eq hcreated hlocated]
  rcases validatedAll_eq fs serverRoot requested with ⟨hnone, -⟩ | ⟨ps, hsome, hall⟩
  · rw [haccepted] at hnone
    cases hnone
  · rw [haccepted] at hsome
    cases hsome
    unfold compressFiles
    rw [hall]
    dsimp only
    rw [hvalidated]

theorem Opened.packed (h : Opened lossy library fs serverRoot requested destination paths dest w) :
    (compressFiles lossy library serverRoot requested destination fs).packed =
      (forEach (visits w.files paths) (pack w) []).2 := by
  rw [h.compression]
  split
  next hrun => rw [hrun]
  next hrun => rw [hrun]

theorem Opened.answer (h : Opened lossy library fs serverRoot requested destination paths dest w) :
    (compressFiles lossy library serverRoot requested destination fs).answer = .ok () ↔
      Fits w [] (visits w.files paths) := by
  rw [← forEach_pack_ok (fits_nil w), h.compression]
  split
  next hrun => rw [hrun]
  next hrun => rw [hrun]

/-- The archive of a request that succeeds is finished. -/
theorem Opened.files (h : Opened lossy library fs serverRoot requested destination paths dest w)
    (hok : (compressFiles lossy library serverRoot requested destination fs).answer = .ok ()) :
    (compressFiles lossy library serverRoot requested destination fs).files =
      fs.set w.archive (.file (library.finished
        ((forEach (visits w.files paths) (pack w) []).2.map Packed.entry))) := by
  rw [h.compression] at hok ⊢
  split at hok
  next hrun => rw [hrun]
  next => cases hok

/-- What the archive of a request holds was read where its origins say. -/
theorem Opened.sound (h : Opened lossy library fs serverRoot requested destination paths dest w) :
    ∀ m ∈ (compressFiles lossy library serverRoot requested destination fs).packed, m.Sound w := by
  rw [h.packed]
  exact sound_forEach_pack (by simp)

/-- The files are left as by a compression that is given the bytes of the archive. -/
theorem compressTo_files (hcreated : fs.writeFile dest "" = .ok w.files)
    (hlocated : fs.createdAt dest = some w.archive)
    (h : (compressTo w.lossy w.library paths dest fs).answer = .ok ()) :
    ∃ bytes,
      compress dest bytes fs = (.ok (), (compressTo w.lossy w.library paths dest fs).files) := by
  obtain ⟨archive, harchive, -, -, hwrite⟩ := writeFile_created hcreated
  rw [hlocated] at harchive
  cases harchive
  have hcompress (bytes : String) :
      compress dest bytes fs = (.ok (), fs.set w.archive (.file bytes)) := by
    unfold compress change
    dsimp only
    rw [hwrite]
  rw [compressTo_eq hcreated hlocated] at h ⊢
  split at h
  next => exact ⟨_, hcompress _⟩
  next => cases h

/-- The files differ from those of the request only where the archive is, which is no directory. -/
theorem Opened.files_eq (h : Opened lossy library fs serverRoot requested destination paths dest w) :
    w.archive ≠ [] ∧ fs.lookup w.archive ≠ some .dir ∧
      w.files = fs.set w.archive (.file "") := by
  obtain ⟨archive, harchive, hne, hnot, hwrite⟩ := writeFile_created h.created
  rw [h.located] at harchive
  cases harchive
  have hcreated := h.created
  rw [hwrite] at hcreated
  exact ⟨hne, hnot, (Except.ok.inj hcreated).symm⟩

/-- What was real is so while the archive is written. -/
theorem Opened.real (h : Opened lossy library fs serverRoot requested destination paths dest w)
    (hreal : fs.Real p) : w.files.Real p := by
  obtain ⟨hne, hnot, hfiles⟩ := h.files_eq
  rw [hfiles]
  by_cases hp : p = w.archive
  · subst hp
    rcases hreal with hdir | ⟨dir, name, content, hpath, hdir, hname, -⟩
    · exact absurd hdir.lookup hnot
    · rw [hpath] at hnot ⊢
      exact real_set_self hdir hname hnot
  · exact (real_set hne hnot hp).mpr hreal

theorem mem_acceptedAll (h : acceptedAll fs serverRoot requested = some paths) (hp : p ∈ paths) :
    ∃ r ∈ requested, validatePath fs serverRoot r = .ok p := by
  induction requested generalizing paths with
  | nil =>
    cases h
    cases hp
  | cons r requested ih =>
    unfold acceptedAll at h
    rw [List.mapM_cons] at h
    obtain ⟨first, hfirst, h⟩ := Option.bind_eq_some_iff.mp h
    obtain ⟨rest, hrest, h⟩ := Option.bind_eq_some_iff.mp h
    cases h
    rcases List.mem_cons.mp hp with rfl | hp
    · refine ⟨r, List.mem_cons_self, ?_⟩
      cases hvalid : validatePath fs serverRoot r with
      | error e =>
        rw [hvalid] at hfirst
        cases hfirst
      | ok p' =>
        rw [hvalid] at hfirst
        cases hfirst
        rfl
    · obtain ⟨r', hr', hvalid⟩ := ih hrest hp
      exact ⟨r', List.mem_cons_of_mem r hr', hvalid⟩

/-- What is visited is named from the root down by proper names. -/
theorem Opened.below (h : Opened lossy library fs serverRoot requested destination paths dest w)
    (hroot : fs.LeadsTo (components serverRoot) root) (hv : v ∈ visits w.files paths) :
    ∃ names, v.full = root ++ names ∧ ∀ n ∈ names, IsNormal n := by
  obtain ⟨hpath, hrest⟩ := of_mem_visits hv
  obtain ⟨r, -, hr⟩ := mem_acceptedAll h.accepted hpath
  obtain ⟨⟨names, hnames⟩, hnormal⟩ := accepted_below hroot hr
  refine ⟨names ++ v.rest, ?_, fun n hn => ?_⟩
  · unfold Visit.full
    rw [← hnames, List.append_assoc]
  · rcases List.mem_append.mp hn with hn | hn
    · exact hnormal n (hnames ▸ List.mem_append_right _ hn)
    · exact hrest n hn

end Request

end Wings
