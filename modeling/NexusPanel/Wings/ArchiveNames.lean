import NexusPanel.Wings.ArchiveContents
import NexusPanel.Wings.Extraction

/-!
# The names in an archive

An entry is named by the last name of the path that was asked for and by the way down from there,
both as text. In a tree without links everything that is real can be read. So when the texts tell the
paths, and what is below one path, apart, and no content is too large, all visits go through, no two
entries get the same name, none is in the way of another, and each file that is visited has its
content in the archive.
-/

namespace Wings

open StateAction FS FileSystem

/-! ## What is visited -/

/-- Files without links at and below the paths, all of them real, and an archive elsewhere. -/
structure Tidy (w : Packing) (paths : List Path) : Prop where
  real : ∀ p ∈ paths, w.files.Real p
  linkFree : ∀ p ∈ paths, LinkFree w.files p
  clear : ∀ p ∈ paths, ¬ p <+: w.archive

/-- The texts of the names tell apart the last names of the paths, and what the walk comes to below
one path. -/
structure ToldApart (lossy : Name → Name) (fs : FileSystem) (paths : List Path) : Prop where
  bases : (paths.map fun p => p.getLast?.map lossy).Nodup
  below : ∀ p ∈ paths, ∀ rest rest', rest.length ≤ 64 → rest'.length ≤ 64 →
    fs.Real (p ++ rest) → fs.Real (p ++ rest') → rest.map lossy = rest'.map lossy → rest = rest'

section Visits

variable {w : Packing} {paths : List Path} {v v' : Visit} {p loc : Path} {rest : List Name}
  {before packed : List Packed} {vs : List Visit} {m : Packed} {content : String}

theorem Tidy.ne_nil (h : Tidy w paths) (hp : p ∈ paths) : p ≠ [] := by
  rintro rfl
  exact h.clear [] hp List.nil_prefix

/-- What something real is below is a directory. -/
theorem dirPath_of_real_cons {fs : FileSystem} {name : Name} (h : fs.Real (p ++ name :: rest)) :
    fs.DirPath p := by
  rcases h with h | ⟨dir, last, content, hpath, hdir, -, -⟩
  · exact h.of_append
  · rcases List.eq_nil_or_concat' (name :: rest) with hnil | ⟨init, last', hinit⟩
    · cases hnil
    · rw [hinit, ← List.append_assoc] at hpath
      rw [← (List.append_inj' hpath rfl).1] at hdir
      exact hdir.of_append

/-- So what is on the way to something real is real, -/
theorem real_of_append {fs : FileSystem} (h : fs.Real (p ++ rest)) : fs.Real p := by
  cases rest with
  | nil => rwa [List.append_nil] at h
  | cons name rest => exact .inl (dirPath_of_real_cons h)

/-- and nothing real is below a file. -/
theorem rest_eq_nil {fs : FileSystem} (hfile : fs.lookup p = some (.file content))
    (h : fs.Real (p ++ rest)) : rest = [] := by
  cases rest with
  | nil => rfl
  | cons name rest =>
    rw [(dirPath_of_real_cons h).lookup] at hfile
    cases hfile

/-- The visits are to what is real at and below the paths, and not too deep. -/
theorem mem_visits (h : Tidy w paths) : v ∈ visits w.files paths ↔
    v.path ∈ paths ∧ v.rest.length ≤ 64 ∧ w.files.Real v.full := by
  have hvisits {p : Path} (hp : p ∈ paths) : v ∈ visitsOf w.files p ↔
      v.path = p ∧ v.rest.length ≤ 64 ∧ w.files.Real (p ++ v.rest) := by
    obtain ⟨path, rest⟩ := v
    have hreal := h.real p hp
    unfold visitsOf
    split
    next hdir =>
      rw [isDir_of_real hreal] at hdir
      unfold walkDir
      rw [resolve_of_real hreal]
      simp only [List.mem_map, Visit.mk.injEq, exists_eq_right_right,
        mem_descend (hreal.dirPath hdir) (fun q target => h.linkFree p hp q target)]
      tauto
    next hnot =>
      rw [isDir_of_real hreal] at hnot
      have hfile : ∃ content, w.files.lookup p = some (.file content) := by
        rcases hreal with hdir | ⟨dir, name, content, -, -, -, hfile⟩
        · exact absurd hdir.lookup hnot
        · exact ⟨content, hfile⟩
      obtain ⟨content, hfile⟩ := hfile
      rw [List.mem_singleton, Visit.mk.injEq]
      constructor
      · rintro ⟨rfl, rfl⟩
        rw [List.append_nil]
        exact ⟨rfl, Nat.zero_le _, hreal⟩
      · rintro ⟨rfl, -, hbelow⟩
        exact ⟨rfl, rest_eq_nil hfile hbelow⟩
  unfold visits
  rw [List.mem_flatMap]
  constructor
  · rintro ⟨p, hp, hv⟩
    obtain ⟨rfl, hlength, hreal⟩ := (hvisits hp).mp hv
    exact ⟨hp, hlength, hreal⟩
  · rintro ⟨hp, hlength, hreal⟩
    exact ⟨v.path, hp, (hvisits hp).mpr ⟨rfl, hlength, hreal⟩⟩

/-- A visit reads the file that it is to. -/
theorem origin_of_real (h : w.files.Real v.full) : v.origin w = some loc ↔
    loc = v.full ∧ ∃ content, w.files.lookup v.full = some (.file content) := by
  unfold Visit.origin
  split
  next hdir =>
    rw [(isDir_of_real h).mp hdir]
    exact iff_of_false (by simp) (by simp)
  next =>
    rw [Option.map_eq_some_iff]
    constructor
    · rintro ⟨⟨loc', content⟩, hopen, rfl⟩
      obtain ⟨hfound, hfile⟩ := openFile_eq_some.mp hopen
      rw [resolve_of_real h] at hfound
      cases hfound
      exact ⟨rfl, content, hfile⟩
    · rintro ⟨rfl, content, hfile⟩
      exact ⟨(v.full, content), openFile_eq_some.mpr ⟨resolve_of_real h, hfile⟩, rfl⟩

/-- And when visits go through, it takes the files that they read. -/
theorem Fits.takes (h : Fits w packed vs) (hv : v ∈ vs) (hreal : w.files.Real v.full)
    (hne : v.full ≠ w.archive) (hfile : w.files.lookup v.full = some (.file content)) :
    w.library.takes content = true := by
  obtain ⟨before, after, hsplit⟩ := List.append_of_mem hv
  have hnot : ¬ w.files.isDir v.full = true := by
    rw [isDir_of_real hreal, hfile]
    simp
  have hm : v.packed w (packedAfter w packed before) =
      some ⟨.file (v.parts w) content, some v.full⟩ := by
    unfold Visit.packed
    rw [if_neg hnot, openFile_eq_some.mpr ⟨resolve_of_real hreal, hfile⟩, Option.map_some]
    dsimp only
    rw [if_neg hne]
  exact h.taken before v after hsplit _ hm

theorem Tidy.ne_archive (h : Tidy w paths) (hv : v.path ∈ paths) : v.full ≠ w.archive := by
  intro heq
  exact h.clear v.path hv (heq ▸ List.prefix_append _ _)

/-! ## Names -/

/-- The name of an entry starts with the last name of its path. -/
theorem parts_eq_cons (h : v.path ≠ []) : ∃ base, v.path.getLast?.map w.lossy = some base ∧
    v.parts w = base :: v.rest.map w.lossy := by
  refine ⟨w.lossy (v.path.getLast h), by rw [List.getLast?_eq_some_getLast h, Option.map_some], ?_⟩
  unfold Visit.parts entryParts
  rw [List.getLast?_eq_some_getLast h]
  rfl

/-- Paths with different last names keep their entries apart. -/
theorem same_path (h : Tidy w paths) (htold : ToldApart w.lossy w.files paths)
    (hv : v.path ∈ paths) (hv' : v'.path ∈ paths) (hparts : v.parts w <+: v'.parts w) :
    v.path = v'.path ∧ v.rest.map w.lossy <+: v'.rest.map w.lossy := by
  obtain ⟨base, hbase, heq⟩ := parts_eq_cons (w := w) (h.ne_nil hv)
  obtain ⟨base', hbase', heq'⟩ := parts_eq_cons (w := w) (h.ne_nil hv')
  rw [heq, heq', List.cons_prefix_cons] at hparts
  obtain ⟨rfl, hrest⟩ := hparts
  exact ⟨List.inj_on_of_nodup_map htold.bases hv hv' (hbase.trans hbase'.symm), hrest⟩

/-- And what is below one path is named as it lies there. -/
theorem prefix_of_parts (h : Tidy w paths) (htold : ToldApart w.lossy w.files paths)
    (hv : v ∈ visits w.files paths) (hv' : v' ∈ visits w.files paths)
    (hparts : v.parts w <+: v'.parts w) : v.path = v'.path ∧ v.rest <+: v'.rest := by
  obtain ⟨hpath, hlength, hreal⟩ := (mem_visits h).mp hv
  obtain ⟨hpath', hlength', hreal'⟩ := (mem_visits h).mp hv'
  obtain ⟨hsame, hmap⟩ := same_path h htold hpath hpath' hparts
  refine ⟨hsame, ?_⟩
  have htake : v.rest.map w.lossy = (v'.rest.take v.rest.length).map w.lossy := by
    have htext := List.prefix_iff_eq_take.mp hmap
    rwa [List.length_map, ← List.map_take] at htext
  have hshort : (v'.rest.take v.rest.length).length ≤ 64 :=
    (List.length_take_le _ _).trans hlength
  have hthere : w.files.Real (v.path ++ v'.rest.take v.rest.length) := by
    rw [hsame]
    have hwhole : w.files.Real
        (v'.path ++ v'.rest.take v.rest.length ++ v'.rest.drop v.rest.length) := by
      rw [List.append_assoc, List.take_append_drop]
      exact hreal'
    exact real_of_append hwhole
  rw [htold.below v.path hpath _ _ hlength hshort hreal hthere htake]
  exact List.take_prefix _ _

/-- So no two entries get the same name, even without regard to the slash. -/
theorem nodup_parts (h : Tidy w paths) (htold : ToldApart w.lossy w.files paths) :
    ((visits w.files paths).map (Visit.parts w)).Nodup := by
  have hpaths : paths.Nodup := List.Nodup.of_map _ htold.bases
  have hvisits : (visits w.files paths).Nodup := by
    unfold visits
    refine List.nodup_flatMap.mpr ⟨fun p _ => ?_, ?_⟩
    · unfold visitsOf
      split
      next =>
        unfold walkDir
        split
        next =>
          refine nodup_descend.map fun rest rest' heq => ?_
          cases heq
          rfl
        next => exact List.nodup_nil
      next => exact List.nodup_singleton _
    · refine List.Pairwise.imp (fun {p q} hne => ?_) hpaths
      intro v hp hq
      exact hne ((path_of_mem_visitsOf hp).symm.trans (path_of_mem_visitsOf hq))
  refine hvisits.map_on fun v hv v' hv' hparts => ?_
  obtain ⟨hsame, hrest⟩ := prefix_of_parts h htold hv hv' (hparts ▸ List.prefix_rfl)
  obtain ⟨-, hrest'⟩ := prefix_of_parts h htold hv' hv (hparts ▸ List.prefix_rfl)
  obtain ⟨path, rest⟩ := v
  obtain ⟨path', rest'⟩ := v'
  cases hsame
  have heq := hrest.eq_of_length (Nat.le_antisymm hrest.length_le hrest'.length_le)
  exact congrArg (Visit.mk path) heq

theorem nodup_names (h : Tidy w paths) (htold : ToldApart w.lossy w.files paths) :
    ((visits w.files paths).map (Visit.name w)).Nodup := by
  refine List.Nodup.of_map EntryName.parts ?_
  rw [List.map_map]
  exact nodup_parts h htold

end Visits

/-! ## What is in the archive -/

section Archive

variable {w : Packing} {paths : List Path} {v : Visit} {packed : List Packed} {m m' : Packed}

/-- A run that went through, and what it added. -/
structure PackedAll (w : Packing) (paths : List Path) (packed : List Packed) : Prop where
  added : packed.map (fun m => (m.name, m.origin)) =
    (visits w.files paths).map fun v => (v.name w, v.origin w)
  sound : ∀ m ∈ packed, m.Sound w

theorem packedAll_of_fits (h : Fits w [] (visits w.files paths)) :
    PackedAll w paths (forEach (visits w.files paths) (pack w) []).2 :=
  ⟨forEach_pack_added ((forEach_pack_ok (fits_nil w)).mpr h), sound_forEach_pack (by simp)⟩

theorem PackedAll.names (h : PackedAll w paths packed) :
    packed.map Packed.name = (visits w.files paths).map (Visit.name w) := by
  have hfst := congrArg (List.map Prod.fst) h.added
  rwa [List.map_map, List.map_map] at hfst

theorem PackedAll.of_visit (h : PackedAll w paths packed) (hv : v ∈ visits w.files paths) :
    ∃ m ∈ packed, m.name = v.name w ∧ m.origin = v.origin w := by
  have hmem : (v.name w, v.origin w) ∈ packed.map fun m => (m.name, m.origin) := by
    rw [h.added]
    exact List.mem_map_of_mem hv
  obtain ⟨m, hm, heq⟩ := List.mem_map.mp hmem
  exact ⟨m, hm, congrArg Prod.fst heq, congrArg Prod.snd heq⟩

theorem PackedAll.visit_of (h : PackedAll w paths packed) (hm : m ∈ packed) :
    ∃ v ∈ visits w.files paths, m.name = v.name w ∧ m.origin = v.origin w := by
  have hmem : (m.name, m.origin) ∈ (visits w.files paths).map fun v => (v.name w, v.origin w) := by
    rw [← h.added]
    exact List.mem_map_of_mem hm
  obtain ⟨v, hv, heq⟩ := List.mem_map.mp hmem
  exact ⟨v, hv, (congrArg Prod.fst heq).symm, (congrArg Prod.snd heq).symm⟩

/-- With names used once each entry is the last of its name. -/
theorem lastOf_of_nodup (hnames : (packed.map Packed.name).Nodup) (hm : m ∈ packed) :
    LastOf (packed.map Packed.entry) m.entry := by
  obtain ⟨before, after, rfl⟩ := List.append_of_mem hm
  refine ⟨before.map Packed.entry, after.map Packed.entry, by rw [List.map_append, List.map_cons],
    fun e he hname => ?_⟩
  obtain ⟨m', hm', rfl⟩ := List.mem_map.mp he
  rw [List.map_append, List.map_cons] at hnames
  have hfresh := (List.nodup_cons.mp (List.Nodup.of_append_right hnames)).1
  exact hfresh (List.mem_map.mpr ⟨m', hm', hname⟩)

theorem entry_of_file {parts : List Name} (h : m.name = ⟨parts, false⟩) :
    ∃ content, m.entry = .file parts content := by
  obtain ⟨e, origin⟩ := m
  cases e with
  | dir parts' => cases h
  | file parts' content =>
    cases h
    exact ⟨content, rfl⟩

theorem entry_of_dir {parts : List Name} (h : m.name = ⟨parts, true⟩) : m.entry = .dir parts := by
  obtain ⟨e, origin⟩ := m
  cases e with
  | dir parts' =>
    cases h
    rfl
  | file parts' content => cases h

/-- A selected file that is not too deep has its content in the archive. -/
theorem PackedAll.file {content : String} (h : Tidy w paths) (hall : PackedAll w paths packed)
    (hv : v ∈ visits w.files paths) (hfile : w.files.lookup v.full = some (.file content)) :
    ∃ m ∈ packed, m.entry = .file (v.parts w) content ∧ m.origin = some v.full := by
  obtain ⟨hpath, -, hreal⟩ := (mem_visits h).mp hv
  obtain ⟨m, hm, hname, horigin⟩ := hall.of_visit hv
  have hnot : w.files.isDir v.full = false := by
    rw [← Bool.not_eq_true, isDir_of_real hreal, hfile]
    simp
  have hloc : v.origin w = some v.full := (origin_of_real hreal).mpr ⟨rfl, content, hfile⟩
  have hslash : m.name = ⟨v.parts w, false⟩ := by
    rw [hname]
    unfold Visit.name
    rw [hnot]
  obtain ⟨content', hentry⟩ := entry_of_file hslash
  have hsound := hall.sound m hm
  unfold Packed.Sound at hsound
  rw [hentry, horigin, hloc] at hsound
  obtain ⟨c, hc, hcontent, -⟩ := hsound
  rw [hfile] at hc
  cases hc
  rw [hcontent (h.ne_archive hpath)] at hentry
  exact ⟨m, hm, hentry, horigin.trans hloc⟩

end Archive

end Wings
