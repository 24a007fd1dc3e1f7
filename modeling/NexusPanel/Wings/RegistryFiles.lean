import NexusPanel.Foundation.Resolution
import NexusPanel.Wings.ConfigJson
import NexusPanel.Wings.Deletion

/-!
# The registry on disk

Storing a configuration writes it to memory and to the file `.nexus-config.json` in the
directory named after the server; removing one takes it out of memory and removes the file,
and leaves the directory. `load_configs` reads every directory it finds.

The two sides agree as long as nobody else writes there. What has to be shown for that is that
every file a restart reads lies in the directory of the server it is about (`Mirrors`): then no
two files are about one server, and the order in which the directory is listed does not matter.
-/

namespace Wings

open StateAction Transition FS FileSystem

/-! ## Runs of the registry -/

/-- The registry is used, or Wings is restarted. -/
inductive RegistryLabel
  | op (op : RegistryOp)
  | restart (entries : List Name)

/-- A restart finds the entries of the data directory in any order. -/
def registryStep (serde : Serde) (s : AppState) : RegistryLabel → Option AppState
  | .op (.store config) => some (AppState.storeServerConfig serde config s).2
  | .op (.remove uuid) => some (AppState.removeServerConfig uuid s).2
  | .restart entries =>
    if entries.Perm (AppState.dataEntries s.fs s.config.dataDir) then
      some (AppState.restart serde s entries)
    else none

/-- What is read from the disk is what is in memory, in whatever order the entries are
listed. -/
def SurvivesRestart (serde : Serde) (s : AppState) : Prop :=
  ∀ entries, entries.Perm (AppState.dataEntries s.fs s.config.dataDir) → ∀ uuid,
    (AppState.loadConfigs serde s.fs s.config.dataDir entries).lookup uuid =
      s.serverConfigs.lookup uuid

/-- The file of a server. -/
def configPath (dataDir uuid : String) : List Name :=
  components (joinPath (serverDir dataDir uuid) configFile)

/-- Every write to the disk succeeds. A file that is there can be removed in any case. -/
def WritesSucceed (serde : Serde) (s : AppState) : RegistryLabel → Prop
  | .op (.store config) =>
    let made := s.fs.createDirAll (lexical (serverDir s.config.dataDir config.uuid))
    made.2 = none ∧ (made.1.writeFile (configPath s.config.dataDir config.uuid)
      (serde.encode config)).isOk = true
  | .op (.remove _) | .restart _ => True

instance (serde : Serde) (s : AppState) : ∀ l, Decidable (WritesSucceed serde s l)
  | .op (.store _) => inferInstanceAs (Decidable (_ ∧ _))
  | .op (.remove _) | .restart _ => inferInstanceAs (Decidable True)

/-- The uuids are ordinary names, and an environment is a map. -/
def OrdinaryUuids : RegistryLabel → Prop
  | .op (.store config) => IsOrdinary config.uuid ∧ config.HasMap
  | .op (.remove uuid) => IsOrdinary uuid
  | .restart _ => True

instance : ∀ l, Decidable (OrdinaryUuids l)
  | .op (.store _) => inferInstanceAs (Decidable (_ ∧ _))
  | .op (.remove uuid) => inferInstanceAs (Decidable (IsOrdinary uuid))
  | .restart _ => inferInstanceAs (Decidable True)

/-- The locations the data directory leads to, or comes to lead to when its missing parts are
made. -/
def MayLead (fs : FileSystem) (dataDir : String) (dir : Path) : Prop :=
  ∃ fs', fs.MadeDirs fs' ∧ fs'.LeadsTo (names dataDir) dir

/-- Nothing in the data directory has been put there by somebody else: no links, neither for a
directory of a server nor for its file. A directory lists ordinary names, and what is in it is
reached through it. -/
structure Undisturbed (fs : FileSystem) (dataDir : String) : Prop where
  directory : ∀ dir, MayLead fs dataDir dir → ∀ name e, fs.lookup (dir ++ [name]) = some e →
    IsOrdinary name ∧ ∀ target, e ≠ .link target
  file : ∀ dir, MayLead fs dataDir dir → ∀ name e,
    fs.lookup (dir ++ [name, configFile]) = some e → e ≠ .dir →
      fs.lookup (dir ++ [name]) = some .dir ∧ ∀ target, e ≠ .link target

/-- The directory of a server is no link. -/
theorem Undisturbed.directory_ne_link {fs : FileSystem} {dataDir : String} {dir : Path}
    (h : Undisturbed fs dataDir) (hdir : MayLead fs dataDir dir) (name : Name) (target : String) :
    fs.lookup (dir ++ [name]) ≠ some (.link target) :=
  fun hlink => (h.directory dir hdir name _ hlink).2 target rfl

/-- Its file is no link. -/
theorem Undisturbed.file_ne_link {fs : FileSystem} {dataDir : String} {dir : Path}
    (h : Undisturbed fs dataDir) (hdir : MayLead fs dataDir dir) (name : Name) (target : String) :
    fs.lookup (dir ++ [name, configFile]) ≠ some (.link target) :=
  fun hlink => (h.file dir hdir name _ hlink fun heq => by cases heq).2 target rfl

/-- What a location in the data directory holds of a configuration. -/
def heldIn (serde : Serde) (fs : FileSystem) (dir : Path) (name : Name) : Option ServerConfig :=
  match fs.lookup (dir ++ [name]), fs.lookup (dir ++ [name, configFile]) with
  | some .dir, some (.file content) => serde.decode content
  | _, _ => none

/-- Wings starts with an empty registry, in memory and on disk. -/
structure EmptyRegistry (serde : Serde) (s : AppState) : Prop where
  memory : ∀ uuid, s.serverConfigs.lookup uuid = none
  undisturbed : Undisturbed s.fs s.config.dataDir
  disk : ∀ dir, MayLead s.fs s.config.dataDir dir → ∀ name,
    heldIn serde s.fs dir name = none

/-! ## Paths into the data directory -/

section Paths

variable {dataDir uuid : String}

/-- Joining a relative path puts its parts after those of the path. -/
theorem splitOn_joinPath (dataDir : String) {name : String} (h : isAbsolute name = false) :
    ∃ parts : List (List Char),
      (joinPath dataDir name).toList.splitOn '/' = parts ++ name.toList.splitOn '/' ∧
        (parts.map String.ofList).filter (· ≠ "") = names dataDir := by
  rw [joinPath, if_neg (by rw [h]; exact Bool.false_ne_true)]
  split
  next hend =>
    rcases hend with rfl | hslash
    · refine ⟨[], ?_, rfl⟩
      rw [String.toList_append, String.toList_empty, List.nil_append]
      rfl
    · obtain ⟨front, hfront⟩ := List.getLast?_eq_some_iff.mp hslash
      refine ⟨front.splitOn '/', ?_, ?_⟩
      · rw [String.toList_append, hfront, List.append_assoc, List.singleton_append,
          List.splitOn_append_cons_self]
      · rw [names, hfront, List.splitOn_append_cons_self, List.splitOn_nil, List.map_append,
          List.filter_append]
        exact (List.append_nil _).symm
  next =>
    refine ⟨dataDir.toList.splitOn '/', ?_, rfl⟩
    have hslash : ("/" : String).toList = ['/'] := rfl
    rw [String.toList_append, String.toList_append, hslash, List.append_assoc,
      List.singleton_append, List.splitOn_append_cons_self]

/-- The components of a relative path come after the names of what it is joined to. -/
theorem components_joinPath_relative (dataDir : String) {name : String}
    (h : isAbsolute name = false) :
    components (joinPath dataDir name) = names dataDir ++ components name := by
  obtain ⟨parts, hsplit, hparts⟩ := splitOn_joinPath dataDir h
  have hne : (name.toList.splitOn '/').map String.ofList ≠ [] := by
    rw [ne_eq, List.map_eq_nil_iff]
    exact List.splitOn_ne_nil _ _
  unfold components
  dsimp only
  rw [hsplit, List.map_append, List.dropLast_append_of_ne_nil hne, List.filter_append, hparts,
    List.getLast?_append_of_ne_nil _ hne, List.append_assoc]

theorem isOrdinary_relative (h : IsOrdinary uuid) :
    isAbsolute uuid = false ∧ uuid.toList.splitOn '/' = [uuid.toList] := by
  refine ⟨?_, List.splitOn_eq_singleton h.2.2⟩
  rw [isAbsolute]
  cases hlist : uuid.toList with
  | nil => rfl
  | cons c cs =>
    rw [List.head?_cons]
    refine beq_eq_false_iff_ne.mpr fun heq => h.2.2 ?_
    rw [hlist, Option.some.inj heq]
    exact List.mem_cons_self

theorem names_joinPath (h : IsOrdinary uuid) :
    names (joinPath dataDir uuid) = names dataDir ++ [uuid] := by
  obtain ⟨parts, hsplit, hparts⟩ := splitOn_joinPath dataDir (isOrdinary_relative h).1
  rw [(isOrdinary_relative h).2] at hsplit
  rw [names, hsplit, List.map_append, List.filter_append, hparts, List.map_singleton,
    String.ofList_toList, List.filter_cons_of_pos (by simpa using h.1), List.filter_nil]

theorem components_of_isOrdinary (h : IsOrdinary uuid) : components uuid = [uuid] := by
  rw [components, (isOrdinary_relative h).2, List.map_singleton, String.ofList_toList,
    List.dropLast_singleton, List.getLast?_singleton]
  split
  next heq => exact absurd (Option.some.inj heq) h.1
  next heq => cases heq
  next heq => cases heq; rfl

theorem components_joinPath (h : IsOrdinary uuid) :
    components (joinPath dataDir uuid) = names dataDir ++ [uuid] := by
  rw [components_joinPath_relative dataDir (isOrdinary_relative h).1, components_of_isOrdinary h]

theorem isOrdinary_configFile : IsOrdinary configFile := by decide

theorem configPath_eq (h : IsOrdinary uuid) :
    configPath dataDir uuid = names dataDir ++ [uuid, configFile] := by
  rw [configPath, components_joinPath isOrdinary_configFile, serverDir, names_joinPath h,
    List.append_assoc]
  rfl

theorem leadsTo_components {fs : FileSystem} {dir : Path} :
    fs.LeadsTo (components dataDir) dir ↔ fs.LeadsTo (names dataDir) dir := by
  rw [← leadsTo_dots, components_dots, leadsTo_dots]

theorem leadsTo_lexical {fs : FileSystem} {dir : Path} (h : IsOrdinary uuid) :
    fs.LeadsTo (lexical (serverDir dataDir uuid)) dir ↔ fs.LeadsTo (names dataDir ++ [uuid]) dir := by
  rw [lexical, leadsTo_dots, serverDir, components_joinPath h]

theorem mem_lexical {n : Name} (h : n ∈ lexical (serverDir dataDir uuid)) :
    n ≠ "" ∧ '/' ∉ n.toList := by
  rw [lexical, components_dots] at h
  exact mem_names (List.mem_filter.mp h).1

end Paths

/-! ## The data directory and its files -/

section Files

variable {serde : Serde} {fs fs' : FileSystem} {dataDir uuid : String} {dir dir' p : Path}
  {name : Name} {c : ServerConfig}

theorem mayLead_of_leadsTo (h : fs.LeadsTo (names dataDir) dir) : MayLead fs dataDir dir :=
  ⟨fs, .refl fs, h⟩

/-- Where the data directory leads it goes on leading. -/
theorem mayLead_unique (h : fs.LeadsTo (names dataDir) dir) (h' : MayLead fs dataDir dir') :
    dir' = dir := by
  obtain ⟨fs', hmade, hleads⟩ := h'
  exact (h.of_keepsWays hmade.keepsWays).unique hleads

theorem mayLead_of_made (hmade : fs.MadeDirs fs') (h : MayLead fs' dataDir dir) :
    MayLead fs dataDir dir := by
  obtain ⟨fs'', hmade', hleads⟩ := h
  exact ⟨fs'', hmade.trans hmade', hleads⟩

/-- Directories that are made do not disturb. -/
theorem Undisturbed.of_made (h : Undisturbed fs dataDir) (hmade : fs.MadeDirs fs')
    (hadds : fs.AddsOrdinary fs') : Undisturbed fs' dataDir where
  directory dir hdir name e he := by
    rcases hmade (dir ++ [name]) with heq | ⟨hnone, hnew⟩
    · rw [heq] at he
      exact h.directory dir (mayLead_of_made hmade hdir) name e he
    · rw [hnew] at he
      cases he
      exact ⟨hadds dir name hnone (by rw [hnew]; exact Option.some_ne_none _),
        fun _ heq => by cases heq⟩
  file dir hdir name e he hne := by
    obtain ⟨hdirectory, hlink⟩ :=
      h.file dir (mayLead_of_made hmade hdir) name e (hmade.lookup_of_ne he hne) hne
    exact ⟨hmade.lookup hdirectory, hlink⟩

/-- What the files hold was there before directories were made. -/
theorem heldIn_of_made (h : Undisturbed fs dataDir) (hdir : MayLead fs dataDir dir)
    (hmade : fs.MadeDirs fs') (hheld : heldIn serde fs' dir name = some c) :
    heldIn serde fs dir name = some c := by
  unfold heldIn at hheld ⊢
  split at hheld
  next content _ hfile =>
    have hfile' := hmade.lookup_of_ne hfile fun heq => by cases heq
    rw [(h.file dir hdir name _ hfile' fun heq => by cases heq).1, hfile']
    exact hheld
  next => cases hheld

/-- What the files hold is still there after directories have been made. -/
theorem heldIn_made (hmade : fs.MadeDirs fs') (hheld : heldIn serde fs dir name = some c) :
    heldIn serde fs' dir name = some c := by
  unfold heldIn at hheld ⊢
  split at hheld
  next content hdirectory hfile =>
    rw [hmade.lookup hdirectory, hmade.lookup hfile]
    exact hheld
  next => cases hheld

/-- Where the file of a server is walked to from the data directory. -/
theorem resolve_configPath (hleads : fs.LeadsTo (names dataDir) dir) (huuid : IsOrdinary uuid)
    (hdirectory : ∀ target, fs.lookup (dir ++ [uuid]) ≠ some (.link target))
    (hfile : ∀ target, fs.lookup (dir ++ [uuid, configFile]) ≠ some (.link target)) :
    fs.resolve (configPath dataDir uuid) =
      match fs.lookup (dir ++ [uuid]) with
      | none => .missing
      | some .dir =>
        match fs.lookup (dir ++ [uuid, configFile]) with
        | none => .absent (dir ++ [uuid]) configFile
        | _ => .found (dir ++ [uuid, configFile])
      | _ => .refused := by
  obtain ⟨left, hleft⟩ := hleads.resolve_append
  have hcons : dir ++ [uuid, configFile] = (dir ++ [uuid]) ++ [configFile] := by simp
  rw [configPath_eq huuid, hleft, walk_cons, if_neg huuid.2.1.1, if_neg huuid.2.1.2]
  cases hlookup : fs.lookup (dir ++ [uuid]) with
  | none => rfl
  | some e =>
    cases e with
    | link target => exact absurd hlookup (hdirectory target)
    | file content => rfl
    | dir =>
      dsimp only
      rw [walk_cons, if_neg (by decide), if_neg (by decide), ← hcons]
      cases hlookup' : fs.lookup (dir ++ [uuid, configFile]) with
      | none => rfl
      | some e =>
        cases e with
        | link target => exact absurd hlookup' (hfile target)
        | file content => rfl
        | dir => exact walk_nil

end Files

/-! ## The invariant -/

/-- The registry in memory, as a map. -/
abbrev Registry := AList fun _ : String => ServerConfig

/-- Every file that a restart may read lies in the directory of the server it is about, and the
registry in memory holds the same; what is in memory is in the server's file. -/
structure Mirrors (serde : Serde) (dataDir : String) (fs : FileSystem) (configs : Registry) :
    Prop where
  undisturbed : Undisturbed fs dataDir
  onDisk : ∀ dir, MayLead fs dataDir dir → ∀ name c,
    heldIn serde fs dir name = some c → c.uuid = name ∧ configs.lookup name = some c
  inMemory : ∀ uuid c, configs.lookup uuid = some c →
    ∃ dir, fs.LeadsTo (names dataDir) dir ∧ heldIn serde fs dir uuid = some c

section Invariant

variable {serde : Serde} {s s' : AppState} {uuid : String} {dir p : Path} {name : Name}
  {c : ServerConfig} {fs fs' : FileSystem} {dataDir : String} {configs : Registry}

theorem EmptyRegistry.mirrors (h : EmptyRegistry serde s) :
    Mirrors serde s.config.dataDir s.fs s.serverConfigs where
  undisturbed := h.undisturbed
  onDisk dir hdir name c hheld := by
    rw [h.disk dir hdir name] at hheld
    cases hheld
  inMemory uuid c hc := by
    rw [h.memory uuid] at hc
    cases hc

/-- Reading an entry is looking into the file. -/
theorem loadEntry_eq (h : Undisturbed fs dataDir) (hleads : fs.LeadsTo (names dataDir) dir)
    (hname : IsOrdinary name) :
    AppState.loadEntry serde fs dataDir name = heldIn serde fs dir name := by
  have hmay := mayLead_of_leadsTo hleads
  have hresolve := resolve_configPath hleads hname (h.directory_ne_link hmay name)
    (h.file_ne_link hmay name)
  rw [configPath, serverDir] at hresolve
  rw [AppState.loadEntry, FileSystem.readFile, hresolve, heldIn]
  cases hdirectory : fs.lookup (dir ++ [name]) with
  | none => rfl
  | some e =>
    cases e with
    | dir =>
      cases hfile : fs.lookup (dir ++ [name, configFile]) with
      | none => rfl
      | some e => cases e <;> simp [hfile]
    | file content => rfl
    | link target => rfl

theorem mem_dataEntries (hdataDir : dataDir ≠ "") :
    name ∈ AppState.dataEntries fs dataDir ↔
      ∃ dir, fs.LeadsTo (names dataDir) dir ∧ fs.lookup (dir ++ [name]) ≠ none := by
  rw [AppState.dataEntries, if_neg hdataDir]
  constructor
  · intro hmem
    split at hmem
    next dir hfound =>
      split at hmem
      next hdir => exact ⟨dir, leadsTo_components.mp ⟨hfound, hdir⟩, mem_children.mp hmem⟩
      next => exact absurd hmem List.not_mem_nil
    next => exact absurd hmem List.not_mem_nil
  · rintro ⟨dir, hleads, hlookup⟩
    obtain ⟨hfound, hdir⟩ := leadsTo_components.mpr hleads
    rw [hfound]
    dsimp only
    rw [if_pos hdir]
    exact mem_children.mpr hlookup

theorem lookup_of_heldIn (h : heldIn serde fs dir name = some c) :
    fs.lookup (dir ++ [name]) = some .dir := by
  unfold heldIn at h
  split at h
  next hdir _ => exact hdir
  next => cases h

/-- What a restart reads is what is in memory. -/
theorem Mirrors.lookup_loadConfigs (h : Mirrors serde dataDir fs configs) (hdataDir : dataDir ≠ "")
    {entries : List Name} (hperm : entries.Perm (AppState.dataEntries fs dataDir)) (uuid : String) :
    (AppState.loadConfigs serde fs dataDir entries).lookup uuid = configs.lookup uuid := by
  have hread : ∀ c, (AppState.loadConfigs serde fs dataDir entries).lookup uuid = some c →
      configs.lookup uuid = some c := by
    intro c hc
    obtain ⟨entry, hentry, hload, rfl⟩ := Wings.lookup_loadConfigs hc
    obtain ⟨dir, hleads, hlookup⟩ := (mem_dataEntries hdataDir).mp (hperm.mem_iff.mp hentry)
    obtain ⟨e, he⟩ := Option.ne_none_iff_exists'.mp hlookup
    have hmay := mayLead_of_leadsTo hleads
    have hordinary := (h.undisturbed.directory dir hmay entry e he).1
    rw [loadEntry_eq h.undisturbed hleads hordinary] at hload
    obtain ⟨rfl, hmemory⟩ := h.onDisk dir hmay entry c hload
    exact hmemory
  cases hmemory : configs.lookup uuid with
  | none =>
    cases hload : (AppState.loadConfigs serde fs dataDir entries).lookup uuid with
    | none => rfl
    | some c =>
      rw [hread c hload] at hmemory
      cases hmemory
  | some c =>
    obtain ⟨dir, hleads, hheld⟩ := h.inMemory uuid c hmemory
    have hmay := mayLead_of_leadsTo hleads
    have hdirectory := lookup_of_heldIn hheld
    have hentry : uuid ∈ entries := by
      refine hperm.mem_iff.mpr ((mem_dataEntries hdataDir).mpr ⟨dir, hleads, ?_⟩)
      rw [hdirectory]
      exact Option.some_ne_none _
    have hload : AppState.loadEntry serde fs dataDir uuid = heldIn serde fs dir uuid :=
      loadEntry_eq h.undisturbed hleads (h.undisturbed.directory dir hmay uuid _ hdirectory).1
    have huuid := (h.onDisk dir hmay uuid c hheld).1
    rw [hheld] at hload
    have hne := lookup_loadConfigs_ne_none hentry hload
    rw [huuid] at hne
    obtain ⟨c', hc'⟩ := Option.ne_none_iff_exists'.mp hne
    rw [hc', ← hmemory, hread c' hc']

/-- A map with the same entries is mirrored too. -/
theorem Mirrors.congr {configs' : Registry} (h : Mirrors serde dataDir fs configs)
    (heq : ∀ uuid, configs'.lookup uuid = configs.lookup uuid) :
    Mirrors serde dataDir fs configs' where
  undisturbed := h.undisturbed
  onDisk dir hdir name c hheld := by
    rw [heq name]
    exact h.onDisk dir hdir name c hheld
  inMemory uuid c hc := by
    rw [heq uuid] at hc
    exact h.inMemory uuid c hc

/-! ## Storing -/

/-- Locations of servers and of their files are different places. -/
theorem concat_ne_file {dir : Path} {a b : Name} : dir ++ [a] ≠ dir ++ [b, configFile] := by
  intro heq
  have hlength := congrArg List.length heq
  simp at hlength

theorem file_ne_file {dir : Path} {a b : Name} (h : a ≠ b) :
    dir ++ [a, configFile] ≠ dir ++ [b, configFile] := by
  intro heq
  have hpair := List.append_cancel_left heq
  cases hpair
  exact h rfl

/-- A file is put into the directory of a server: what the disk is like then. -/
theorem written_file (h : Undisturbed fs dataDir) (hleads : fs.LeadsTo (names dataDir) dir)
    (hdirectory : fs.lookup (dir ++ [uuid]) = some .dir)
    (hfile : fs.lookup (dir ++ [uuid, configFile]) ≠ some .dir) (content : String) :
    (fs.set (dir ++ [uuid, configFile]) (.file content)).LeadsTo (names dataDir) dir ∧
      Undisturbed (fs.set (dir ++ [uuid, configFile]) (.file content)) dataDir ∧
      ∀ serde name, heldIn serde (fs.set (dir ++ [uuid, configFile]) (.file content)) dir name =
        if name = uuid then serde.decode content else heldIn serde fs dir name := by
  have hne : dir ++ [uuid, configFile] ≠ [] :=
    List.append_ne_nil_of_right_ne_nil _ (List.cons_ne_nil _ _)
  have hmay := mayLead_of_leadsTo hleads
  have hkeeps : fs.KeepsWays (fs.set (dir ++ [uuid, configFile]) (.file content)) := by
    refine .set_file hne fun e he => ?_
    cases e with
    | file old => exact ⟨old, rfl⟩
    | dir => exact absurd he hfile
    | link target => exact absurd he (h.file_ne_link hmay uuid target)
  have hleads' := hleads.of_keepsWays hkeeps
  refine ⟨hleads', ⟨fun dir' hdir' name e he => ?_, fun dir' hdir' name e he hdir => ?_⟩,
    fun serde name => ?_⟩
  · obtain rfl := mayLead_unique hleads' hdir'
    rw [lookup_set hne, if_neg concat_ne_file] at he
    exact h.directory _ hmay name e he
  · obtain rfl := mayLead_unique hleads' hdir'
    rw [lookup_set hne] at he
    rw [lookup_set hne, if_neg concat_ne_file]
    split at he
    next heq =>
      cases he
      have hpair := List.append_cancel_left heq
      cases hpair
      exact ⟨hdirectory, fun _ heq => by cases heq⟩
    next => exact h.file _ hmay name e he hdir
  · rw [heldIn, lookup_set hne, if_neg concat_ne_file, lookup_set hne]
    by_cases hname : name = uuid
    · subst hname
      rw [if_pos rfl, if_pos rfl, hdirectory]
    · rw [if_neg (file_ne_file hname), if_neg hname]
      rfl

/-- The directory of a server lies in the data directory. -/
theorem directory_of_leadsTo {home : Path} (h : Undisturbed fs dataDir) (huuid : IsOrdinary uuid)
    (hhome : fs.LeadsTo (names dataDir ++ [uuid]) home) :
    ∃ dir, fs.LeadsTo (names dataDir) dir ∧ fs.lookup (dir ++ [uuid]) = some .dir ∧
      home = dir ++ [uuid] := by
  obtain ⟨dir, hleads⟩ := leadsTo_of_append hhome.1
  refine ⟨dir, hleads, ?_⟩
  obtain ⟨left, hleft⟩ := hleads.resolve_append
  have hfound := hhome.1
  rw [hleft, walk_cons, if_neg huuid.2.1.1, if_neg huuid.2.1.2] at hfound
  cases hlookup : fs.lookup (dir ++ [uuid]) with
  | none =>
    rw [hlookup] at hfound
    cases hfound
  | some e =>
    rw [hlookup] at hfound
    cases e with
    | dir =>
      dsimp only at hfound
      rw [walk_nil] at hfound
      cases hfound
      exact ⟨rfl, rfl⟩
    | file content =>
      cases hfound
      have hfile := hhome.2
      rw [hlookup] at hfile
      cases hfile
    | link target =>
      exact absurd hlookup (h.directory_ne_link (mayLead_of_leadsTo hleads) uuid target)

/-- Making the directory of a server makes it, and nothing else is different there. -/
theorem made_directory (h : Undisturbed fs dataDir) (huuid : IsOrdinary uuid)
    (hmade : (fs.createDirAll (lexical (serverDir dataDir uuid))).2 = none) :
    ∃ dir, (fs.createDirAll (lexical (serverDir dataDir uuid))).1.LeadsTo (names dataDir) dir ∧
      (fs.createDirAll (lexical (serverDir dataDir uuid))).1.lookup (dir ++ [uuid]) = some .dir ∧
      Undisturbed (fs.createDirAll (lexical (serverDir dataDir uuid))).1 dataDir := by
  have hundisturbed : Undisturbed (fs.createDirAll (lexical (serverDir dataDir uuid))).1 dataDir :=
    h.of_made (createDirAll_made fs _) (createDirAll_addsOrdinary fun n hn => mem_lexical hn)
  obtain ⟨home, hhome⟩ := createDirAll_leadsTo hmade
  obtain ⟨dir, hleads, hdirectory, -⟩ :=
    directory_of_leadsTo hundisturbed huuid ((leadsTo_lexical huuid).mp hhome)
  exact ⟨dir, hleads, hdirectory, hundisturbed⟩

/-- A configuration that is stored is in the server's file, and the other files are as before. -/
theorem persisted (h : Undisturbed fs dataDir) (huuid : IsOrdinary c.uuid)
    (hmade : (fs.createDirAll (lexical (serverDir dataDir c.uuid))).2 = none)
    (hwrite : (fs.createDirAll (lexical (serverDir dataDir c.uuid))).1.writeFile
      (configPath dataDir c.uuid) (serde.encode c) = .ok fs') :
    AppState.persistConfig serde fs dataDir c.uuid c = fs' ∧ Undisturbed fs' dataDir ∧
      ∃ dir, fs'.LeadsTo (names dataDir) dir ∧ MayLead fs dataDir dir ∧
        (∀ dir', fs.LeadsTo (names dataDir) dir' → dir' = dir) ∧
        heldIn serde fs' dir c.uuid = serde.decode (serde.encode c) ∧
        ∀ name, name ≠ c.uuid → ∀ c',
          heldIn serde fs' dir name = some c' ↔ heldIn serde fs dir name = some c' := by
  obtain ⟨dir, hleads, hdirectory, hundisturbed⟩ := made_directory h huuid hmade
  have hmadeDirs := createDirAll_made fs (lexical (serverDir dataDir c.uuid))
  have hpersist : AppState.persistConfig serde fs dataDir c.uuid c = fs' := by
    unfold AppState.persistConfig
    rw [configPath] at hwrite
    dsimp only
    rw [hwrite]
  refine ⟨hpersist, ?_⟩
  generalize (fs.createDirAll (lexical (serverDir dataDir c.uuid))).1 = made at *
  have hmay := mayLead_of_leadsTo hleads
  have hwritten : made.lookup (dir ++ [c.uuid, configFile]) ≠ some .dir ∧
      fs' = made.set (dir ++ [c.uuid, configFile]) (.file (serde.encode c)) := by
    have hresolve := resolve_configPath hleads huuid
      (hundisturbed.directory_ne_link hmay c.uuid) (hundisturbed.file_ne_link hmay c.uuid)
    rw [hdirectory] at hresolve
    dsimp only at hresolve
    unfold FileSystem.writeFile at hwrite
    rw [hresolve] at hwrite
    cases hfile : made.lookup (dir ++ [c.uuid, configFile]) with
    | none =>
      rw [hfile] at hwrite
      cases hwrite
      refine ⟨fun heq => (by cases heq), ?_⟩
      rw [List.append_assoc]
      rfl
    | some e =>
      rw [hfile] at hwrite
      dsimp only at hwrite
      rw [hfile] at hwrite
      cases e with
      | file old =>
        cases hwrite
        exact ⟨fun heq => (by cases heq), rfl⟩
      | dir => cases hwrite
      | link target => cases hwrite
  obtain ⟨hfile, rfl⟩ := hwritten
  obtain ⟨hleads', hundisturbed', hheld⟩ :=
    written_file hundisturbed hleads hdirectory hfile (serde.encode c)
  refine ⟨hundisturbed', dir, hleads', mayLead_of_made hmadeDirs hmay, fun dir' hdir' => ?_, ?_,
    fun name hname c' => ?_⟩
  · exact hleads.unique (hdir'.of_keepsWays hmadeDirs.keepsWays)
  · rw [hheld, if_pos rfl]
  · rw [hheld, if_neg hname]
    exact ⟨heldIn_of_made h (mayLead_of_made hmadeDirs hmay) hmadeDirs, heldIn_made hmadeDirs⟩

/-- Storing keeps the two sides together. -/
theorem Mirrors.store (h : Mirrors serde dataDir fs configs)
    (hdecode : serde.decode (serde.encode c) = some c) (huuid : IsOrdinary c.uuid)
    (hmade : (fs.createDirAll (lexical (serverDir dataDir c.uuid))).2 = none)
    (hwrite : (fs.createDirAll (lexical (serverDir dataDir c.uuid))).1.writeFile
      (configPath dataDir c.uuid) (serde.encode c) = .ok fs') :
    Mirrors serde dataDir (AppState.persistConfig serde fs dataDir c.uuid c)
      (configs.insert c.uuid c) := by
  obtain ⟨hpersist, hundisturbed, dir, hleads, hmay, hunique, hself, hothers⟩ :=
    persisted h.undisturbed huuid hmade hwrite
  rw [hpersist]
  rw [hdecode] at hself
  refine ⟨hundisturbed, fun dir' hdir' name c' hheld => ?_, fun uuid c' hc' => ?_⟩
  · obtain rfl := mayLead_unique hleads hdir'
    by_cases hname : name = c.uuid
    · subst hname
      cases hself.symm.trans hheld
      exact ⟨rfl, AList.lookup_insert _⟩
    · rw [AList.lookup_insert_ne hname]
      exact h.onDisk _ hmay name c' ((hothers name hname c').mp hheld)
  · refine ⟨dir, hleads, ?_⟩
    by_cases huuid' : uuid = c.uuid
    · subst huuid'
      rw [AList.lookup_insert] at hc'
      cases hc'
      exact hself
    · rw [AList.lookup_insert_ne huuid'] at hc'
      obtain ⟨dir', hdir', hheld⟩ := h.inMemory uuid c' hc'
      obtain rfl := hunique dir' hdir'
      exact (hothers uuid huuid' c').mpr hheld

/-! ## Removing -/

theorem removePersisted_ok (h : fs.removeFile (configPath dataDir uuid) = .ok fs') :
    AppState.removePersisted fs dataDir uuid = fs' := by
  rw [configPath] at h
  unfold AppState.removePersisted
  rw [h]

theorem removePersisted_error {e : IoError}
    (h : fs.removeFile (configPath dataDir uuid) = .error e) :
    AppState.removePersisted fs dataDir uuid = fs := by
  rw [configPath] at h
  unfold AppState.removePersisted
  rw [h]

/-- Either the file of the server was there and is gone, or nothing has changed. -/
theorem removePersisted_cases (serde : Serde) (h : Undisturbed fs dataDir)
    (huuid : IsOrdinary uuid) :
    (∃ dir content, fs.LeadsTo (names dataDir) dir ∧
        fs.lookup (dir ++ [uuid, configFile]) = some (.file content) ∧
        AppState.removePersisted fs dataDir uuid = fs.removeTree (dir ++ [uuid, configFile])) ∨
      AppState.removePersisted fs dataDir uuid = fs ∧
        ∀ dir, fs.LeadsTo (names dataDir) dir → heldIn serde fs dir uuid = none := by
  have hpath : configPath dataDir uuid = (names dataDir ++ [uuid]) ++ [configFile] := by
    rw [configPath_eq huuid, List.append_assoc]
    rfl
  by_cases hfile : ∃ dir content, fs.LeadsTo (names dataDir) dir ∧
      fs.lookup (dir ++ [uuid, configFile]) = some (.file content)
  · obtain ⟨dir, content, hleads, hfile⟩ := hfile
    have hcons : dir ++ [uuid, configFile] = (dir ++ [uuid]) ++ [configFile] := by simp
    have hfile' : fs.lookup ((dir ++ [uuid]) ++ [configFile]) = some (.file content) := by
      rwa [← hcons]
    have hdirectory :=
      (h.file dir (mayLead_of_leadsTo hleads) uuid _ hfile fun heq => by cases heq).1
    have hentry : fs.entryAt (configPath dataDir uuid) = .ok (dir ++ [uuid], configFile) := by
      rw [hpath]
      exact entryAt_eq (hleads.snoc huuid.2.1 hdirectory) isOrdinary_configFile.2.1
    refine .inl ⟨dir, content, hleads, hfile, ?_⟩
    rw [removePersisted_ok (removeFile_eq hentry hfile'), hcons]
  · refine .inr ⟨?_, fun dir hleads => ?_⟩
    · cases hok : fs.removeFile (configPath dataDir uuid) with
      | error e => exact removePersisted_error hok
      | ok fs' =>
        obtain ⟨home, last, hentry, -, hentries⟩ := removeFile_ok hok
        obtain ⟨heq, hhome, -⟩ := entryAt_ok hentry
        rw [hpath, List.dropLast_concat] at heq hhome
        obtain rfl := List.singleton_inj.mp (List.append_cancel_left heq)
        obtain ⟨dir, hleads, -, rfl⟩ := directory_of_leadsTo h huuid hhome
        have hcons : dir ++ [uuid, configFile] = (dir ++ [uuid]) ++ [configFile] := by simp
        rw [← hcons] at hentries
        rcases hentries with ⟨content, hlookup⟩ | ⟨target, hlookup⟩
        · exact absurd ⟨dir, content, hleads, hlookup⟩ hfile
        · exact absurd hlookup (h.file_ne_link (mayLead_of_leadsTo hleads) uuid target)
    · unfold heldIn
      split
      next content _ hlookup => exact absurd ⟨dir, content, hleads, hlookup⟩ hfile
      next => rfl

/-- The file of a server is gone: what the disk is like then. -/
theorem removed_file {content : String} (h : Undisturbed fs dataDir)
    (hleads : fs.LeadsTo (names dataDir) dir)
    (hfile : fs.lookup (dir ++ [uuid, configFile]) = some (.file content)) :
    (fs.removeTree (dir ++ [uuid, configFile])).LeadsTo (names dataDir) dir ∧
      Undisturbed (fs.removeTree (dir ++ [uuid, configFile])) dataDir ∧
      ∀ serde name, heldIn serde (fs.removeTree (dir ++ [uuid, configFile])) dir name =
        if name = uuid then none else heldIn serde fs dir name := by
  have hne : dir ++ [uuid, configFile] ≠ [] :=
    List.append_ne_nil_of_right_ne_nil _ (List.cons_ne_nil _ _)
  have hmay := mayLead_of_leadsTo hleads
  have hleads' := hleads.of_keepsWays (.removeTree hfile)
  have hdirectory : ∀ name, ¬dir ++ [uuid, configFile] <+: dir ++ [name] := by
    intro name hpre
    have hlength := hpre.length_le
    simp at hlength
  refine ⟨hleads', ⟨fun dir' hdir' name e he => ?_, fun dir' hdir' name e he hdir => ?_⟩,
    fun serde name => ?_⟩
  · obtain rfl := mayLead_unique hleads' hdir'
    rw [lookup_removeTree hne, if_neg (hdirectory name)] at he
    exact h.directory _ hmay name e he
  · obtain rfl := mayLead_unique hleads' hdir'
    rw [lookup_removeTree hne] at he
    rw [lookup_removeTree hne, if_neg (hdirectory name)]
    split at he
    · cases he
    · exact h.file _ hmay name e he hdir
  · have hother : dir ++ [uuid, configFile] <+: dir ++ [name, configFile] ↔ name = uuid := by
      rw [List.prefix_append_right_inj]
      simp [eq_comm]
    rw [heldIn, lookup_removeTree hne, if_neg (hdirectory name), lookup_removeTree hne]
    simp only [hother]
    by_cases hname : name = uuid
    · rw [if_pos hname, if_pos hname]
      cases fs.lookup (dir ++ [name]) with
      | none => rfl
      | some e => cases e <;> rfl
    · rw [if_neg hname, if_neg hname]
      rfl

/-- Removing keeps the two sides together. -/
theorem Mirrors.remove (h : Mirrors serde dataDir fs configs) (huuid : IsOrdinary uuid) :
    Mirrors serde dataDir (AppState.removePersisted fs dataDir uuid) (configs.erase uuid) := by
  rcases removePersisted_cases serde h.undisturbed huuid with
    ⟨dir, content, hleads, hfile, heq⟩ | ⟨heq, hnone⟩
  · obtain ⟨hleads', hundisturbed, hheld⟩ := removed_file h.undisturbed hleads hfile
    rw [heq]
    refine ⟨hundisturbed, fun dir' hdir' name c hc => ?_, fun uuid' c hc => ?_⟩
    · obtain rfl := mayLead_unique hleads' hdir'
      rw [hheld] at hc
      split at hc
      · cases hc
      next hname =>
        rw [AList.lookup_erase_ne hname]
        exact h.onDisk _ (mayLead_of_leadsTo hleads) name c hc
    · by_cases hname : uuid' = uuid
      · subst hname
        rw [AList.lookup_erase] at hc
        cases hc
      · rw [AList.lookup_erase_ne hname] at hc
        obtain ⟨dir', hdir', hc⟩ := h.inMemory uuid' c hc
        obtain rfl := hleads.unique hdir'
        exact ⟨_, hleads', by rw [hheld, if_neg hname, hc]⟩
  · -- Nothing was there, and so nothing was in memory either.
    rw [heq]
    have hmemory : configs.lookup uuid = none := by
      cases hc : configs.lookup uuid with
      | none => rfl
      | some c =>
        obtain ⟨dir, hleads, hheld⟩ := h.inMemory uuid c hc
        rw [hnone dir hleads] at hheld
        cases hheld
    refine h.congr fun uuid' => ?_
    by_cases hname : uuid' = uuid
    · subst hname
      rw [AList.lookup_erase, hmemory]
    · rw [AList.lookup_erase_ne hname]

/-! ## Runs -/

theorem registryStep_config {l : RegistryLabel} (h : registryStep serde s l = some s') :
    s'.config = s.config := by
  cases l with
  | op op =>
    cases op with
    | store c =>
      obtain rfl := Option.some.inj h
      simp only [AppState.storeServerConfig, StateAction.modify]
    | remove uuid =>
      obtain rfl := Option.some.inj h
      simp only [AppState.removeServerConfig, StateAction.modify]
  | restart entries =>
    simp only [registryStep] at h
    split at h
    · cases h
      rfl
    · cases h

/-- One step keeps the two sides together. -/
theorem mirrors_step {text : JsonText} (htext : text.RoundTrips) (hdataDir : s.config.dataDir ≠ "")
    (h : Mirrors (.json text) s.config.dataDir s.fs s.serverConfigs) {l : RegistryLabel}
    (hl : OrdinaryUuids l) (hwrites : WritesSucceed (.json text) s l)
    (hstep : registryStep (.json text) s l = some s') :
    Mirrors (.json text) s'.config.dataDir s'.fs s'.serverConfigs := by
  cases l with
  | op op =>
    cases op with
    | store c =>
      obtain ⟨hmade, hok⟩ := hwrites
      obtain rfl := Option.some.inj hstep
      simp only [AppState.storeServerConfig, StateAction.modify]
      cases hwrite : (s.fs.createDirAll (lexical (serverDir s.config.dataDir c.uuid))).1.writeFile
        (configPath s.config.dataDir c.uuid) ((Serde.json text).encode c) with
      | ok fs' => exact h.store (Serde.json_decode_encode htext hl.2) hl.1 hmade hwrite
      | error e =>
        rw [hwrite] at hok
        cases hok
    | remove uuid =>
      obtain rfl := Option.some.inj hstep
      simp only [AppState.removeServerConfig, StateAction.modify]
      exact h.remove hl
  | restart entries =>
    simp only [registryStep] at hstep
    split at hstep
    next hperm =>
      cases hstep
      exact h.congr (h.lookup_loadConfigs hdataDir hperm)
    next => cases hstep

/-- However the registry is used, and however often Wings is restarted, the disk holds what
memory holds. -/
theorem survivesRestart_of_run {text : JsonText} (htext : text.RoundTrips)
    (h : EmptyRegistry (.json text) s) (hdataDir : s.config.dataDir ≠ "") {ls : List RegistryLabel}
    (hordinary : ∀ l ∈ ls, OrdinaryUuids l)
    (hwrites : Along (registryStep (.json text)) (WritesSucceed (.json text)) s ls)
    (hrun : run (registryStep (.json text)) s ls = some s') :
    SurvivesRestart (.json text) s' := by
  have hinvariant : s'.config.dataDir ≠ "" ∧
      Mirrors (.json text) s'.config.dataDir s'.fs s'.serverConfigs := by
    refine run_invariant (I := fun s => s.config.dataDir ≠ "" ∧
      Mirrors (.json text) s.config.dataDir s.fs s.serverConfigs) ?_ ⟨hdataDir, h.mirrors⟩
      (along_and.mpr ⟨along_of_forall fun l hl _ => hordinary l hl, hwrites⟩) hrun
    rintro s l s' ⟨hdataDir, hmirrors⟩ ⟨hl, hwrites⟩ hstep
    refine ⟨?_, mirrors_step htext hdataDir hmirrors hl hwrites hstep⟩
    rw [registryStep_config hstep]
    exact hdataDir
  exact fun entries hperm uuid => hinvariant.2.lookup_loadConfigs hinvariant.1 hperm uuid

end Invariant

/-! ## An empty disk -/

section Unused

variable (dataDir : String)

/-- A daemon on an empty disk, with this data directory. -/
def unusedDaemon : AppState :=
  .fresh { panelUrl := "https://panel", tokenId := "id", token := "secret", dataDir } fun _ => .ok []

theorem lookup_emptyDisk (p : Path) (name : Name) :
    (⟨[]⟩ : FileSystem).lookup (p ++ [name]) = none := by
  rw [FileSystem.lookup, if_neg (List.append_ne_nil_of_right_ne_nil _ (List.cons_ne_nil _ _))]
  rfl

theorem emptyRegistry_unused (serde : Serde) : EmptyRegistry serde (unusedDaemon dataDir) where
  memory _ := rfl
  undisturbed :=
    { directory := fun dir _ name e h => by
        rw [unusedDaemon, AppState.fresh, lookup_emptyDisk] at h
        cases h
      file := fun dir _ name e h => by
        have hcons : dir ++ [name, configFile] = (dir ++ [name]) ++ [configFile] := by simp
        rw [unusedDaemon, AppState.fresh, hcons, lookup_emptyDisk] at h
        cases h }
  disk dir _ name := by
    rw [unusedDaemon, AppState.fresh, heldIn, lookup_emptyDisk]

def gameConfig : ServerConfig where
  uuid := "3f0e"
  dockerImage := "ghcr.io/games/minecraft:21"
  startupCommand := "java -jar \"server.jar\""
  environment := [("EULA", "true"), ("MOTD", "hello\nworld")]
  memoryLimit := 1024
  cpuLimit := 200
  diskLimit := 10240
  portMappings := [⟨25565, 25565⟩]
  volumePath := "/data/3f0e"

/-- Two servers are stored, the first again with more memory, and the second is removed; Wings
is restarted in between. -/
def gameRun : List RegistryLabel :=
  [.op (.store gameConfig), .op (.store { gameConfig with uuid := "77ab" }),
    .op (.store { gameConfig with memoryLimit := 2048 }), .restart ["77ab", "3f0e"],
    .op (.remove "77ab"), .op (.remove "9c00")]

theorem survivesRestart_gameRun :
    ∃ s', run (registryStep (.json plainJson)) (unusedDaemon "/data") gameRun = some s' ∧
      SurvivesRestart (.json plainJson) s' := by
  have hsome : (run (registryStep (.json plainJson)) (unusedDaemon "/data") gameRun).isSome := by
    decide +kernel
  refine ⟨_, (Option.some_get hsome).symm, ?_⟩
  exact survivesRestart_of_run plainJson_roundTrips (emptyRegistry_unused "/data" _) (by decide)
    (by decide) (by decide +kernel) (Option.some_get hsome).symm

/-- With an empty path for the data directory the configurations are stored in the working
directory, and a restart finds nothing. -/
theorem restart_without_dataDir :
    ¬∀ (s s' : AppState) (ls : List RegistryLabel), EmptyRegistry (.json plainJson) s →
      (∀ l ∈ ls, OrdinaryUuids l) →
      Along (registryStep (.json plainJson)) (WritesSucceed (.json plainJson)) s ls →
      run (registryStep (.json plainJson)) s ls = some s' →
      SurvivesRestart (.json plainJson) s' := by
  intro h
  have hlost := h (unusedDaemon "")
    (AppState.storeServerConfig (.json plainJson) gameConfig (unusedDaemon "")).2
    [.op (.store gameConfig)] (emptyRegistry_unused "" _) (by decide) (by decide +kernel) rfl []
    (by decide +kernel) "3f0e"
  revert hlost
  decide +kernel

end Unused

end Wings
