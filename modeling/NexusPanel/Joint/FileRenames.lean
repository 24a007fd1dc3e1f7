import NexusPanel.Foundation.FileFrames
import NexusPanel.Joint.FileRequests
import NexusPanel.Wings.PathValidation

/-!
# Renaming through the panel

`FilesController.rename` hands the new name to Wings as a path of its own, and Wings looks for it
below the server's root. So an entry of any other directory is moved to the root, over whatever file
has the name there. The path of the entry is resolved before it is renamed, so for a link it is the
entry behind the link that moves.

An entry of the root that is no link, and a name that is free there, are what the route is right
about (`in_place_iff`).
-/

namespace Panel

open Fallible

structure RenameFileDto where
  path : String
  newName : String
deriving DecidableEq, Repr

namespace FilesController

/-- The call that a request to rename makes; both strings of the body are checked by `@IsNotEmpty`.
`nodes` has the credential of each node. -/
def rename (db : ServerTables) (nodes : String → Credential) (uuid : String) (dto : RenameFileDto)
    (user : CurrentUser) : Except HttpException FilesCall := do
  require (dto.path != "") (.badRequest "path should not be empty")
  require (dto.newName != "") (.badRequest "newName should not be empty")
  let server ← getServerWithAccess db uuid user
  return WingsService.renameFile (nodes server.nodeId) server.uuid dto.path dto.newName

end FilesController

end Panel

namespace Joint

open Panel Wings StateAction FS Fallible

/-! ## A rename in place -/

/-- A request to rename that succeeds: the panel makes the call, and the Wings of the server's node
answers it with a success. -/
def Renames (db : ServerTables) (nodes : String → Credential) (uuid : String) (dto : RenameFileDto)
    (user : CurrentUser) (s s' : AppState) : Prop :=
  ∃ call, FilesController.rename db nodes uuid dto user = .ok call ∧ answered s call = some s'

/-- The path of a request leads to this entry, which is there. -/
structure Names (fs : FileSystem) (serverRoot requested : String) (dir : Path) (name : Name) :
    Prop where
  entry : fs.entryAt (components (joinPath serverRoot (trimSlashes requested))) = .ok (dir, name)
  there : fs.lookup (dir ++ [name]) ≠ none

/-- The entry, with everything below it, has the new name, which was free, and nothing else has
changed. -/
structure RenamedInPlace (fs fs' : FileSystem) (dir : Path) (name newName : Name) : Prop where
  free : newName ≠ name → fs.lookup (dir ++ [newName]) = none
  moved : ∀ rest, fs'.lookup (dir ++ [newName] ++ rest) = fs.lookup (dir ++ [name] ++ rest)
  gone : newName ≠ name → ∀ rest, fs'.lookup (dir ++ [name] ++ rest) = none
  others : ∀ q, ¬dir ++ [name] <+: q → ¬dir ++ [newName] <+: q → fs'.lookup q = fs.lookup q

/-! ## The condition -/

/-- The entry that Wings works on for a path, which it validates first. -/
def Takes (fs : FileSystem) (serverRoot requested : String) (dir : Path) (name : Name) : Prop :=
  ∃ p, validatePath fs serverRoot requested = .ok p ∧ fs.entryAt p = .ok (dir, name)

/-- Either the new name is the old one, and both paths come to one entry, so that nothing is done;
or the entry is one of the root, Wings works on the entry itself, and the new name is free. -/
def InPlace (fs : FileSystem) (serverRoot : String) (dto : RenameFileDto) (dir : Path)
    (name : Name) : Prop :=
  if dto.newName = name then
    ∃ dir' name', Takes fs serverRoot dto.path dir' name' ∧ Takes fs serverRoot dto.newName dir' name'
  else
    fs.canonicalize (components serverRoot) = some dir ∧ fs.lookup (dir ++ [dto.newName]) = none ∧
      Takes fs serverRoot dto.path dir name

/-! ## Moves -/

section Moves

variable {fs fs' : FileSystem} {dir d : Path} {name newName n : Name} {q : Path}

/-- A name at the end of a path is on the way to what lies at or below the path, or is its last
name. -/
theorem prefix_concat_iff {p : Path} : p <+: d ++ [n] ↔ p <+: d ∨ p = d ++ [n] := by
  constructor
  · rintro ⟨rest, heq⟩
    rcases List.eq_nil_or_concat' rest with rfl | ⟨more, last, rfl⟩
    · exact .inr (by rw [← heq, List.append_nil])
    · rw [← List.append_assoc] at heq
      exact .inl ⟨more, (List.append_inj' heq rfl).1⟩
  · rintro (h | rfl)
    · exact h.trans (List.prefix_append ..)
    · exact List.prefix_rfl

/-- What is not there is not on the way to an entry. -/
theorem not_prefix_of_missing {p : Path} {e : Entry} (hd : fs.DirPath d)
    (he : fs.lookup (d ++ [n]) = some e) (hp : fs.lookup p = none) : ¬p <+: d ++ [n] := by
  rw [prefix_concat_iff]
  rintro (hpre | rfl)
  · rw [(hd.of_prefix hpre).lookup] at hp
    cases hp
  · rw [he] at hp
    cases hp

/-- Two names of one directory are on no common way. -/
theorem eq_of_prefix_sibling {p : Path} (h : dir ++ [newName] <+: dir ++ [name] ++ p) :
    newName = name := by
  rw [List.append_assoc, List.prefix_append_right_inj, List.singleton_append,
    List.cons_prefix_cons] at h
  exact h.1

/-- A move renames the entry in its place exactly when it moves this entry to the new name, which
is another one and is free. -/
theorem renamedInPlace_moveTree_iff {e : Entry}
    (hthere : fs.lookup (dir ++ [name]) ≠ none) (hd : fs.DirPath d)
    (he : fs.lookup (d ++ [n]) = some e) (hsrc : ¬d ++ [n] <+: q) (hdst : ¬q <+: d ++ [n]) :
    RenamedInPlace fs (fs.moveTree (d ++ [n]) q) dir name newName ↔
      newName ≠ name ∧ d ++ [n] = dir ++ [name] ∧ q = dir ++ [newName] ∧
        fs.lookup (dir ++ [newName]) = none := by
  have hne : d ++ [n] ≠ [] := List.append_ne_nil_of_right_ne_nil _ (List.cons_ne_nil _ _)
  -- The entry that is moved is not where it was.
  have hleft : (fs.moveTree (d ++ [n]) q).lookup (d ++ [n]) = none :=
    FileSystem.lookup_moveTree_left hne List.prefix_rfl hdst
  constructor
  · intro h
    by_cases hnames : newName = name
    · -- Nothing is to change, but the entry has gone.
      subst hnames
      have hstays : (fs.moveTree (d ++ [n]) q).lookup (d ++ [n]) = fs.lookup (d ++ [n]) := by
        by_cases hold : dir ++ [newName] <+: d ++ [n]
        · obtain ⟨rest, hrest⟩ := hold
          have hmoved := h.moved rest
          rwa [hrest] at hmoved
        · exact h.others _ hold hold
      rw [hleft, he] at hstays
      cases hstays
    · have hfree := h.free hnames
      have hold : dir ++ [name] <+: d ++ [n] := by
        by_contra hold
        have hsame := h.others _ hold (not_prefix_of_missing hd he hfree)
        rw [hleft, he] at hsame
        cases hsame
      have hmoved := h.moved []
      have hgone := h.gone hnames []
      rw [List.append_nil, List.append_nil] at hmoved
      rw [List.append_nil] at hgone
      -- The old name has gone, so it is at or below what has moved.
      have hentry : d ++ [n] = dir ++ [name] := by
        by_contra hother
        have hsame : (fs.moveTree (d ++ [n]) q).lookup (dir ++ [name]) =
            fs.lookup (dir ++ [name]) := by
          refine FileSystem.lookup_moveTree (fun hpre => hdst (hpre.trans hold)) fun hpre => ?_
          exact hother (hpre.eq_of_length_le hold.length_le)
        exact hthere (hsame.symm.trans hgone)
      -- The new name is there now, so it is at or below where that went.
      have hgoal : q <+: dir ++ [newName] := by
        by_contra hother
        have hsame : (fs.moveTree (d ++ [n]) q).lookup (dir ++ [newName]) =
            fs.lookup (dir ++ [newName]) := by
          refine FileSystem.lookup_moveTree hother fun hpre => ?_
          rw [hentry] at hpre
          exact hnames (eq_of_prefix_sibling (p := []) (by rwa [List.append_nil])).symm
        rw [hmoved, hfree] at hsame
        exact hthere hsame
      refine ⟨hnames, hentry, ?_, hfree⟩
      rcases prefix_concat_iff.mp hgoal with hpre | heq
      · exact absurd (hpre.trans (List.prefix_append ..)) (hentry ▸ hdst)
      · exact heq
  · rintro ⟨hnames, hsame, rfl, hfree⟩
    rw [hsame]
    refine ⟨fun _ => hfree, fun rest => ?_, fun _ rest => ?_, fun p hold hnew => ?_⟩
    · exact FileSystem.lookup_moveTree_moved (by simp) (by simp) rest
    · refine FileSystem.lookup_moveTree_left (by simp) (List.prefix_append ..) fun hpre => ?_
      exact hnames (eq_of_prefix_sibling hpre)
    · exact FileSystem.lookup_moveTree hnew hold

/-- Nothing is done exactly when there is nothing to do. -/
theorem renamedInPlace_self_iff (hthere : fs.lookup (dir ++ [name]) ≠ none) :
    RenamedInPlace fs fs dir name newName ↔ newName = name := by
  constructor
  · intro h
    by_contra hnames
    have hgone := h.gone hnames []
    rw [List.append_nil] at hgone
    exact hthere hgone
  · rintro rfl
    exact ⟨fun hne => absurd rfl hne, fun _ => rfl, fun hne => absurd rfl hne, fun _ _ _ => rfl⟩

end Moves

/-! ## Paths -/

section Paths

variable {fs : FileSystem} {serverRoot requested newName : String} {dir d p q : Path}
  {name n : Name}

/-- A location with nothing but directories before its last name is the entry it names. -/
theorem entryAt_dirPath (hdir : fs.DirPath dir) (hname : IsNormal name) :
    fs.entryAt (dir ++ [name]) = .ok (dir, name) :=
  FileSystem.entryAt_eq ⟨resolve_dirPath hdir, hdir.lookup⟩ hname

/-- What a walk ends in is a directory or a file. -/
theorem lookup_of_real (h : fs.Real p) :
    fs.lookup p = some .dir ∨ ∃ content, fs.lookup p = some (.file content) := by
  rcases h with h | ⟨_, _, content, -, -, -, hfile⟩
  · exact .inl h.lookup
  · exact .inr ⟨content, hfile⟩

/-- The entry at a location that a walk ends in is at this location. -/
theorem eq_of_entryAt_real (h : fs.Real p) (hentry : fs.entryAt p = .ok (dir, name)) :
    p = dir ++ [name] := by
  obtain ⟨hpath, hleads, -⟩ := FileSystem.entryAt_ok hentry
  have hparent : fs.DirPath p.dropLast := by
    rcases h with h | ⟨d, n, content, rfl, hd, -, -⟩
    · exact h.dropLast
    · rwa [List.dropLast_concat]
  have hsame := hleads.1
  rw [resolve_dirPath hparent] at hsame
  cases hsame
  exact hpath

/-- The entry that Wings works on is the one it has validated. -/
theorem takes_iff (hvalid : validatePath fs serverRoot requested = .ok p)
    (hentry : fs.entryAt p = .ok (d, n)) :
    Takes fs serverRoot requested dir name ↔ d ++ [n] = dir ++ [name] := by
  constructor
  · rintro ⟨p', hvalid', hentry'⟩
    cases hvalid.symm.trans hvalid'
    cases hentry.symm.trans hentry'
    rfl
  · intro hsame
    obtain ⟨rfl, hlast⟩ := List.append_inj' hsame rfl
    cases hlast
    exact ⟨p, hvalid, hentry⟩

/-- Wings works on the entry itself when this is a file or a directory. -/
theorem takes_of_not_link (h : Names fs serverRoot requested dir name)
    (hlink : ∀ target, fs.lookup (dir ++ [name]) ≠ some (.link target))
    (hvalid : validatePath fs serverRoot requested = .ok p) :
    Takes fs serverRoot requested dir name := by
  obtain ⟨hpath, hleads, hname⟩ := FileSystem.entryAt_ok h.entry
  obtain ⟨left, hwalk⟩ := hleads.resolve_append
  have hfound : fs.resolve (components (joinPath serverRoot (trimSlashes requested))) =
      .found (dir ++ [name]) := by
    rw [hpath, hwalk]
    cases hentry : fs.lookup (dir ++ [name]) with
    | none => exact absurd hentry h.there
    | some e =>
      cases e with
      | file content => rw [walk_file hname hentry, if_pos rfl]
      | dir => rw [walk_dir hname hentry, walk_nil]
      | link target => exact absurd hentry (hlink target)
  obtain ⟨-, root, -, ⟨hfound', -⟩ | ⟨hmissing, -⟩⟩ := validatePath_ok hvalid
  · rw [hfound] at hfound'
    cases hfound'
    exact ⟨_, hvalid, entryAt_dirPath hleads.dirPath hname⟩
  · rw [exists_iff.mpr ⟨_, hfound⟩] at hmissing
    cases hmissing

/-- Wings never works on a link that leads somewhere. -/
theorem not_takes_of_link {target : String}
    (hlink : fs.lookup (dir ++ [name]) = some (.link target))
    (hexists : fs.exists (components (joinPath serverRoot (trimSlashes requested))) = true) :
    ¬ Takes fs serverRoot requested dir name := by
  rintro ⟨p, hvalid, hentry⟩
  obtain ⟨-, root, -, ⟨hfound, -⟩ | ⟨hmissing, -⟩⟩ := validatePath_ok hvalid
  · obtain rfl := eq_of_entryAt_real (resolve_real hfound) hentry
    rcases lookup_of_real (resolve_real hfound) with hdir | ⟨content, hfile⟩
    · cases hlink.symm.trans hdir
    · cases hlink.symm.trans hfile
  · rw [hexists] at hmissing
    cases hmissing

/-- A new name that is free in the directory is the entry of this directory exactly when the
directory is the root. -/
theorem goal_iff (hordinary : IsOrdinary newName) (hdir : fs.DirPath dir)
    (hfree : fs.lookup (dir ++ [newName]) = none)
    (hvalid : validatePath fs serverRoot newName = .ok q) (hentry : fs.entryAt q = .ok (d, n)) :
    d ++ [n] = dir ++ [newName] ↔ fs.canonicalize (components serverRoot) = some dir := by
  obtain ⟨-, root, hroot, hroute⟩ := validatePath_ok hvalid
  rw [canonicalize_eq_some, hroot, Resolution.found.injEq]
  have hnormal : Wings.normalize root root (components (trimSlashes newName)) =
      some (root ++ [newName]) := by
    rw [components_trimSlashes, components_of_isOrdinary hordinary, Wings.normalize,
      if_neg hordinary.2.1.1, if_neg hordinary.2.1.2]
    rfl
  constructor
  · intro hgoal
    obtain ⟨rfl, hlast⟩ := List.append_inj' hgoal rfl
    cases hlast
    rcases hroute with ⟨hfound, -⟩ | ⟨-, hq⟩
    · -- What is there is not free.
      obtain rfl := eq_of_entryAt_real (resolve_real hfound) hentry
      rcases lookup_of_real (resolve_real hfound) with hthere | ⟨content, hthere⟩
      · cases hfree.symm.trans hthere
      · cases hfree.symm.trans hthere
    · cases hnormal.symm.trans hq
      have hleads := (FileSystem.entryAt_ok hentry).2.1
      rw [List.dropLast_concat] at hleads
      have hself := resolve_of_real (resolve_real hroot)
      rw [hleads.1] at hself
      cases hself
      rfl
  · rintro rfl
    rcases hroute with ⟨hfound, -⟩ | ⟨-, hq⟩
    · obtain ⟨links, hwalk⟩ := resolve_joined ⟨hroot, hdir.lookup⟩ newName
      rw [components_of_isOrdinary hordinary, walk_absent hordinary.2.1 hfree, if_pos rfl] at hwalk
      cases hwalk.symm.trans hfound
    · cases hnormal.symm.trans hq
      cases (entryAt_dirPath hdir hordinary.2.1).symm.trans hentry
      rfl

end Paths

/-! ## Requests that succeed -/

section Renaming

variable {db : ServerTables} {nodes : String → Credential} {uuid : String} {dto : RenameFileDto}
  {user : CurrentUser} {s s' : AppState} {dir : Path} {name : Name}

/-- A request to rename in a server that the user may use, which Wings can do. -/
theorem renames_of_served {server : Server} {response : FileResponse} {fs : FileSystem}
    (hpath : dto.path ≠ "") (hnewName : dto.newName ≠ "")
    (hserver : getServerWithAccess db uuid user = .ok server)
    (hauth : authMiddleware s.config (some (nodes server.nodeId).authorization) = .ok ())
    (hsize : (Json.stringify [("from", dto.path), ("to", dto.newName)]).toUTF8.size ≤ bodyLimit)
    (hserved : serveFiles (serverDir s.config.dataDir server.uuid)
      (.rename dto.path dto.newName) s.fs = (.ok response, fs)) :
    Renames db nodes uuid dto user s { s with fs } := by
  refine ⟨WingsService.renameFile (nodes server.nodeId) server.uuid dto.path dto.newName, ?_, ?_⟩
  · simp only [FilesController.rename, bind_eq_ok, pure_eq_ok, require_eq_ok]
    exact ⟨(), bne_iff_ne.mpr hpath, (), bne_iff_ne.mpr hnewName, server, hserver, rfl⟩
  · exact (answered_iff ((received_eq hauth hsize).trans (ofBody_rename ..))).mpr
      ⟨response, fs, hserved, rfl⟩

/-- What a request to rename that succeeds has done to the files. -/
theorem renamed_of_renames (h : Renames db nodes uuid dto user s s') :
    ∃ p q, validatePath s.fs (serverDir s.config.dataDir uuid) dto.path = .ok p ∧
      validatePath s.fs (serverDir s.config.dataDir uuid) dto.newName = .ok q ∧
      s.fs.rename p q = .ok s'.fs := by
  obtain ⟨call, hrename, hanswered⟩ := h
  simp only [FilesController.rename, bind_eq_ok, pure_eq_ok] at hrename
  obtain ⟨-, -, -, -, server, hserver, rfl⟩ := hrename
  obtain rfl : server.uuid = uuid :=
    by simpa only [beq_iff_eq] using Table.findOne_sat (getServerWithAccess_ok hserver).1
  obtain ⟨response, hserved⟩ := answered_files (ofBody_rename ..) hanswered
  rw [serveFiles] at hserved
  obtain ⟨p, _, hvalidated, hrest⟩ := ok_of_bind hserved
  obtain ⟨rfl, hp⟩ := validated_ok hvalidated
  obtain ⟨q, _, hvalidated', hrest⟩ := ok_of_bind hrest
  obtain ⟨rfl, hq⟩ := validated_ok hvalidated'
  obtain ⟨_, _, hchange, hrest⟩ := ok_of_bind hrest
  cases hrest
  exact ⟨p, q, hp, hq, change_ok hchange⟩

/-- A request to rename an entry that succeeds renames it in its directory, without a clash, and
leaves everything else alone, exactly when the entry is one of the root, the name is free there, and
Wings works on the entry itself; or when there is nothing to do. -/
theorem in_place_iff (h : Renames db nodes uuid dto user s s')
    (hordinary : IsOrdinary dto.newName)
    (hnames : Names s.fs (serverDir s.config.dataDir uuid) dto.path dir name) :
    RenamedInPlace s.fs s'.fs dir name dto.newName ↔
      InPlace s.fs (serverDir s.config.dataDir uuid) dto dir name := by
  obtain ⟨p, q, hp, hq, hrename⟩ := renamed_of_renames h
  obtain ⟨d₁, n₁, d₂, n₂, e, hsrc, hdst, he, hmoved⟩ := FileSystem.rename_cases hrename
  have hdir := (FileSystem.entryAt_ok hnames.entry).2.1.dirPath
  have hd₁ := (FileSystem.entryAt_ok hsrc).2.1.dirPath
  have hpath : Takes s.fs (serverDir s.config.dataDir uuid) dto.path dir name ↔
      d₁ ++ [n₁] = dir ++ [name] := takes_iff hp hsrc
  rw [InPlace]
  rcases hmoved with ⟨hsame, hfs⟩ | ⟨happart, hreplaceable, hfs⟩
  · -- Both paths come to one entry, and nothing is done.
    rw [hfs, renamedInPlace_self_iff hnames.there]
    split
    next hname =>
      exact iff_of_true hname ⟨d₁, n₁, ⟨p, hp, hsrc⟩, (takes_iff hq hdst).mpr hsame.symm⟩
    next hname =>
      refine iff_of_false hname ?_
      rintro ⟨hroot, hfree, htakes⟩
      have hgoal := (goal_iff hordinary hdir hfree hq hdst).mpr hroot
      rw [← hsame, hpath.mp htakes, List.append_cancel_left_eq, List.singleton_inj] at hgoal
      exact hname hgoal.symm
  · rw [hfs, renamedInPlace_moveTree_iff hnames.there hd₁ he happart
      (FileSystem.not_prefix_of_replaceable hd₁ he happart hreplaceable)]
    split
    next hname =>
      refine iff_of_false (fun hmoved => hmoved.1 hname) ?_
      rintro ⟨dir', name', htakes, htakes'⟩
      refine happart ?_
      rw [(takes_iff hp hsrc).mp htakes, (takes_iff hq hdst).mp htakes']
    next hname =>
      constructor
      · rintro ⟨-, hentry, hgoal, hfree⟩
        exact ⟨(goal_iff hordinary hdir hfree hq hdst).mp hgoal, hfree, hpath.mpr hentry⟩
      · rintro ⟨hroot, hfree, htakes⟩
        exact ⟨hname, hpath.mp htakes, (goal_iff hordinary hdir hfree hq hdst).mpr hroot, hfree⟩

end Renaming

/-! ## Two files -/

section Examples

/-- A file of the server's root. -/
def rootFile : List (Path × Entry) := [(["data", "3f0e", "a.txt"], .file "a")]

/-- A file in a directory of the server, and another one in its root. -/
def twoFiles : List (Path × Entry) :=
  [(["data", "3f0e", "b.txt"], .file "b"), (["data", "3f0e", "config"], .dir),
    (["data", "3f0e", "config", "a.txt"], .file "a")]

/-- The entry has been moved. -/
def movedDisk (entries : List (Path × Entry)) (src dst : Path) : AppState :=
  { serverDisk entries with fs := (serverDisk entries).fs.moveTree src dst }

/-- A file of the root gets a name that is free. -/
theorem root_file_renamed : RenamedInPlace (serverDisk rootFile).fs
    (movedDisk rootFile ["data", "3f0e", "a.txt"] ["data", "3f0e", "c.txt"]).fs
    ["data", "3f0e"] "a.txt" "c.txt" := by
  have hserved : serveFiles "/data/3f0e" (.rename "/a.txt" "c.txt") (serverDisk rootFile).fs =
      (.ok .success, (movedDisk rootFile ["data", "3f0e", "a.txt"] ["data", "3f0e", "c.txt"]).fs) := by
    decide +kernel
  have hsize : (Json.stringify [("from", "/a.txt"), ("to", "c.txt")]).toUTF8.size ≤ bodyLimit := by
    decide +kernel
  have hvalid : validatePath (serverDisk rootFile).fs "/data/3f0e" "/a.txt" =
      .ok ["data", "3f0e", "a.txt"] := by decide +kernel
  have hentry : (serverDisk rootFile).fs.entryAt ["data", "3f0e", "a.txt"] =
      .ok (["data", "3f0e"], "a.txt") := by decide +kernel
  have hrenames : Renames oneServer (fun _ => nodeCredential) "3f0e" ⟨"/a.txt", "c.txt"⟩
      serverOwner (serverDisk rootFile)
      (movedDisk rootFile ["data", "3f0e", "a.txt"] ["data", "3f0e", "c.txt"]) :=
    renames_of_served (by decide) (by decide) owner_granted (daemon_accepts _) hsize hserved
  refine (in_place_iff hrenames (by decide) ⟨by decide +kernel, by decide +kernel⟩).mpr ?_
  exact ⟨by decide +kernel, by decide +kernel, _, hvalid, hentry⟩

/-- A file of a directory replaces a file of the root. -/
theorem leaves_its_directory : ∃ s s', Renames oneServer (fun _ => nodeCredential) "3f0e"
      ⟨"/config/a.txt", "b.txt"⟩ serverOwner s s' ∧
    Names s.fs "/data/3f0e" "/config/a.txt" ["data", "3f0e", "config"] "a.txt" ∧
    ¬ RenamedInPlace s.fs s'.fs ["data", "3f0e", "config"] "a.txt" "b.txt" := by
  have hserved : serveFiles "/data/3f0e" (.rename "/config/a.txt" "b.txt") (serverDisk twoFiles).fs =
      (.ok .success, (movedDisk twoFiles ["data", "3f0e", "config", "a.txt"]
        ["data", "3f0e", "b.txt"]).fs) := by
    decide +kernel
  have hsize : (Json.stringify [("from", "/config/a.txt"),
      ("to", "b.txt")]).toUTF8.size ≤ bodyLimit := by decide +kernel
  refine ⟨serverDisk twoFiles, _, renames_of_served (by decide) (by decide) owner_granted
    (daemon_accepts _) hsize hserved, ⟨by decide +kernel, by decide +kernel⟩, fun h => ?_⟩
  have hreplaced := h.others ["data", "3f0e", "b.txt"] (by decide) (by decide)
  revert hreplaced
  decide +kernel

end Examples

end Joint
