import NexusPanel.Foundation.FileOperations
import NexusPanel.Foundation.Text

/-!
# Where paths lead

A walk that ends in a directory goes through directories and links only. So it does not
notice files that come, change or go (`LeadsTo.of_keepsWays`), nor directories that are made
where nothing was: after `createDirAll` every path leads where it led before, and the path
that was asked for leads to a directory.

A path can be cut (`walk_append`, `walk_append_found`): what comes after a directory is walked
from where that directory lies, with however many links are left.
-/

namespace FS

/-! ## Induction along a walk -/

/-- The equation of a walk at a name. -/
theorem walk_cons (fs : FileSystem) (links : Nat) (cur : Path) (c : Name) (cs : List Name) :
    walk fs links cur (c :: cs) =
      if c = "." then walk fs links cur cs
      else if c = ".." then walk fs links cur.dropLast cs
      else
        match fs.lookup (cur ++ [c]) with
        | none => if cs = [] then .absent cur c else .missing
        | some .dir => walk fs links (cur ++ [c]) cs
        | some (.file _) => if cs = [] then .found (cur ++ [c]) else .refused
        | some (.link target) =>
          followWith fs links (if isAbsolute target then [] else cur) (components target ++ cs) := by
  rw [walk_eq]
  rfl

/-- A walk goes on with the names that are left, or behind a link with one link less. -/
theorem walk_induction {motive : Nat → Path → List Name → Prop}
    (nil : ∀ links cur, motive links cur [])
    (cons : ∀ links cur c cs, (∀ cur', motive links cur' cs) →
      (∀ left start ds, links = left + 1 → motive left start ds) → motive links cur (c :: cs)) :
    ∀ links cur cs, motive links cur cs := by
  intro links
  induction links with
  | zero =>
    intro cur cs
    induction cs generalizing cur with
    | nil => exact nil 0 cur
    | cons c cs ih => exact cons 0 cur c cs ih (fun left _ _ h => by cases h)
  | succ links ihLinks =>
    intro cur cs
    induction cs generalizing cur with
    | nil => exact nil _ cur
    | cons c cs ih =>
      refine cons _ cur c cs ih fun left start ds h => ?_
      cases h
      exact ihLinks start ds

section Walks

variable {fs fs' : FileSystem} {links : Nat} {cur loc p : Path} {cs rest : List Name}

/-- Behind a link the walk goes on with one link less, or not at all. -/
theorem followWith_found {start : Path} {ds : List Name}
    (h : followWith fs links start ds = .found loc) :
    ∃ left, links = left + 1 ∧ walk fs left start ds = .found loc := by
  cases links with
  | zero => cases h
  | succ left => exact ⟨left, rfl, h⟩

/-- After a path that leads to a directory, the other names are walked from there. -/
theorem walk_append (h : walk fs links cur cs = .found loc) (hdir : fs.lookup loc = some .dir) :
    ∃ left, ∀ rest, walk fs links cur (cs ++ rest) = walk fs left loc rest := by
  induction links, cur, cs using walk_induction with
  | nil links cur =>
    rw [walk_nil] at h
    cases h
    exact ⟨links, fun _ => rfl⟩
  | cons links cur c cs ih ihLink =>
    rw [walk_cons] at h
    by_cases hdot : c = "."
    · rw [if_pos hdot] at h
      obtain ⟨left, hleft⟩ := ih cur h
      refine ⟨left, fun rest => ?_⟩
      rw [List.cons_append, walk_cons, if_pos hdot, hleft]
    · by_cases hdots : c = ".."
      · rw [if_neg hdot, if_pos hdots] at h
        obtain ⟨left, hleft⟩ := ih _ h
        refine ⟨left, fun rest => ?_⟩
        rw [List.cons_append, walk_cons, if_neg hdot, if_pos hdots, hleft]
      · rw [if_neg hdot, if_neg hdots] at h
        cases hlookup : fs.lookup (cur ++ [c]) with
        | none =>
          rw [hlookup] at h
          dsimp only at h
          split at h <;> cases h
        | some e =>
          cases e with
          | dir =>
            rw [hlookup] at h
            obtain ⟨left, hleft⟩ := ih _ h
            refine ⟨left, fun rest => ?_⟩
            rw [List.cons_append, walk_cons, if_neg hdot, if_neg hdots, hlookup]
            exact hleft rest
          | file content =>
            rw [hlookup] at h
            dsimp only at h
            split at h
            · cases h
              rw [hlookup] at hdir
              cases hdir
            · cases h
          | link target =>
            rw [hlookup] at h
            obtain ⟨used, rfl, h⟩ := followWith_found h
            obtain ⟨left, hleft⟩ := ihLink used _ _ rfl h
            refine ⟨left, fun rest => ?_⟩
            rw [List.cons_append, walk_cons, if_neg hdot, if_neg hdots, hlookup]
            dsimp only
            rw [← List.append_assoc]
            exact hleft rest

/-- What has another name after it leads to a directory. -/
theorem walk_append_found {u : Name} {us : List Name} (hcur : fs.DirPath cur)
    (h : walk fs links cur (cs ++ u :: us) = .found loc) :
    ∃ dir, walk fs links cur cs = .found dir ∧ fs.DirPath dir := by
  induction links, cur, cs using walk_induction with
  | nil links cur => exact ⟨cur, walk_nil, hcur⟩
  | cons links cur c cs ih ihLink =>
    rw [List.cons_append, walk_cons] at h
    rw [walk_cons]
    have hne : cs ++ u :: us ≠ [] := List.append_ne_nil_of_right_ne_nil _ (List.cons_ne_nil _ _)
    by_cases hdot : c = "."
    · rw [if_pos hdot] at h ⊢
      exact ih cur hcur h
    · by_cases hdots : c = ".."
      · rw [if_neg hdot, if_pos hdots] at h ⊢
        exact ih _ hcur.dropLast h
      · rw [if_neg hdot, if_neg hdots] at h ⊢
        cases hlookup : fs.lookup (cur ++ [c]) with
        | none =>
          rw [hlookup] at h
          dsimp only at h
          rw [if_neg hne] at h
          cases h
        | some e =>
          cases e with
          | dir =>
            rw [hlookup] at h
            exact ih _ (hcur.snoc ⟨hdot, hdots⟩ hlookup) h
          | file content =>
            rw [hlookup] at h
            dsimp only at h
            rw [if_neg hne] at h
            cases h
          | link target =>
            rw [hlookup] at h
            dsimp only at h ⊢
            rw [← List.append_assoc] at h
            obtain ⟨left, rfl, h⟩ := followWith_found h
            refine ihLink left _ _ rfl ?_ h
            split
            · exact .nil fs
            · exact hcur

end Walks

/-! ## Directories a path leads to -/

/-- The path leads to the directory at this location. -/
def FileSystem.LeadsTo (fs : FileSystem) (path : List Name) (dir : Path) : Prop :=
  fs.resolve path = .found dir ∧ fs.lookup dir = some .dir

section LeadsTo

variable {fs fs' : FileSystem} {path rest : List Name} {dir dir' p : Path} {name : Name}

theorem FileSystem.LeadsTo.dirPath (h : fs.LeadsTo path dir) : fs.DirPath dir :=
  (resolve_real h.1).dirPath h.2

theorem FileSystem.LeadsTo.unique (h : fs.LeadsTo path dir) (h' : fs.LeadsTo path dir') :
    dir' = dir := by
  have heq := h.1.symm.trans h'.1
  cases heq
  rfl

/-- After a path that leads to a directory the names are walked from there. -/
theorem FileSystem.LeadsTo.resolve_append (h : fs.LeadsTo path dir) :
    ∃ left, ∀ rest, fs.resolve (path ++ rest) = walk fs left dir rest :=
  walk_append h.1 h.2

theorem FileSystem.LeadsTo.snoc (h : fs.LeadsTo path dir) (hname : IsNormal name)
    (hdir : fs.lookup (dir ++ [name]) = some .dir) :
    fs.LeadsTo (path ++ [name]) (dir ++ [name]) := by
  obtain ⟨left, hleft⟩ := h.resolve_append
  exact ⟨by rw [hleft, walk_dir hname hdir, walk_nil], hdir⟩

/-- A path with a name after it leads through a directory. -/
theorem leadsTo_of_append {u : Name} {us : List Name}
    (h : fs.resolve (path ++ u :: us) = .found p) : ∃ dir, fs.LeadsTo path dir := by
  obtain ⟨dir, hdir, hpath⟩ := walk_append_found (.nil fs) h
  exact ⟨dir, hdir, hpath.lookup⟩

end LeadsTo

/-! ## Dots -/

/-- A walk that ends in a directory does not mind dots. -/
theorem walk_dots (fs : FileSystem) (links : Nat) (cur : Path) (cs : List Name) {loc : Path}
    (hdir : fs.lookup loc = some .dir) :
    walk fs links cur (cs.filter (· ≠ ".")) = .found loc ↔ walk fs links cur cs = .found loc := by
  induction links, cur, cs using walk_induction with
  | nil links cur => rfl
  | cons links cur c cs ih ihLink =>
    by_cases hdot : c = "."
    · rw [List.filter_cons_of_neg (by simpa using hdot), walk_cons fs links cur c cs, if_pos hdot]
      exact ih cur
    · rw [List.filter_cons_of_pos (by simpa using hdot), walk_cons, walk_cons fs links cur c cs,
        if_neg hdot, if_neg hdot]
      split
      next => exact ih _
      next =>
        cases hlookup : fs.lookup (cur ++ [c]) with
        | none =>
          dsimp only
          split <;> split <;> simp
        | some e =>
          cases e with
          | dir => exact ih _
          | file content =>
            have hloc : cur ++ [c] ≠ loc := by
              rintro rfl
              rw [hlookup] at hdir
              cases hdir
            dsimp only
            split <;> split <;> simp [hloc]
          | link target =>
            cases links with
            | zero => rfl
            | succ left =>
              dsimp only [followWith]
              rw [← ihLink left _ (components target ++ cs) rfl,
                ← ihLink left _ (components target ++ cs.filter (· ≠ ".")) rfl,
                List.filter_append, List.filter_append, List.filter_filter]
              simp only [Bool.and_self]

theorem leadsTo_dots {fs : FileSystem} {path : List Name} {dir : Path} :
    fs.LeadsTo (path.filter (· ≠ ".")) dir ↔ fs.LeadsTo path dir := by
  constructor
  · rintro ⟨h, hdir⟩
    exact ⟨(walk_dots fs maxLinks [] path hdir).mp h, hdir⟩
  · rintro ⟨h, hdir⟩
    exact ⟨(walk_dots fs maxLinks [] path hdir).mpr h, hdir⟩

/-! ## Changes that a walk does not notice -/

namespace FileSystem

/-- Directories and links stay where they are; files may come, change and go. -/
def KeepsWays (fs fs' : FileSystem) : Prop :=
  ∀ dir name e, fs.DirPath dir → fs.lookup (dir ++ [name]) = some e →
    (∀ content, e ≠ .file content) → fs'.lookup (dir ++ [name]) = some e

/-- Directories have been made where nothing was, and that is all. -/
def MadeDirs (fs fs' : FileSystem) : Prop :=
  ∀ p, fs'.lookup p = fs.lookup p ∨ fs.lookup p = none ∧ fs'.lookup p = some .dir

section

variable {fs fs' fs'' : FileSystem} {path : List Name} {dir p : Path} {name : Name}

theorem MadeDirs.refl (fs : FileSystem) : fs.MadeDirs fs := fun _ => .inl rfl

theorem MadeDirs.trans (h : fs.MadeDirs fs') (h' : fs'.MadeDirs fs'') : fs.MadeDirs fs'' := by
  intro p
  rcases h' p with heq | ⟨hnone, hdir⟩
  · rw [heq]
    exact h p
  · rcases h p with heq | ⟨-, hdir'⟩
    · rw [heq] at hnone
      exact .inr ⟨hnone, hdir⟩
    · rw [hdir'] at hnone
      cases hnone

theorem MadeDirs.lookup {e : Entry} (h : fs.MadeDirs fs') (he : fs.lookup p = some e) :
    fs'.lookup p = some e := by
  rcases h p with heq | ⟨hnone, -⟩
  · rw [heq, he]
  · rw [hnone] at he
    cases he

/-- What is there after directories have been made, and is none, was there before. -/
theorem MadeDirs.lookup_of_ne {e : Entry} (h : fs.MadeDirs fs') (he : fs'.lookup p = some e)
    (hdir : e ≠ .dir) : fs.lookup p = some e := by
  rcases h p with heq | ⟨-, hmade⟩
  · rw [← heq, he]
  · rw [hmade] at he
    cases he
    exact absurd rfl hdir

theorem MadeDirs.keepsWays (h : fs.MadeDirs fs') : fs.KeepsWays fs' :=
  fun _ _ _ _ he _ => h.lookup he

/-- A file is written where nothing or another file was. -/
theorem KeepsWays.set_file {content : String} (hp : p ≠ [])
    (h : ∀ e, fs.lookup p = some e → ∃ old, e = .file old) :
    fs.KeepsWays (fs.set p (.file content)) := by
  intro dir name e _ he hfile
  rw [lookup_set hp]
  split
  next heq =>
    obtain ⟨old, rfl⟩ := h e (heq ▸ he)
    exact absurd rfl (hfile old)
  next => exact he

theorem DirPath.of_prefix (h : fs.DirPath dir) (hp : p <+: dir) : fs.DirPath p := by
  obtain ⟨rest, rfl⟩ := hp
  exact h.of_append

/-- A file is removed. -/
theorem KeepsWays.removeTree {content : String} (h : fs.lookup p = some (.file content)) :
    fs.KeepsWays (fs.removeTree p) := by
  intro dir name e hdir he hfile
  have hp : p ≠ [] := by
    rintro rfl
    cases h
  rw [lookup_removeTree hp]
  split
  next hpre =>
    rcases List.prefix_concat_iff.mp hpre with rfl | hpre
    · rw [h] at he
      cases he
      exact absurd rfl (hfile content)
    · rw [(hdir.of_prefix hpre).lookup] at h
      cases h
  next => exact he

theorem walk_keepsWays {links : Nat} {cur loc : Path} {cs : List Name} (hkeeps : fs.KeepsWays fs')
    (hcur : fs.DirPath cur) (hdir : fs.lookup loc = some .dir)
    (h : walk fs links cur cs = .found loc) : walk fs' links cur cs = .found loc := by
  induction links, cur, cs using walk_induction with
  | nil links cur => rwa [walk_nil] at h ⊢
  | cons links cur c cs ih ihLink =>
    rw [walk_cons] at h ⊢
    by_cases hdot : c = "."
    · rw [if_pos hdot] at h ⊢
      exact ih cur hcur h
    · by_cases hdots : c = ".."
      · rw [if_neg hdot, if_pos hdots] at h ⊢
        exact ih _ hcur.dropLast h
      · rw [if_neg hdot, if_neg hdots] at h ⊢
        cases hlookup : fs.lookup (cur ++ [c]) with
        | none =>
          rw [hlookup] at h
          dsimp only at h
          split at h <;> cases h
        | some e =>
          cases e with
          | dir =>
            rw [hlookup] at h
            rw [hkeeps cur c _ hcur hlookup fun _ heq => by cases heq]
            exact ih _ (hcur.snoc ⟨hdot, hdots⟩ hlookup) h
          | file content =>
            rw [hlookup] at h
            dsimp only at h
            split at h
            · cases h
              rw [hlookup] at hdir
              cases hdir
            · cases h
          | link target =>
            rw [hlookup] at h
            rw [hkeeps cur c _ hcur hlookup fun _ heq => by cases heq]
            obtain ⟨left, rfl, h⟩ := followWith_found h
            refine ihLink left _ _ rfl ?_ h
            split
            · exact .nil fs
            · exact hcur

/-- What keeps directories and links keeps where paths lead. -/
theorem LeadsTo.of_keepsWays (h : fs.LeadsTo path dir) (hkeeps : fs.KeepsWays fs') :
    fs'.LeadsTo path dir := by
  refine ⟨walk_keepsWays hkeeps (.nil fs) h.2 h.1, ?_⟩
  rcases List.eq_nil_or_concat' dir with rfl | ⟨parent, name, rfl⟩
  · rfl
  · exact hkeeps parent name _ h.dirPath.of_append h.2 fun _ heq => by cases heq

/-! ## Making directories -/

theorem entryAt_ok (h : fs.entryAt path = .ok (dir, name)) :
    path = path.dropLast ++ [name] ∧ fs.LeadsTo path.dropLast dir ∧ IsNormal name := by
  unfold entryAt at h
  rcases List.eq_nil_or_concat' path with rfl | ⟨init, last, rfl⟩
  · cases h
  · rw [List.getLast?_concat, List.dropLast_concat] at h
    dsimp only at h
    rw [List.dropLast_concat]
    split at h
    next dir' hfound =>
      split at h
      next hdir =>
        cases h
        exact ⟨rfl, ⟨hfound, hdir.1⟩, hdir.2⟩
      next => cases h
    all_goals cases h

theorem entryAt_eq (h : fs.LeadsTo path dir) (hname : IsNormal name) :
    fs.entryAt (path ++ [name]) = .ok (dir, name) := by
  unfold entryAt
  rw [List.getLast?_concat, List.dropLast_concat, h.1]
  exact if_pos ⟨h.2, hname⟩

/-- A file that is there is removed. -/
theorem removeFile_eq {content : String} (h : fs.entryAt path = .ok (dir, name))
    (hfile : fs.lookup (dir ++ [name]) = some (.file content)) :
    fs.removeFile path = .ok (fs.removeTree (dir ++ [name])) := by
  unfold removeFile
  rw [h]
  dsimp only
  rw [hfile]

/-- What is removed is a file or a link. -/
theorem removeFile_ok (h : fs.removeFile path = .ok fs') :
    ∃ dir name, fs.entryAt path = .ok (dir, name) ∧ fs' = fs.removeTree (dir ++ [name]) ∧
      ((∃ content, fs.lookup (dir ++ [name]) = some (.file content)) ∨
        ∃ target, fs.lookup (dir ++ [name]) = some (.link target)) := by
  unfold removeFile at h
  split at h
  next dir name hentry =>
    refine ⟨dir, name, hentry, ?_⟩
    split at h
    next content hfile =>
      cases h
      exact ⟨rfl, .inl ⟨content, hfile⟩⟩
    next target hlink =>
      cases h
      exact ⟨rfl, .inr ⟨target, hlink⟩⟩
    all_goals cases h
  next => cases h

theorem mkdir_ok (h : fs.mkdir path = .ok fs') :
    fs.MadeDirs fs' ∧ ∃ dir, fs'.LeadsTo path dir := by
  unfold mkdir at h
  split at h
  next dir name hentry =>
    obtain ⟨hpath, hleads, hname⟩ := entryAt_ok hentry
    have hne : dir ++ [name] ≠ [] := List.append_ne_nil_of_right_ne_nil _ (List.cons_ne_nil _ _)
    split at h
    next hnone =>
      cases h
      have hmade : fs.MadeDirs (fs.set (dir ++ [name]) .dir) := by
        intro p
        rw [lookup_set hne]
        split
        next heq => exact .inr ⟨heq ▸ hnone, rfl⟩
        next => exact .inl rfl
      refine ⟨hmade, dir ++ [name], ?_⟩
      rw [hpath]
      refine (hleads.of_keepsWays hmade.keepsWays).snoc hname ?_
      rw [lookup_set hne, if_pos rfl]
    next => cases h
  next => cases h

theorem leadsTo_of_isDir (h : fs.isDir path = true) : ∃ dir, fs.LeadsTo path dir := by
  unfold isDir at h
  split at h
  next dir hfound => exact ⟨dir, hfound, eq_of_beq h⟩
  next => cases h

theorem createDirAllRev_made (fs : FileSystem) (rev : List Name) :
    fs.MadeDirs (fs.createDirAllRev rev).1 := by
  induction rev with
  | nil => exact .refl fs
  | cons name up ih =>
    unfold createDirAllRev
    dsimp only
    split
    next fs' hmk => exact (mkdir_ok hmk).1
    next =>
      split
      next fs' e heq =>
        rw [heq] at ih
        exact ih
      next fs' heq =>
        rw [heq] at ih
        split
        next fs'' hmk => exact MadeDirs.trans ih (mkdir_ok hmk).1
        next => exact ih
    next => exact .refl fs

theorem createDirAllRev_leadsTo {rev : List Name} (h : (fs.createDirAllRev rev).2 = none) :
    ∃ dir, (fs.createDirAllRev rev).1.LeadsTo rev.reverse dir := by
  cases rev with
  | nil => exact ⟨[], rfl, rfl⟩
  | cons name up =>
    unfold createDirAllRev at h ⊢
    dsimp only at h ⊢
    split at h
    next fs' hmk => exact (mkdir_ok hmk).2
    next =>
      split at h
      next => cases h
      next fs' heq =>
        split at h
        next fs'' hmk => exact (mkdir_ok hmk).2
        next =>
          split at h
          next hdir => exact leadsTo_of_isDir hdir
          next => cases h
    next =>
      split at h
      next hdir => exact leadsTo_of_isDir hdir
      next => cases h

/-- Whether or not it succeeds, `create_dir_all` makes directories and changes nothing. -/
theorem createDirAll_made (fs : FileSystem) (path : List Name) :
    fs.MadeDirs (fs.createDirAll path).1 := createDirAllRev_made fs path.reverse

/-- When it succeeds, the path leads to a directory. -/
theorem createDirAll_leadsTo (h : (fs.createDirAll path).2 = none) :
    ∃ dir, (fs.createDirAll path).1.LeadsTo path dir := by
  have hleads := createDirAllRev_leadsTo h
  rwa [List.reverse_reverse] at hleads

end

/-! ## Names -/

/-- What is there, and is not a directory, is stored. -/
theorem mem_of_lookup {fs : FileSystem} {p : Path} {e : Entry} (h : fs.lookup p = some e)
    (hdir : e ≠ .dir) : (p, e) ∈ fs.entries := by
  unfold lookup at h
  split at h
  · exact absurd (Option.some.inj h).symm hdir
  · obtain ⟨before, after, hentries, -⟩ := List.lookup_eq_some_iff.mp h
    rw [hentries]
    exact List.mem_append_right _ List.mem_cons_self

theorem mem_children {fs : FileSystem} {p : Path} {name : Name} :
    name ∈ fs.children p ↔ fs.lookup (p ++ [name]) ≠ none := by
  have hne : p ++ [name] ≠ [] := List.append_ne_nil_of_right_ne_nil _ (List.cons_ne_nil _ _)
  rw [children, List.mem_dedup, List.mem_filterMap, lookup, if_neg hne, Ne, List.lookup_eq_none_iff]
  constructor
  · rintro ⟨⟨q, e⟩, hmem, hname⟩ hall
    dsimp only at hname
    split at hname
    next hdir =>
      have hq : q = p ++ [name] := by
        rw [← hdir]
        exact (List.dropLast_append_getLast? name hname).symm
      have := hall (q, e) hmem
      rw [hq] at this
      simp at this
    next => cases hname
  · intro hall
    push Not at hall
    obtain ⟨⟨q, e⟩, hmem, hq⟩ := hall
    have heq : p ++ [name] = q := by simpa using hq
    subst heq
    refine ⟨_, hmem, ?_⟩
    dsimp only
    rw [List.dropLast_concat, if_pos rfl, List.getLast?_concat]

end FileSystem

/-- A single ordinary component of a path: what a directory can list. -/
def IsOrdinary (name : Name) : Prop := name ≠ "" ∧ IsNormal name ∧ '/' ∉ name.toList

instance (name : Name) : Decidable (IsOrdinary name) := inferInstanceAs (Decidable (_ ∧ _ ∧ _))

/-- The names of a path string, without the dot that a trailing slash stands for. -/
def names (text : String) : List Name :=
  ((text.toList.splitOn '/').map String.ofList).filter (· ≠ "")

theorem mem_names {text : String} {n : Name} (h : n ∈ names text) : n ≠ "" ∧ '/' ∉ n.toList := by
  obtain ⟨hmem, hne⟩ := List.mem_filter.mp h
  obtain ⟨part, hpart, rfl⟩ := List.mem_map.mp hmem
  refine ⟨of_decide_eq_true hne, ?_⟩
  rw [String.toList_ofList]
  exact Text.not_mem_of_mem_splitOn hpart

/-- The components of a path string are its names, up to dots. -/
theorem components_dots (text : String) :
    (components text).filter (· ≠ ".") = (names text).filter (· ≠ ".") := by
  unfold components names
  rcases List.eq_nil_or_concat' ((text.toList.splitOn '/').map String.ofList) with
    h | ⟨init, last, h⟩
  · exact absurd (List.map_eq_nil_iff.mp h) (List.splitOn_ne_nil _ _)
  · rw [h]
    dsimp only
    rw [List.dropLast_concat, List.getLast?_concat, List.filter_append (p := (· ≠ "")),
      List.filter_append, List.filter_append]
    congr 1
    by_cases hlast : last = ""
    · subst hlast
      rfl
    · rw [List.filter_cons_of_pos (by simpa using hlast), List.filter_nil]
      split
      next heq => exact absurd (Option.some.inj heq) hlast
      next heq => cases heq
      next heq => cases heq; rfl

namespace FileSystem

/-- What is added has an ordinary name. -/
def AddsOrdinary (fs fs' : FileSystem) : Prop :=
  ∀ p name, fs.lookup (p ++ [name]) = none → fs'.lookup (p ++ [name]) ≠ none → IsOrdinary name

variable {fs fs' fs'' : FileSystem} {path : List Name} {dir p : Path} {name : Name} {e : Entry}

theorem AddsOrdinary.refl (fs : FileSystem) : fs.AddsOrdinary fs :=
  fun _ _ h h' => absurd h h'

theorem AddsOrdinary.trans (h : fs.AddsOrdinary fs') (h' : fs'.AddsOrdinary fs'') :
    fs.AddsOrdinary fs'' := by
  intro p name hnone hsome
  by_cases hbetween : fs'.lookup (p ++ [name]) = none
  · exact h' p name hbetween hsome
  · exact h p name hnone hbetween

theorem mkdir_addsOrdinary (hpath : ∀ n ∈ path, n ≠ "" ∧ '/' ∉ n.toList)
    (hmk : fs.mkdir path = .ok fs') : fs.AddsOrdinary fs' := by
  unfold mkdir at hmk
  split at hmk
  next dir name hentry =>
    split at hmk
    next =>
      cases hmk
      obtain ⟨heq, -, hnormal⟩ := entryAt_ok hentry
      have hname := hpath name (by rw [heq]; exact List.mem_append_right _ List.mem_cons_self)
      intro p n hnone hsome
      rw [lookup_set (List.append_ne_nil_of_right_ne_nil _ (List.cons_ne_nil _ _))] at hsome
      split at hsome
      next heq' =>
        obtain rfl := List.singleton_inj.mp (List.append_inj' heq' rfl).2
        exact ⟨hname.1, hnormal, hname.2⟩
      next => exact absurd hnone hsome
    next => cases hmk
  next => cases hmk

theorem createDirAllRev_addsOrdinary {rev : List Name}
    (hrev : ∀ n ∈ rev, n ≠ "" ∧ '/' ∉ n.toList) :
    fs.AddsOrdinary (fs.createDirAllRev rev).1 := by
  induction rev with
  | nil => exact .refl fs
  | cons name up ih =>
    have hpath : ∀ n ∈ (name :: up).reverse, n ≠ "" ∧ '/' ∉ n.toList :=
      fun n hn => hrev n (List.mem_reverse.mp hn)
    have hup := ih fun n hn => hrev n (List.mem_cons_of_mem _ hn)
    unfold createDirAllRev
    dsimp only
    split
    next fs' hmk => exact mkdir_addsOrdinary hpath hmk
    next =>
      split
      next fs' e heq =>
        rw [heq] at hup
        exact hup
      next fs' heq =>
        rw [heq] at hup
        split
        next fs'' hmk => exact AddsOrdinary.trans hup (mkdir_addsOrdinary hpath hmk)
        next => exact hup
    next => exact .refl fs

theorem createDirAll_addsOrdinary (hpath : ∀ n ∈ path, n ≠ "" ∧ '/' ∉ n.toList) :
    fs.AddsOrdinary (fs.createDirAll path).1 :=
  createDirAllRev_addsOrdinary fun n hn => hpath n (List.mem_reverse.mp hn)

end FileSystem

end FS
