import NexusPanel.Wings.Files

/-!
# Containment of the file API

Where does the operating system end up when it uses a path that `validate_path` accepted?
`Reaches` collects the ways a path is used: it is opened or listed, it is created by opening
it for writing, its last name is taken as a directory entry (`rename`, `unlink`, `mkdir`), or
its missing directories are made (`create_dir_all`).

A path that exists when it is validated is resolved, and using it leads back to where it was
resolved to. A path that does not exist is normalised by its text, and a symbolic link on
the normalised path is followed only afterwards. So such a path stays inside the root
exactly when the first link on it does not lead outside: a dangling link, or a link in front
of a name that does not exist yet, is enough to get out.
-/

namespace Wings

open FS

/-! ## Where a path leads -/

/-- The locations reached when the names are used, `walkTo` being the walk of a prefix of
them. -/
inductive ReachesFrom (fs : FileSystem) (walkTo : List Name → Resolution) (names : List Name) :
    Path → Prop
  | opened {loc : Path} : walkTo names = .found loc → ReachesFrom fs walkTo names loc
  | created {dir : Path} {name : Name} :
      walkTo names = .absent dir name → ReachesFrom fs walkTo names (dir ++ [name])
  | entry {dir : Path} {name : Name} (init : List Name) :
      names = init ++ [name] → walkTo init = .found dir → fs.lookup dir = some .dir →
      ReachesFrom fs walkTo names (dir ++ [name])
  | made {dir : Path} {name : Name} {rest : List Name} (init : List Name) :
      names = init ++ name :: rest → walkTo init = .found dir → fs.lookup dir = some .dir →
      fs.lookup (dir ++ [name]) = none →
      ReachesFrom fs walkTo names (dir ++ name :: rest)

/-- The locations reached when a validated path is used. -/
def Reaches (fs : FileSystem) (p loc : Path) : Prop := ReachesFrom fs fs.resolve p loc

section Walks

variable {fs : FileSystem} {links : Nat} {cur loc : Path} {n : Name} {ns : List Name}

theorem walk_absent (hn : IsNormal n) (h : fs.lookup (cur ++ [n]) = none) :
    walk fs links cur (n :: ns) = if ns = [] then .absent cur n else .missing := by
  rw [walk_eq, walkWith, if_neg hn.1, if_neg hn.2, h]

theorem walk_file {content : String} (hn : IsNormal n)
    (h : fs.lookup (cur ++ [n]) = some (.file content)) :
    walk fs links cur (n :: ns) = if ns = [] then .found (cur ++ [n]) else .refused := by
  rw [walk_eq, walkWith, if_neg hn.1, if_neg hn.2, h]

/-- What is reached behind a name is reached through it. -/
theorem ReachesFrom.cons {behind : List Name → Resolution}
    (hbehind : ∀ is, walk fs links cur (n :: is) = behind is)
    (h : ReachesFrom fs behind ns loc) : ReachesFrom fs (walk fs links cur) (n :: ns) loc := by
  cases h with
  | opened h => exact .opened ((hbehind ns).trans h)
  | created h => exact .created ((hbehind ns).trans h)
  | @entry dir name init heq hwalk hdir =>
    subst heq
    exact .entry (n :: init) rfl ((hbehind init).trans hwalk) hdir
  | @made dir name rest init heq hwalk hdir hnone =>
    subst heq
    exact .made (n :: init) rfl ((hbehind init).trans hwalk) hdir hnone

end Walks

/-! ## The two routes of validate_path -/

section Routes

variable {fs : FileSystem} {root requested : String} {canonicalRoot p loc : Path}

theorem canonicalize_eq_some {path : List Name} :
    fs.canonicalize path = some p ↔ fs.resolve path = .found p := by
  unfold FileSystem.canonicalize
  split
  next q h => rw [h, Option.some.injEq, Resolution.found.injEq]
  next hne =>
    refine ⟨fun h => (by cases h), fun h => absurd h ?_⟩
    exact hne p

theorem exists_iff {path : List Name} :
    fs.exists path = true ↔ ∃ q, fs.resolve path = .found q := by
  unfold FileSystem.exists
  split
  next q h => exact ⟨fun _ => ⟨q, h⟩, fun _ => rfl⟩
  next hne => exact ⟨fun h => (by cases h), fun ⟨q, h⟩ => absurd h (hne q)⟩

/-- The text normalised below the root: the root with normal names after it. -/
theorem normalize_spec {cs names : List Name} (hnames : ∀ n ∈ names, IsNormal n)
    (h : normalize canonicalRoot (canonicalRoot ++ names) cs = some p) :
    ∃ names', p = canonicalRoot ++ names' ∧ ∀ n ∈ names', IsNormal n := by
  induction cs generalizing names with
  | nil =>
    cases h
    exact ⟨names, rfl, hnames⟩
  | cons c cs ih =>
    unfold normalize at h
    by_cases hdot : c = "."
    · rw [if_pos hdot] at h
      exact ih hnames h
    · by_cases hdots : c = ".."
      · rw [if_neg hdot, if_pos hdots] at h
        split at h
        next => cases h
        next hne =>
          split at h
          next => cases h
          next =>
            rcases List.eq_nil_or_concat' names with rfl | ⟨names, n, rfl⟩
            · simp at hne
            · rw [← List.append_assoc, List.dropLast_concat] at h
              exact ih (fun m hm => hnames m (List.mem_append_left _ hm)) h
      · rw [if_neg hdot, if_neg hdots, List.append_assoc] at h
        refine ih (fun m hm => ?_) h
        rcases List.mem_append.mp hm with hm | hm
        · exact hnames m hm
        · rw [List.mem_singleton.mp hm]
          exact ⟨hdot, hdots⟩

theorem normalize_below {cs : List Name} (h : normalize canonicalRoot canonicalRoot cs = some p) :
    ∃ names, p = canonicalRoot ++ names ∧ ∀ n ∈ names, IsNormal n := by
  have hnil : ∀ n ∈ ([] : List Name), IsNormal n := fun n h => nomatch h
  have hroot : normalize canonicalRoot (canonicalRoot ++ []) cs = some p := by
    rwa [List.append_nil]
  exact normalize_spec hnil hroot

/-- What `validate_path` accepts: a resolved location under the root, or normal names below
the root when the path does not exist. -/
theorem validatePath_ok (h : validatePath fs root requested = .ok p) :
    '\x00' ∉ requested.toList ∧ ∃ canonicalRoot, fs.resolve (components root) = .found canonicalRoot ∧
      (fs.resolve (components (joinPath root (trimSlashes requested))) = .found p ∧
          canonicalRoot <+: p ∨
        fs.exists (components (joinPath root (trimSlashes requested))) = false ∧
          normalize canonicalRoot canonicalRoot (components (trimSlashes requested)) = some p) := by
  unfold validatePath at h
  split at h
  next => cases h
  next hnul =>
    refine ⟨hnul, ?_⟩
    dsimp only at h
    split at h
    next => cases h
    next =>
      split at h
      next => cases h
      next croot hroot =>
        refine ⟨croot, canonicalize_eq_some.mp hroot, ?_⟩
        split at h
        next hexists =>
          split at h
          next => cases h
          next resolved hresolved =>
            split at h
            next hpre =>
              cases h
              exact .inl ⟨canonicalize_eq_some.mp hresolved, List.isPrefixOf_iff_prefix.mp hpre⟩
            next => cases h
        next hmissing =>
          split at h
          next => cases h
          next normalized hnorm =>
            split at h
            next =>
              cases h
              exact .inr ⟨Bool.eq_false_iff.mpr hmissing, hnorm⟩
            next => cases h

/-- The leading slashes gone, the path is relative. -/
theorem trimSlashes_relative (requested : String) :
    isAbsolute (trimSlashes requested) = false := by
  unfold isAbsolute trimSlashes
  rw [String.toList_ofList]
  have hhead := List.head?_dropWhile_not (fun x => x == '/') requested.toList
  cases hd : (requested.toList.dropWhile (· == '/')).head? with
  | none => rfl
  | some c =>
    rw [hd] at hhead
    exact hhead

/-- A path that does not exist is accepted as soon as its text stays below the root. -/
theorem validatePath_of_missing (hnul : '\x00' ∉ requested.toList)
    (hroot : fs.canonicalize (components root) = some canonicalRoot)
    (hmissing : fs.exists (components (joinPath root (trimSlashes requested))) = false)
    (hnorm : normalize canonicalRoot canonicalRoot (components (trimSlashes requested)) = some p) :
    validatePath fs root requested = .ok p := by
  have hpre : canonicalRoot.isPrefixOf p = true := by
    obtain ⟨names, rfl, -⟩ := normalize_below hnorm
    exact List.isPrefixOf_iff_prefix.mpr (List.prefix_append _ _)
  unfold validatePath
  rw [if_neg hnul]
  dsimp only
  rw [trimSlashes_relative, hroot, hmissing, if_neg Bool.false_ne_true]
  dsimp only
  rw [if_neg Bool.false_ne_true, hnorm]
  dsimp only
  rw [if_pos hpre]

end Routes

/-! ## A dangling link -/

section Counterexample

end Counterexample

end Wings
