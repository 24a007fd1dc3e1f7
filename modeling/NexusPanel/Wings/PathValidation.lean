import NexusPanel.Wings.Containment
import NexusPanel.Wings.RegistryFiles

/-!
# Validation without links

Without symbolic links below the root the two branches of `validate_path` agree. The operating
system and the loop over the text both keep a stack of names: a name is pushed and `..` pops the
last one. The loop stops where `..` finds the stack empty; the operating system goes on above
the root, where nothing is promised but that it comes back.
-/

namespace Wings

open FS

/-! ## The text of a path -/

/-- One component, on the names gone down so far. -/
def stack (names : Path) (c : Name) : Path :=
  if c = "." then names else if c = ".." then names.dropLast else names ++ [c]

/-- The components normalised. -/
def normalForm (cs : List Name) : Path := cs.foldl stack []

/-- The components that go down. -/
def descents (cs : List Name) : Nat := cs.countP fun c => c ≠ "." ∧ c ≠ ".."

/-- From this deep, some prefix goes up more often than it has gone down. -/
def ClimbsFrom (depth : Nat) (cs : List Name) : Prop :=
  ∃ start, start <+: cs ∧ depth + descents start < start.count ".."

instance (depth : Nat) (cs : List Name) : Decidable (ClimbsFrom depth cs) :=
  decidable_of_iff (∃ start ∈ cs.inits, depth + descents start < start.count "..")
    (by simp only [ClimbsFrom, List.mem_inits])

/-- Some prefix climbs above where the path starts. -/
def Climbs (cs : List Name) : Prop := ClimbsFrom 0 cs

instance (cs : List Name) : Decidable (Climbs cs) := inferInstanceAs (Decidable (ClimbsFrom 0 cs))

section Climbing

variable {depth : Nat} {c : Name} {cs : List Name}

theorem not_climbsFrom_nil : ¬ ClimbsFrom depth [] := by
  rintro ⟨start, hstart, hlt⟩
  rw [List.prefix_nil.mp hstart] at hlt
  exact absurd hlt (Nat.not_lt_zero _)

theorem climbsFrom_cons : ClimbsFrom depth (c :: cs) ↔
    ∃ start, start <+: cs ∧ depth + descents (c :: start) < (c :: start).count ".." := by
  constructor
  · rintro ⟨start, hstart, hlt⟩
    rcases List.prefix_cons_iff.mp hstart with rfl | ⟨rest, rfl, hrest⟩
    · exact absurd hlt (Nat.not_lt_zero _)
    · exact ⟨rest, hrest, hlt⟩
  · rintro ⟨start, hstart, hlt⟩
    exact ⟨c :: start, List.cons_prefix_cons.mpr ⟨rfl, hstart⟩, hlt⟩

theorem climbsFrom_dot : ClimbsFrom depth ("." :: cs) ↔ ClimbsFrom depth cs := by
  rw [climbsFrom_cons]
  simp [ClimbsFrom, descents]

theorem climbsFrom_dots : ClimbsFrom depth (".." :: cs) ↔
    depth = 0 ∨ ClimbsFrom (depth - 1) cs := by
  rw [climbsFrom_cons]
  have hdescents (start : List Name) : descents (".." :: start) = descents start := by
    simp [descents]
  simp only [hdescents, List.count_cons_self]
  constructor
  · rintro ⟨start, hstart, hlt⟩
    by_cases hdepth : depth = 0
    · exact .inl hdepth
    · exact .inr ⟨start, hstart, by omega⟩
  · rintro (rfl | ⟨start, hstart, hlt⟩)
    · exact ⟨[], List.nil_prefix, by simp [descents]⟩
    · exact ⟨start, hstart, by omega⟩

theorem climbsFrom_normal (hc : IsNormal c) :
    ClimbsFrom depth (c :: cs) ↔ ClimbsFrom (depth + 1) cs := by
  rw [climbsFrom_cons]
  have hdescents (start : List Name) : descents (c :: start) = descents start + 1 := by
    unfold descents
    rw [List.countP_cons_of_pos (by simpa [IsNormal] using hc)]
  have hcount (start : List Name) : (c :: start).count ".." = start.count ".." :=
    List.count_cons_of_ne hc.2
  simp only [hdescents, hcount, ClimbsFrom]
  constructor
  · rintro ⟨start, hstart, hlt⟩
    exact ⟨start, hstart, by omega⟩
  · rintro ⟨start, hstart, hlt⟩
    exact ⟨start, hstart, by omega⟩

end Climbing

/-! ## The two branches -/

section Branches

variable {fs : FileSystem} {root names loc : Path} {cs : List Name} {links : Nat}

/-- The loop over the text stops where the path climbs above the root. -/
theorem normalize_of_climbs (h : ClimbsFrom names.length cs) :
    normalize root (root ++ names) cs = none := by
  induction cs generalizing names with
  | nil => exact absurd h not_climbsFrom_nil
  | cons c cs ih =>
    unfold normalize
    by_cases hdot : c = "."
    · subst hdot
      rw [if_pos rfl]
      exact ih (climbsFrom_dot.mp h)
    rw [if_neg hdot]
    by_cases hdots : c = ".."
    · subst hdots
      rw [if_pos rfl]
      rcases climbsFrom_dots.mp h with hempty | hclimbs
      · rw [List.length_eq_zero_iff.mp hempty, List.append_nil, if_pos (by simp)]
      · split
        · rfl
        split
        · rfl
        next hne _ =>
          have hnames : names ≠ [] := by
            rintro rfl
            simp at hne
          rw [List.dropLast_append_of_ne_nil hnames]
          exact ih (by rwa [List.length_dropLast])
    · rw [if_neg hdots, List.append_assoc]
      refine ih ?_
      rw [List.length_append, List.length_singleton]
      exact (climbsFrom_normal ⟨hdot, hdots⟩).mp h

/-- And otherwise puts the normal form behind the root. -/
theorem normalize_of_not_climbs (h : ¬ ClimbsFrom names.length cs) :
    normalize root (root ++ names) cs = some (root ++ cs.foldl stack names) := by
  induction cs generalizing names with
  | nil => rfl
  | cons c cs ih =>
    unfold normalize
    rw [List.foldl_cons]
    by_cases hdot : c = "."
    · subst hdot
      rw [if_pos rfl]
      exact ih fun hclimbs => h (climbsFrom_dot.mpr hclimbs)
    by_cases hdots : c = ".."
    · subst hdots
      rw [climbsFrom_dots, not_or] at h
      have hnames : names ≠ [] := fun hnil => h.1 (List.length_eq_zero_iff.mpr hnil)
      have hne : ¬ (!root.isPrefixOf (root ++ names) || decide (root ++ names = root)) = true := by
        simp [hnames]
      have hpre : ¬ (!root.isPrefixOf (root ++ names).dropLast) = true := by
        rw [List.dropLast_append_of_ne_nil hnames]
        simp
      rw [if_neg hdot, if_pos rfl, if_neg hne, if_neg hpre, List.dropLast_append_of_ne_nil hnames]
      exact ih (by rw [List.length_dropLast]; exact h.2)
    · have hstack : stack names c = names ++ [c] := by
        unfold stack
        rw [if_neg hdot, if_neg hdots]
      rw [if_neg hdot, if_neg hdots, List.append_assoc, hstack]
      refine ih fun hclimbs => h ?_
      rw [climbsFrom_normal ⟨hdot, hdots⟩]
      rwa [List.length_append, List.length_singleton] at hclimbs

/-- There is no link at or below this location. -/
def LinkFree (fs : FileSystem) (root : Path) : Prop :=
  ∀ p target, root <+: p → fs.lookup p ≠ some (.link target)

theorem linkFree_of_entries (h : ∀ x ∈ fs.entries, ∀ target, x.2 ≠ .link target) :
    LinkFree fs root := by
  intro p target _ hlookup
  exact h _ (FileSystem.mem_of_lookup hlookup (by simp)) target rfl

/-- Without links, a walk that ends keeps the same stack, as long as it stays below the root. -/
theorem walk_of_not_climbs (hlinks : LinkFree fs root) (h : ¬ ClimbsFrom names.length cs)
    (hwalk : walk fs links (root ++ names) cs = .found loc) : loc = root ++ cs.foldl stack names := by
  induction cs generalizing names with
  | nil =>
    rw [walk_nil] at hwalk
    cases hwalk
    rfl
  | cons c cs ih =>
    rw [walk_cons] at hwalk
    rw [List.foldl_cons]
    by_cases hdot : c = "."
    · subst hdot
      rw [if_pos rfl] at hwalk
      exact ih (fun hclimbs => h (climbsFrom_dot.mpr hclimbs)) hwalk
    by_cases hdots : c = ".."
    · subst hdots
      rw [climbsFrom_dots, not_or] at h
      have hnames : names ≠ [] := fun hnil => h.1 (List.length_eq_zero_iff.mpr hnil)
      rw [if_neg hdot, if_pos rfl, List.dropLast_append_of_ne_nil hnames] at hwalk
      have hrest : ¬ ClimbsFrom names.dropLast.length cs := by
        rw [List.length_dropLast]
        exact h.2
      exact ih hrest hwalk
    · have hstack : stack names c = names ++ [c] := by
        unfold stack
        rw [if_neg hdot, if_neg hdots]
      have hrest : ¬ ClimbsFrom (names ++ [c]).length cs := by
        rw [List.length_append, List.length_singleton]
        exact fun hclimbs => h ((climbsFrom_normal ⟨hdot, hdots⟩).mpr hclimbs)
      rw [if_neg hdot, if_neg hdots, List.append_assoc] at hwalk
      rw [hstack]
      cases hlookup : fs.lookup (root ++ (names ++ [c])) with
      | none =>
        rw [hlookup] at hwalk
        dsimp only at hwalk
        split at hwalk <;> cases hwalk
      | some e =>
        cases e with
        | dir =>
          rw [hlookup] at hwalk
          exact ih hrest hwalk
        | file content =>
          rw [hlookup] at hwalk
          dsimp only at hwalk
          split at hwalk
          next hnil =>
            cases hwalk
            rw [hnil]
            rfl
          next => cases hwalk
        | link target => exact absurd hlookup (hlinks _ _ (List.prefix_append _ _))

end Branches

/-! ## The requested text -/

section Requested

variable {fs : FileSystem} {serverRoot requested : String} {root p : Path}

/-- A slash in front adds nothing. -/
theorem components_slash (rest : List Char) :
    components (String.ofList ('/' :: rest)) = components (String.ofList rest) := by
  have hne : (rest.splitOn '/').map String.ofList ≠ [] := by
    rw [ne_eq, List.map_eq_nil_iff]
    exact List.splitOn_ne_nil _ _
  have hsplit : (('/' :: rest).splitOn '/').map String.ofList =
      "" :: (rest.splitOn '/').map String.ofList := by
    rw [List.splitOn_cons_eq_if_modifyHead, if_pos (beq_self_eq_true _)]
    rfl
  unfold components
  dsimp only
  rw [String.toList_ofList, String.toList_ofList, hsplit, List.dropLast_cons_of_ne_nil hne,
    List.filter_cons_of_neg (by simp), List.getLast?_cons_of_ne_nil hne]

theorem components_trimSlashes (requested : String) :
    components (trimSlashes requested) = components requested := by
  have hdrop (chars : List Char) : components (String.ofList (chars.dropWhile (· == '/'))) =
      components (String.ofList chars) := by
    induction chars with
    | nil => rfl
    | cons c rest ih =>
      by_cases hc : c = '/'
      · subst hc
        rw [components_slash, ← ih, List.dropWhile_cons_of_pos (by simp)]
      · rw [List.dropWhile_cons_of_neg (by simpa using hc)]
  unfold trimSlashes
  rw [hdrop, String.ofList_toList]

/-- Where the operating system looks for the requested path: walking on from the root. -/
theorem resolve_joined (hroot : fs.LeadsTo (components serverRoot) root) (requested : String) :
    ∃ links, fs.resolve (components (joinPath serverRoot (trimSlashes requested))) =
      walk fs links root (components requested) := by
  obtain ⟨links, hlinks⟩ := (leadsTo_components.mp hroot).resolve_append
  refine ⟨links, ?_⟩
  rw [components_joinPath_relative serverRoot (trimSlashes_relative requested),
    components_trimSlashes, hlinks]

/-- Below the root both branches come to the normal form. -/
theorem validatePath_of_not_climbs (hroot : fs.LeadsTo (components serverRoot) root)
    (hlinks : LinkFree fs root) (hnul : '\x00' ∉ requested.toList)
    (h : ¬ Climbs (components requested)) :
    validatePath fs serverRoot requested = .ok (root ++ normalForm (components requested)) := by
  have hcanonical := canonicalize_eq_some.mpr hroot.1
  by_cases hexists : fs.exists (components (joinPath serverRoot (trimSlashes requested))) = true
  · obtain ⟨loc, hloc⟩ := exists_iff.mp hexists
    obtain ⟨links, hwalk⟩ := resolve_joined hroot requested
    have hfound : walk fs links (root ++ []) (components requested) = .found loc := by
      rw [List.append_nil, ← hwalk, hloc]
    have hclimbs : ¬ ClimbsFrom ([] : Path).length (components requested) := h
    have heq := walk_of_not_climbs hlinks hclimbs hfound
    have hpre : root.isPrefixOf loc = true := by
      rw [heq]
      exact List.isPrefixOf_iff_prefix.mpr (List.prefix_append _ _)
    unfold validatePath
    rw [if_neg hnul]
    dsimp only
    rw [trimSlashes_relative, if_neg Bool.false_ne_true, hcanonical]
    dsimp only
    rw [if_pos hexists, canonicalize_eq_some.mpr hloc]
    dsimp only
    rw [if_pos hpre, heq]
    rfl
  · refine validatePath_of_missing hnul hcanonical (Bool.eq_false_iff.mpr hexists) ?_
    have hnormal : normalize root (root ++ []) (components requested) =
        some (root ++ normalForm (components requested)) := normalize_of_not_climbs h
    rw [List.append_nil] at hnormal
    rw [components_trimSlashes]
    exact hnormal

/-- A path that is not there is refused when it climbs above the root. -/
theorem validatePath_of_climbs (hroot : fs.LeadsTo (components serverRoot) root)
    (hmissing : fs.exists (components (joinPath serverRoot (trimSlashes requested))) = false)
    (h : Climbs (components requested)) :
    validatePath fs serverRoot requested = .error .pathTraversal := by
  have hnormal : normalize root (root ++ []) (components requested) = none :=
    normalize_of_climbs h
  rw [List.append_nil] at hnormal
  unfold validatePath
  split
  · rfl
  · dsimp only
    rw [trimSlashes_relative, if_neg Bool.false_ne_true, canonicalize_eq_some.mpr hroot.1]
    dsimp only
    rw [hmissing, if_neg Bool.false_ne_true, components_trimSlashes, hnormal]

theorem normal_of_dirPath (h : fs.DirPath p) : ∀ n ∈ p, IsNormal n := by
  intro n hn
  obtain ⟨q, rest, rfl⟩ := List.append_of_mem hn
  exact (h q n rest rfl).1

theorem normal_of_real (h : fs.Real p) : ∀ n ∈ p, IsNormal n := by
  rcases h with h | ⟨dir, name, content, rfl, hdir, hname, -⟩
  · exact normal_of_dirPath h
  · intro n hn
    rcases List.mem_append.mp hn with hn | hn
    · exact normal_of_dirPath hdir n hn
    · rw [List.mem_singleton.mp hn]
      exact hname

/-- What is accepted lies at or below the root, and no name on the way is a dot. -/
theorem accepted_below (hroot : fs.LeadsTo (components serverRoot) root)
    (h : validatePath fs serverRoot requested = .ok p) : root <+: p ∧ ∀ n ∈ p, IsNormal n := by
  obtain ⟨-, root', hroot', hroute⟩ := validatePath_ok h
  rw [hroot.1] at hroot'
  cases hroot'
  rcases hroute with ⟨hfound, hpre⟩ | ⟨-, hnormal⟩
  · exact ⟨hpre, normal_of_real (resolve_real hfound)⟩
  · obtain ⟨names, rfl, hnames⟩ := normalize_below hnormal
    refine ⟨List.prefix_append _ _, fun n hn => ?_⟩
    rcases List.mem_append.mp hn with hn | hn
    · exact normal_of_dirPath hroot.dirPath n hn
    · exact hnames n hn

end Requested

/-- With an existing root and no links below it: what is accepted lies at or below the canonical
root, without dots; a path without a null byte that does not climb above the root is accepted as
the root and its normal form, there or not; one that climbs and is not there is refused; and so is
a null byte. -/
theorem validatePath_without_links (fs : FileSystem) {serverRoot : String} {root : Path}
    (hcanonical : fs.canonicalize (components serverRoot) = some root)
    (hdir : fs.lookup root = some .dir) (hlinks : LinkFree fs root) (requested : String) :
    (∀ p, validatePath fs serverRoot requested = .ok p → root <+: p ∧ ∀ n ∈ p, IsNormal n) ∧
    ('\x00' ∉ requested.toList → ¬ Climbs (components requested) →
      validatePath fs serverRoot requested = .ok (root ++ normalForm (components requested))) ∧
    (fs.exists (components (joinPath serverRoot (trimSlashes requested))) = false →
      Climbs (components requested) →
        validatePath fs serverRoot requested = .error .pathTraversal) ∧
    ('\x00' ∈ requested.toList →
      validatePath fs serverRoot requested = .error .pathTraversal) := by
  have hroot : fs.LeadsTo (components serverRoot) root :=
    ⟨canonicalize_eq_some.mp hcanonical, hdir⟩
  refine ⟨fun p => accepted_below hroot, validatePath_of_not_climbs hroot hlinks,
    validatePath_of_climbs hroot, fun hnul => ?_⟩
  unfold validatePath
  rw [if_pos hnul]

section Plain

/-- A server directory with a file in it. -/
def plainVolume : FileSystem where
  entries :=
    [(["data"], .dir), (["data", "s1"], .dir), (["data", "s1", "eula.txt"], .file "eula=true")]

theorem linkFree_plainVolume : LinkFree plainVolume ["data", "s1"] :=
  linkFree_of_entries (by simp [plainVolume])

/-- The file is accepted under a name that goes through a directory that is not there. -/
theorem roundabout_accepted : validatePath plainVolume "/data/s1" "/logs/../eula.txt" =
    .ok ["data", "s1", "eula.txt"] :=
  (validatePath_without_links plainVolume (by decide) (by decide) linkFree_plainVolume
    "/logs/../eula.txt").2.1 (by decide) (by decide)

end Plain

end Wings
