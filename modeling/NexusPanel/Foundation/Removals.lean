import NexusPanel.Foundation.FileFrames

/-!
# Removing one entry after another

A walk in a file system from which something was taken comes to where it came before, or does not
arrive: it arrives when nothing that it looks up was taken. So a removal hits the entry that its
path named at first, or fails because an earlier removal took that entry or the way to it.
-/

namespace FS

/-! ## Walks with less to find -/

section Walks

variable {fs fs' : FileSystem} {links : Nat} {cur loc : Path} {cs : List Name}

end Walks

namespace FileSystem

/-! ## Entries -/

/-- The entry a path ends in, if it is there; a final link is not followed. -/
def entryOf (fs : FileSystem) (path : List Name) : Option Path :=
  match fs.entryAt path with
  | .ok (dir, name) => if fs.lookup (dir ++ [name]) = none then none else some (dir ++ [name])
  | .error _ => none

/-- What removing the entry depends on: the entry, and the way to its directory. -/
def uses (fs : FileSystem) (path : List Name) : List Path :=
  passed fs maxLinks [] path.dropLast ++ (fs.entryOf path).toList

section Entries

variable {fs : FileSystem} {path : List Name} {e loc : Path}

theorem entryOf_eq_some : fs.entryOf path = some loc ↔
    ∃ init name dir, path = init ++ [name] ∧ IsNormal name ∧ fs.resolve init = .found dir ∧
      fs.lookup dir = some .dir ∧ fs.lookup (dir ++ [name]) ≠ none ∧ loc = dir ++ [name] := by
  unfold entryOf
  constructor
  · intro h
    split at h
    next dir name hentry =>
      obtain ⟨hpath, hleads, hname⟩ := entryAt_ok hentry
      split at h
      next => cases h
      next hthere =>
        cases h
        exact ⟨_, name, dir, hpath, hname, hleads.1, hleads.2, hthere, rfl⟩
    next => cases h
  · rintro ⟨init, name, dir, rfl, hname, hfound, hdir, hthere, rfl⟩
    rw [entryAt_eq ⟨hfound, hdir⟩ hname]
    dsimp only
    rw [if_neg hthere]

theorem entryOf_ne_nil (h : fs.entryOf path = some loc) : loc ≠ [] := by
  obtain ⟨init, name, dir, -, -, -, -, -, rfl⟩ := entryOf_eq_some.mp h
  exact List.append_ne_nil_of_right_ne_nil _ (List.cons_ne_nil _ _)

/-- A removal, with the call that suits what is there, takes the entry that the path ends in. -/
theorem remove_eq (fs : FileSystem) (path : List Name) :
    (if fs.isDir path then fs.removeDirAll path else fs.removeFile path).toOption =
      (fs.entryOf path).map fs.removeTree := by
  unfold entryOf
  cases hentry : fs.entryAt path with
  | error failure =>
    split
    · simp only [removeDirAll, hentry]
      rfl
    · simp only [removeFile, hentry]
      rfl
  | ok entry =>
    obtain ⟨dir, name⟩ := entry
    obtain ⟨hpath, hleads, hname⟩ := entryAt_ok hentry
    obtain ⟨left, hleft⟩ := hleads.resolve_append
    dsimp only
    cases hlookup : fs.lookup (dir ++ [name]) with
    | none =>
      rw [if_pos rfl]
      split
      · simp only [removeDirAll, hentry, hlookup]
        rfl
      · simp only [removeFile, hentry, hlookup]
        rfl
    | some entry =>
      have hthere : ¬ some entry = none := by simp
      rw [if_neg hthere]
      cases entry with
      | dir =>
        have hdir : fs.isDir path = true := by
          rw [hpath]
          unfold isDir
          rw [(hleads.snoc hname hlookup).1]
          exact beq_iff_eq.mpr hlookup
        simp only [if_pos hdir, removeDirAll, hentry, hlookup]
        rfl
      | file content =>
        have hfile : ¬ fs.isDir path = true := by
          rw [hpath]
          unfold isDir
          rw [hleft, walk_eq, walkWith, if_neg hname.1, if_neg hname.2, hlookup]
          dsimp only
          rw [if_pos rfl]
          dsimp only
          rw [hlookup]
          simp
        simp only [if_neg hfile, removeFile, hentry, hlookup]
        rfl
      | link target =>
        split
        · simp only [removeDirAll, hentry, hlookup]
          rfl
        · simp only [removeFile, hentry, hlookup]
          rfl

end Entries

/-! ## Many removals -/

/-- Paths in an order in which none takes what a later one uses. -/
def Independent (fs : FileSystem) (paths : List (List Name)) : Prop :=
  paths.Pairwise fun path later => ∀ e, fs.entryOf path = some e →
    ∀ q ∈ fs.uses later, ¬ e <+: q

section Many

variable {fs : FileSystem} {path : List Name} {paths : List (List Name)} {e : Path}

end Many

end FileSystem

end FS
