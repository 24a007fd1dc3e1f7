import NexusPanel.Foundation.FileFrames
import NexusPanel.Wings.Containment
import NexusPanel.Wings.RegistryFiles

/-!
# Tenants and the registry

The files a restart reads the registry from lie in the directories that the file API serves.
A tenant may write `.nexus-config.json` like any other file, with a configuration of whatever
server: the registry is keyed by the uuid inside.

What a request may touch without harm is told by the locations that reading the registry
passes through: the walk to the data directory, the directories in it and the files in those
(`RegistryPlace`). A run whose requests write, move, remove and extract nothing there leaves
the registry to the calls that own it. Directories may be made anywhere.
-/

namespace Wings

open StateAction Transition FS FileSystem

/-! ## Tenants beside the registry -/

/-- The locations that reading the registry passes through. -/
def RegistryPlace (fs : FileSystem) (dataDir : String) (q : Path) : Prop :=
  q ∈ passed fs maxLinks [] (names dataDir) ∨
    ∃ dir, fs.LeadsTo (names dataDir) dir ∧
      (q = dir ∨ ∃ name, q = dir ++ [name] ∨ q = dir ++ [name, configFile])

/-- Writing to the path opens no place of the registry. -/
def WriteSpares (fs : FileSystem) (dataDir : String) (p : Path) : Prop :=
  ∀ loc, fs.OpensAt p loc → ¬RegistryPlace fs dataDir loc

/-- No place of the registry is at or below the entry. -/
def EntrySpares (fs : FileSystem) (dataDir : String) (p : Path) : Prop :=
  ∀ dir name, fs.entryAt p = .ok (dir, name) → ∀ q, RegistryPlace fs dataDir q →
    ¬dir ++ [name] <+: q

/-- Each entry spares the registry when its turn comes. -/
def DeletesSpare (dataDir : String) : FileSystem → List Path → Prop
  | _, [] => True
  | fs, p :: ps => EntrySpares fs dataDir p ∧ DeletesSpare dataDir (deleteEntry p fs).2 ps

/-- So does each field of an upload. -/
def UploadsSpare (dataDir root : String) : FileSystem → List (Option String × String) → Prop
  | _, [] => True
  | fs, field :: fields =>
    (∀ p, validatePath fs root (field.1.getD "upload") = .ok p → WriteSpares fs dataDir p) ∧
      UploadsSpare dataDir root (uploadField root field fs).2 fields

/-- What the request does with the paths that `validate_path` accepts spares the registry. A
file is written after its parents have been made. -/
def Spares (fs : FileSystem) (dataDir root : String) : FileRequest → Prop
  | .list _ | .read _ | .directory _ => True
  | .write path _ => ∀ p, validatePath fs root path = .ok p →
    WriteSpares (fs.createDirAll p.dropLast).1 dataDir p
  | .rename src dst => ∀ p, validatePath fs root src = .ok p → ∀ q,
    validatePath fs root dst = .ok q → EntrySpares fs dataDir p ∧ EntrySpares fs dataDir q
  | .delete paths => ∀ ps, (validatedAll root paths fs).1 = .ok ps → DeletesSpare dataDir fs ps
  | .compress _ destination _ => ∀ p, validatePath fs root destination = .ok p →
    WriteSpares fs dataDir p
  | .decompress path destination extraction => ∀ p, validatePath fs root path = .ok p → ∀ q,
    validatePath fs root destination = .ok q → ∀ loc, RegistryPlace fs dataDir loc →
      extraction.result.lookup loc = fs.lookup loc
  | .upload fields => UploadsSpare dataDir root fs fields

section Changes

variable {serde : Serde} {fs fs' : FileSystem} {dataDir root requested uuid : String}
  {dir loc p : Path} {configs : Registry}

/-- What agrees on the places of the registry has the data directory where it was. -/
theorem leadsTo_of_agree (hleads : fs.LeadsTo (names dataDir) dir)
    (hagree : ∀ q, RegistryPlace fs dataDir q → fs'.lookup q = fs.lookup q) :
    fs'.LeadsTo (names dataDir) dir := by
  refine ⟨(walk_congr fun q hq => hagree q (.inl hq)).trans hleads.1, ?_⟩
  rw [hagree dir (.inr ⟨dir, hleads, .inl rfl⟩), hleads.2]

/-- It holds the same registry. -/
theorem Mirrors.of_agree (h : Mirrors serde dataDir fs configs)
    (hleads : fs.LeadsTo (names dataDir) dir)
    (hagree : ∀ q, RegistryPlace fs dataDir q → fs'.lookup q = fs.lookup q) :
    Mirrors serde dataDir fs' configs := by
  have hdirectory : ∀ name, fs'.lookup (dir ++ [name]) = fs.lookup (dir ++ [name]) :=
    fun name => hagree _ (.inr ⟨dir, hleads, .inr ⟨name, .inl rfl⟩⟩)
  have hfile : ∀ name, fs'.lookup (dir ++ [name, configFile]) =
      fs.lookup (dir ++ [name, configFile]) :=
    fun name => hagree _ (.inr ⟨dir, hleads, .inr ⟨name, .inr rfl⟩⟩)
  have hleads' := leadsTo_of_agree hleads hagree
  have hheld : ∀ name, heldIn serde fs' dir name = heldIn serde fs dir name := by
    intro name
    rw [heldIn, hdirectory, hfile]
    rfl
  have hmay := mayLead_of_leadsTo hleads
  refine ⟨⟨fun dir' hdir' name e he => ?_, fun dir' hdir' name e he => ?_⟩,
    fun dir' hdir' name c hc => ?_, fun uuid c hc => ?_⟩
  · obtain rfl := mayLead_unique hleads' hdir'
    rw [hdirectory] at he
    exact h.undisturbed.directory _ hmay name e he
  · obtain rfl := mayLead_unique hleads' hdir'
    rw [hfile] at he
    rw [hdirectory]
    exact h.undisturbed.file _ hmay name e he
  · obtain rfl := mayLead_unique hleads' hdir'
    rw [hheld] at hc
    exact h.onDisk _ hmay name c hc
  · obtain ⟨dir', hdir', hc⟩ := h.inMemory uuid c hc
    obtain rfl := hleads.unique hdir'
    exact ⟨_, hleads', by rw [hheld, hc]⟩

/-- Directories that are made change nothing about the registry. -/
theorem Mirrors.of_made (h : Mirrors serde dataDir fs configs) (hmade : fs.MadeDirs fs')
    (hadds : fs.AddsOrdinary fs') : Mirrors serde dataDir fs' configs where
  undisturbed := h.undisturbed.of_made hmade hadds
  onDisk dir hdir name c hc := by
    have hdir' := mayLead_of_made hmade hdir
    exact h.onDisk dir hdir' name c (heldIn_of_made h.undisturbed hdir' hmade hc)
  inMemory uuid c hc := by
    obtain ⟨dir, hdir, hheld⟩ := h.inMemory uuid c hc
    exact ⟨dir, hdir.of_keepsWays hmade.keepsWays, heldIn_made hmade hheld⟩

theorem Mirrors.createDirAll (h : Mirrors serde dataDir fs configs)
    (hp : ∀ n ∈ p, n ≠ "" ∧ '/' ∉ n.toList) :
    Mirrors serde dataDir (fs.createDirAll p).1 configs :=
  h.of_made (createDirAll_made fs p) (createDirAll_addsOrdinary hp)

/-- A file is written to a place that is none of the registry's. -/
theorem Mirrors.writeFile {content : String} (h : Mirrors serde dataDir fs configs)
    (hleads : fs.LeadsTo (names dataDir) dir) (hspares : WriteSpares fs dataDir p)
    (hwrite : fs.writeFile p content = .ok fs') : Mirrors serde dataDir fs' configs := by
  obtain ⟨loc, hopens, hne, rfl⟩ := writeFile_ok hwrite
  refine h.of_agree hleads fun q hq => ?_
  rw [lookup_set hne, if_neg]
  rintro rfl
  exact hspares q hopens hq

theorem Mirrors.rename {q : Path} (h : Mirrors serde dataDir fs configs)
    (hleads : fs.LeadsTo (names dataDir) dir) (hp : EntrySpares fs dataDir p)
    (hq : EntrySpares fs dataDir q) (hrename : fs.rename p q = .ok fs') :
    Mirrors serde dataDir fs' configs := by
  rcases rename_ok hrename with rfl | ⟨d₁, n₁, d₂, n₂, hsrc, hdst, rfl⟩
  · exact h
  · exact h.of_agree hleads fun r hr =>
      lookup_moveTree (hq d₂ n₂ hdst r hr) (hp d₁ n₁ hsrc r hr)

end Changes

/-! ## Accepted paths -/

section Accepted

variable {fs : FileSystem} {dataDir root requested uuid : String} {p : Path}

end Accepted

/-! ## Requests -/

section Requests

variable {fs fs' : FileSystem} {dataDir root uuid : String} {p : Path} {I : FileSystem → Prop}
  {α : Type}

/-- What a request does with a path happens only when the path is accepted. -/
theorem snd_validated (hI : I fs) {requested : String} {f : Path → FileAction α}
    (hf : ∀ p, validatePath fs root requested = .ok p → I (f p fs).2) :
    I ((validated root requested >>= f) fs).2 := by
  have hvalidated := validated_eq root requested fs
  cases hvalid : validatePath fs root requested with
  | ok p =>
    rw [hvalid] at hvalidated
    rw [bind_ok hvalidated]
    exact hf p hvalid
  | error e =>
    rw [hvalid] at hvalidated
    rw [bind_error hvalidated]
    exact hI

/-- When a list of paths is accepted, so is the first of them. -/
theorem accepted_of_validatedAll {requested : String} {paths : List String} {ps : List Path}
    (h : (validatedAll root (requested :: paths) fs).1 = .ok ps) :
    ∃ p, validatePath fs root requested = .ok p := by
  cases hvalid : validatePath fs root requested with
  | ok p => exact ⟨p, rfl⟩
  | error e =>
    have hvalidated := validated_eq root requested fs
    rw [hvalid] at hvalidated
    rw [validatedAll, bind_error hvalidated] at h
    cases h

theorem snd_validatedAll (root : String) (paths : List String) (fs : FileSystem) :
    (validatedAll root paths fs).2 = fs := by
  induction paths with
  | nil => rfl
  | cons requested paths ih =>
    refine snd_validated (I := fun fs' => fs' = fs) rfl fun p _ => ?_
    rw [snd_bind_pure, ih]

theorem snd_validatedAll_bind (hI : I fs) {paths : List String} {f : List Path → FileAction α}
    (hf : ∀ ps, (validatedAll root paths fs).1 = .ok ps → I (f ps fs).2) :
    I ((validatedAll root paths >>= f) fs).2 := by
  have hstate := snd_validatedAll root paths fs
  cases hall : validatedAll root paths fs with
  | mk r fs' =>
    rw [hall] at hstate hf
    cases hstate
    cases r with
    | ok ps =>
      rw [bind_ok hall]
      exact hf ps rfl
    | error e =>
      rw [bind_error hall]
      exact hI

theorem snd_change {f : FileSystem → Except IoError FileSystem} (hI : I fs)
    (hf : ∀ fs', f fs = .ok fs' → I fs') : I (change f fs).2 := by
  unfold change
  cases hok : f fs with
  | ok fs' => exact hf fs' hok
  | error e => exact hI

/-- Making the parents and writing. -/
theorem snd_writeFile {content : String} (hI : I (fs.createDirAll p.dropLast).1)
    (hf : ∀ fs', (fs.createDirAll p.dropLast).1.writeFile p content = .ok fs' → I fs') :
    I (writeFile p content fs).2 := by
  have hmade := snd_makeDirs fs p.dropLast
  rw [writeFile]
  cases hdirs : makeDirs p.dropLast fs with
  | mk r made =>
    rw [hdirs] at hmade
    cases hmade
    cases r with
    | ok a =>
      rw [bind_ok hdirs]
      exact snd_change hI hf
    | error e =>
      rw [bind_error hdirs]
      exact hI

end Requests

/-! ## What a request leaves of the registry -/

section Steps

variable {serde : Serde} {fs : FileSystem} {dataDir uuid : String} {dir : Path}
  {configs : Registry} {s s' : AppState}

end Steps

/-! ## One tenant -/

section Example

end Example

end Wings
