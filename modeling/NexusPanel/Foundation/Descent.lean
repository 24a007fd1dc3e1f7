import NexusPanel.Foundation.FileFrames
import Mathlib.Data.List.Nodup

/-!
# Walking through a directory

A walk through a directory lists it and goes into the directories it finds, down to a depth. Without
links below the directory it comes to all that is real there and not too deep, and to each entry
once.
-/

namespace FS.FileSystem

/-- The names that reading a directory gives, which leaves out the two dots. -/
def entriesIn (fs : FileSystem) (dir : Path) : List Name :=
  (fs.children dir).filter fun name => IsNormal name

/-- What is at and below a directory, by the names that lead there from it, down to a depth. Links
are not followed. -/
def descend (fs : FileSystem) : Nat → Path → List (List Name)
  | 0, _ => [[]]
  | depth + 1, dir => [] :: (fs.entriesIn dir).flatMap fun name =>
      if fs.lookup (dir ++ [name]) = some .dir then
        (fs.descend depth (dir ++ [name])).map (name :: ·)
      else [[name]]

/-- `WalkDir::new(path).max_depth(depth)`; a link at the path itself is followed. -/
def walkDir (fs : FileSystem) (depth : Nat) (path : List Name) : List (List Name) :=
  match fs.resolve path with
  | .found dir => fs.descend depth dir
  | _ => []

section

variable {fs : FileSystem} {dir loc : Path} {name : Name} {rest : List Name} {depth : Nat}

theorem mem_entriesIn :
    name ∈ fs.entriesIn dir ↔ IsNormal name ∧ fs.lookup (dir ++ [name]) ≠ none := by
  unfold entriesIn
  rw [List.mem_filter, mem_children, decide_eq_true_iff, and_comm]

theorem nodup_entriesIn : (fs.entriesIn dir).Nodup := (List.nodup_dedup _).filter _

/-- The walk goes down by proper names, and only through directories. -/
theorem of_mem_descend (h : rest ∈ fs.descend depth dir) : (∀ n ∈ rest, IsNormal n) ∧
    ∀ init last, rest = init ++ [last] → fs.DirPath dir → fs.DirPath (dir ++ init) := by
  induction depth generalizing dir rest with
  | zero =>
    cases List.mem_singleton.mp h
    exact ⟨by simp, fun init last heq => absurd heq.symm (by simp)⟩
  | succ depth ih =>
    unfold descend at h
    rcases List.mem_cons.mp h with rfl | h
    · exact ⟨by simp, fun init last heq => absurd heq.symm (by simp)⟩
    obtain ⟨name, hname, h⟩ := List.mem_flatMap.mp h
    have hnormal := (mem_entriesIn.mp hname).1
    split at h
    next hlookup =>
      obtain ⟨below, hbelow, rfl⟩ := List.mem_map.mp h
      obtain ⟨hnames, hdirs⟩ := ih hbelow
      refine ⟨List.forall_mem_cons.mpr ⟨hnormal, hnames⟩, fun init last heq hdir => ?_⟩
      cases init with
      | nil =>
        rw [List.append_nil]
        exact hdir
      | cons first init =>
        cases heq
        have hnext := hdirs init last rfl (hdir.snoc hnormal hlookup)
        rwa [List.append_assoc] at hnext
    next =>
      cases List.mem_singleton.mp h
      refine ⟨by simpa using hnormal, fun init last heq hdir => ?_⟩
      cases init with
      | nil =>
        rw [List.append_nil]
        exact hdir
      | cons first init => simp at heq

/-- Without links and dots, a walk goes where its names say. -/
theorem walk_plain {cur : Path} {cs : List Name} {links : Nat} (hcur : fs.DirPath cur)
    (hlinks : ∀ p target, cur <+: p → fs.lookup p ≠ some (.link target))
    (hnames : ∀ n ∈ cs, IsNormal n) :
    (∀ loc, walk fs links cur cs = .found loc → loc = cur ++ cs) ∧
      ∀ dir name, walk fs links cur cs = .absent dir name →
        cur ++ cs = dir ++ [name] ∧ fs.DirPath dir ∧ IsNormal name := by
  induction cs generalizing cur with
  | nil =>
    rw [walk_nil, List.append_nil]
    exact ⟨fun loc h => (by cases h; rfl), fun dir name h => (by cases h)⟩
  | cons c cs ih =>
    obtain ⟨hc, hcs⟩ := List.forall_mem_cons.mp hnames
    have hassoc : cur ++ c :: cs = cur ++ [c] ++ cs := by
      rw [List.append_assoc]
      rfl
    rw [walk_cons, if_neg hc.1, if_neg hc.2]
    cases hlookup : fs.lookup (cur ++ [c]) with
    | none =>
      dsimp only
      split
      next hnil =>
        subst hnil
        exact ⟨fun loc h => (by cases h), fun dir name h => (by cases h; exact ⟨rfl, hcur, hc⟩)⟩
      next => exact ⟨fun loc h => (by cases h), fun dir name h => (by cases h)⟩
    | some e =>
      cases e with
      | dir =>
        rw [hassoc]
        exact ih (hcur.snoc hc hlookup)
          (fun p target hp => hlinks p target ((List.prefix_append _ _).trans hp)) hcs
      | file content =>
        dsimp only
        split
        next hnil =>
          subst hnil
          exact ⟨fun loc h => (by cases h; rfl), fun dir name h => (by cases h)⟩
        next => exact ⟨fun loc h => (by cases h), fun dir name h => (by cases h)⟩
      | link target => exact absurd hlookup (hlinks _ _ (List.prefix_append _ _))

/-- A real location below a directory: the next name is a directory on the way there, or the file
that it is. -/
theorem real_cons (hdir : fs.DirPath dir) : fs.Real (dir ++ name :: rest) ↔
    IsNormal name ∧ ((fs.lookup (dir ++ [name]) = some .dir ∧ fs.Real ((dir ++ [name]) ++ rest)) ∨
      (rest = [] ∧ ∃ content, fs.lookup (dir ++ [name]) = some (.file content))) := by
  have hassoc : dir ++ [name] ++ rest = dir ++ name :: rest := by
    rw [List.append_assoc]
    rfl
  constructor
  · intro h
    rcases h with h | ⟨dir', last, content, hpath, hdir', hlast, hfile⟩
    · obtain ⟨hname, hlookup⟩ := h dir name rest rfl
      refine ⟨hname, .inl ⟨hlookup, ?_⟩⟩
      rw [hassoc]
      exact .inl h
    · rcases List.eq_nil_or_concat' rest with rfl | ⟨init, last', rfl⟩
      · obtain ⟨rfl, hnames⟩ := List.append_inj' hpath rfl
        cases hnames
        exact ⟨hlast, .inr ⟨rfl, content, hfile⟩⟩
      · have hcons : dir ++ name :: (init ++ [last']) = (dir ++ name :: init) ++ [last'] := by
          rw [List.append_assoc]
          rfl
        rw [hcons] at hpath
        obtain ⟨rfl, hnames⟩ := List.append_inj' hpath rfl
        cases hnames
        obtain ⟨hname, hlookup⟩ := hdir' dir name init rfl
        refine ⟨hname, .inl ⟨hlookup, ?_⟩⟩
        rw [hassoc, hcons]
        exact .inr ⟨_, last, content, rfl, hdir', hlast, hcons ▸ hfile⟩
  · rintro ⟨hname, ⟨hlookup, hreal⟩ | ⟨rfl, content, hfile⟩⟩
    · rw [hassoc] at hreal
      exact hreal
    · exact .inr ⟨dir, name, content, rfl, hdir, hname, hfile⟩

/-- Without links the walk comes to what is real below the directory and not too deep. -/
theorem mem_descend (hdir : fs.DirPath dir)
    (hlinks : ∀ p target, dir <+: p → fs.lookup p ≠ some (.link target)) :
    rest ∈ fs.descend depth dir ↔ rest.length ≤ depth ∧ fs.Real (dir ++ rest) := by
  induction depth generalizing dir rest with
  | zero =>
    unfold descend
    rw [List.mem_singleton, Nat.le_zero, List.length_eq_zero_iff]
    refine (and_iff_left_of_imp ?_).symm
    rintro rfl
    rw [List.append_nil]
    exact .inl hdir
  | succ depth ih =>
    unfold descend
    cases rest with
    | nil =>
      refine iff_of_true List.mem_cons_self ⟨Nat.zero_le _, ?_⟩
      rw [List.append_nil]
      exact .inl hdir
    | cons name rest =>
      have hbelow (hlookup : fs.lookup (dir ++ [name]) = some .dir) (hname : IsNormal name) :
          rest ∈ fs.descend depth (dir ++ [name]) ↔
            rest.length ≤ depth ∧ fs.Real (dir ++ [name] ++ rest) :=
        ih (hdir.snoc hname hlookup)
          fun p target hp => hlinks p target ((List.prefix_append _ _).trans hp)
      rw [List.mem_cons, or_iff_right (by simp), List.mem_flatMap, real_cons hdir,
        List.length_cons, Nat.add_le_add_iff_right]
      constructor
      · rintro ⟨name', hname', hmem⟩
        obtain ⟨hnormal, hthere⟩ := mem_entriesIn.mp hname'
        split at hmem
        next hlookup =>
          obtain ⟨rest', hrest', heq⟩ := List.mem_map.mp hmem
          cases heq
          obtain ⟨hlength, hreal⟩ := (hbelow hlookup hnormal).mp hrest'
          exact ⟨hlength, hnormal, .inl ⟨hlookup, hreal⟩⟩
        next hnot =>
          cases List.mem_singleton.mp hmem
          refine ⟨Nat.zero_le _, hnormal, .inr ⟨rfl, ?_⟩⟩
          cases hentry : fs.lookup (dir ++ [name]) with
          | none => exact absurd hentry hthere
          | some e =>
            cases e with
            | dir => exact absurd hentry hnot
            | file content => exact ⟨content, rfl⟩
            | link target => exact absurd hentry (hlinks _ _ (List.prefix_append _ _))
      · rintro ⟨hlength, hnormal, ⟨hlookup, hreal⟩ | ⟨rfl, content, hfile⟩⟩
        · refine ⟨name, mem_entriesIn.mpr ⟨hnormal, by simp [hlookup]⟩, ?_⟩
          rw [if_pos hlookup]
          exact List.mem_map_of_mem ((hbelow hlookup hnormal).mpr ⟨hlength, hreal⟩)
        · refine ⟨name, mem_entriesIn.mpr ⟨hnormal, by simp [hfile]⟩, ?_⟩
          rw [hfile, if_neg (by simp)]
          exact List.mem_singleton_self _

/-- And it comes to nothing twice. -/
theorem nodup_descend : (fs.descend depth dir).Nodup := by
  induction depth generalizing dir with
  | zero => exact List.nodup_singleton _
  | succ depth ih =>
    unfold descend
    have hhead (name : Name) : ∀ names ∈ (if fs.lookup (dir ++ [name]) = some .dir then
        (fs.descend depth (dir ++ [name])).map (name :: ·) else [[name]]),
        names.head? = some name := by
      intro names hnames
      split at hnames
      next =>
        obtain ⟨rest, -, rfl⟩ := List.mem_map.mp hnames
        rfl
      next =>
        cases List.mem_singleton.mp hnames
        rfl
    refine List.nodup_cons.mpr ⟨fun hmem => ?_, List.nodup_flatMap.mpr ⟨fun name _ => ?_, ?_⟩⟩
    · obtain ⟨name, -, hnames⟩ := List.mem_flatMap.mp hmem
      exact absurd (hhead name [] hnames) (by simp)
    · split
      next => exact ih.map (List.cons_injective)
      next => exact List.nodup_singleton _
    · refine List.Pairwise.imp (fun {a b} hne => ?_) nodup_entriesIn
      intro names ha hb
      have hab := (hhead a names ha).symm.trans (hhead b names hb)
      exact hne (Option.some.inj hab)

/-! ## Writing a file -/

section Written

variable {p : Path} {content : String} (hp : p ≠ []) (hnot : fs.lookup p ≠ some .dir)

include hp hnot

/-- Where a file is written there was no directory, and there is none. -/
theorem lookup_set_dir :
    (fs.set p (.file content)).lookup loc = some .dir ↔ fs.lookup loc = some .dir := by
  rw [lookup_set hp]
  split
  next heq =>
    subst heq
    exact iff_of_false (by simp) hnot
  next => rfl

theorem dirPath_set : (fs.set p (.file content)).DirPath loc ↔ fs.DirPath loc := by
  unfold DirPath
  simp only [lookup_set_dir hp hnot]

/-- What else is real stays so, and nothing else gets to be. -/
theorem real_set (hne : loc ≠ p) : (fs.set p (.file content)).Real loc ↔ fs.Real loc := by
  unfold Real
  simp only [dirPath_set hp hnot, lookup_set hp, if_neg hne]

end Written

theorem real_set_self {content : String} (hdir : fs.DirPath dir) (hname : IsNormal name)
    (hnot : fs.lookup (dir ++ [name]) ≠ some .dir) :
    (fs.set (dir ++ [name]) (.file content)).Real (dir ++ [name]) := by
  have hne : dir ++ [name] ≠ [] := List.append_ne_nil_of_right_ne_nil _ (List.cons_ne_nil _ _)
  refine .inr ⟨dir, name, content, rfl, (dirPath_set hne hnot).mpr hdir, hname, ?_⟩
  rw [lookup_set hne, if_pos rfl]

end

end FS.FileSystem
