import NexusPanel.Wings.BulkDeletion

/-!
# The files of a directory without links

In a server's directory without symbolic links a path that does not climb above the root is a
place: the names that are left when its text is normalised. So the file routes are a store. What
is written at a place is read there, under every spelling of the place that stays below the root,
until a request comes to the place or to something above it; and a rename takes it along. A path
that climbs above the root may lead back to a place, as `../s1/x` does from `/data/s1`. It is not
counted among the spellings of the place.

`follow` says from the requests where a file goes, and `holds_requests` that it is there. The
requests may be any, also ones that fail halfway.
-/

namespace Wings

open StateAction FS FileSystem

/-! ## Places -/

/-- No link is on the way to the directory, or in it. -/
structure PlainRoot (fs : FileSystem) (root : Path) : Prop where
  dirPath : fs.DirPath root
  linkFree : LinkFree fs root

/-- The place that a path names. One that climbs above the root is not said to name any, wherever
it leads. -/
def placeOf (requested : String) : Option Path :=
  if Climbs (components requested) then none else some (normalForm (components requested))

/-- Where a file is after a request, if that is certain: whatever may come to the place, or above
it, is taken to overwrite the file. -/
def follow (p : Path) (succeeded : Bool) : FileRequest → Option Path
  | .list _ | .read _ | .directory _ => some p
  | .write path _ | .compress _ path _ => do
    let q ← placeOf path
    if q = p then none else some p
  | .rename src dst => do
    let q ← placeOf src
    let r ← placeOf dst
    if q <+: p then some (if succeeded then r ++ p.drop q.length else p)
    else if r <+: p then none
    else some p
  | .delete paths =>
    if paths.all fun path => (placeOf path).any fun q => !q.isPrefixOf p then some p else none
  | .upload fields =>
    if fields.all fun field => (placeOf (field.1.getD "upload")).any (· != p) then some p else none
  | .decompress _ _ _ => none

/-- The files after some requests, one after the other. -/
def afterRequests (serverRoot : String) : FileSystem → List FileRequest → FileSystem
  | fs, [] => fs
  | fs, request :: rest => afterRequests serverRoot (serveFiles serverRoot request fs).2 rest

/-- Where the file is after some requests. -/
def followAll (serverRoot : String) : Path → FileSystem → List FileRequest → Option Path
  | p, _, [] => some p
  | p, fs, request :: rest => do
    let q ← follow p (serveFiles serverRoot request fs).1.isOk request
    followAll serverRoot q (serveFiles serverRoot request fs).2 rest

/-- A file with this content is at the place. -/
structure Holds (fs : FileSystem) (root p : Path) (content : String) : Prop where
  plain : PlainRoot fs root
  normal : ∀ n ∈ p, IsNormal n
  above : ∀ q, q <+: root ++ p → q ≠ root ++ p → fs.lookup q = some .dir
  file : fs.lookup (root ++ p) = some (.file content)

/-! ## Where accepted paths lead -/

section Leading

variable {fs : FileSystem} {serverRoot requested : String} {root ns p q loc : Path}

theorem dirPath_iff : fs.DirPath p ↔
    (∀ n ∈ p, IsNormal n) ∧ ∀ q, q <+: p → fs.lookup q = some .dir := by
  constructor
  · intro h
    exact ⟨normal_of_dirPath h, fun q hq => (h.of_prefix hq).lookup⟩
  · rintro ⟨hnormal, hdirs⟩ init name rest rfl
    refine ⟨hnormal name (List.mem_append_right _ List.mem_cons_self), hdirs _ ?_⟩
    rw [List.prefix_append_right_inj]
    exact ⟨rest, rfl⟩

theorem placeOf_eq_some : placeOf requested = some q ↔
    ¬ Climbs (components requested) ∧ normalForm (components requested) = q := by
  unfold placeOf
  split
  next h => exact iff_of_false (by simp) fun hq => hq.1 h
  next h => simp [h]

theorem foldl_stack_normal {cs names : List Name} (hnames : ∀ n ∈ names, IsNormal n) :
    ∀ n ∈ cs.foldl stack names, IsNormal n := by
  induction cs generalizing names with
  | nil => exact hnames
  | cons c cs ih =>
    refine ih fun n hn => ?_
    unfold stack at hn
    split at hn
    next => exact hnames n hn
    next hdot =>
      split at hn
      next => exact hnames n (List.mem_of_mem_dropLast hn)
      next hdots =>
        rcases List.mem_append.mp hn with hn | hn
        · exact hnames n hn
        · rw [List.mem_singleton.mp hn]
          exact ⟨hdot, hdots⟩

theorem placeOf_normal (h : placeOf requested = some q) : ∀ n ∈ q, IsNormal n := by
  obtain ⟨-, rfl⟩ := placeOf_eq_some.mp h
  exact foldl_stack_normal fun n hn => nomatch hn

/-- Normal names stay as they are. -/
theorem foldl_stack_of_normal {names : Path} (h : ∀ n ∈ ns, IsNormal n) :
    ns.foldl stack names = names ++ ns := by
  induction ns generalizing names with
  | nil => exact (List.append_nil names).symm
  | cons n ns ih =>
    have hn := h n List.mem_cons_self
    rw [List.foldl_cons, stack, if_neg hn.1, if_neg hn.2,
      ih fun m hm => h m (List.mem_cons_of_mem _ hm), List.append_assoc]
    rfl

theorem not_climbsFrom_of_normal {depth : Nat} (h : ∀ n ∈ ns, IsNormal n) :
    ¬ ClimbsFrom depth ns := by
  induction ns generalizing depth with
  | nil => exact not_climbsFrom_nil
  | cons n ns ih =>
    rw [climbsFrom_normal (h n List.mem_cons_self)]
    exact ih fun m hm => h m (List.mem_cons_of_mem _ hm)

namespace PlainRoot

theorem leadsTo (h : PlainRoot fs (names serverRoot)) :
    fs.LeadsTo (components serverRoot) (names serverRoot) :=
  leadsTo_components.mpr ⟨resolve_dirPath h.dirPath, h.dirPath.lookup⟩

/-- An accepted path is the place it names. -/
theorem validated (h : PlainRoot fs (names serverRoot)) (hq : placeOf requested = some q)
    (hp : validatePath fs serverRoot requested = .ok p) : p = names serverRoot ++ q := by
  obtain ⟨hclimbs, rfl⟩ := placeOf_eq_some.mp hq
  have heq := validatePath_of_not_climbs h.leadsTo h.linkFree (validatePath_ok hp).1 hclimbs
  exact Except.ok.inj (hp.symm.trans heq)

theorem walk_below {links : Nat} (h : PlainRoot fs root) (hns : ∀ n ∈ ns, IsNormal n)
    (hwalk : walk fs links root ns = .found loc) : loc = root ++ ns := by
  have hclimbs : ¬ ClimbsFrom ([] : Path).length ns := not_climbsFrom_of_normal hns
  have heq := walk_of_not_climbs h.linkFree hclimbs (by rwa [List.append_nil])
  rwa [foldl_stack_of_normal hns, List.nil_append] at heq

theorem resolve_below (h : PlainRoot fs root) (hns : ∀ n ∈ ns, IsNormal n)
    (hresolve : fs.resolve (root ++ ns) = .found loc) : loc = root ++ ns := by
  rw [resolve_dirPath_append ns h.dirPath] at hresolve
  exact h.walk_below hns hresolve

/-- What a place is opened at, when it is there or when it is made. -/
theorem opens_below (h : PlainRoot fs root) (hns : ∀ n ∈ ns, IsNormal n)
    (hopens : fs.OpensAt (root ++ ns) loc) : loc = root ++ ns := by
  rcases hopens with hfound | ⟨dir, name, habsent, rfl⟩
  · exact h.resolve_below hns hfound
  · have hne : dir ++ [name] ≠ [] := List.append_ne_nil_of_right_ne_nil _ (List.cons_ne_nil _ _)
    have hnone := lookup_of_absent habsent
    rw [resolve_dirPath_append ns h.dirPath] at habsent
    -- With a file there, the walk would end in it.
    have hwalk : walk (fs.set (dir ++ [name]) (.file "")) maxLinks root ns = .found (dir ++ [name]) :=
      walk_set_file hne (fun e he => by rw [hnone] at he; cases he)
        (.inr ⟨dir, name, habsent, rfl⟩)
    have hlinks : LinkFree (fs.set (dir ++ [name]) (.file "")) root := by
      intro q target hq hlookup
      rw [lookup_set hne] at hlookup
      split at hlookup
      · cases hlookup
      · exact h.linkFree q target hq hlookup
    have hclimbs : ¬ ClimbsFrom ([] : Path).length ns := not_climbsFrom_of_normal hns
    have heq := walk_of_not_climbs hlinks hclimbs (by rwa [List.append_nil])
    rwa [foldl_stack_of_normal hns, List.nil_append] at heq

/-- The entry of a place is the place. -/
theorem entry_below {dir : Path} {name : Name} (h : PlainRoot fs root)
    (hns : ∀ n ∈ ns, IsNormal n) (hentry : fs.entryAt (root ++ ns) = .ok (dir, name)) :
    dir ++ [name] = root ++ ns := by
  obtain ⟨hpath, hleads, -⟩ := entryAt_ok hentry
  suffices hdir : dir = (root ++ ns).dropLast by rw [hdir]; exact hpath.symm
  rcases List.eq_nil_or_concat' ns with rfl | ⟨init, last, rfl⟩
  · rw [List.append_nil] at hleads ⊢
    have hself := resolve_dirPath h.dirPath.dropLast
    rw [hleads.1] at hself
    exact Resolution.found.inj hself
  · rw [← List.append_assoc, List.dropLast_concat] at hleads ⊢
    exact h.resolve_below (fun n hn => hns n (List.mem_append_left _ hn)) hleads.1

end PlainRoot

end Leading

/-! ## What keeps a file -/

section Keeping

variable {fs fs' : FileSystem} {serverRoot : String} {root p q r loc : Path} {content : String}

theorem Holds.ne_nil (h : Holds fs root p content) : p ≠ [] := by
  rintro rfl
  have hfile := h.file
  rw [List.append_nil, h.plain.dirPath.lookup] at hfile
  cases hfile

/-- Nothing has changed on the way, and no link has come. -/
theorem Holds.of_agree (h : Holds fs root p content)
    (hagree : ∀ q e, q <+: root ++ p → fs.lookup q = some e → fs'.lookup q = some e)
    (hlinks : LinkFree fs' root) : Holds fs' root p content where
  plain := by
    refine ⟨?_, hlinks⟩
    obtain ⟨hnormal, hdirs⟩ := dirPath_iff.mp h.plain.dirPath
    exact dirPath_iff.mpr ⟨hnormal, fun q hq =>
      hagree q _ (hq.trans (List.prefix_append root p)) (hdirs q hq)⟩
  normal := h.normal
  above q hq hne := hagree q _ hq (h.above q hq hne)
  file := hagree _ _ List.prefix_rfl h.file

theorem LinkFree.made (h : LinkFree fs root) (hmade : fs.MadeDirs fs') : LinkFree fs' root := by
  intro q target hq hlink
  exact h q target hq (hmade.lookup_of_ne hlink fun heq => by cases heq)

theorem LinkFree.set_file (h : LinkFree fs root) (hloc : loc ≠ []) :
    LinkFree (fs.set loc (.file content)) root := by
  intro q target hq hlink
  rw [lookup_set hloc] at hlink
  split at hlink
  · cases hlink
  · exact h q target hq hlink

theorem LinkFree.removeTree (h : LinkFree fs root) (hloc : loc ≠ []) :
    LinkFree (fs.removeTree loc) root := by
  intro q target hq hlink
  rw [lookup_removeTree hloc] at hlink
  split at hlink
  · cases hlink
  · exact h q target hq hlink

/-- Entries of the directory are moved within it. -/
theorem LinkFree.moveTree (h : LinkFree fs root) (hq : root ++ q ≠ []) (hr : root ++ r ≠ []) :
    LinkFree (fs.moveTree (root ++ q) (root ++ r)) root := by
  intro x target hx hlink
  by_cases hmoved : root ++ r <+: x
  · obtain ⟨rest, rfl⟩ := hmoved
    rw [lookup_moveTree_moved hq hr, List.append_assoc] at hlink
    exact h _ target (List.prefix_append ..) hlink
  · by_cases hleft : root ++ q <+: x
    · rw [lookup_moveTree_left hq hleft hmoved] at hlink
      cases hlink
    · rw [lookup_moveTree hmoved hleft] at hlink
      exact h x target hx hlink

theorem PlainRoot.made (h : PlainRoot fs root) (hmade : fs.MadeDirs fs') : PlainRoot fs' root where
  dirPath := by
    obtain ⟨hnormal, hdirs⟩ := dirPath_iff.mp h.dirPath
    exact dirPath_iff.mpr ⟨hnormal, fun q hq => hmade.lookup (hdirs q hq)⟩
  linkFree := h.linkFree.made hmade

theorem Holds.made (h : Holds fs root p content) (hmade : fs.MadeDirs fs') :
    Holds fs' root p content :=
  h.of_agree (fun _ _ _ he => hmade.lookup he) (h.plain.linkFree.made hmade)

/-- A write replaces a file, or makes one where nothing is. -/
theorem over_of_writeFile {path : List Name} {written : String}
    (h : fs.writeFile path written = .ok fs') : ∃ loc, fs.OpensAt path loc ∧ loc ≠ [] ∧
      fs' = fs.set loc (.file written) ∧ ∀ e, fs.lookup loc = some e → ∃ old, e = .file old := by
  unfold FS.FileSystem.writeFile at h
  split at h
  next loc hfound =>
    split at h
    next old hfile =>
      cases h
      refine ⟨loc, .inl hfound, ?_, rfl, fun e he => ⟨old, Option.some.inj (he.symm.trans hfile)⟩⟩
      rintro rfl
      cases hfile
    next => cases h
  next dir name habsent =>
    cases h
    refine ⟨dir ++ [name], .inr ⟨dir, name, habsent, rfl⟩,
      List.append_ne_nil_of_right_ne_nil _ (List.cons_ne_nil _ _), rfl, fun e he => ?_⟩
    rw [lookup_of_absent habsent] at he
    cases he
  next => cases h
  next => cases h

/-- Another place is written. -/
theorem Holds.writeFile {written : String} (h : Holds fs root p content)
    (hq : ∀ n ∈ q, IsNormal n) (hne : q ≠ p) (hwrite : fs.writeFile (root ++ q) written = .ok fs') :
    Holds fs' root p content := by
  obtain ⟨loc, hopens, hloc, rfl, hover⟩ := over_of_writeFile hwrite
  obtain rfl := h.plain.opens_below hq hopens
  refine h.of_agree (fun x e hx he => ?_) (h.plain.linkFree.set_file hloc)
  rw [lookup_set hloc, if_neg, he]
  rintro rfl
  -- The file is not on the way, where there are directories.
  obtain ⟨old, hold⟩ := hover e he
  rw [h.above _ hx fun heq => hne (List.append_cancel_left heq), hold] at he
  cases he

/-- What is removed is neither the file nor above it. -/
theorem Holds.removeTree (h : Holds fs root p content) (hloc : root ++ q ≠ [])
    (hq : ¬ q <+: p) : Holds (fs.removeTree (root ++ q)) root p content := by
  refine h.of_agree (fun x e hx he => ?_) (h.plain.linkFree.removeTree hloc)
  rw [lookup_removeTree hloc, if_neg, he]
  intro hpre
  exact hq ((List.prefix_append_right_inj root).mp (hpre.trans hx))

/-- What is moved is neither the file nor above it, and goes neither there. -/
theorem Holds.moveTree (h : Holds fs root p content) (hsrc : root ++ q ≠ []) (hdst : root ++ r ≠ [])
    (hq : ¬ q <+: p) (hr : ¬ r <+: p) :
    Holds (fs.moveTree (root ++ q) (root ++ r)) root p content := by
  have hoff {x a : Path} (ha : ¬ a <+: p) (hx : x <+: root ++ p) : ¬ root ++ a <+: x :=
    fun hpre => ha ((List.prefix_append_right_inj root).mp (hpre.trans hx))
  refine h.of_agree (fun x e hx he => ?_) (h.plain.linkFree.moveTree hsrc hdst)
  rw [lookup_moveTree (hoff hr hx) (hoff hq hx), he]

/-- A rename takes along what is at or below the entry. -/
theorem Holds.renamed (h : Holds fs root p content) (hq : ∀ n ∈ q, IsNormal n)
    (hr : ∀ n ∈ r, IsNormal n) (hpre : q <+: p)
    (hrename : fs.rename (root ++ q) (root ++ r) = .ok fs') :
    Holds fs' root (r ++ p.drop q.length) content := by
  obtain ⟨rest, rfl⟩ := hpre
  rw [List.drop_left]
  obtain ⟨d₁, n₁, d₂, n₂, e, hsrc, hdst, he, ⟨hsame, rfl⟩ | ⟨hout, hreplaceable, rfl⟩⟩ :=
    rename_cases hrename
  · rw [h.plain.entry_below hq hsrc, h.plain.entry_below hr hdst] at hsame
    rw [List.append_cancel_left hsame] at h
    exact h
  · have hsrcDir := (entryAt_ok hsrc).2.1.dirPath
    have hdstDir := (entryAt_ok hdst).2.1.dirPath
    have hover := not_prefix_of_replaceable hsrcDir he hout hreplaceable
    have hloc₁ := h.plain.entry_below hq hsrc
    have hloc₂ := h.plain.entry_below hr hdst
    have hne₁ : root ++ q ≠ [] := by simp [← hloc₁]
    have hne₂ : root ++ r ≠ [] := by simp [← hloc₂]
    rw [hloc₁, hloc₂] at hout hover ⊢
    -- Above the new place the move changes nothing.
    have hkept (x : Path) (hx : x <+: root ++ r) (hne : x ≠ root ++ r) :
        (fs.moveTree (root ++ q) (root ++ r)).lookup x = fs.lookup x :=
      lookup_moveTree (fun hpre => hne (hx.eq_of_length_le hpre.length_le))
        (fun hpre => hout (hpre.trans hx))
    have hmoved (below : Path) : (fs.moveTree (root ++ q) (root ++ r)).lookup (root ++ (r ++ below)) =
        fs.lookup (root ++ (q ++ below)) := by
      rw [← List.append_assoc, lookup_moveTree_moved hne₁ hne₂, List.append_assoc]
    have hroot : ∀ x, x <+: root → x ≠ root ++ r := by
      rintro x hx rfl
      exact hover (hx.trans (List.prefix_append root q))
    obtain ⟨hnormal, hdirs⟩ := dirPath_iff.mp h.plain.dirPath
    refine ⟨⟨dirPath_iff.mpr ⟨hnormal, fun x hx => ?_⟩, h.plain.linkFree.moveTree hne₁ hne₂⟩,
      fun n hn => ?_, fun x hx hne => ?_, (hmoved rest).trans h.file⟩
    · rw [hkept x (hx.trans (List.prefix_append root r)) (hroot x hx)]
      exact hdirs x hx
    · rcases List.mem_append.mp hn with hn | hn
      · exact hr n hn
      · exact h.normal n (List.mem_append_right _ hn)
    · -- On the way there are the directories above the new place, and those below the entry.
      rw [← List.append_assoc] at hx
      rcases List.prefix_or_prefix_of_prefix hx (List.prefix_append (root ++ r) rest) with hx' | hx'
      · by_cases hself : x = root ++ r
        · subst hself
          have hself := hmoved []
          rw [List.append_nil, List.append_nil] at hself
          rw [hself]
          refine h.above _ (by rw [← List.append_assoc]; exact List.prefix_append ..) fun heq => ?_
          have hrest : rest = [] := by simpa using heq
          exact hne (by rw [hrest, List.append_nil])
        · rw [hkept x hx' hself]
          have hparent : x <+: d₂ := by
            rw [← hloc₂] at hx' hself
            exact (List.prefix_concat_iff.mp hx').resolve_left hself
          exact (hdstDir.of_prefix hparent).lookup
      · obtain ⟨below, rfl⟩ := hx'
        rw [List.append_assoc, hmoved]
        refine h.above _ ?_ fun heq => hne ?_
        · rw [List.prefix_append_right_inj, List.prefix_append_right_inj]
          exact (List.prefix_append_right_inj _).mp hx
        · rw [List.append_assoc, (List.append_right_inj _).mp ((List.append_right_inj _).mp heq)]

end Keeping

/-! ## Requests -/

section Requests

variable {fs fs' : FileSystem} {serverRoot : String} {p q : Path} {content : String}

/-- A path of a request is a place, or the request is refused. -/
theorem holds_validated {α : Type} {requested : String} {f : Path → FileAction α}
    (h : Holds fs (names serverRoot) p content) (hq : placeOf requested = some q)
    (hf : Holds (f (names serverRoot ++ q) fs).2 (names serverRoot) p content) :
    Holds ((validated serverRoot requested >>= f) fs).2 (names serverRoot) p content := by
  refine snd_validated (I := fun fs => Holds fs (names serverRoot) p content) h fun loc hloc => ?_
  rw [h.plain.validated hq hloc]
  exact hf

theorem holds_change_write {written : String} (h : Holds fs (names serverRoot) p content)
    (hq : ∀ n ∈ q, IsNormal n) (hne : q ≠ p) :
    Holds (change (fun fs => fs.writeFile (names serverRoot ++ q) written) fs).2 (names serverRoot)
      p content :=
  snd_change (I := fun fs => Holds fs (names serverRoot) p content) h fun _ hwrite =>
    h.writeFile hq hne hwrite

theorem holds_deleteEntries {ps : List Path} (h : Holds fs (names serverRoot) p content)
    (hps : ∀ loc ∈ ps, ∃ q, loc = names serverRoot ++ q ∧ (∀ n ∈ q, IsNormal n) ∧ ¬ q <+: p) :
    Holds (deleteEntries ps fs).2 (names serverRoot) p content := by
  induction ps generalizing fs with
  | nil => exact h
  | cons loc ps ih =>
    have hrest := fun l hl => hps l (List.mem_cons_of_mem loc hl)
    obtain ⟨q, rfl, hnormal, hq⟩ := hps loc List.mem_cons_self
    rw [deleteEntries_cons]
    cases hentry : fs.entryOf (names serverRoot ++ q) with
    | none => exact h
    | some e =>
      have he := entryOf_ne_nil hentry
      obtain ⟨dir, name, hat, rfl⟩ : ∃ dir name,
          fs.entryAt (names serverRoot ++ q) = .ok (dir, name) ∧ e = dir ++ [name] := by
        obtain ⟨init, name, dir, hpath, hname, hleads, hdir, hthere, rfl⟩ := entryOf_eq_some.mp hentry
        exact ⟨dir, name, by rw [hpath]; exact entryAt_eq ⟨hleads, hdir⟩ hname, rfl⟩
      rw [h.plain.entry_below hnormal hat] at he ⊢
      exact ih (h.removeTree he hq) hrest

/-- Every path of a list that is accepted is accepted by itself. -/
theorem accepted_of_mem {paths : List String} {ps : List Path} {loc : Path}
    (h : (validatedAll serverRoot paths fs).1 = .ok ps) (hloc : loc ∈ ps) :
    ∃ requested ∈ paths, validatePath fs serverRoot requested = .ok loc := by
  induction paths generalizing ps with
  | nil =>
    cases h
    cases hloc
  | cons requested paths ih =>
    obtain ⟨first, hfirst⟩ := accepted_of_validatedAll h
    have hvalidated := validated_eq serverRoot requested fs
    rw [hfirst] at hvalidated
    rw [validatedAll, bind_ok hvalidated] at h
    rcases validatedAll_eq fs serverRoot paths with ⟨-, e, herror⟩ | ⟨rest, -, hok⟩
    · rw [bind_error herror] at h
      cases h
    · rw [bind_ok hok] at h
      cases h
      rcases List.mem_cons.mp hloc with rfl | hloc
      · exact ⟨requested, List.mem_cons_self, hfirst⟩
      · obtain ⟨other, hother, hvalid⟩ := ih (by rw [hok]) hloc
        exact ⟨other, List.mem_cons_of_mem _ hother, hvalid⟩

/-- A rename that succeeds moves what its paths are accepted as; one that fails changes nothing. -/
theorem serveFiles_rename (fs : FileSystem) (serverRoot src dst : String) :
    (∃ a b fs', validatePath fs serverRoot src = .ok a ∧ validatePath fs serverRoot dst = .ok b ∧
        fs.rename a b = .ok fs' ∧
        serveFiles serverRoot (.rename src dst) fs = (.ok .success, fs')) ∨
      ∃ e, serveFiles serverRoot (.rename src dst) fs = (.error e, fs) := by
  have hsrc := validated_eq serverRoot src fs
  have hdst := validated_eq serverRoot dst fs
  rw [serveFiles]
  cases ha : validatePath fs serverRoot src with
  | error e =>
    rw [ha] at hsrc
    exact .inr ⟨e, bind_error hsrc⟩
  | ok a =>
    rw [ha] at hsrc
    rw [bind_ok hsrc]
    cases hb : validatePath fs serverRoot dst with
    | error e =>
      rw [hb] at hdst
      exact .inr ⟨e, bind_error hdst⟩
    | ok b =>
      rw [hb] at hdst
      rw [bind_ok hdst, renameEntry]
      cases hrename : fs.rename a b with
      | ok fs' =>
        have hchange : change (fun fs => fs.rename a b) fs = (.ok (), fs') := by
          simp only [change, hrename]
        exact .inl ⟨a, b, fs', rfl, rfl, hrename, bind_ok hchange⟩
      | error e =>
        have hchange : change (fun fs => fs.rename a b) fs = (.error (.io "I/O error"), fs) := by
          simp only [change, hrename]
        exact .inr ⟨_, bind_error hchange⟩

theorem holds_uploads {fields : List (Option String × String)}
    (h : Holds fs (names serverRoot) p content)
    (hfields : ∀ field ∈ fields, ∃ q, placeOf (field.1.getD "upload") = some q ∧ q ≠ p) :
    Holds (forEach fields (uploadField serverRoot) fs).2 (names serverRoot) p content := by
  induction fields generalizing fs with
  | nil => exact h
  | cons field fields ih =>
    have hrest := fun f hf => hfields f (List.mem_cons_of_mem field hf)
    obtain ⟨q, hq, hne⟩ := hfields field List.mem_cons_self
    have hone : Holds (uploadField serverRoot field fs).2 (names serverRoot) p content :=
      holds_validated h hq (holds_change_write h (placeOf_normal hq) hne)
    rw [forEach]
    cases hupload : uploadField serverRoot field fs with
    | mk r fs' =>
      rw [hupload] at hone
      cases r with
      | ok a =>
        rw [bind_ok hupload]
        exact ih hone hrest
      | error e =>
        rw [bind_error hupload]
        exact hone

/-- After a request the file is where `follow` says, one case per request. -/
theorem holds_serveFiles (h : Holds fs (names serverRoot) p content) {request : FileRequest}
    (hfollow : follow p (serveFiles serverRoot request fs).1.isOk request = some q) :
    Holds (serveFiles serverRoot request fs).2 (names serverRoot) q content := by
  cases request with
  | list path =>
    cases hfollow
    refine snd_validated (I := fun fs => Holds fs (names serverRoot) p content) h fun loc _ => ?_
    have hkeeps : Keeps (fun fs' => fs' = fs) (listDirectory loc) := by
      refine Keeps.bind Keeps.get fun read => ?_
      split
      · exact Keeps.bind Keeps.ensure fun _ => Keeps.pure
      · exact Keeps.fail
    rw [snd_bind_pure, hkeeps.snd rfl]
    exact h
  | read path =>
    cases hfollow
    refine snd_validated (I := fun fs => Holds fs (names serverRoot) p content) h fun loc _ => ?_
    have hkeeps : Keeps (fun fs' => fs' = fs) (readFile loc) :=
      Keeps.bind Keeps.get fun _ => Keeps.bind Keeps.ofOption fun _ =>
        Keeps.bind Keeps.ensure fun _ => Keeps.pure
    rw [snd_bind_pure, hkeeps.snd rfl]
    exact h
  | directory path =>
    cases hfollow
    refine snd_validated (I := fun fs => Holds fs (names serverRoot) p content) h fun loc _ => ?_
    rw [snd_bind_pure, createDirectory, snd_makeDirs]
    exact h.made (createDirAll_made fs loc)
  | write path written =>
    obtain ⟨r, hr, hfollow⟩ := Option.bind_eq_some_iff.mp hfollow
    split at hfollow
    next => cases hfollow
    next hne =>
      cases hfollow
      refine holds_validated h hr ?_
      have hmade := h.made (createDirAll_made fs (names serverRoot ++ r).dropLast)
      rw [snd_bind_pure]
      exact snd_writeFile (I := fun fs => Holds fs (names serverRoot) p content) hmade
        fun _ hwrite => hmade.writeFile (placeOf_normal hr) hne hwrite
  | rename src dst =>
    obtain ⟨a, ha, hfollow⟩ := Option.bind_eq_some_iff.mp hfollow
    obtain ⟨b, hb, hfollow⟩ := Option.bind_eq_some_iff.mp hfollow
    rcases serveFiles_rename fs serverRoot src dst with
      ⟨_, _, fs', hsrc, hdst, hrename, heq⟩ | ⟨e, heq⟩
    · rw [h.plain.validated ha hsrc, h.plain.validated hb hdst] at hrename
      rw [heq] at hfollow ⊢
      split at hfollow
      next hpre =>
        cases hfollow
        exact h.renamed (placeOf_normal ha) (placeOf_normal hb) hpre hrename
      next ha' =>
        split at hfollow
        next => cases hfollow
        next hb' =>
          cases hfollow
          rcases rename_ok hrename with rfl | ⟨d₁, n₁, d₂, n₂, hat₁, hat₂, rfl⟩
          · exact h
          · have hloc₁ := h.plain.entry_below (placeOf_normal ha) hat₁
            have hloc₂ := h.plain.entry_below (placeOf_normal hb) hat₂
            rw [hloc₁, hloc₂]
            exact h.moveTree (by simp [← hloc₁]) (by simp [← hloc₂]) ha' hb'
    · rw [heq] at hfollow ⊢
      split at hfollow
      next =>
        cases hfollow
        exact h
      next =>
        split at hfollow
        next => cases hfollow
        next =>
          cases hfollow
          exact h
  | delete paths =>
    change (if paths.all _ then some p else none) = some q at hfollow
    split at hfollow
    next hpaths =>
      cases hfollow
      refine snd_validatedAll_bind (I := fun fs => Holds fs (names serverRoot) p content) h
        fun ps hps => ?_
      rw [snd_bind_pure]
      refine holds_deleteEntries h fun loc hloc => ?_
      obtain ⟨requested, hrequested, hvalid⟩ := accepted_of_mem hps hloc
      obtain ⟨r, hr, hpre⟩ :=
        (Option.any_eq_true _ _).mp (List.all_eq_true.mp hpaths requested hrequested)
      rw [Bool.not_eq_true', ← Bool.not_eq_true, List.isPrefixOf_iff_prefix] at hpre
      exact ⟨r, h.plain.validated hr hvalid, placeOf_normal hr, hpre⟩
    next => cases hfollow
  | compress paths destination archive =>
    obtain ⟨r, hr, hfollow⟩ := Option.bind_eq_some_iff.mp hfollow
    split at hfollow
    next => cases hfollow
    next hne =>
      cases hfollow
      refine snd_validatedAll_bind (I := fun fs => Holds fs (names serverRoot) p content) h
        fun ps _ => holds_validated h hr ?_
      rw [snd_bind_pure]
      exact holds_change_write h (placeOf_normal hr) hne
  | decompress path destination extraction => cases hfollow
  | upload fields =>
    change (if fields.all _ then some p else none) = some q at hfollow
    split at hfollow
    next hfields =>
      cases hfollow
      refine (snd_bind_pure _ _ fs).symm ▸ ?_
      refine holds_uploads h fun field hfield => ?_
      obtain ⟨r, hr, hne⟩ := (Option.any_eq_true _ _).mp (List.all_eq_true.mp hfields field hfield)
      exact ⟨r, hr, bne_iff_ne.mp hne⟩
    next => cases hfollow

/-- After a run of requests the file is where they have taken it. -/
theorem holds_requests (h : Holds fs (names serverRoot) p content) {requests : List FileRequest}
    (hfollow : followAll serverRoot p fs requests = some q) :
    Holds (afterRequests serverRoot fs requests) (names serverRoot) q content := by
  induction requests generalizing fs p with
  | nil =>
    cases hfollow
    exact h
  | cons request requests ih =>
    obtain ⟨r, hr, hrest⟩ := Option.bind_eq_some_iff.mp hfollow
    exact ih (holds_serveFiles h hr) hrest

end Requests

/-! ## Writing and reading -/

section Reading

variable {fs fs' : FileSystem} {serverRoot requested : String} {root p q : Path} {content : String}

theorem Holds.real (h : Holds fs root p content) : fs.Real (root ++ p) := by
  obtain ⟨init, name, rfl⟩ := (List.eq_nil_or_concat' p).resolve_left h.ne_nil
  refine .inr ⟨root ++ init, name, content, (List.append_assoc ..).symm, ?_,
    h.normal name (List.mem_append_right _ List.mem_cons_self), h.file⟩
  refine dirPath_iff.mpr ⟨fun n hn => ?_, fun q hq => h.above q ?_ ?_⟩
  · rcases List.mem_append.mp hn with hn | hn
    · exact normal_of_dirPath h.plain.dirPath n hn
    · exact h.normal n (List.mem_append_left _ hn)
  · rw [← List.append_assoc]
    exact hq.trans (List.prefix_append ..)
  · rintro rfl
    have hlength := hq.length_le
    simp at hlength

/-- A file that is there is read, under every spelling of its place, unless it is too large. -/
theorem Holds.read (h : Holds fs (names serverRoot) p content) (hq : placeOf requested = some p)
    (hnul : '\x00' ∉ requested.toList) :
    serveFiles serverRoot (.read (some requested)) fs =
      (if content.utf8ByteSize ≤ maxFileSize then .ok (.content content) else .error .fileTooLarge,
        fs) := by
  obtain ⟨hclimbs, rfl⟩ := placeOf_eq_some.mp hq
  have hvalidated := validated_eq serverRoot requested fs
  rw [validatePath_of_not_climbs h.plain.leadsTo h.plain.linkFree hnul hclimbs] at hvalidated
  have hread : fs.readFile (names serverRoot ++ normalForm (components requested)) = some content := by
    rw [FS.FileSystem.readFile, resolve_of_real h.real]
    dsimp only
    rw [h.file]
  have hget : (StateAction.get : FileAction FileSystem) fs = (.ok fs, fs) := rfl
  have hof : (ofOption (fs.readFile (names serverRoot ++ normalForm (components requested)))
      (.io "No such file or directory") : FileAction String) fs = (.ok content, fs) := by
    rw [hread]
    rfl
  rw [serveFiles, Option.getD_some, bind_ok hvalidated]
  by_cases hsize : content.utf8ByteSize ≤ maxFileSize
  · have hensure : (ensure (content.utf8ByteSize ≤ maxFileSize) .fileTooLarge : FileAction Unit) fs =
        (.ok (), fs) := by
      rw [ensure, if_pos (decide_eq_true hsize)]
      rfl
    rw [if_pos hsize]
    refine bind_ok (a := content) ?_
    rw [readFile, bind_ok hget, bind_ok hof, bind_ok hensure]
    rfl
  · have hensure : (ensure (content.utf8ByteSize ≤ maxFileSize) .fileTooLarge : FileAction Unit) fs =
        (.error .fileTooLarge, fs) := by
      rw [ensure, if_neg (by simpa using hsize)]
      rfl
    rw [if_neg hsize]
    refine bind_error ?_
    rw [readFile, bind_ok hget, bind_ok hof, bind_error hensure]

/-- What is written is there. -/
theorem holds_of_write {response : FileResponse} (h : PlainRoot fs (names serverRoot))
    (hq : placeOf requested = some q)
    (hwrite : serveFiles serverRoot (.write requested content) fs = (.ok response, fs')) :
    Holds fs' (names serverRoot) q content := by
  have hnormal := placeOf_normal hq
  rw [serveFiles] at hwrite
  obtain ⟨loc, _, hvalidated, hrest⟩ := ok_of_bind hwrite
  rw [validated_eq] at hvalidated
  obtain ⟨hvalid, rfl⟩ := Prod.mk.inj hvalidated
  obtain rfl := h.validated hq hvalid
  obtain ⟨_, _, hwritten, hpure⟩ := ok_of_bind hrest
  cases hpure
  obtain ⟨_, made, hdirs, hchange⟩ := ok_of_bind hwritten
  have hmade : fs.createDirAll (names serverRoot ++ q).dropLast = (made, none) := by
    unfold makeDirs at hdirs
    split at hdirs
    next hcreated =>
      cases hdirs
      exact hcreated
    next => cases hdirs
  have hplain : PlainRoot made (names serverRoot) := by
    have hkept := createDirAll_made fs (names serverRoot ++ q).dropLast
    rw [hmade] at hkept
    exact h.made hkept
  have hset : made.writeFile (names serverRoot ++ q) content = .ok fs' := by
    unfold change at hchange
    split at hchange
    next hok =>
      cases hchange
      exact hok
    next => cases hchange
  obtain ⟨loc, hopens, hloc, rfl, hover⟩ := over_of_writeFile hset
  obtain rfl := hplain.opens_below hnormal hopens
  -- The root is a directory, so it is not what has been written.
  obtain ⟨init, name, rfl⟩ : ∃ init name, q = init ++ [name] := by
    refine (List.eq_nil_or_concat' q).resolve_left ?_
    rintro rfl
    rw [List.append_nil] at hover
    obtain ⟨old, hold⟩ := hover _ hplain.dirPath.lookup
    cases hold
  have hparent : made.DirPath (names serverRoot ++ init) := by
    have hnone : (fs.createDirAll (names serverRoot ++ (init ++ [name])).dropLast).2 = none := by
      rw [hmade]
    obtain ⟨dir, hdir⟩ := createDirAll_leadsTo hnone
    rw [hmade, ← List.append_assoc, List.dropLast_concat] at hdir
    rw [← hplain.resolve_below (fun n hn => hnormal n (List.mem_append_left _ hn)) hdir.1]
    exact hdir.dirPath
  have hkept : ∀ x, x <+: names serverRoot ++ (init ++ [name]) →
      x ≠ names serverRoot ++ (init ++ [name]) →
      (made.set (names serverRoot ++ (init ++ [name])) (.file content)).lookup x = some .dir := by
    intro x hx hne
    rw [lookup_set hloc, if_neg hne]
    rw [← List.append_assoc] at hx hne
    exact (hparent.of_prefix ((List.prefix_concat_iff.mp hx).resolve_left hne)).lookup
  refine ⟨⟨?_, hplain.linkFree.set_file hloc⟩, hnormal, hkept, ?_⟩
  · obtain ⟨hnames, -⟩ := dirPath_iff.mp hplain.dirPath
    refine dirPath_iff.mpr ⟨hnames, fun x hx => hkept x (hx.trans (List.prefix_append ..)) ?_⟩
    rintro rfl
    have hlength := hx.length_le
    simp at hlength
  · rw [lookup_set hloc, if_pos rfl]

end Reading

/-- In a directory without links: what a write has been answered for is read at the place that the
requests since have taken it to, under every spelling of that place that does not climb above the
root, unless it is too large to be read. -/
theorem read_of_written {fs fs₁ : FileSystem} {serverRoot path requested content : String}
    {response : FileResponse} {p q : Path} {requests : List FileRequest}
    (hplain : PlainRoot fs (names serverRoot)) (hp : placeOf path = some p)
    (hwrite : serveFiles serverRoot (.write path content) fs = (.ok response, fs₁))
    (hfollow : followAll serverRoot p fs₁ requests = some q) (hq : placeOf requested = some q)
    (hnul : '\x00' ∉ requested.toList) :
    (serveFiles serverRoot (.read (some requested)) (afterRequests serverRoot fs₁ requests)).1 =
      if content.utf8ByteSize ≤ maxFileSize then .ok (.content content)
      else .error .fileTooLarge := by
  have hholds := holds_requests (holds_of_write hplain hp hwrite) hfollow
  rw [hholds.read hq hnul]

section Plain

theorem plainRoot_plainVolume : PlainRoot plainVolume (names "/data/s1") := by
  have hdata : plainVolume.DirPath ["data"] := (DirPath.nil _).snoc (by decide) (by decide)
  exact ⟨hdata.snoc (by decide) (by decide), linkFree_plainVolume⟩

/-- A world is written, its directory is renamed, and something else is deleted. -/
theorem read_after_rename :
    (serveFiles "/data/s1" (.read (some "/backup/./world.dat"))
      (afterRequests "/data/s1" (serveFiles "/data/s1" (.write "/world/world.dat" "seed") plainVolume).2
        [.rename "world" "/backup", .delete ["eula.txt"], .delete ["eula.txt"]])).1 =
      .ok (.content "seed") :=
  @read_of_written _ _ "/data/s1" "/world/world.dat" _ "seed" .success ["world", "world.dat"]
    ["backup", "world.dat"] _
    plainRoot_plainVolume (by decide +kernel) (by decide +kernel) (by decide +kernel)
    (by decide +kernel) (by decide)

end Plain

end Wings
