import NexusPanel.Foundation.Resolution

/-!
# What the calls leave alone

A walk depends on the locations it looks up (`passed`) and on nothing else. A call that
writes changes the location its path opens; a call that works on an entry changes what is at
and below that entry. So a walk that passes through none of these comes to where it came
before.
-/

namespace FS

/-! ## What a walk depends on -/

def passedWith (fs : FileSystem) (follow : Path → List Name → List Path) :
    Path → List Name → List Path
  | _, [] => []
  | cur, c :: cs =>
    if c = "." then passedWith fs follow cur cs
    else if c = ".." then passedWith fs follow cur.dropLast cs
    else (cur ++ [c]) ::
      match fs.lookup (cur ++ [c]) with
      | some .dir => passedWith fs follow (cur ++ [c]) cs
      | some (.link target) =>
        follow (if isAbsolute target then [] else cur) (components target ++ cs)
      | _ => []

/-- The locations that a walk looks up. -/
def passed (fs : FileSystem) : Nat → Path → List Name → List Path
  | 0 => passedWith fs fun _ _ => []
  | links + 1 => passedWith fs (passed fs links)

theorem passed_cons (fs : FileSystem) (links : Nat) (cur : Path) (c : Name) (cs : List Name) :
    passed fs links cur (c :: cs) =
      if c = "." then passed fs links cur cs
      else if c = ".." then passed fs links cur.dropLast cs
      else (cur ++ [c]) ::
        match fs.lookup (cur ++ [c]) with
        | some .dir => passed fs links (cur ++ [c]) cs
        | some (.link target) =>
          match links with
          | 0 => []
          | left + 1 =>
            passed fs left (if isAbsolute target then [] else cur) (components target ++ cs)
        | _ => [] := by
  cases links <;> rfl

section Walks

variable {fs fs' : FileSystem} {links : Nat} {cur loc p : Path} {cs path : List Name}

/-- Two file systems that agree on what a walk looks up take it to the same end. -/
theorem walk_congr (h : ∀ q ∈ passed fs links cur cs, fs'.lookup q = fs.lookup q) :
    walk fs' links cur cs = walk fs links cur cs := by
  induction links, cur, cs using walk_induction with
  | nil links cur => rw [walk_nil, walk_nil]
  | cons links cur c cs ih ihLink =>
    rw [passed_cons] at h
    rw [walk_cons, walk_cons]
    by_cases hdot : c = "."
    · rw [if_pos hdot] at h
      rw [if_pos hdot, if_pos hdot, ih cur h]
    · by_cases hdots : c = ".."
      · rw [if_neg hdot, if_pos hdots] at h
        rw [if_neg hdot, if_neg hdot, if_pos hdots, if_pos hdots, ih _ h]
      · rw [if_neg hdot, if_neg hdots] at h
        rw [if_neg hdot, if_neg hdot, if_neg hdots, if_neg hdots, h _ List.mem_cons_self]
        have hrest := fun q hq => h q (List.mem_cons_of_mem _ hq)
        cases hlookup : fs.lookup (cur ++ [c]) with
        | none => rfl
        | some e =>
          rw [hlookup] at hrest
          cases e with
          | dir => exact ih _ hrest
          | file content => rfl
          | link target =>
            cases links with
            | zero => rfl
            | succ left => exact ihLink left _ _ rfl hrest

end Walks

namespace FileSystem

/-! ## What a call changes -/

/-- The location that opening a path for writing opens, or creates. -/
def OpensAt (fs : FileSystem) (path : List Name) (loc : Path) : Prop :=
  fs.resolve path = .found loc ∨
    ∃ dir name, fs.resolve path = .absent dir name ∧ loc = dir ++ [name]

section

variable {fs fs' : FileSystem} {path src dst : List Name} {p q : Path} {content : String}

/-- Nothing is at a location that a walk finds missing. -/
theorem lookup_of_absent {dir : Path} {name : Name} (h : fs.resolve path = .absent dir name) :
    fs.lookup (dir ++ [name]) = none := by
  have hwith : ∀ (follow : Path → List Name → Resolution),
      (∀ start cs, follow start cs = .absent dir name → fs.lookup (dir ++ [name]) = none) →
      ∀ cs cur, walkWith fs follow cur cs = .absent dir name → fs.lookup (dir ++ [name]) = none := by
    intro follow hfollow cs
    induction cs with
    | nil => exact fun _ h => nomatch h
    | cons c cs ih =>
      intro cur h
      unfold walkWith at h
      split at h
      · exact ih _ h
      · split at h
        · exact ih _ h
        · split at h
          next hnone =>
            split at h
            · cases h
              exact hnone
            · cases h
          next => exact ih _ h
          next => split at h <;> cases h
          next => exact hfollow _ _ h
  have hwalk : ∀ links start cs, walk fs links start cs = .absent dir name →
      fs.lookup (dir ++ [name]) = none := by
    intro links
    induction links with
    | zero =>
      exact fun start cs => hwith (fun _ _ => .refused) (fun _ _ h => by cases h) cs start
    | succ links ih => exact fun start cs => hwith _ ih cs start
  exact hwalk maxLinks [] path h

/-- Writing changes the location that is opened. -/
theorem writeFile_ok (h : fs.writeFile path content = .ok fs') :
    ∃ loc, fs.OpensAt path loc ∧ loc ≠ [] ∧ fs' = fs.set loc (.file content) := by
  unfold writeFile at h
  split at h
  next loc hfound =>
    split at h
    next old hfile =>
      cases h
      refine ⟨loc, .inl hfound, ?_, rfl⟩
      rintro rfl
      cases hfile
    next => cases h
  next dir name habsent =>
    cases h
    exact ⟨dir ++ [name], .inr ⟨dir, name, habsent, rfl⟩,
      List.append_ne_nil_of_right_ne_nil _ (List.cons_ne_nil _ _), rfl⟩
  next => cases h
  next => cases h

/-- Behind a write a walk finds the file where it would have opened it. -/
theorem walk_set_file {links : Nat} {cur cs : List Name} {loc : Path} (hloc : loc ≠ [])
    (hfile : ∀ e, fs.lookup loc = some e → ∃ old, e = .file old)
    (h : walk fs links cur cs = .found loc ∨
      ∃ dir name, walk fs links cur cs = .absent dir name ∧ loc = dir ++ [name]) :
    walk (fs.set loc (.file content)) links cur cs = .found loc := by
  induction links, cur, cs using walk_induction with
  | nil links cur =>
    rw [walk_nil] at h ⊢
    rcases h with h | ⟨dir, name, h, -⟩
    · exact h
    · cases h
  | cons links cur c cs ih ihLink =>
    rw [walk_cons] at h ⊢
    by_cases hdot : c = "."
    · rw [if_pos hdot] at h ⊢
      exact ih cur h
    by_cases hdots : c = ".."
    · rw [if_neg hdot, if_pos hdots] at h ⊢
      exact ih _ h
    rw [if_neg hdot, if_neg hdots] at h ⊢
    rw [lookup_set hloc]
    by_cases hhere : cur ++ [c] = loc
    · -- Nothing or a file is there, so the walk ended here before too.
      rw [if_pos hhere]
      rw [hhere] at h
      cases hlookup : fs.lookup loc with
      | none =>
        rw [hlookup] at h
        by_cases hcs : cs = []
        · simp only [if_pos hcs, hhere]
        · simp only [if_neg hcs] at h
          rcases h with h | ⟨dir, name, h, -⟩ <;> cases h
      | some e =>
        obtain ⟨old, rfl⟩ := hfile e hlookup
        rw [hlookup] at h
        by_cases hcs : cs = []
        · simp only [if_pos hcs, hhere]
        · simp only [if_neg hcs] at h
          rcases h with h | ⟨dir, name, h, -⟩ <;> cases h
    · rw [if_neg hhere]
      cases hlookup : fs.lookup (cur ++ [c]) with
      | none =>
        rw [hlookup] at h
        rcases h with h | ⟨dir, name, h, hname⟩
        · dsimp only at h
          split at h <;> cases h
        · dsimp only at h
          split at h <;> cases h
          exact absurd hname.symm hhere
      | some e =>
        rw [hlookup] at h
        cases e with
        | dir => exact ih _ h
        | file old =>
          dsimp only at h
          split at h
          · rcases h with h | ⟨dir, name, h, -⟩
            · cases h
              exact absurd rfl hhere
            · cases h
          · rcases h with h | ⟨dir, name, h, -⟩ <;> cases h
        | link target =>
          dsimp only at h ⊢
          cases links with
          | zero => rcases h with h | ⟨dir, name, h, -⟩ <;> cases h
          | succ left => exact ihLink left _ _ rfl h

/-- What has been written is read. -/
theorem readFile_of_writeFile (h : fs.writeFile path content = .ok fs') :
    fs'.readFile path = some content := by
  have hopened : ∃ loc, loc ≠ [] ∧ fs' = fs.set loc (.file content) ∧ fs.OpensAt path loc ∧
      ∀ e, fs.lookup loc = some e → ∃ old, e = .file old := by
    unfold writeFile at h
    split at h
    next loc hfound =>
      split at h
      next old hfile =>
        cases h
        refine ⟨loc, ?_, rfl, .inl hfound, fun e he => ⟨old, ?_⟩⟩
        · rintro rfl
          cases hfile
        · exact Option.some.inj (he.symm.trans hfile)
      next => cases h
    next dir name habsent =>
      cases h
      refine ⟨dir ++ [name], List.append_ne_nil_of_right_ne_nil _ (List.cons_ne_nil _ _), rfl,
        .inr ⟨dir, name, habsent, rfl⟩, fun e he => ?_⟩
      rw [lookup_of_absent habsent] at he
      cases he
    next => cases h
    next => cases h
  obtain ⟨loc, hloc, rfl, hopens, hfile⟩ := hopened
  have hresolve : (fs.set loc (.file content)).resolve path = .found loc :=
    walk_set_file hloc hfile hopens
  rw [readFile, hresolve]
  dsimp only
  rw [lookup_set hloc, if_pos rfl]

/-- A rename that succeeds finds an entry, and moves it over what it may replace unless both paths
name this entry. -/
theorem rename_cases (h : fs.rename src dst = .ok fs') :
    ∃ d₁ n₁ d₂ n₂ e, fs.entryAt src = .ok (d₁, n₁) ∧ fs.entryAt dst = .ok (d₂, n₂) ∧
      fs.lookup (d₁ ++ [n₁]) = some e ∧
      (d₁ ++ [n₁] = d₂ ++ [n₂] ∧ fs' = fs ∨
        ¬ d₁ ++ [n₁] <+: d₂ ++ [n₂] ∧ fs.replaceable e (d₂ ++ [n₂]) = true ∧
          fs' = fs.moveTree (d₁ ++ [n₁]) (d₂ ++ [n₂])) := by
  unfold rename at h
  split at h
  next d₁ n₁ d₂ n₂ hsrc hdst =>
    refine ⟨d₁, n₁, d₂, n₂, ?_⟩
    dsimp only at h
    split at h
    next => cases h
    next e he =>
      refine ⟨e, hsrc, hdst, he, ?_⟩
      split at h
      next hsame =>
        cases h
        exact .inl ⟨hsame, rfl⟩
      next =>
        split at h
        next => cases h
        next hfree =>
          cases h
          rw [Bool.or_eq_true, not_or, Bool.not_eq_true', Bool.not_eq_false] at hfree
          exact .inr ⟨fun hpre => hfree.1 (List.isPrefixOf_iff_prefix.mpr hpre), hfree.2, rfl⟩
  all_goals cases h

/-- Moving an entry changes what is at and below it, and at and below where it goes. -/
theorem rename_ok (h : fs.rename src dst = .ok fs') :
    fs' = fs ∨ ∃ d₁ n₁ d₂ n₂, fs.entryAt src = .ok (d₁, n₁) ∧ fs.entryAt dst = .ok (d₂, n₂) ∧
      fs' = fs.moveTree (d₁ ++ [n₁]) (d₂ ++ [n₂]) := by
  obtain ⟨d₁, n₁, d₂, n₂, e, hsrc, hdst, -, ⟨-, hfs⟩ | ⟨-, -, hfs⟩⟩ := rename_cases h
  · exact .inl hfs
  · exact .inr ⟨d₁, n₁, d₂, n₂, hsrc, hdst, hfs⟩

/-- What is replaced is nowhere on the way to the entry that replaces it. -/
theorem not_prefix_of_replaceable {dir : Path} {name : Name} {e : Entry} (hdir : fs.DirPath dir)
    (he : fs.lookup (dir ++ [name]) = some e) (hp : ¬dir ++ [name] <+: p)
    (h : fs.replaceable e p = true) : ¬p <+: dir ++ [name] := by
  intro hpre
  obtain ⟨rest, heq⟩ := hpre
  rcases List.eq_nil_or_concat' rest with rfl | ⟨more, last, rfl⟩
  · rw [List.append_nil] at heq
    exact hp ⟨[], by rw [List.append_nil, heq]⟩
  · rw [← List.append_assoc] at heq
    obtain ⟨rfl, hlast⟩ := List.append_inj' heq rfl
    cases hlast
    have hchild : ∃ c, fs.lookup (p ++ [c]) ≠ none := by
      cases more with
      | nil =>
        refine ⟨name, ?_⟩
        rw [List.append_nil] at he
        rw [he]
        exact Option.some_ne_none e
      | cons c more =>
        refine ⟨c, ?_⟩
        rw [(hdir p c more rfl).2]
        exact Option.some_ne_none _
    obtain ⟨c, hc⟩ := hchild
    have hmem := mem_children.mpr hc
    unfold replaceable at h
    rw [hdir.of_append.lookup] at h
    cases e with
    | dir =>
      rw [beq_iff_eq.mp h] at hmem
      cases hmem
    | file | link => cases h

section Moving

/-- The entries that a move carries along. -/
theorem lookup_moved (l : List (Path × Entry)) (rest : Path) :
    ((l.filter fun x => src.isPrefixOf x.1).map fun x =>
      (p ++ x.1.drop src.length, x.2)).lookup (p ++ rest) = l.lookup (src ++ rest) := by
  induction l with
  | nil => rfl
  | cons x l ih =>
    obtain ⟨k, e⟩ := x
    by_cases hk : src <+: k
    · obtain ⟨below, rfl⟩ := hk
      have hkeep : src.isPrefixOf (src ++ below) = true :=
        List.isPrefixOf_iff_prefix.mpr (List.prefix_append ..)
      rw [List.filter_cons_of_pos (by exact hkeep), List.map_cons, List.drop_left]
      by_cases hsame : rest = below
      · subst hsame
        rw [List.lookup_cons_self, List.lookup_cons_self]
      · rw [List.lookup_cons, List.lookup_cons, beq_eq_false_iff_ne.mpr (by simpa using hsame),
          beq_eq_false_iff_ne.mpr (by simpa using hsame)]
        exact ih
    · have hne : src ++ rest ≠ k := by
        rintro rfl
        exact hk (List.prefix_append ..)
      have hdrop : ¬src.isPrefixOf k = true := fun h => hk (List.isPrefixOf_iff_prefix.mp h)
      rw [List.filter_cons_of_neg (by exact hdrop), List.lookup_cons, beq_eq_false_iff_ne.mpr hne]
      exact ih

/-- Nothing that is carried along goes anywhere else. -/
theorem lookup_moved_none (l : List (Path × Entry)) (hp : ¬p <+: q) :
    ((l.filter fun x => src.isPrefixOf x.1).map fun x =>
      (p ++ x.1.drop src.length, x.2)).lookup q = none := by
  rw [List.lookup_eq_none_iff]
  intro x hx
  obtain ⟨y, -, rfl⟩ := List.mem_map.mp hx
  rw [bne_iff_ne]
  rintro rfl
  exact hp (List.prefix_append p _)

/-- What was at and below the entry is at and below where it went. -/
theorem lookup_moveTree_moved (hsrc : src ≠ []) (hp : p ≠ []) (rest : Path) :
    (fs.moveTree src p).lookup (p ++ rest) = fs.lookup (src ++ rest) := by
  have hgone : (fs.entries.filter fun x => !src.isPrefixOf x.1 && !p.isPrefixOf x.1).lookup
      (p ++ rest) = none :=
    lookup_filter_none (fun r => !src.isPrefixOf r && !p.isPrefixOf r)
      (by rw [List.isPrefixOf_iff_prefix.mpr (List.prefix_append p rest), Bool.not_true,
        Bool.and_false])
  unfold lookup moveTree
  rw [if_neg (List.append_ne_nil_of_left_ne_nil hp _),
    if_neg (List.append_ne_nil_of_left_ne_nil hsrc _), List.lookup_append, lookup_moved, hgone,
    Option.or_none]

/-- Nothing is left where the entry was. -/
theorem lookup_moveTree_left (hsrc : src ≠ []) (hq : src <+: q) (hp : ¬p <+: q) :
    (fs.moveTree src p).lookup q = none := by
  have hne : q ≠ [] := by
    rintro rfl
    exact hsrc (List.prefix_nil.mp hq)
  have hgone : (fs.entries.filter fun x => !src.isPrefixOf x.1 && !p.isPrefixOf x.1).lookup
      q = none :=
    lookup_filter_none (fun r => !src.isPrefixOf r && !p.isPrefixOf r)
      (by rw [List.isPrefixOf_iff_prefix.mpr hq, Bool.not_true, Bool.false_and])
  unfold lookup moveTree
  rw [if_neg hne, List.lookup_append, lookup_moved_none _ hp, hgone, Option.none_or]

theorem lookup_moveTree (hp : ¬p <+: q) (hq : ¬src <+: q) :
    (fs.moveTree src p).lookup q = fs.lookup q := by
  unfold lookup moveTree
  by_cases hroot : q = []
  · rw [if_pos hroot, if_pos hroot]
  · have hkeep : (!src.isPrefixOf q && !p.isPrefixOf q) = true := by
      rw [Bool.and_eq_true, Bool.not_eq_true', Bool.not_eq_true', ← Bool.not_eq_true,
        ← Bool.not_eq_true, List.isPrefixOf_iff_prefix, List.isPrefixOf_iff_prefix]
      exact ⟨hq, hp⟩
    rw [if_neg hroot, if_neg hroot, List.lookup_append, lookup_moved_none _ hp, Option.none_or]
    exact lookup_filter (fun r => !src.isPrefixOf r && !p.isPrefixOf r) hkeep

end Moving

end

end FileSystem

end FS
