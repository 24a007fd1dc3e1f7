import Mathlib.Data.List.Basic
import Mathlib.Data.List.Find
import Mathlib.Data.List.Infix
import Mathlib.Logic.Function.Basic

/-!
# Substitution in texts

A template is a text with holes, and each hole is written as a mark. Simultaneous substitution
fills all holes at once. A program that has only a text replaces the marks one after the other,
everywhere in the text it has come to; so it may take for a mark what a value has brought in.

The two agree as long as each mark is found as often as it has holes (`replaceAll_fill`), whatever
has been put in for the others (`foldl_replaceAll`). Marks that do not overlap are read back from
the text (`fill_parse`, `count_parse`).
-/

namespace Substitution

variable {α κ : Type}

/-! ## Texts with holes of one kind -/

/-- No end of `w` is a beginning of it, apart from `w` itself. -/
def Unbordered (w : List α) : Prop := ∀ x y, w = x ++ y → x ≠ [] → y ≠ [] → ¬y <+: w

/-- The holes filled with `v`. -/
def plug (v : List α) (c : List (Option α)) : List α := c.flatMap fun o => o.elim v ([·])

section Plug

variable {w v : List α} {c : List (Option α)}

@[simp] theorem plug_nil : plug v [] = [] := rfl

@[simp] theorem plug_none : plug v (none :: c) = v ++ plug v c := rfl

@[simp] theorem plug_some {a : α} : plug v (some a :: c) = a :: plug v c := rfl

@[simp] theorem plug_letters (x : List α) : plug v (x.map some ++ c) = x ++ plug v c := by
  induction x with
  | nil => rfl
  | cons a x ih => rw [List.map_cons, List.cons_append, plug_some, ih, List.cons_append]

/-- A match that begins before a hole does not reach into it. -/
theorem letters_of_prefix (hw : Unbordered w) {x y : List α} (hsplit : w = x ++ y) (hx : x ≠ [])
    (h : y <+: plug w c) : ∃ c', c = y.map some ++ c' := by
  induction c generalizing x y with
  | nil =>
    obtain rfl := List.prefix_nil.mp h
    exact ⟨[], rfl⟩
  | cons o c ih =>
    cases y with
    | nil => exact ⟨o :: c, rfl⟩
    | cons a y =>
      cases o with
      | some b =>
        obtain ⟨rfl, htail⟩ := List.cons_prefix_cons.mp h
        have hsplit' : w = (x ++ [a]) ++ y := by rw [hsplit, List.append_assoc]; rfl
        obtain ⟨c', rfl⟩ := ih hsplit' (by simp) htail
        exact ⟨c', rfl⟩
      | none =>
        -- an end of `w` would begin the hole
        have hw' : a :: y <+: w := by
          refine List.prefix_of_prefix_length_le h (List.prefix_append w _) ?_
          rw [hsplit, List.length_append]
          omega
        exact absurd hw' (hw x (a :: y) hsplit hx (List.cons_ne_nil _ _))

/-- What comes next in a text with holes that are filled with `w`: the end, a hole, a match that
is no hole, or a letter at which no match begins. -/
theorem plug_cases (hw : Unbordered w) (hne : w ≠ []) (c : List (Option α)) :
    c = [] ∨ (∃ c', c = none :: c') ∨ (∃ c', c = w.map some ++ c') ∨
      ∃ a c', c = some a :: c' ∧ ¬w <+: a :: plug w c' := by
  cases c with
  | nil => exact .inl rfl
  | cons o c =>
    cases o with
    | none => exact .inr (.inl ⟨c, rfl⟩)
    | some a =>
      by_cases hmatch : w <+: a :: plug w c
      · obtain ⟨b, w', rfl⟩ := List.exists_cons_of_ne_nil hne
        obtain ⟨rfl, htail⟩ := List.cons_prefix_cons.mp hmatch
        obtain ⟨c', rfl⟩ := letters_of_prefix hw (x := [b]) rfl (List.cons_ne_nil _ _) htail
        exact .inr (.inr (.inl ⟨c', rfl⟩))
      · exact .inr (.inr (.inr ⟨a, c, rfl, hmatch⟩))

/-- The induction that goes over such a text as a search for `w` does. -/
theorem plug_induction (hw : Unbordered w) (hne : w ≠ []) {P : List (Option α) → Prop}
    (nil : P []) (hole : ∀ c, P c → P (none :: c)) (found : ∀ c, P c → P (w.map some ++ c))
    (letter : ∀ a c, ¬w <+: a :: plug w c → P c → P (some a :: c)) (c : List (Option α)) :
    P c := by
  induction hn : c.length using Nat.strong_induction_on generalizing c with
  | _ n ih =>
    obtain rfl | ⟨c, rfl⟩ | ⟨c, rfl⟩ | ⟨a, c, rfl, hmatch⟩ := plug_cases hw hne c
    · exact nil
    · exact hole c (ih c.length (by simp [← hn]) c rfl)
    · have hlength : 0 < w.length := List.length_pos_of_ne_nil hne
      exact found c (ih c.length (by simp [← hn, hlength]) c rfl)
    · exact letter a c hmatch (ih c.length (by simp [← hn]) c rfl)

@[simp] theorem count_letters [DecidableEq α] (x : List α) :
    (x.map some ++ c).count none = c.count none := by
  have hnone : none ∉ x.map some := by simp
  rw [List.count_append, List.count_eq_zero.mpr hnone, Nat.zero_add]

end Plug

/-! ## Replacing every match -/

section Replace

variable [DecidableEq α]

/-- Every match of `w` replaced by `v`, from left to right. `skip` letters of the last match are
still to be passed. -/
def replaceAll (w v : List α) : Nat → List α → List α
  | _, [] => []
  | skip + 1, _ :: rest => replaceAll w v skip rest
  | 0, c :: rest =>
    if w <+: c :: rest then v ++ replaceAll w v (w.length - 1) rest
    else c :: replaceAll w v 0 rest

/-- How many matches are replaced. -/
def occurrences (w : List α) : Nat → List α → Nat
  | _, [] => 0
  | skip + 1, _ :: rest => occurrences w skip rest
  | 0, c :: rest =>
    if w <+: c :: rest then occurrences w (w.length - 1) rest + 1 else occurrences w 0 rest

variable {w v rest : List α}

theorem replaceAll_skip (x : List α) :
    replaceAll w v x.length (x ++ rest) = replaceAll w v 0 rest := by
  induction x with
  | nil => rfl
  | cons c x ih => exact ih

theorem occurrences_skip (x : List α) :
    occurrences w x.length (x ++ rest) = occurrences w 0 rest := by
  induction x with
  | nil => rfl
  | cons c x ih => exact ih

theorem replaceAll_match (hw : w ≠ []) :
    replaceAll w v 0 (w ++ rest) = v ++ replaceAll w v 0 rest := by
  obtain ⟨c, w', rfl⟩ := List.exists_cons_of_ne_nil hw
  have hprefix : c :: w' <+: c :: (w' ++ rest) := List.prefix_append (c :: w') rest
  rw [List.cons_append, replaceAll, if_pos hprefix]
  congr 1
  exact replaceAll_skip w'

theorem occurrences_match (hw : w ≠ []) :
    occurrences w 0 (w ++ rest) = occurrences w 0 rest + 1 := by
  obtain ⟨c, w', rfl⟩ := List.exists_cons_of_ne_nil hw
  have hprefix : c :: w' <+: c :: (w' ++ rest) := List.prefix_append (c :: w') rest
  rw [List.cons_append, occurrences, if_pos hprefix]
  congr 1
  exact occurrences_skip w'

theorem replaceAll_letter {a : α} (h : ¬w <+: a :: rest) :
    replaceAll w v 0 (a :: rest) = a :: replaceAll w v 0 rest := by rw [replaceAll, if_neg h]

theorem occurrences_letter {a : α} (h : ¬w <+: a :: rest) :
    occurrences w 0 (a :: rest) = occurrences w 0 rest := by rw [occurrences, if_neg h]

/-- Putting in what is there changes nothing. -/
theorem replaceAll_self (hw : w ≠ []) (text : List α) : replaceAll w w 0 text = text := by
  induction hn : text.length using Nat.strong_induction_on generalizing text with
  | _ n ih =>
    cases text with
    | nil => rfl
    | cons c text =>
      by_cases hmatch : w <+: c :: text
      · obtain ⟨rest, hrest⟩ := hmatch
        have hlength : 0 < w.length := List.length_pos_of_ne_nil hw
        have hshorter : rest.length < n := by
          rw [← hn, ← hrest, List.length_append]
          omega
        rw [← hrest, replaceAll_match hw, ih rest.length hshorter rest rfl]
      · have hshorter : text.length < n := hn ▸ Nat.lt_succ_self _
        rw [replaceAll_letter hmatch, ih text.length hshorter text rfl]

/-- Where nothing is found, nothing is replaced. -/
theorem replaceAll_of_absent {text : List α} (h : occurrences w 0 text = 0) :
    replaceAll w v 0 text = text := by
  induction text with
  | nil => rfl
  | cons c text ih =>
    have hmatch : ¬w <+: c :: text := by
      intro hmatch
      rw [occurrences, if_pos hmatch] at h
      exact Nat.succ_ne_zero _ h
    rw [occurrences_letter hmatch] at h
    rw [replaceAll_letter hmatch, ih h]

/-- Every hole is found. -/
theorem count_le_occurrences (hw : Unbordered w) (hne : w ≠ []) (c : List (Option α)) :
    c.count none ≤ occurrences w 0 (plug w c) := by
  induction c using plug_induction hw hne with
  | nil => exact Nat.le_refl 0
  | hole c ih =>
    rw [plug_none, occurrences_match hne, List.count_cons_self]
    exact Nat.succ_le_succ ih
  | found c ih =>
    rw [plug_letters, occurrences_match hne, count_letters]
    exact Nat.le_succ_of_le ih
  | letter a c hmatch ih =>
    rw [plug_some, occurrences_letter hmatch, List.count_cons_of_ne (by simp)]
    exact ih

/-- When nothing but the holes is found, replacing what is found fills the holes. -/
theorem replaceAll_plug (hw : Unbordered w) (hne : w ≠ []) {c : List (Option α)}
    (h : occurrences w 0 (plug w c) = c.count none) : replaceAll w v 0 (plug w c) = plug v c := by
  induction c using plug_induction hw hne with
  | nil => rfl
  | hole c ih =>
    rw [plug_none, occurrences_match hne, List.count_cons_self] at h
    rw [plug_none, replaceAll_match hne, ih (Nat.succ.inj h), plug_none]
  | found c ih =>
    -- a match that is no hole would be one too many
    rw [plug_letters, occurrences_match hne, count_letters] at h
    have hle := count_le_occurrences hw hne c
    omega
  | letter a c hmatch ih =>
    rw [plug_some, occurrences_letter hmatch, List.count_cons_of_ne (by simp)] at h
    rw [plug_some, replaceAll_letter hmatch, ih h, plug_some]

end Replace

/-! ## Templates -/

section Template

/-- The holes of a template filled. -/
def fill (σ : κ → List α) (t : List (α ⊕ κ)) : List α := t.flatMap (Sum.elim ([·]) σ)

/-- The kinds of its holes, from left to right. -/
def holes (t : List (α ⊕ κ)) : List κ := t.filterMap Sum.getRight?

theorem fill_congr {σ τ : κ → List α} {t : List (α ⊕ κ)} (h : ∀ k ∈ holes t, σ k = τ k) :
    fill σ t = fill τ t := by
  refine List.flatMap_congr fun x hx => ?_
  cases x with
  | inl a => rfl
  | inr k => exact h k (List.mem_filterMap.mpr ⟨.inr k, hx, rfl⟩)

variable [DecidableEq κ]

/-- A template in which only the holes of one kind are left. -/
def leaving (k : κ) (σ : κ → List α) (t : List (α ⊕ κ)) : List (Option α) :=
  t.flatMap (Sum.elim (fun a => [some a]) fun l => if l = k then [none] else (σ l).map some)

variable {σ : κ → List α} {k : κ} {v : List α}

theorem leaving_cons (x : α ⊕ κ) (t : List (α ⊕ κ)) : leaving k σ (x :: t) =
    Sum.elim (fun a => [some a]) (fun l => if l = k then [none] else (σ l).map some) x ++
      leaving k σ t := rfl

theorem plug_leaving (t : List (α ⊕ κ)) :
    plug v (leaving k σ t) = fill (Function.update σ k v) t := by
  induction t with
  | nil => rfl
  | cons x t ih =>
    rw [leaving_cons, fill, List.flatMap_cons, ← fill, ← ih]
    cases x with
    | inl a => rfl
    | inr l =>
      simp only [Sum.elim_inr]
      split
      next h => rw [h, Function.update_self]; rfl
      next h => rw [plug_letters, Function.update_of_ne h]

theorem count_leaving [DecidableEq α] (t : List (α ⊕ κ)) :
    (leaving k σ t).count none = (holes t).count k := by
  induction t with
  | nil => rfl
  | cons x t ih =>
    cases x with
    | inl a => exact (List.count_cons_of_ne (Option.some_ne_none a)).trans ih
    | inr l =>
      have hholes : holes (.inr l :: t) = l :: holes t := rfl
      rw [leaving_cons, Sum.elim_inr, hholes]
      by_cases h : l = k
      · rw [if_pos h, h, List.count_cons_self, ← ih]
        exact List.count_cons_self
      · rw [if_neg h, count_letters, List.count_cons_of_ne h, ih]

/-- When a mark is found as often as it has holes, replacing it fills them. -/
theorem replaceAll_fill [DecidableEq α] (hw : Unbordered (σ k)) (hne : σ k ≠ [])
    {t : List (α ⊕ κ)} (h : occurrences (σ k) 0 (fill σ t) = (holes t).count k) :
    replaceAll (σ k) v 0 (fill σ t) = fill (Function.update σ k v) t := by
  have htext : fill σ t = plug (σ k) (leaving k σ t) := by
    rw [plug_leaving, Function.update_eq_self]
  have hcount := @count_leaving α κ _ σ k _ t
  rw [htext, ← hcount] at h
  rw [htext, replaceAll_plug hw hne h, plug_leaving]

/-- What fills the holes after some values have been put in for their marks. -/
def partly (mark value : κ → List α) (done : List κ) (k : κ) : List α :=
  if k ∈ done then value k else mark k

theorem partly_concat (mark value : κ → List α) (done : List κ) (k : κ) :
    partly mark value (done ++ [k]) = Function.update (partly mark value done) k (value k) := by
  funext l
  by_cases h : l = k
  · rw [h, Function.update_self, partly, if_pos (by simp)]
  · rw [Function.update_of_ne h]
    simp [partly, h]

/-- One replacement after the other fills all holes, when each mark is found as often as it has
holes at its turn, or is its own value. -/
theorem foldl_replaceAll [DecidableEq α] {mark value : κ → List α} {keys : List κ}
    {replace : List α → κ → List α} (hmark : ∀ k ∈ keys, Unbordered (mark k) ∧ mark k ≠ [])
    (hnodup : keys.Nodup) {t : List (α ⊕ κ)}
    (hfound : ∀ done k rest, keys = done ++ k :: rest →
      occurrences (mark k) 0 (fill (partly mark value done) t) = (holes t).count k ∨
        value k = mark k)
    (hreplace : ∀ done k rest, keys = done ++ k :: rest →
      replace (fill (partly mark value done) t) k =
        replaceAll (mark k) (value k) 0 (fill (partly mark value done) t))
    {done rest : List κ} (hkeys : keys = done ++ rest) :
    rest.foldl replace (fill (partly mark value done) t) = fill (partly mark value keys) t := by
  induction rest generalizing done with
  | nil =>
    rw [hkeys, List.append_nil]
    rfl
  | cons k rest ih =>
    have hk : k ∉ done := by
      intro hmem
      rw [hkeys] at hnodup
      exact (List.nodup_append.mp hnodup).2.2 k hmem k List.mem_cons_self rfl
    have hpartly : partly mark value done k = mark k := if_neg hk
    have hstep : replaceAll (mark k) (value k) 0 (fill (partly mark value done) t) =
        fill (partly mark value (done ++ [k])) t := by
      obtain ⟨hunbordered, hne⟩ := hmark k (by rw [hkeys]; simp)
      rw [partly_concat]
      rcases hfound done k rest hkeys with hcount | hself
      · rw [← hpartly] at hunbordered hne hcount
        have hfill := replaceAll_fill hunbordered hne hcount (v := value k)
        rwa [hpartly] at hfill
      · rw [hself, replaceAll_self hne, ← hpartly, Function.update_eq_self]
    rw [List.foldl_cons, hreplace done k rest hkeys, hstep]
    rw [List.append_cons] at hkeys
    exact ih hkeys

end Template

/-! ## Reading a template -/

/-- No mark begins inside a mark, and none begins with another one. -/
structure Separated (mark : κ → List α) (keys : List κ) : Prop where
  nonempty : ∀ k ∈ keys, mark k ≠ []
  apart : ∀ k ∈ keys, ∀ l ∈ keys, ∀ x y, mark l = x ++ y → x ≠ [] → y ≠ [] →
    ¬mark k <+: y ∧ ¬y <+: mark k
  distinct : ∀ k ∈ keys, ∀ l ∈ keys, mark k <+: mark l → k = l

theorem Separated.unbordered {mark : κ → List α} {keys : List κ} (h : Separated mark keys) {k : κ}
    (hk : k ∈ keys) : Unbordered (mark k) :=
  fun x y hsplit hx hy => (h.apart k hk k hk x y hsplit hx hy).2

section Parse

variable [DecidableEq α] (mark : κ → List α) (keys : List κ)

/-- The marks in a text, from left to right, as holes; `skip` letters of the last mark are still
to be passed. -/
def parse : Nat → List α → List (α ⊕ κ)
  | _, [] => []
  | skip + 1, _ :: rest => parse skip rest
  | 0, c :: rest =>
    match keys.find? fun k => decide (mark k <+: c :: rest) with
    | some k => .inr k :: parse ((mark k).length - 1) rest
    | none => .inl c :: parse 0 rest

/-- All marks in a text replaced at once. -/
def substitute (value : κ → List α) (text : List α) : List α := fill value (parse mark keys 0 text)

variable {mark keys}

theorem parse_skip (x rest : List α) :
    parse mark keys x.length (x ++ rest) = parse mark keys 0 rest := by
  induction x with
  | nil => rfl
  | cons c x ih => exact ih

/-- What comes next: the end, a mark, or a letter at which no mark begins. -/
theorem parse_cases (hne : ∀ k ∈ keys, mark k ≠ []) (text : List α) :
    text = [] ∨
      (∃ k ∈ keys, ∃ rest, text = mark k ++ rest ∧
        parse mark keys 0 text = .inr k :: parse mark keys 0 rest) ∨
      ∃ a rest, text = a :: rest ∧ (∀ k ∈ keys, ¬mark k <+: a :: rest) ∧
        parse mark keys 0 text = .inl a :: parse mark keys 0 rest := by
  cases text with
  | nil => exact .inl rfl
  | cons c rest =>
    cases hfind : keys.find? fun k => decide (mark k <+: c :: rest) with
    | none =>
      refine .inr (.inr ⟨c, rest, rfl, fun k hk hprefix => ?_, by rw [parse, hfind]⟩)
      have := List.find?_eq_none.mp hfind k hk
      exact this (decide_eq_true hprefix)
    | some k =>
      have hk := List.mem_of_find?_eq_some hfind
      have hprefix : mark k <+: c :: rest := by simpa using List.find?_some hfind
      obtain ⟨after, hafter⟩ := hprefix
      refine .inr (.inl ⟨k, hk, after, hafter.symm, ?_⟩)
      rw [parse, hfind]
      show Sum.inr k :: parse mark keys ((mark k).length - 1) rest = _
      obtain ⟨a, w, hw⟩ := List.exists_cons_of_ne_nil (hne k hk)
      rw [hw] at hafter ⊢
      obtain ⟨rfl, rfl⟩ := List.cons.inj hafter
      congr 1
      exact parse_skip w after

/-- The induction that goes over a text as reading it does. -/
theorem parse_induction (hne : ∀ k ∈ keys, mark k ≠ []) {P : List α → Prop} (nil : P [])
    (hole : ∀ k ∈ keys, ∀ rest, parse mark keys 0 (mark k ++ rest) =
      .inr k :: parse mark keys 0 rest → P rest → P (mark k ++ rest))
    (letter : ∀ a rest, (∀ k ∈ keys, ¬mark k <+: a :: rest) → parse mark keys 0 (a :: rest) =
      .inl a :: parse mark keys 0 rest → P rest → P (a :: rest)) (text : List α) : P text := by
  induction hn : text.length using Nat.strong_induction_on generalizing text with
  | _ n ih =>
    obtain rfl | ⟨k, hk, rest, rfl, hparse⟩ | ⟨a, rest, rfl, hnone, hparse⟩ :=
      parse_cases hne text
    · exact nil
    · have hlength : 0 < (mark k).length := List.length_pos_of_ne_nil (hne k hk)
      exact hole k hk rest hparse (ih rest.length (by simp [← hn, hlength]) rest rfl)
    · exact letter a rest hnone hparse (ih rest.length (by simp [← hn]) rest rfl)

/-- The holes filled with their marks are the text. -/
theorem fill_parse (hne : ∀ k ∈ keys, mark k ≠ []) (text : List α) :
    fill mark (parse mark keys 0 text) = text := by
  induction text using parse_induction hne with
  | nil => rfl
  | hole k hk rest hparse ih =>
    rw [hparse, fill, List.flatMap_cons, ← fill, ih]
    rfl
  | letter a rest hnone hparse ih =>
    rw [hparse, fill, List.flatMap_cons, ← fill, ih]
    rfl

theorem mem_of_mem_holes (hne : ∀ k ∈ keys, mark k ≠ []) {text : List α} {k : κ}
    (h : k ∈ holes (parse mark keys 0 text)) : k ∈ keys := by
  induction text using parse_induction hne with
  | nil => cases h
  | hole l hl rest hparse ih =>
    rw [hparse] at h
    rcases List.mem_cons.mp h with rfl | h
    · exact hl
    · exact ih h
  | letter a rest hnone hparse ih =>
    rw [hparse] at h
    exact ih h

/-- Nothing is found on the way over the mark of another. -/
theorem occurrences_over (hsep : Separated mark keys) {k l : κ} (hk : k ∈ keys) (hl : l ∈ keys)
    (hne : l ≠ k) {x y : List α} (hsplit : mark l = x ++ y) (rest : List α) :
    occurrences (mark k) 0 (y ++ rest) = occurrences (mark k) 0 rest := by
  induction y generalizing x with
  | nil => rfl
  | cons a y ih =>
    have hsplit' : mark l = (x ++ [a]) ++ y := by rw [hsplit, List.append_assoc]; rfl
    rw [List.cons_append, occurrences_letter ?_, ih hsplit']
    intro hmatch
    have heither : mark k <+: a :: y ∨ a :: y <+: mark k :=
      List.prefix_or_prefix_of_prefix hmatch (List.prefix_append (a :: y) rest)
    cases x with
    | nil =>
      rw [List.nil_append] at hsplit
      rw [← hsplit] at heither
      rcases heither with h | h
      · exact hne (hsep.distinct k hk l hl h).symm
      · exact hne (hsep.distinct l hl k hk h)
    | cons b x =>
      obtain ⟨hbegins, hends⟩ :=
        hsep.apart k hk l hl (b :: x) (a :: y) hsplit (List.cons_ne_nil _ _) (List.cons_ne_nil _ _)
      exact heither.elim hbegins hends

/-- A mark is found in the text as often as it is read there. -/
theorem count_parse [DecidableEq κ] (hsep : Separated mark keys) {k : κ} (hk : k ∈ keys)
    (text : List α) :
    (holes (parse mark keys 0 text)).count k = occurrences (mark k) 0 text := by
  induction text using parse_induction hsep.nonempty with
  | nil => rfl
  | hole l hl rest hparse ih =>
    have hholes : holes (.inr l :: parse mark keys 0 rest) = l :: holes (parse mark keys 0 rest) :=
      rfl
    rw [hparse, hholes]
    by_cases h : l = k
    · rw [h, List.count_cons_self, ih, occurrences_match (hsep.nonempty k hk)]
    · rw [List.count_cons_of_ne h, ih]
      exact (occurrences_over hsep hk hl h (List.nil_append _).symm rest).symm
  | letter a rest hnone hparse ih =>
    rw [hparse, occurrences_letter (hnone k hk), ← ih]
    rfl

omit [DecidableEq α] in
theorem prefix_of_not_mem {w x y : List α} {c : α} (hc : c ∉ w) (h : w <+: x ++ c :: y) :
    w <+: x := by
  have hletter : x ++ [c] <+: x ++ c :: y := ⟨y, by simp⟩
  rcases List.prefix_or_prefix_of_prefix h hletter with hw | hw
  · rcases List.prefix_concat_iff.mp hw with rfl | hw
    · simp at hc
    · exact hw
  · exact absurd (hw.subset (by simp)) hc

/-- A letter that is in no mark is read as it is, and parts the text. -/
theorem parse_append_cons (hne : ∀ k ∈ keys, mark k ≠ []) {c : α} (hc : ∀ k ∈ keys, c ∉ mark k)
    (y : List α) {skip : Nat} {x : List α} (hskip : skip ≤ x.length) :
    parse mark keys skip (x ++ c :: y) =
      parse mark keys skip x ++ .inl c :: parse mark keys 0 y := by
  induction x generalizing skip with
  | nil =>
    obtain rfl := Nat.le_zero.mp hskip
    have hnone : (keys.find? fun k => decide (mark k <+: c :: y)) = none := by
      refine List.find?_eq_none.mpr fun k hk => ?_
      rw [decide_eq_true_eq]
      intro hprefix
      obtain ⟨a, w, hw⟩ := List.exists_cons_of_ne_nil (hne k hk)
      rw [hw] at hprefix
      exact hc k hk (hw ▸ (List.cons_prefix_cons.mp hprefix).1 ▸ List.mem_cons_self)
    have hread : parse mark keys 0 (c :: y) = .inl c :: parse mark keys 0 y := by
      rw [parse, hnone]
    exact hread
  | cons a x ih =>
    cases skip with
    | succ skip => exact ih (Nat.le_of_succ_le_succ hskip)
    | zero =>
      have hfind : (keys.find? fun k => decide (mark k <+: a :: (x ++ c :: y))) =
          keys.find? fun k => decide (mark k <+: a :: x) := by
        refine List.find?_congr fun k hk => ?_
        rw [decide_eq_decide]
        exact ⟨fun h => prefix_of_not_mem (x := a :: x) (hc k hk) h,
          fun h => h.trans (List.prefix_append (a :: x) (c :: y))⟩
      rw [List.cons_append, parse, parse, hfind]
      cases hfound : keys.find? fun k => decide (mark k <+: a :: x) with
      | none => exact congrArg _ (ih (Nat.zero_le _))
      | some k =>
        have hprefix : mark k <+: a :: x := by simpa using List.find?_some hfound
        have hlength := hprefix.length_le
        rw [List.length_cons] at hlength
        exact congrArg _ (ih (by omega))

theorem substitute_append_cons (hne : ∀ k ∈ keys, mark k ≠ []) {c : α}
    (hc : ∀ k ∈ keys, c ∉ mark k) (value : κ → List α) (x y : List α) :
    substitute mark keys value (x ++ c :: y) =
      substitute mark keys value x ++ c :: substitute mark keys value y := by
  rw [substitute, parse_append_cons hne hc y (Nat.zero_le _), fill, List.flatMap_append,
    List.flatMap_cons]
  rfl

/-- Only the values of marks that are found matter. -/
theorem substitute_congr [DecidableEq κ] (hsep : Separated mark keys) {value value' : κ → List α}
    {text : List α}
    (h : ∀ k ∈ keys, occurrences (mark k) 0 text ≠ 0 → value k = value' k) :
    substitute mark keys value text = substitute mark keys value' text := by
  refine fill_congr fun k hk => ?_
  have hkeys := mem_of_mem_holes hsep.nonempty hk
  refine h k hkeys ?_
  rw [← count_parse hsep hkeys]
  exact (List.count_pos_iff.mpr hk).ne'

/-- Replacing the marks one after the other is substituting all at once, when each is found at its
turn as often as in the template, or is its own value. -/
theorem foldl_eq_substitute [DecidableEq κ] (hsep : Separated mark keys) {value : κ → List α}
    {replace : List α → κ → List α} {text : List α} {order : List κ} (hnodup : order.Nodup)
    (horder : order ⊆ keys) (hall : keys ⊆ order)
    (hfound : ∀ done k rest, order = done ++ k :: rest →
      occurrences (mark k) 0 (substitute mark keys (partly mark value done) text) =
        occurrences (mark k) 0 text ∨ value k = mark k)
    (hreplace : ∀ done k rest, order = done ++ k :: rest →
      replace (substitute mark keys (partly mark value done) text) k =
        replaceAll (mark k) (value k) 0 (substitute mark keys (partly mark value done) text)) :
    order.foldl replace text = substitute mark keys value text := by
  have hmark : ∀ k ∈ order, Unbordered (mark k) ∧ mark k ≠ [] :=
    fun k hk => ⟨hsep.unbordered (horder hk), hsep.nonempty k (horder hk)⟩
  have hnone : partly mark value [] = mark := by
    funext k
    exact if_neg List.not_mem_nil
  have hall' : fill (partly mark value order) (parse mark keys 0 text) =
      substitute mark keys value text :=
    fill_congr fun k hk => if_pos (hall (mem_of_mem_holes hsep.nonempty hk))
  have hcount : ∀ done k rest, order = done ++ k :: rest →
      occurrences (mark k) 0 (fill (partly mark value done) (parse mark keys 0 text)) =
        (holes (parse mark keys 0 text)).count k ∨ value k = mark k := by
    intro done k rest hsplit
    rw [count_parse hsep (horder (by rw [hsplit]; simp))]
    exact hfound done k rest hsplit
  have hrun := foldl_replaceAll hmark hnodup hcount hreplace (List.nil_append order).symm
  rwa [hnone, fill_parse hsep.nonempty, hall'] at hrun

end Parse

end Substitution
