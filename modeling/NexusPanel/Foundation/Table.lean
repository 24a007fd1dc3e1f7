import Mathlib.Data.List.Nodup

/-!
# Keyed tables

A table is a list of rows in which no two rows share a key; the second half of that is a
field of the structure, so a table with a duplicate key cannot be built. Rows are searched
by an arbitrary predicate, as a query is, and changed by the four statements a repository
issues: `insert`, `update … where`, `delete … where` and `save` (replace the row with the
same key, or append it).

Each statement has one membership lemma, and that lemma is all a client needs.
-/

/-- Rows of type `ρ` carry a key of type `κ`. -/
class Keyed (κ : outParam (Type u)) (ρ : Type v) where
  key : ρ → κ

/-- Rows without a repeated key. -/
structure Table {κ : Type u} (ρ : Type v) [Keyed κ ρ] where
  rows : List ρ
  nodup : (rows.map Keyed.key).Nodup

namespace Table

variable {κ : Type u} {ρ : Type v} [Keyed κ ρ]

instance : Membership ρ (Table ρ) := ⟨fun t r => r ∈ t.rows⟩

instance [DecidableEq ρ] (r : ρ) (t : Table ρ) : Decidable (r ∈ t) :=
  inferInstanceAs (Decidable (r ∈ t.rows))

instance (t : Table ρ) (P : ρ → Prop) [DecidablePred P] : Decidable (∃ r ∈ t, P r) :=
  inferInstanceAs (Decidable (∃ r ∈ t.rows, P r))

theorem mem_rows {t : Table ρ} {r : ρ} : r ∈ t.rows ↔ r ∈ t := Iff.rfl

/-- The table without rows. -/
def empty : Table ρ := ⟨[], List.nodup_nil⟩

/-- The table with one row. -/
def single (r : ρ) : Table ρ := ⟨[r], List.nodup_singleton _⟩

@[simp] theorem not_mem_empty (r : ρ) : r ∉ (empty : Table ρ) := List.not_mem_nil

/-- The key identifies the row. -/
theorem eq_of_key {t : Table ρ} {r s : ρ} (hr : r ∈ t) (hs : s ∈ t)
    (hk : Keyed.key r = Keyed.key s) : r = s :=
  List.inj_on_of_nodup_map t.nodup hr hs hk

/-! ## Queries -/

/-- The first row that satisfies the predicate. -/
def findOne (t : Table ρ) (p : ρ → Bool) : Option ρ := t.rows.find? p

/-- Every row that satisfies the predicate. -/
def find (t : Table ρ) (p : ρ → Bool) : List ρ := t.rows.filter p

theorem findOne_mem {t : Table ρ} {p : ρ → Bool} {r : ρ} (h : t.findOne p = some r) : r ∈ t :=
  List.mem_of_find?_eq_some h

theorem findOne_sat {t : Table ρ} {p : ρ → Bool} {r : ρ} (h : t.findOne p = some r) :
    p r = true :=
  List.find?_some h

theorem findOne_eq_none {t : Table ρ} {p : ρ → Bool} :
    t.findOne p = none ↔ ∀ r ∈ t, p r = false := by
  rw [findOne, List.find?_eq_none]
  simp only [Bool.not_eq_true, mem_rows]

theorem mem_find {t : Table ρ} {p : ρ → Bool} {r : ρ} :
    r ∈ t.find p ↔ r ∈ t ∧ p r = true := List.mem_filter

/-- A predicate that pins the key finds the row with that key. -/
theorem findOne_eq_some {t : Table ρ} {p : ρ → Bool} {r : ρ} (hr : r ∈ t) (hp : p r = true)
    (huniq : ∀ s ∈ t, p s = true → Keyed.key s = Keyed.key r) : t.findOne p = some r := by
  cases h : t.findOne p with
  | none => simp [findOne_eq_none.mp h r hr] at hp
  | some s =>
    have hs := findOne_mem h
    rw [eq_of_key hs hr (huniq s hs (findOne_sat h))]

/-- What is done with the row that a query by key finds is done with the key, if the row is
there. -/
theorem findOne_key [BEq κ] [LawfulBEq κ] {t : Table ρ} {k : κ} {P : κ → Prop} :
    (∃ r, t.findOne (fun r => Keyed.key r == k) = some r ∧ P (Keyed.key r)) ↔
      (∃ r ∈ t, Keyed.key r = k) ∧ P k := by
  constructor
  · rintro ⟨r, hr, hP⟩
    have hk : Keyed.key r = k := beq_iff_eq.mp (findOne_sat (p := fun r => Keyed.key r == k) hr)
    rw [hk] at hP
    exact ⟨⟨r, findOne_mem hr, hk⟩, hP⟩
  · rintro ⟨⟨r, hr, rfl⟩, hP⟩
    refine ⟨r, findOne_eq_some hr (beq_self_eq_true _) fun s _ hs => ?_, hP⟩
    exact beq_iff_eq.mp hs

/-- The rows that satisfy the predicate, as a table. -/
def restrict (t : Table ρ) (q : ρ → Bool) : Table ρ where
  rows := t.rows.filter q
  nodup := t.nodup.sublist (List.filter_sublist.map _)

theorem mem_restrict {t : Table ρ} {q : ρ → Bool} {r : ρ} :
    r ∈ t.restrict q ↔ r ∈ t ∧ q r = true := List.mem_filter

/-- A query that pins the key sees its row in a part of the table when the row is in that
part, and nothing otherwise. -/
theorem findOne_restrict {t : Table ρ} {p q : ρ → Bool}
    (hp : ∀ r s, p r = true → p s = true → Keyed.key r = Keyed.key s) :
    (t.restrict q).findOne p = (t.findOne p).filter q := by
  cases h : t.findOne p with
  | none =>
    refine findOne_eq_none.mpr fun r hr => ?_
    exact findOne_eq_none.mp h r (mem_restrict.mp hr).1
  | some r =>
    rw [Option.filter_some]
    split
    next hq =>
      refine findOne_eq_some (mem_restrict.mpr ⟨findOne_mem h, hq⟩) (findOne_sat h) ?_
      exact fun s _ hs => hp s r hs (findOne_sat h)
    next hq =>
      refine findOne_eq_none.mpr fun s hs => Bool.eq_false_iff.mpr fun hps => hq ?_
      obtain ⟨hs, hqs⟩ := mem_restrict.mp hs
      rwa [eq_of_key (findOne_mem h) hs (hp r s (findOne_sat h) hps)]

/-- The rows seen through a projection that keeps the key. -/
def map {ρ' : Type w} [Keyed κ ρ'] (t : Table ρ) (f : ρ → ρ')
    (hf : ∀ r, (Keyed.key (f r) : κ) = Keyed.key r) : Table ρ' where
  rows := t.rows.map f
  nodup := by
    have hkeys : (t.rows.map f).map Keyed.key = t.rows.map (Keyed.key : ρ → κ) := by
      rw [List.map_map]
      exact List.map_congr_left fun r _ => hf r
    rw [hkeys]
    exact t.nodup

theorem mem_map {ρ' : Type w} [Keyed κ ρ'] {t : Table ρ} {f : ρ → ρ'}
    {hf : ∀ r, (Keyed.key (f r) : κ) = Keyed.key r} {x : ρ'} :
    x ∈ t.map f hf ↔ ∃ r ∈ t, f r = x := List.mem_map

/-! ## Statements -/

/-- `UPDATE … SET f WHERE p`; the statement leaves the key alone. -/
def update (t : Table ρ) (p : ρ → Bool) (f : ρ → ρ)
    (hf : ∀ r, (Keyed.key (f r) : κ) = Keyed.key r := by intro _; rfl) : Table ρ where
  rows := t.rows.map fun r => if p r then f r else r
  nodup := by
    have hkeys : (t.rows.map fun r => if p r then f r else r).map Keyed.key
        = t.rows.map Keyed.key := by
      rw [List.map_map]
      refine List.map_congr_left fun r _ => ?_
      by_cases hp : p r
      · simp only [Function.comp_apply, hp, if_true, hf]
      · simp only [Function.comp_apply, hp, Bool.false_eq_true, if_false]
    rw [hkeys]
    exact t.nodup

/-- `DELETE … WHERE p`. -/
def delete (t : Table ρ) (p : ρ → Bool) : Table ρ where
  rows := t.rows.filter fun r => !p r
  nodup := t.nodup.sublist (List.filter_sublist.map _)

/-- `INSERT`: refused when the key is taken. -/
def insert [DecidableEq κ] (t : Table ρ) (r : ρ) : Option (Table ρ) :=
  if h : Keyed.key r ∈ t.rows.map Keyed.key then none
  else some ⟨r :: t.rows, List.nodup_cons.mpr ⟨h, t.nodup⟩⟩

/-- Replace the row with `r`'s key by `r`, or add `r` when there is none. -/
def save [DecidableEq κ] (t : Table ρ) (r : ρ) : Table ρ where
  rows := r :: t.rows.filter fun s => Keyed.key s ≠ Keyed.key r
  nodup := by
    refine List.nodup_cons.mpr ⟨?_, t.nodup.sublist (List.filter_sublist.map _)⟩
    simp only [List.mem_map, List.mem_filter, decide_eq_true_eq, not_exists, not_and]
    exact fun s hs heq => hs.2 heq

theorem mem_update {t : Table ρ} {p : ρ → Bool} {f : ρ → ρ} {x : ρ}
    (hf : ∀ r, (Keyed.key (f r) : κ) = Keyed.key r := by intro _; rfl) :
    x ∈ t.update p f hf ↔ ∃ r ∈ t, (if p r then f r else r) = x := List.mem_map

theorem mem_delete {t : Table ρ} {p : ρ → Bool} {x : ρ} :
    x ∈ t.delete p ↔ x ∈ t ∧ p x = false := by
  change x ∈ t.rows.filter _ ↔ _
  rw [List.mem_filter, Bool.not_eq_true', mem_rows]

section Decidable

variable [DecidableEq κ]

theorem insert_eq_some {t t' : Table ρ} {r : ρ} (h : t.insert r = some t') :
    (∀ s ∈ t, Keyed.key s ≠ Keyed.key r) ∧ ∀ x, x ∈ t' ↔ x = r ∨ x ∈ t := by
  unfold insert at h
  split at h
  next => cases h
  next hfresh =>
    cases h
    refine ⟨fun s hs heq => hfresh ?_, fun x => List.mem_cons⟩
    rw [← heq]
    exact List.mem_map_of_mem hs

/-- A row with a new key can be inserted. -/
theorem exists_insert {t : Table ρ} {r : ρ} (h : ∀ s ∈ t, Keyed.key s ≠ Keyed.key r) :
    ∃ t', t.insert r = some t' := by
  refine ⟨_, dif_neg fun hmem => ?_⟩
  obtain ⟨s, hs, hkey⟩ := List.mem_map.mp hmem
  exact h s hs hkey

theorem rows_insert {t t' : Table ρ} {r : ρ} (h : t.insert r = some t') :
    t'.rows = r :: t.rows := by
  unfold insert at h
  split at h
  next => cases h
  next =>
    cases h
    rfl

theorem mem_save {t : Table ρ} {r x : ρ} :
    x ∈ t.save r ↔ x = r ∨ x ∈ t ∧ Keyed.key x ≠ Keyed.key r := by
  change x ∈ r :: t.rows.filter _ ↔ _
  rw [List.mem_cons, List.mem_filter, decide_eq_true_eq, mem_rows]

/-- Saving a row is not seen under another key. -/
theorem findOne_save_of_ne [BEq κ] [LawfulBEq κ] {t : Table ρ} {r : ρ} {k : κ}
    (hk : Keyed.key r ≠ k) :
    (t.save r).findOne (fun s => Keyed.key s == k) = t.findOne fun s => Keyed.key s == k := by
  have hr : (Keyed.key r == k) = false := beq_eq_false_iff_ne.mpr hk
  simp only [findOne, save, List.find?_cons, hr]
  rw [List.find?_filter]
  congr 1
  funext s
  by_cases hs : Keyed.key s = k
  · simp [hs, Ne.symm hk]
  · simp [hs]

/-- Saving a row of the part saves it in the part. -/
theorem restrict_save {t : Table ρ} {q : ρ → Bool} {r : ρ} (hq : q r = true) :
    (t.save r).restrict q = (t.restrict q).save r := by
  simp only [restrict, save, List.filter_cons, hq, if_true, List.filter_filter, Bool.and_comm]

/-- Saving a row over one outside the part does not touch the part. -/
theorem restrict_save_of_not {t : Table ρ} {q : ρ → Bool} {r : ρ} (hq : q r = false)
    (hold : ∀ s ∈ t, Keyed.key s = Keyed.key r → q s = false) :
    (t.save r).restrict q = t.restrict q := by
  simp only [restrict, save, List.filter_cons, hq, Bool.false_eq_true, if_false,
    List.filter_filter, mk.injEq]
  refine List.filter_congr fun s hs => ?_
  by_cases hkey : Keyed.key s = Keyed.key r
  · rw [hold s hs hkey, Bool.false_and]
  · simp [hkey]

end Decidable

theorem restrict_delete {t : Table ρ} {p q : ρ → Bool} :
    (t.delete p).restrict q = (t.restrict q).delete p := by
  simp only [restrict, delete, List.filter_filter, Bool.and_comm]

/-- Deleting rows outside the part does not touch the part. -/
theorem restrict_delete_of_not {t : Table ρ} {p q : ρ → Bool}
    (hold : ∀ s ∈ t, p s = true → q s = false) : (t.delete p).restrict q = t.restrict q := by
  simp only [restrict, delete, List.filter_filter, mk.injEq]
  refine List.filter_congr fun s hs => ?_
  cases hp : p s with
  | false => rw [Bool.not_false, Bool.and_true]
  | true => rw [hold s hs hp, Bool.false_and]

end Table
