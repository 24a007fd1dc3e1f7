import NexusPanel.Foundation.Paging

/-!
# Pages of rows that come in

A reader asks for one page after the other while rows come in. A row that shares its key with no
other has a place, whatever order a query gives to the rest: as many rows are before it as have a
smaller key. Rows that come in can only move it back. So a reader who begins with the first page
does not overtake it, and meets it before the last page.
-/

namespace Paging

variable {α κ : Type} [LinearOrder κ] {key : α → κ} {rows : List α} {k : κ} {perPage : Nat}

/-- How many rows come before the key. -/
def place (key : α → κ) (rows : List α) (k : κ) : Nat := rows.countP fun r => decide (key r < k)

/-- One row has the key. -/
def Alone (key : α → κ) (rows : List α) (k : κ) : Prop :=
  (rows.countP fun r => decide (key r = k)) = 1

instance (key : α → κ) (rows : List α) (k : κ) : Decidable (Alone key rows k) :=
  inferInstanceAs (Decidable (_ = _))

theorem place_cons_le (r : α) : place key rows k ≤ place key (r :: rows) k :=
  List.Sublist.countP_le (List.sublist_cons_self r rows)

/-- A change that leaves the keys alone leaves the places alone. -/
theorem place_map {f : α → α} (hf : ∀ r ∈ rows, key (f r) = key r) :
    place key (rows.map f) k = place key rows k := by
  rw [place, List.countP_map]
  refine List.countP_congr fun r hr => ?_
  rw [Function.comp_apply, hf r hr]

theorem Alone.cons {r : α} (h : Alone key rows k) (hr : key r ≠ k) : Alone key (r :: rows) k := by
  rw [Alone, List.countP_cons_of_neg (by simpa using hr)]
  exact h

theorem Alone.map {f : α → α} (h : Alone key rows k) (hf : ∀ r ∈ rows, key (f r) = key r) :
    Alone key (rows.map f) k := by
  rw [Alone, List.countP_map, ← h]
  refine List.countP_congr fun r hr => ?_
  rw [Function.comp_apply, hf r hr]

theorem Alone.eq {r r' : α} (h : Alone key rows k) (hr : r ∈ rows) (hr' : r' ∈ rows)
    (hkey : key r = k) (hkey' : key r' = k) : r = r' := by
  rw [Alone, List.countP_eq_length_filter] at h
  obtain ⟨only, honly⟩ := List.length_eq_one_iff.mp h
  have hmem {a : α} (ha : a ∈ rows) (hk : key a = k) : a = only := by
    have : a ∈ rows.filter fun r => decide (key r = k) := by simp [ha, hk]
    rwa [honly, List.mem_singleton] at this
  rw [hmem hr hkey, hmem hr' hkey']

theorem countP_le_eq_add :
    (rows.countP fun r => decide (key r ≤ k)) =
      place key rows k + rows.countP fun r => decide (key r = k) := by
  induction rows with
  | nil => rfl
  | cons r rows ih =>
    rw [place] at ih ⊢
    simp only [List.countP_cons, ih]
    rcases lt_trichotomy (key r) k with hlt | heq | hgt
    · simp [hlt, hlt.le, hlt.ne]
      omega
    · simp [heq]
      omega
    · simp [hgt.not_ge, hgt.not_gt, hgt.ne']

/-- The row with the key stands at its place. -/
theorem Alone.getElem_place (h : Alone key rows k) (s : Sorting key) :
    ∃ hi : place key rows k < (s.order rows).length,
      key ((s.order rows).get ⟨place key rows k, hi⟩) = k := by
  have hupTo : place key rows k < (s.order rows).countP fun r => decide (key r ≤ k) := by
    rw [(s.perm rows).countP_eq, countP_le_eq_add, h]
    exact Nat.lt_succ_self _
  have hi : place key rows k < (s.order rows).length := hupTo.trans_le List.countP_le_length
  refine ⟨hi, ?_⟩
  have hle := (sat_getElem_iff (upTo_of_sorted (s.sorted rows) k) hi).mpr hupTo
  have hge := (sat_getElem_iff (below_of_sorted (s.sorted rows) k) hi).not.mpr (by
    rw [(s.perm rows).countP_eq]
    exact lt_irrefl _)
  simp only [decide_eq_true_eq, not_lt] at hle hge
  exact le_antisymm hle hge

/-- The page of its place shows it. -/
theorem Alone.mem_window (h : Alone key rows k) (s : Sorting key) (hpos : 0 < perPage) :
    ∃ r ∈ window (s.order rows) perPage (place key rows k / perPage + 1), key r = k := by
  obtain ⟨hi, hkey⟩ := h.getElem_place s
  refine ⟨_, Paging.mem_window ?_ ?_ (List.getElem?_eq_getElem hi), hkey⟩
  · exact Nat.div_mul_le_self _ _
  · exact Nat.lt_div_mul_add hpos

/-- There is a page behind every page before it. -/
theorem Alone.lt_length (h : Alone key rows k) {page : Nat}
    (hpage : page < place key rows k / perPage + 1) : page * perPage < rows.length := by
  have hplace : place key rows k < rows.length := by
    obtain ⟨hi, -⟩ := h.getElem_place (Sorting.stable key)
    rwa [((Sorting.stable key).perm rows).length_eq] at hi
  calc page * perPage
    _ ≤ place key rows k / perPage * perPage :=
      Nat.mul_le_mul_right _ (Nat.le_of_lt_succ hpage)
    _ ≤ place key rows k := Nat.div_mul_le_self _ _
    _ < rows.length := hplace

end Paging
