import Mathlib.Data.List.Sort

/-!
# Pages of a sorted query

A query sorts its rows by a key and gives out a window of them, so many rows a page. When rows
share a key the query may put them in any order, and in another order the next time.

The pages together are the rows, each of them once, exactly when no group of rows with one key
stands on both sides of a page boundary (`pages_perm_iff`). Where a boundary divides no group, the
rows before it are the same in every order (`take_perm`), so the pages can be counted off one
after the other; where it divides one, two orders that differ by a swap across the boundary show
one row twice.
-/

namespace Paging

variable {α κ : Type} [LinearOrder κ]

/-- What `ORDER BY key` makes of the rows, in one execution of a query. -/
structure Sorting (key : α → κ) where
  order : List α → List α
  perm : ∀ rows, (order rows).Perm rows
  sorted : ∀ rows, (order rows).Pairwise fun a b => key a ≤ key b

/-- Page `page` of the rows in that order, the first page being page 1. -/
def window (order : List α) (perPage page : Nat) : List α :=
  (order.drop ((page - 1) * perPage)).take perPage

/-- The pages up to the last one, each from a query of its own. -/
def pages (orders : Nat → List α) (perPage last : Nat) : List α :=
  (List.range' 1 last).flatMap fun page => window (orders page) perPage page

/-- Rows of key `k` stand on both sides of the boundary behind the first `b` rows. -/
def Divided (key : α → κ) (rows : List α) (b : Nat) (k : κ) : Prop :=
  (rows.countP fun r => decide (key r < k)) < b ∧ b < rows.countP fun r => decide (key r ≤ k)

instance (key : α → κ) (rows : List α) (b : Nat) (k : κ) : Decidable (Divided key rows b k) :=
  inferInstanceAs (Decidable (_ ∧ _))

/-! ## Properties of a beginning -/

section Beginning

variable {p : α → Bool} {l : List α}

/-- In a list in which a property holds of a beginning, the rows that have it are the first. -/
theorem take_countP (h : l.Pairwise fun a b => p b = true → p a = true) :
    l.take (l.countP p) = l.filter p := by
  induction l with
  | nil => rfl
  | cons a l ih =>
    obtain ⟨hhead, htail⟩ := List.pairwise_cons.mp h
    by_cases ha : p a = true
    · rw [List.countP_cons_of_pos ha, List.filter_cons_of_pos ha, List.take_succ_cons, ih htail]
    · have hnone : ∀ b ∈ l, ¬p b = true := fun b hb hpb => ha (hhead b hb hpb)
      rw [List.countP_cons_of_neg ha, List.filter_cons_of_neg ha, List.countP_eq_zero.mpr hnone,
        List.filter_eq_nil_iff.mpr hnone, List.take_zero]

/-- The row at a position has the property exactly when the position is in the beginning. -/
theorem sat_getElem_iff (h : l.Pairwise fun a b => p b = true → p a = true) {i : Nat}
    (hi : i < l.length) : p l[i] = true ↔ i < l.countP p := by
  induction l generalizing i with
  | nil => exact absurd hi (Nat.not_lt_zero i)
  | cons a l ih =>
    obtain ⟨hhead, htail⟩ := List.pairwise_cons.mp h
    by_cases ha : p a = true
    · rw [List.countP_cons_of_pos ha]
      cases i with
      | zero => simp [ha]
      | succ i =>
        rw [List.getElem_cons_succ, ih htail (Nat.lt_of_succ_lt_succ hi), Nat.succ_lt_succ_iff]
    · have hnone : ∀ b ∈ l, ¬p b = true := fun b hb hpb => ha (hhead b hb hpb)
      rw [List.countP_cons_of_neg ha, List.countP_eq_zero.mpr hnone]
      cases i with
      | zero => simp [ha]
      | succ i =>
        have := hnone _ (List.getElem_mem (Nat.lt_of_succ_lt_succ hi))
        simpa using this

end Beginning

/-! ## Orders of one list of rows -/

section Orders

variable {key : α → κ} {rows order order' : List α}

theorem below_of_sorted (h : order.Pairwise fun a b => key a ≤ key b) (k : κ) :
    order.Pairwise fun a b => decide (key b < k) = true → decide (key a < k) = true :=
  h.imp fun hle => by simpa using hle.trans_lt

theorem upTo_of_sorted (h : order.Pairwise fun a b => key a ≤ key b) (k : κ) :
    order.Pairwise fun a b => decide (key b ≤ k) = true → decide (key a ≤ k) = true :=
  h.imp fun hle => by simpa using hle.trans

/-- The rows before a boundary are the rows below a key, if there are as many of these. -/
theorem take_eq_filter (hperm : order.Perm rows) (h : order.Pairwise fun a b => key a ≤ key b)
    {b : Nat} {k : κ} (hb : (rows.countP fun r => decide (key r < k)) = b) :
    order.take b = order.filter fun r => decide (key r < k) := by
  rw [← take_countP (below_of_sorted h k), hperm.countP_eq, hb]

/-- Two orders have the same rows before a boundary that divides no group. -/
theorem take_perm (hperm : order.Perm rows) (hperm' : order'.Perm rows)
    (h : order.Pairwise fun a b => key a ≤ key b) (h' : order'.Pairwise fun a b => key a ≤ key b)
    {b : Nat} (hb : ∀ k, ¬Divided key rows b k) : (order.take b).Perm (order'.take b) := by
  by_cases hlength : b < order.length
  · -- the key right behind the boundary
    have hle : b < rows.countP fun r => decide (key r ≤ key order[b]) := by
      rw [← hperm.countP_eq]
      exact (sat_getElem_iff (upTo_of_sorted h _) hlength).mp (by simp)
    have hge : ¬b < rows.countP fun r => decide (key r < key order[b]) := by
      rw [← hperm.countP_eq]
      exact fun hlt => by simpa using (sat_getElem_iff (below_of_sorted h _) hlength).mpr hlt
    have heq : (rows.countP fun r => decide (key r < key order[b])) = b := by
      by_contra hne
      exact hb _ ⟨by omega, hle⟩
    rw [take_eq_filter hperm h heq, take_eq_filter hperm' h' heq]
    exact (hperm.trans hperm'.symm).filter _
  · have hlength' : order'.length ≤ b := by
      rw [hperm'.length_eq, ← hperm.length_eq]
      exact not_lt.mp hlength
    rw [List.take_of_length_le (not_lt.mp hlength), List.take_of_length_le hlength']
    exact hperm.trans hperm'.symm

end Orders

/-! ## The pages together -/

section Pages

variable {key : α → κ} {rows : List α} {perPage : Nat}

/-- A page shows the rows of its positions. -/
theorem mem_window {order : List α} {page i : Nat} {x : α} (hstart : page * perPage ≤ i)
    (hend : i < page * perPage + perPage) (hx : order[i]? = some x) :
    x ∈ window order perPage (page + 1) := by
  rw [window, Nat.add_sub_cancel, List.mem_iff_getElem?]
  refine ⟨i - page * perPage, ?_⟩
  have hi : i - page * perPage < perPage := by omega
  rw [List.getElem?_take, if_pos hi, List.getElem?_drop, Nat.add_sub_cancel' hstart, hx]

theorem pages_succ (orders : Nat → List α) (last : Nat) :
    pages orders perPage (last + 1) =
      pages orders perPage last ++ window (orders (last + 1)) perPage (last + 1) := by
  rw [pages, List.range'_1_concat, List.flatMap_append, List.flatMap_singleton, Nat.add_comm 1 last]
  rfl

/-- The pages up to one are the rows up to its end, as far as no boundary divides a group. -/
theorem pages_perm_take (sortings : Nat → Sorting key)
    (h : ∀ page k, ¬Divided key rows (page * perPage) k) (s : Sorting key) (last : Nat) :
    (pages (fun page => (sortings page).order rows) perPage last).Perm
      ((s.order rows).take (last * perPage)) := by
  induction last with
  | zero => simp [pages]
  | succ last ih =>
    have heq (page : Nat) : ((s.order rows).take (page * perPage)).Perm
        (((sortings (last + 1)).order rows).take (page * perPage)) :=
      take_perm (s.perm rows) ((sortings _).perm rows) (s.sorted rows) ((sortings _).sorted rows)
        (h page)
    have htake := List.take_add (l := (sortings (last + 1)).order rows) (i := last * perPage)
      (j := perPage)
    rw [pages_succ]
    refine ((ih.trans (heq last)).append_right _).trans (List.Perm.trans ?_ (heq (last + 1)).symm)
    rw [Nat.succ_mul, htake, window, Nat.add_sub_cancel]

end Pages

/-! ## Two orders that differ across a boundary -/

section Swap

variable {key : α → κ} {rows : List α}

/-- The order of insertion among rows of one key. -/
def Sorting.stable (key : α → κ) : Sorting key where
  order := List.insertionSort fun a b => key a ≤ key b
  perm := List.perm_insertionSort _
  sorted := by
    have : Std.Total fun a b => key a ≤ key b := ⟨fun a b => le_total _ _⟩
    have : IsTrans α fun a b => key a ≤ key b := ⟨fun a b c => le_trans⟩
    exact List.pairwise_insertionSort _

/-- A sorting that puts certain rows in a certain order. -/
def Sorting.choosing [DecidableEq α] {order : List α} (hperm : order.Perm rows)
    (hsorted : order.Pairwise fun a b => key a ≤ key b) : Sorting key where
  order rs := if rs = rows then order else (Sorting.stable key).order rs
  perm rs := by
    split
    next h => exact h ▸ hperm
    next => exact (Sorting.stable key).perm rs
  sorted rs := by
    split
    next => exact hsorted
    next => exact (Sorting.stable key).sorted rs

theorem Sorting.choosing_order [DecidableEq α] {order : List α} (hperm : order.Perm rows)
    (hsorted : order.Pairwise fun a b => key a ≤ key b) :
    (Sorting.choosing hperm hsorted).order rows = order := if_pos rfl

/-- The rows on the two sides of a boundary that divides their group. -/
theorem exists_across {order : List α} (hperm : order.Perm rows)
    (h : order.Pairwise fun a b => key a ≤ key b) {b : Nat} {k : κ} (hb : Divided key rows b k) :
    ∃ front x y back, order = front ++ x :: y :: back ∧ front.length + 1 = b ∧
      key x = k ∧ key y = k := by
  obtain ⟨hbelow, hupTo⟩ := hb
  rw [← hperm.countP_eq] at hbelow hupTo
  have hlength : b < order.length := hupTo.trans_le List.countP_le_length
  have hkey (i : Nat) (hi : i < order.length)
      (hge : (order.countP fun r => decide (key r < k)) ≤ i)
      (hlt : i < order.countP fun r => decide (key r ≤ k)) : key order[i] = k := by
    have hle := (sat_getElem_iff (upTo_of_sorted h k) hi).mpr hlt
    have hnot := (sat_getElem_iff (below_of_sorted h k) hi).not.mpr (not_lt.mpr hge)
    simp only [decide_eq_true_eq, not_lt] at hle hnot
    exact le_antisymm hle hnot
  obtain ⟨c, rfl⟩ := Nat.exists_eq_succ_of_ne_zero (Nat.ne_zero_of_lt hbelow)
  have hc : c < order.length := Nat.lt_of_succ_lt hlength
  refine ⟨order.take c, order[c], order[c + 1], order.drop (c + 2), ?_, ?_, ?_, ?_⟩
  · rw [← List.drop_eq_getElem_cons, ← List.drop_eq_getElem_cons, List.take_append_drop]
  · rw [List.length_take_of_le hc.le]
  · exact hkey c hc (Nat.le_of_lt_succ hbelow) (Nat.lt_of_succ_lt hupTo)
  · exact hkey (c + 1) hlength hbelow.le hupTo

theorem perm_swap {front back : List α} {x y : α} :
    (front ++ y :: x :: back).Perm (front ++ x :: y :: back) :=
  (List.Perm.swap x y back).append_left front

theorem sorted_swap {front back : List α} {x y : α} (hkey : key x = key y)
    (h : (front ++ x :: y :: back).Pairwise fun a b => key a ≤ key b) :
    (front ++ y :: x :: back).Pairwise fun a b => key a ≤ key b := by
  simp only [List.pairwise_append, List.pairwise_cons, List.mem_cons, forall_eq_or_imp] at h ⊢
  obtain ⟨hfront, ⟨⟨-, hx⟩, hy, hback⟩, hacross⟩ := h
  refine ⟨hfront, ⟨⟨hkey.ge, hy⟩, hx, hback⟩, fun a ha => ?_⟩
  exact ⟨(hacross a ha).2.1, (hacross a ha).1, (hacross a ha).2.2⟩

/-- Pages that share a row show it twice. -/
theorem not_nodup_pages {orders : Nat → List α} {perPage last page : Nat} {x : α}
    (hpage : 1 ≤ page) (hlast : page < last) (hx : x ∈ window (orders page) perPage page)
    (hx' : x ∈ window (orders (page + 1)) perPage (page + 1)) :
    ¬(pages orders perPage last).Nodup := by
  intro h
  obtain ⟨-, hdisjoint⟩ := List.nodup_flatMap.mp h
  have hpages := List.pairwise_iff_getElem.mp hdisjoint (page - 1) page
    (by rw [List.length_range']; omega) (by rw [List.length_range']; omega) (by omega)
  have hfirst : 1 + (page - 1) = page := by omega
  rw [List.getElem_range', List.getElem_range', Nat.one_mul, Nat.one_mul, hfirst,
    Nat.add_comm 1 page] at hpages
  exact hpages hx hx'

end Swap

/-- The pages are the rows, each once, in whatever orders the queries put them, exactly when no
page boundary divides a group of rows with one key. -/
theorem pages_perm_iff [DecidableEq α] {key : α → κ} {rows : List α} {perPage last : Nat}
    (hrows : rows.Nodup) (hlast : ∀ page, page < last ↔ page * perPage < rows.length) :
    (∀ sortings : Nat → Sorting key,
      (pages (fun page => (sortings page).order rows) perPage last).Perm rows) ↔
    ∀ page k, ¬Divided key rows (page * perPage) k := by
  constructor
  · intro h page k hdivided
    let s := Sorting.stable key
    obtain ⟨front, x, y, back, horder, hlength, hx, hy⟩ :=
      exists_across (s.perm rows) (s.sorted rows) hdivided
    have hperm : (front ++ y :: x :: back).Perm rows := perm_swap.trans (horder ▸ s.perm rows)
    have hsorted := sorted_swap (hx.trans hy.symm) (horder ▸ s.sorted rows)
    -- from the next page on the two rows have changed places
    have hnodup := (h fun q => if q ≤ page then s else Sorting.choosing hperm hsorted).nodup_iff.mpr
      hrows
    obtain ⟨q, rfl⟩ : ∃ q, page = q + 1 := Nat.exists_eq_succ_of_ne_zero fun hzero => by
      rw [hzero, Nat.zero_mul] at hlength
      exact Nat.succ_ne_zero _ hlength
    have hlast' : q + 1 < last := (hlast _).mpr (hdivided.2.trans_le List.countP_le_length)
    have hindex : q * perPage + perPage = front.length + 1 := by rw [hlength, Nat.succ_mul]
    have hpos : 0 < perPage := Nat.pos_of_ne_zero fun hzero => by simp [hzero] at hindex
    have hbefore : x ∈ window (front ++ x :: y :: back) perPage (q + 1) :=
      mem_window (i := front.length) (by omega) (by omega) (by simp)
    have hbehind : x ∈ window (front ++ y :: x :: back) perPage (q + 1 + 1) :=
      mem_window (i := front.length + 1) hlength.ge (by omega) (by simp)
    refine not_nodup_pages (Nat.succ_pos q) hlast' ?_ ?_ hnodup (x := x)
    · rw [if_pos le_rfl, horder]
      exact hbefore
    · rw [if_neg (Nat.not_succ_le_self _), Sorting.choosing_order]
      exact hbehind
  · intro h sortings
    have hend : ((sortings 0).order rows).length ≤ last * perPage := by
      rw [((sortings 0).perm rows).length_eq]
      exact not_lt.mp fun hlt => lt_irrefl last ((hlast last).mpr hlt)
    have htake := pages_perm_take sortings h (sortings 0) last
    rw [List.take_of_length_le hend] at htake
    exact htake.trans ((sortings 0).perm rows)

end Paging
