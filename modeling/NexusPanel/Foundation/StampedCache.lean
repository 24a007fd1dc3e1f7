import Mathlib.Logic.Function.Basic

/-!
# Caches with a freshness test

Something is made from a record and kept under the key of the record, together with a stamp of
the record it was made from. The next time the key is used, the stamp of the record as it is
then decides whether what was kept is used again. Records with the same stamp need not be made
into the same thing, and then the cache gives out something old.

How the cache is used does not depend on what it holds, so its contents are determined by the
record each key was last used with, as long as nothing old is given out (`fetchAll_iff`).
-/

namespace StampedCache

variable {K R S V : Type} [DecidableEq K] [DecidableEq S] (stamp : R → S) (make : R → V)

/-- What is kept under each key. -/
abbrev Cache (K S V : Type) := K → Option (S × V)

/-- Use a key with a record. -/
def fetch (cache : Cache K S V) (k : K) (r : R) : V × Cache K S V :=
  match cache k with
  | some (s, v) =>
    if s = stamp r then (v, cache)
    else (make r, Function.update cache k (some (stamp r, make r)))
  | none => (make r, Function.update cache k (some (stamp r, make r)))

/-- One use after the other: what each gets. -/
def fetchAll (cache : Cache K S V) : List (K × R) → List V
  | [] => []
  | (k, r) :: uses =>
    (fetch stamp make cache k r).1 :: fetchAll (fetch stamp make cache k r).2 uses

/-- Whenever a key is used again with the stamp of the last use, the same thing would be made.
The first argument is the record each key was last used with. -/
def Steady (last : K → Option R) : List (K × R) → Prop
  | [] => True
  | (k, r) :: uses =>
    (∀ r' ∈ last k, stamp r' = stamp r → make r' = make r) ∧
      Steady (Function.update last k (some r)) uses

/-- The contents of a cache that has given out nothing old. -/
def ofLast (last : K → Option R) : Cache K S V := fun k => (last k).map fun r => (stamp r, make r)

variable {stamp make}

omit [DecidableEq S] in
theorem ofLast_update (last : K → Option R) (k : K) (r : R) :
    ofLast stamp make (Function.update last k (some r)) =
      Function.update (ofLast stamp make last) k (some (stamp r, make r)) := by
  funext k'
  by_cases hk : k' = k
  · rw [hk, ofLast, Function.update_self, Function.update_self, Option.map_some]
  · rw [ofLast, Function.update_of_ne hk, Function.update_of_ne hk, ofLast]

/-- A key that is used for the first time, or with a new stamp, gets what is made for it. -/
theorem fetch_ofLast_of_ne {last : K → Option R} {k : K} {r : R}
    (h : ∀ r' ∈ last k, stamp r' ≠ stamp r) : fetch stamp make (ofLast stamp make last) k r =
      (make r, ofLast stamp make (Function.update last k (some r))) := by
  rw [fetch, ofLast_update]
  cases hlast : last k with
  | none =>
    have hnone : ofLast stamp make last k = none := by rw [ofLast, hlast, Option.map_none]
    simp only [hnone]
  | some r' =>
    have hkept : ofLast stamp make last k = some (stamp r', make r') := by
      rw [ofLast, hlast, Option.map_some]
    simp only [hkept, if_neg (h r' hlast)]

/-- A key that is used with the stamp of its last use gets what was made then. -/
theorem fetch_ofLast_of_eq {last : K → Option R} {k : K} {r r' : R} (hlast : last k = some r')
    (h : stamp r' = stamp r) : fetch stamp make (ofLast stamp make last) k r =
      (make r', ofLast stamp make last) := by
  have hkept : ofLast stamp make last k = some (stamp r', make r') := by
    rw [ofLast, hlast, Option.map_some]
  simp only [fetch, hkept, if_pos h]

/-- Every use gets what would be made for it now, if and only if the uses are steady. -/
theorem fetchAll_iff (uses : List (K × R)) (last : K → Option R) :
    fetchAll stamp make (ofLast stamp make last) uses = uses.map (fun use => make use.2) ↔
      Steady stamp make last uses := by
  induction uses generalizing last with
  | nil => exact iff_of_true rfl trivial
  | cons use uses ih =>
    obtain ⟨k, r⟩ := use
    rw [fetchAll, List.map_cons, List.cons.injEq, Steady]
    by_cases hstamp : ∃ r' ∈ last k, stamp r' = stamp r
    · obtain ⟨r', hlast, hsame⟩ := hstamp
      rw [fetch_ofLast_of_eq hlast hsame]
      have hhead : (∀ r'' ∈ last k, stamp r'' = stamp r → make r'' = make r) ↔ make r' = make r := by
        constructor
        · exact fun h => h r' hlast hsame
        · intro h r'' hr'' _
          rw [Option.mem_def.mp hlast] at hr''
          cases hr''
          exact h
      rw [hhead]
      refine and_congr_right fun hmake => ?_
      -- What is kept is what would be made from the record of this use.
      have hkept : ofLast stamp make last = ofLast stamp make (Function.update last k (some r)) := by
        rw [ofLast_update, ← hsame, ← hmake]
        have hself : ofLast stamp make last k = some (stamp r', make r') := by
          rw [ofLast, hlast, Option.map_some]
        rw [← hself, Function.update_eq_self]
      rw [hkept]
      exact ih _
    · have hne : ∀ r' ∈ last k, stamp r' ≠ stamp r := fun r' hr' h => hstamp ⟨r', hr', h⟩
      rw [fetch_ofLast_of_ne hne, and_iff_right rfl,
        and_iff_right fun r' hr' h => absurd h (hne r' hr')]
      exact ih _

omit [DecidableEq S] in
/-- What is made matters only as far as it tells records with the same stamp apart. -/
theorem steady_congr {W : Type} {make' : R → W}
    (h : ∀ r r', stamp r' = stamp r → (make r' = make r ↔ make' r' = make' r))
    (uses : List (K × R)) (last : K → Option R) :
    Steady stamp make last uses ↔ Steady stamp make' last uses := by
  induction uses generalizing last with
  | nil => exact Iff.rfl
  | cons use uses ih =>
    obtain ⟨k, r⟩ := use
    rw [Steady, Steady, ih]
    refine and_congr_left fun _ => ?_
    exact ⟨fun hr r' hr' hs => (h r r' hs).mp (hr r' hr' hs),
      fun hr r' hr' hs => (h r r' hs).mpr (hr r' hr' hs)⟩

/-- A cache that starts empty. -/
theorem fetchAll_empty_iff (uses : List (K × R)) :
    fetchAll stamp make (fun _ => none) uses = uses.map (fun use => make use.2) ↔
      Steady stamp make (fun _ => none) uses := fetchAll_iff uses fun _ => none

end StampedCache
