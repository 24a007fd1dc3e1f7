import Mathlib.Algebra.Ring.Nat
import NexusPanel.Foundation.Pool

/-!
# Counting along a run

What a run has put out, in order, and a rule to bound how much of it is of a certain kind. A step
may put out no more than comes in with its label and what the state it is taken from still has in
store; what is left in store counts as well. So nothing is put out twice for what came in once. In
a pool, what is in store may be a sum over the tasks.
-/

namespace Transition

variable {σ ι ω : Type} {step : σ → ι → Option σ} {out : σ → ι → List ω}

/-- Everything a run puts out. -/
def collect (step : σ → ι → Option σ) (out : σ → ι → List ω) : σ → List ι → List ω
  | _, [] => []
  | s, l :: ls => out s l ++ (step s l).elim [] fun s' => collect step out s' ls

theorem collect_cons {s s' : σ} {l : ι} {ls : List ι} (h : step s l = some s') :
    collect step out s (l :: ls) = out s l ++ collect step out s' ls := by
  rw [collect, h, Option.elim_some]

/-- What holds of everything a step puts out holds of everything a run does. -/
theorem forall_mem_collect {C : σ → ι → Prop} {P : ω → Prop}
    (hstep : ∀ s l, C s l → ∀ o ∈ out s l, P o) {ls : List ι} {s s' : σ}
    (hC : Along step C s ls) (hrun : run step s ls = some s') :
    ∀ o ∈ collect step out s ls, P o := by
  induction ls generalizing s with
  | nil => exact fun _ ho => nomatch ho
  | cons l ls ih =>
    obtain ⟨s₁, hs, hrest⟩ := run_cons_eq_some.mp hrun
    intro o ho
    rw [collect_cons hs] at ho
    rcases List.mem_append.mp ho with ho | ho
    · exact hstep s l hC.1 o ho
    · exact ih (hC.2 s₁ hs) hrest o ho

/-- The rule: `w` is what is left in store, `p` the labels with which `n` comes in, and `q` what
is counted of the output. -/
theorem countP_collect_le {C : σ → ι → Prop} {w : σ → Nat} {n : Nat} {p : ι → Bool} {q : ω → Bool}
    (hstep : ∀ s l s', C s l → step s l = some s' →
      (out s l).countP q + w s' ≤ w s + if p l then n else 0)
    {ls : List ι} {s s' : σ} (hC : Along step C s ls) (hrun : run step s ls = some s') :
    (collect step out s ls).countP q + w s' ≤ w s + n * ls.countP p := by
  induction ls generalizing s with
  | nil =>
    cases hrun
    simp [collect]
  | cons l ls ih =>
    obtain ⟨s₁, hs, hrest⟩ := run_cons_eq_some.mp hrun
    have hfirst := hstep s l s₁ hC.1 hs
    have hlater := ih (hC.2 s₁ hs) hrest
    rw [collect_cons hs, List.countP_append, List.countP_cons, Nat.mul_add]
    split at hfirst
    next h =>
      rw [if_pos h]
      omega
    next h =>
      rw [if_neg h]
      omega

/-- What goes up by one with the labels of a kind, and only with these, counts them. -/
theorem run_countP {w : σ → Nat} {p : ι → Bool}
    (hstep : ∀ s l s', step s l = some s' → w s' = w s + if p l then 1 else 0)
    {ls : List ι} {s s' : σ} (hrun : run step s ls = some s') : w s' = w s + ls.countP p := by
  induction ls generalizing s with
  | nil =>
    cases hrun
    rfl
  | cons l ls ih =>
    obtain ⟨s₁, hs, hrest⟩ := run_cons_eq_some.mp hrun
    rw [ih hrest, hstep s l s₁ hs, List.countP_cons]
    omega

/-- A member of a list, and the rest. -/
theorem countP_erase_add {α : Type} [DecidableEq α] {q : α → Bool} {a : α} {as : List α}
    (h : a ∈ as) : (as.erase a).countP q + (if q a then 1 else 0) = as.countP q := by
  rw [(List.perm_cons_erase h).countP_eq q, List.countP_cons]

/-! ## Sums over the tasks of a pool -/

namespace Pool

variable {σ τ ρ ω ε : Type} {sys : Tasks σ τ ρ ω ε} {p p' : Pool σ τ} {f : τ → Nat}

/-- What the tasks come to together. -/
def total (f : τ → Nat) (p : Pool σ τ) : Nat := (p.tasks.map f).sum

theorem total_start {task : τ} (h : sys.step p (.start task) = some p') :
    p'.total f = p.total f + f task := by
  obtain ⟨-, rfl⟩ := Tasks.step_start h
  rw [total, List.map_cons, List.sum_cons, Nat.add_comm]
  rfl

/-- A turn changes a sum by the task that took it and the one it goes on with. -/
theorem total_turn {task : τ} {i : Nat} {reply : ρ} (htask : p.tasks[i]? = some task)
    (h : sys.step p (.turn i reply) = some p') :
    p'.total f + f task =
      p.total f + ((sys.turn p.store reply task).next.toList.map f).sum := by
  obtain ⟨task', htask', rfl⟩ := Tasks.step_turn h
  cases htask.symm.trans htask'
  obtain ⟨hi, rfl⟩ := List.getElem?_eq_some_iff.mp htask
  have hperm := ((List.getElem_cons_eraseIdx_perm hi).map f).sum_nat
  rw [List.map_cons, List.sum_cons] at hperm
  simp only [total, List.map_append, List.sum_append]
  omega

end Pool

end Transition
