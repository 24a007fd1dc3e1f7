import Mathlib.Data.List.Basic

/-!
# Transition systems with partial steps

A system is a function `step : σ → ι → Option σ`: the label says which step is taken and
carries every choice the environment makes, and `none` means that the step is not enabled
in that state. Nothing here knows what the states or the labels are.

A run is a list of labels executed in order. Two kinds of statement are made about runs:

* an *invariant* holds in the state a run ends in, and therefore, a prefix of a run being a
  run, in every state it passes through;
* a *trace property* `Along step C` says that every step of the run meets `C` in the state
  the step is taken from.

The rules below connect the two: an invariant may be established under a condition on the
steps (`run_invariant`), and two trace properties that agree wherever an invariant holds
agree on whole runs (`along_iff`).
-/

namespace Transition

variable {σ ι : Type*} {step : σ → ι → Option σ} {C D : σ → ι → Prop} {I : σ → Prop}

/-- The state after a list of labels, or `none` when one of them is not enabled. -/
def run (step : σ → ι → Option σ) : σ → List ι → Option σ
  | s, [] => some s
  | s, l :: ls => (step s l).bind fun s' => run step s' ls

/-- Every step of the run meets `C` in the state it is taken from. -/
def Along (step : σ → ι → Option σ) (C : σ → ι → Prop) : σ → List ι → Prop
  | _, [] => True
  | s, l :: ls => C s l ∧ ∀ s' ∈ step s l, Along step C s' ls

/-- Every state the run passes through satisfies `P`, which is told how it got there. -/
def Always (step : σ → ι → Option σ) (P : List ι → σ → Prop) (s : σ) (ls : List ι) : Prop :=
  ∀ ks, ks <+: ls → ∀ s', run step s ks = some s' → P ks s'

instance Along.decidable [∀ s l, Decidable (C s l)] :
    ∀ s ls, Decidable (Along step C s ls)
  | _, [] => isTrue trivial
  | s, l :: ls =>
      have : ∀ s', Decidable (Along step C s' ls) := fun s' => Along.decidable s' ls
      inferInstanceAs (Decidable (C s l ∧ ∀ s' ∈ step s l, Along step C s' ls))

@[simp] theorem run_nil (s : σ) : run step s [] = some s := rfl

@[simp] theorem run_cons (s : σ) (l : ι) (ls : List ι) :
    run step s (l :: ls) = (step s l).bind fun s' => run step s' ls := rfl

/-- Inversion of a non-empty run at its first step. -/
theorem run_cons_eq_some {s s'' : σ} {l : ι} {ls : List ι} :
    run step s (l :: ls) = some s'' ↔ ∃ s', step s l = some s' ∧ run step s' ls = some s'' := by
  rw [run_cons, Option.bind_eq_some_iff]

theorem run_step {s s' s'' : σ} {l : ι} {ls : List ι} (h : step s l = some s')
    (hrest : run step s' ls = some s'') : run step s (l :: ls) = some s'' :=
  run_cons_eq_some.mpr ⟨s', h, hrest⟩

theorem run_append (s : σ) (ls ks : List ι) :
    run step s (ls ++ ks) = (run step s ls).bind fun s' => run step s' ks := by
  induction ls generalizing s with
  | nil => rfl
  | cons l ls ih =>
    rw [List.cons_append, run_cons, run_cons, Option.bind_assoc]
    cases step s l with
    | none => rfl
    | some s' => exact ih s'

@[simp] theorem along_nil (s : σ) : Along step C s [] := trivial

theorem along_step {s s' : σ} {l : ι} {ls : List ι} (h : step s l = some s') (hC : C s l)
    (hrest : Along step C s' ls) : Along step C s (l :: ls) := by
  refine ⟨hC, fun s'' hs'' => ?_⟩
  cases h.symm.trans hs''
  exact hrest

theorem along_append {s : σ} {ls ks : List ι} :
    Along step C s (ls ++ ks) ↔
      Along step C s ls ∧ ∀ s', run step s ls = some s' → Along step C s' ks := by
  induction ls generalizing s with
  | nil =>
    refine ⟨fun h => ⟨trivial, fun s' hrun => ?_⟩, fun h => h.2 s rfl⟩
    cases hrun
    exact h
  | cons l ls ih =>
    constructor
    · rintro ⟨hC, hrest⟩
      refine ⟨⟨hC, fun s' hs => (ih.mp (hrest s' hs)).1⟩, fun s'' hrun => ?_⟩
      obtain ⟨s', hs, hrun⟩ := run_cons_eq_some.mp hrun
      exact (ih.mp (hrest s' hs)).2 s'' hrun
    · rintro ⟨⟨hC, hrest⟩, htail⟩
      refine ⟨hC, fun s' hs => ih.mpr ⟨hrest s' hs, fun s'' hrun => ?_⟩⟩
      exact htail s'' (run_cons_eq_some.mpr ⟨s', hs, hrun⟩)

/-- What holds of every label holds along every run. -/
theorem along_of_forall {s : σ} {ls : List ι} (h : ∀ l ∈ ls, ∀ s, C s l) : Along step C s ls := by
  induction ls generalizing s with
  | nil => trivial
  | cons l ls ih =>
    exact ⟨h l List.mem_cons_self s, fun s' _ => ih fun k hk => h k (List.mem_cons_of_mem l hk)⟩

theorem along_and {s : σ} {ls : List ι} :
    Along step (fun s l => C s l ∧ D s l) s ls ↔ Along step C s ls ∧ Along step D s ls := by
  induction ls generalizing s with
  | nil => exact ⟨fun _ => ⟨trivial, trivial⟩, fun _ => trivial⟩
  | cons l ls ih =>
    constructor
    · rintro ⟨⟨hC, hD⟩, hrest⟩
      exact ⟨⟨hC, fun s' hs => (ih.mp (hrest s' hs)).1⟩, hD, fun s' hs => (ih.mp (hrest s' hs)).2⟩
    · rintro ⟨⟨hC, hCrest⟩, hD, hDrest⟩
      exact ⟨⟨hC, hD⟩, fun s' hs => ih.mpr ⟨hCrest s' hs, hDrest s' hs⟩⟩

/-- A trace property is about every step that some beginning of the run leads to. -/
theorem along_iff_forall {s : σ} {ls : List ι} :
    Along step C s ls ↔
      ∀ pre l post, ls = pre ++ l :: post → ∀ s', run step s pre = some s' → C s' l := by
  constructor
  · rintro h pre l post rfl s' hrun
    exact ((along_append.mp h).2 s' hrun).1
  · intro h
    induction ls generalizing s with
    | nil => trivial
    | cons l ls ih =>
      refine ⟨h [] l ls rfl s rfl, fun s₁ hs => ih fun pre k post heq s' hrun => ?_⟩
      exact h (l :: pre) k post (by rw [heq]; rfl) s' (run_cons_eq_some.mpr ⟨s₁, hs, hrun⟩)

/-- The invariant rule: what every step meeting `C` preserves holds after every run whose
steps all meet `C`. -/
theorem run_invariant (hstep : ∀ s l s', I s → C s l → step s l = some s' → I s')
    {ls : List ι} {s s' : σ} (hI : I s) (hC : Along step C s ls)
    (hrun : run step s ls = some s') : I s' := by
  induction ls generalizing s with
  | nil =>
    cases hrun
    exact hI
  | cons l ls ih =>
    obtain ⟨s₁, hs, hrest⟩ := run_cons_eq_some.mp hrun
    exact ih (hstep s l s₁ hI hC.1 hs) (hC.2 s₁ hs) hrest

/-- The invariant rule without a condition on the steps. -/
theorem run_preserves (hstep : ∀ s l s', I s → step s l = some s' → I s')
    {ls : List ι} {s s' : σ} (hI : I s) (hrun : run step s ls = some s') : I s' := by
  induction ls generalizing s with
  | nil =>
    cases hrun
    exact hI
  | cons l ls ih =>
    obtain ⟨s₁, hs, hrest⟩ := run_cons_eq_some.mp hrun
    exact ih (hstep s l s₁ hI hs) hrest

/-- A property of single steps that follows from `C` wherever the invariant holds is a
trace property of every run whose steps meet `C`. -/
theorem Along.weaken (hstep : ∀ s l s', I s → C s l → step s l = some s' → I s')
    (hCD : ∀ s l, I s → C s l → D s l) {ls : List ι} {s : σ} (hI : I s)
    (hC : Along step C s ls) : Along step D s ls := by
  induction ls generalizing s with
  | nil => trivial
  | cons l ls ih =>
    refine ⟨hCD s l hI hC.1, fun s' hs => ?_⟩
    exact ih (hstep s l s' hI hC.1 hs) (hC.2 s' hs)

/-- Two trace properties that agree wherever an invariant holds agree on whole runs. -/
theorem along_iff (hstep : ∀ s l s', I s → step s l = some s' → I s')
    (hCD : ∀ s l, I s → (C s l ↔ D s l)) {ls : List ι} {s : σ} (hI : I s) :
    Along step C s ls ↔ Along step D s ls := by
  constructor
  · exact Along.weaken (fun s l s' hI _ hs => hstep s l s' hI hs)
      (fun s l hI => (hCD s l hI).mp) hI
  · exact Along.weaken (fun s l s' hI _ hs => hstep s l s' hI hs)
      (fun s l hI => (hCD s l hI).mpr) hI

/-- A property holds in every state of a run exactly when every step of the run meets `C`, if
it follows from an invariant that `C` preserves and a step that keeps it meets `C`. The steps
may be restricted to those that meet an assumption `E`. -/
theorem property_iff_along_under {P : σ → Prop} {E : σ → ι → Prop} (hP : ∀ s, I s → P s)
    (hstep : ∀ s l s', I s → E s l → C s l → step s l = some s' → I s')
    (hneeded : ∀ s l s', I s → E s l → step s l = some s' → P s' → C s l)
    (hstuck : ∀ s l, step s l = none → C s l) {ls : List ι} {s : σ} (hI : I s)
    (hE : Along step E s ls) :
    (∀ ks, ks <+: ls → ∀ s', run step s ks = some s' → P s') ↔ Along step C s ls := by
  induction ls generalizing s with
  | nil =>
    refine ⟨fun _ => trivial, fun _ ks hks s' hrun => ?_⟩
    cases List.prefix_nil.mp hks
    cases hrun
    exact hP s hI
  | cons l ls ih =>
    obtain ⟨hEl, hErest⟩ := hE
    constructor
    · intro h
      have hC : C s l := by
        cases hs : step s l with
        | none => exact hstuck s l hs
        | some s' =>
          refine hneeded s l s' hI hEl hs (h [l] ⟨ls, rfl⟩ s' ?_)
          exact run_cons_eq_some.mpr ⟨s', hs, rfl⟩
      refine ⟨hC, fun s' hs => (ih (hstep s l s' hI hEl hC hs) (hErest s' hs)).mp ?_⟩
      intro ks hks s'' hrun
      obtain ⟨rest, rfl⟩ := hks
      exact h (l :: ks) ⟨rest, rfl⟩ s'' (run_cons_eq_some.mpr ⟨s', hs, hrun⟩)
    · rintro ⟨hC, hrest⟩ ks hks s'' hrun
      cases ks with
      | nil =>
        cases hrun
        exact hP s hI
      | cons k ks =>
        obtain ⟨rfl, htail⟩ := List.cons_prefix_cons.mp hks
        obtain ⟨s', hs, hrun⟩ := run_cons_eq_some.mp hrun
        exact (ih (hstep s k s' hI hEl hC hs) (hErest s' hs)).mpr (hrest s' hs) ks htail s'' hrun

theorem property_iff_along {P : σ → Prop} (hP : ∀ s, I s → P s)
    (hstep : ∀ s l s', I s → C s l → step s l = some s' → I s')
    (hneeded : ∀ s l s', I s → step s l = some s' → P s' → C s l)
    (hstuck : ∀ s l, step s l = none → C s l) {ls : List ι} {s : σ} (hI : I s) :
    (∀ ks, ks <+: ls → ∀ s', run step s ks = some s' → P s') ↔ Along step C s ls :=
  property_iff_along_under (E := fun _ _ => True) hP (fun s l s' hs _ => hstep s l s' hs)
    (fun s l s' hs _ => hneeded s l s' hs) hstuck hI (along_of_forall fun _ _ _ => trivial)

/-- An invariant that a step keeps exactly when it meets `C` holds in every state of a run
exactly when every step of the run meets `C`. -/
theorem always_iff_along (hstep : ∀ s l s', I s → step s l = some s' → (I s' ↔ C s l))
    (hstuck : ∀ s l, step s l = none → C s l) {ls : List ι} {s : σ} (hI : I s) :
    (∀ ks, ks <+: ls → ∀ s', run step s ks = some s' → I s') ↔ Along step C s ls :=
  property_iff_along (fun _ h => h) (fun s l s' hs hC hstep' => (hstep s l s' hs hstep').mpr hC)
    (fun s l s' hs hstep' => (hstep s l s' hs hstep').mp) hstuck hI

end Transition
