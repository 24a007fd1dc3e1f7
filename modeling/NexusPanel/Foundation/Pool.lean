import Mathlib.Data.List.Perm.Basic
import NexusPanel.Foundation.Transition

/-!
# Tasks over a shared store

Several tasks work on one store. A task takes a *turn* whenever the environment lets it: a
turn is atomic, changes the store, sends something, and leaves the task where it goes on or
done with. Between two turns of a task any other task may have taken any number of turns, and
the store may have been changed from outside. What the stores, the tasks, the replies and the
outputs are is left open.

An assertion about a pool has two parts, one about the store and one about each task in its
place, and the rules are those of rely and guarantee: a turn establishes what the task will
need next, and must leave standing what the others need.
-/

namespace Transition

/-- One turn: the store after it, what it sends, and where the task goes on. -/
structure Turn (σ ω τ : Type) where
  store : σ
  output : ω
  next : Option τ

/-- The same turn of a task that is one kind of a larger type. -/
def Turn.map {σ ω τ τ' : Type} (f : τ → τ') (u : Turn σ ω τ) : Turn σ ω τ' :=
  ⟨u.store, u.output, u.next.map f⟩

structure Pool (σ τ : Type) where
  store : σ
  tasks : List τ

/-- What may happen next: a task arrives, the task at a position takes a turn with a reply, or
the outside changes the store. -/
inductive PoolLabel (τ ρ ε : Type)
  | start (task : τ)
  | turn (i : Nat) (reply : ρ)
  | outside (event : ε)

/-- A kind of tasks: what their turns do, which of them a request may start with, and what may
happen to the store from outside. -/
structure Tasks (σ τ ρ ω ε : Type) where
  turn : σ → ρ → τ → Turn σ ω τ
  starts : τ → Bool
  outside : σ → ε → Option σ

/-- What a task sends, turn by turn, when these are the stores and the replies it finds: whatever
happens between its turns, there are such. -/
def Tasks.sends {σ τ ρ ω ε : Type} (sys : Tasks σ τ ρ ω ε) : List (σ × ρ) → τ → List ω
  | [], _ => []
  | (store, reply) :: found, task =>
    (sys.turn store reply task).output :: (sys.turn store reply task).next.elim [] (sys.sends found)

section Rules

variable {σ τ ρ ω ε : Type} {sys : Tasks σ τ ρ ω ε} {p p' : Pool σ τ} {i : Nat} {reply : ρ}

/-- The turn the label stands for, when it stands for one. -/
def Tasks.turnOf (sys : Tasks σ τ ρ ω ε) (p : Pool σ τ) : PoolLabel τ ρ ε → Option (Turn σ ω τ)
  | .turn i reply => p.tasks[i]?.map (sys.turn p.store reply)
  | _ => none

def Tasks.step (sys : Tasks σ τ ρ ω ε) (p : Pool σ τ) : PoolLabel τ ρ ε → Option (Pool σ τ)
  | .start task => if sys.starts task then some ⟨p.store, task :: p.tasks⟩ else none
  | .turn i reply =>
    (sys.turnOf p (.turn i reply)).map fun u => ⟨u.store, u.next.toList ++ p.tasks.eraseIdx i⟩
  | .outside event => (sys.outside p.store event).map fun store => { p with store }

theorem Tasks.step_start {task : τ} (h : sys.step p (.start task) = some p') :
    sys.starts task = true ∧ p' = ⟨p.store, task :: p.tasks⟩ := by
  simp only [step] at h
  split at h
  next hstarts =>
    cases h
    exact ⟨hstarts, rfl⟩
  next => cases h

theorem Tasks.step_turn (h : sys.step p (.turn i reply) = some p') :
    ∃ task, p.tasks[i]? = some task ∧
      p' = ⟨(sys.turn p.store reply task).store,
        (sys.turn p.store reply task).next.toList ++ p.tasks.eraseIdx i⟩ := by
  obtain ⟨u, hu, rfl⟩ := Option.map_eq_some_iff.mp h
  obtain ⟨task, htask, rfl⟩ := Option.map_eq_some_iff.mp hu
  exact ⟨task, htask, rfl⟩

theorem Tasks.step_outside {event : ε} (h : sys.step p (.outside event) = some p') :
    ∃ store, sys.outside p.store event = some store ∧ p' = ⟨store, p.tasks⟩ := by
  obtain ⟨store, hstore, rfl⟩ := Option.map_eq_some_iff.mp h
  exact ⟨store, hstore, rfl⟩

/-- How many tasks satisfy the test. -/
def Pool.count (q : τ → Bool) (p : Pool σ τ) : Nat := p.tasks.countP q

/-- A task that starts is one more, if it counts. -/
theorem Pool.count_start {task : τ} {q : τ → Bool} (h : sys.step p (.start task) = some p') :
    p'.count q = p.count q + if q task then 1 else 0 := by
  obtain ⟨-, rfl⟩ := Tasks.step_start h
  exact List.countP_cons

/-- A turn changes a count by the task that took it and the one it goes on with. -/
theorem Pool.count_turn {task : τ} {q : τ → Bool} (htask : p.tasks[i]? = some task)
    (h : sys.step p (.turn i reply) = some p') :
    p'.count q + (if q task then 1 else 0) =
      p.count q + (sys.turn p.store reply task).next.toList.countP q := by
  obtain ⟨task', htask', rfl⟩ := Tasks.step_turn h
  cases htask.symm.trans htask'
  obtain ⟨hi, rfl⟩ := List.getElem?_eq_some_iff.mp htask
  have hperm := (List.getElem_cons_eraseIdx_perm hi).countP_eq q
  rw [List.countP_cons] at hperm
  simp only [count, List.countP_append]
  omega

theorem Pool.count_outside {event : ε} {q : τ → Bool} (h : sys.step p (.outside event) = some p') :
    p'.count q = p.count q := by
  obtain ⟨store, -, rfl⟩ := Tasks.step_outside h
  rfl

/-- `I` of the store, and `T` of every task. -/
structure Pool.Holds (I : σ → Prop) (T : σ → τ → Prop) (p : Pool σ τ) : Prop where
  store : I p.store
  tasks : ∀ t ∈ p.tasks, T p.store t

variable {I : σ → Prop} {T : σ → τ → Prop}

theorem Pool.Holds.start (hp : p.Holds I T) {task : τ} (hnew : T p.store task)
    (h : sys.step p (.start task) = some p') : p'.Holds I T := by
  obtain ⟨-, rfl⟩ := Tasks.step_start h
  refine ⟨hp.store, fun t ht => ?_⟩
  rcases List.mem_cons.mp ht with rfl | ht
  · exact hnew
  · exact hp.tasks t ht

/-- A turn: the store keeps `I`, the task gets what it needs to go on, and every other task
keeps what it has. -/
theorem Pool.Holds.turn (hp : p.Holds I T)
    (hstore : ∀ task ∈ p.tasks, p.tasks[i]? = some task →
      I (sys.turn p.store reply task).store)
    (hnext : ∀ task ∈ p.tasks, p.tasks[i]? = some task →
      ∀ t, (sys.turn p.store reply task).next = some t → T (sys.turn p.store reply task).store t)
    (hothers : ∀ task ∈ p.tasks, p.tasks[i]? = some task →
      ∀ t ∈ p.tasks, T p.store t → T (sys.turn p.store reply task).store t)
    (h : sys.step p (.turn i reply) = some p') : p'.Holds I T := by
  obtain ⟨task, htask, rfl⟩ := Tasks.step_turn h
  have hmem := List.mem_of_getElem? htask
  refine ⟨hstore task hmem htask, fun t ht => ?_⟩
  rcases List.mem_append.mp ht with ht | ht
  · exact hnext task hmem htask t (Option.mem_toList.mp ht)
  · have ht := List.mem_of_mem_eraseIdx ht
    exact hothers task hmem htask t ht (hp.tasks t ht)

theorem Pool.Holds.outside (hp : p.Holds I T) {event : ε}
    (hstore : ∀ store, sys.outside p.store event = some store → I store)
    (htasks : ∀ store, sys.outside p.store event = some store →
      ∀ t ∈ p.tasks, T p.store t → T store t)
    (h : sys.step p (.outside event) = some p') : p'.Holds I T := by
  obtain ⟨store, hs, rfl⟩ := Tasks.step_outside h
  exact ⟨hstore store hs, fun t ht => htasks store hs t ht (hp.tasks t ht)⟩

end Rules

/-- The turns of one task without a break, `n` of them at most, and the task unless it is
done. -/
def unbroken {σ ω τ : Type} (turn : σ → τ → Turn σ ω τ) : Nat → σ → τ → σ × Option τ
  | 0, store, task => (store, some task)
  | n + 1, store, task =>
    match turn store task with
    | ⟨store, _, some task⟩ => unbroken turn n store task
    | ⟨store, _, none⟩ => (store, none)

/-! ## Calls that may throw

A turn of a call goes on with another task, returns a value, or throws, and then the store is
as it was. -/

section Calls

variable {σ τ ρ ε α ξ : Type}

def Turn.ofExcept (store : σ) : Except ε (σ × (τ ⊕ α)) → Turn σ (Option (Except ε α)) τ
  | .ok (store', .inl task) => ⟨store', none, some task⟩
  | .ok (store', .inr a) => ⟨store', some (.ok a), none⟩
  | .error e => ⟨store, some (.error e), none⟩

/-- The tasks whose turns are those of `go`. -/
def Tasks.ofCalls (go : σ → ρ → τ → Except ε (σ × (τ ⊕ α))) (starts : τ → Bool)
    (outside : σ → ξ → Option σ) : Tasks σ τ ρ (Option (Except ε α)) ξ where
  turn := fun store reply task => .ofExcept store (go store reply task)
  starts := starts
  outside := outside

/-- The turns of one call without a break, `n` of them at most. -/
def straight (go : σ → τ → Except ε (σ × (τ ⊕ α))) : Nat → σ → τ → Except ε (σ × (τ ⊕ α))
  | 0, store, task => .ok (store, .inl task)
  | n + 1, store, task =>
    match go store task with
    | .ok (store', .inl task') => straight go n store' task'
    | .ok (store', .inr a) => .ok (store', .inr a)
    | .error e => .error e

theorem straight_inl {go : σ → τ → Except ε (σ × (τ ⊕ α))} {store store' : σ} {task task' : τ}
    {n : Nat} (h : go store task = .ok (store', .inl task')) :
    straight go (n + 1) store task = straight go n store' task' := by
  rw [straight, h]

theorem straight_inr {go : σ → τ → Except ε (σ × (τ ⊕ α))} {store store' : σ} {task : τ} {a : α}
    {n : Nat} (h : go store task = .ok (store', .inr a)) :
    straight go (n + 1) store task = .ok (store', .inr a) := by
  rw [straight, h]

theorem straight_error {go : σ → τ → Except ε (σ × (τ ⊕ α))} {store : σ} {task : τ} {e : ε}
    {n : Nat} (h : go store task = .error e) : straight go (n + 1) store task = .error e := by
  rw [straight, h]

variable {go : σ → ρ → τ → Except ε (σ × (τ ⊕ α))} {starts : τ → Bool}
  {outside : σ → ξ → Option σ} {p p' : Pool σ τ} {i : Nat} {reply : ρ}

/-- A turn either came to something or threw. -/
theorem Tasks.step_call (h : (Tasks.ofCalls go starts outside).step p (.turn i reply) = some p') :
    ∃ task, p.tasks[i]? = some task ∧
      ((∃ store r, go p.store reply task = .ok (store, r) ∧
          p' = ⟨store, r.getLeft?.toList ++ p.tasks.eraseIdx i⟩) ∨
        ∃ e, go p.store reply task = .error e ∧ p' = ⟨p.store, p.tasks.eraseIdx i⟩) := by
  obtain ⟨task, htask, rfl⟩ := Tasks.step_turn h
  refine ⟨task, htask, ?_⟩
  simp only [ofCalls]
  cases hgo : go p.store reply task with
  | error e => exact .inr ⟨e, rfl, rfl⟩
  | ok result =>
    obtain ⟨store, r⟩ := result
    refine .inl ⟨store, r, rfl, ?_⟩
    cases r <;> rfl

variable {I : σ → Prop} {T : σ → τ → Prop}

/-- A turn of a call: nothing is to be shown of one that throws. -/
theorem Pool.Holds.call (hp : p.Holds I T)
    (hgo : ∀ task ∈ p.tasks, p.tasks[i]? = some task → ∀ store r,
      go p.store reply task = .ok (store, r) →
        I store ∧ (∀ t, r = .inl t → T store t) ∧ ∀ t ∈ p.tasks, T p.store t → T store t)
    (h : (Tasks.ofCalls go starts outside).step p (.turn i reply) = some p') :
    p'.Holds I T := by
  obtain ⟨task, htask, hcall⟩ := Tasks.step_call h
  rcases hcall with ⟨store, r, hr, rfl⟩ | ⟨e, -, rfl⟩
  · obtain ⟨hstore, hnext, hothers⟩ := hgo task (List.mem_of_getElem? htask) htask store r hr
    refine ⟨hstore, fun t ht => ?_⟩
    rcases List.mem_append.mp ht with ht | ht
    · refine hnext t ?_
      cases r with
      | inl task => rw [List.mem_singleton.mp ht]
      | inr a => cases ht
    · have ht := List.mem_of_mem_eraseIdx ht
      exact hothers t ht (hp.tasks t ht)
  · exact ⟨hp.store, fun t ht => hp.tasks t (List.mem_of_mem_eraseIdx ht)⟩

end Calls

end Transition
