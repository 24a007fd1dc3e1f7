import NexusPanel.Foundation.Transition
import NexusPanel.Wings.Console

/-!
# Console buffers and their clones

A `ConsoleBuffer` is a reference to lines behind a mutex, and a capacity. A clone has the same
reference and the same capacity, so whatever is pushed through one is read through all. Pushes
hold the mutex; here they take effect one after the other, in the order in which they complete.

`pushed` is a history variable, which no code reads: every line that was pushed behind a
reference, oldest first.
-/

namespace Wings.SharedBuffers

open BoundedBuffer Transition

/-- The reference is the number of the allocation. -/
structure ConsoleBuffer where
  inner : Nat
  capacity : Nat
deriving DecidableEq, Repr

structure Buffers where
  lines : Nat → List String
  allocated : Nat
  handles : List ConsoleBuffer
  pushed : Nat → List String

inductive BufferLabel
  | make (capacity : Nat)
  | clone (handle : Nat)
  | push (handle : Nat) (line : String)
deriving DecidableEq, Repr

/-- `push` under the mutex. -/
def pushLine (capacity : Nat) (buf : List String) (line : String) : List String :=
  (if capacity ≤ buf.length then buf.drop 1 else buf) ++ [line]

/-- The buffer of a console is one with the default capacity. -/
theorem lines_consolePush (b : Console.ConsoleBuffer) (line : String) :
    (b.push line).lines = pushLine Console.defaultCapacity b.lines line := rfl

namespace Buffers

def initial : Buffers := ⟨fun _ => [], 0, [], fun _ => []⟩

def push (s : Buffers) (b : ConsoleBuffer) (line : String) : Buffers :=
  { s with
    lines := Function.update s.lines b.inner (pushLine b.capacity (s.lines b.inner) line)
    pushed := Function.update s.pushed b.inner (s.pushed b.inner ++ [line]) }

def step (s : Buffers) : BufferLabel → Option Buffers
  | .make capacity =>
    some { s with
      allocated := s.allocated + 1
      handles := s.handles ++ [⟨s.allocated, capacity⟩] }
  | .clone handle =>
    s.handles[handle]?.map fun b => { s with handles := s.handles ++ [b] }
  | .push handle line => s.handles[handle]?.map fun b => s.push b line

/-- What is read through a handle. -/
def linesOf (s : Buffers) (b : ConsoleBuffer) : List String := s.lines b.inner

/-- Handles with one reference are clones of each other, and there is nothing where nothing is
allocated. What is behind a handle is the end of what was pushed there. -/
structure InOrder (s : Buffers) : Prop where
  allocated : ∀ b ∈ s.handles, b.inner < s.allocated
  free : ∀ a, s.allocated ≤ a → s.lines a = [] ∧ s.pushed a = []
  clones : ∀ b ∈ s.handles, ∀ c ∈ s.handles, b.inner = c.inner → b = c
  last : ∀ b ∈ s.handles, 0 < b.capacity → s.linesOf b = (s.pushed b.inner).rtake b.capacity

theorem inOrder_initial : initial.InOrder where
  allocated := by intro b hb; cases hb
  free := fun _ _ => ⟨rfl, rfl⟩
  clones := by intro b hb; cases hb
  last := by intro b hb; cases hb

theorem InOrder.make {s : Buffers} (h : s.InOrder) (capacity : Nat) :
    InOrder { s with
      allocated := s.allocated + 1
      handles := s.handles ++ [⟨s.allocated, capacity⟩] } where
  allocated := by
    intro b hb
    rcases List.mem_append.mp hb with hold | hnew
    · exact Nat.lt_succ_of_lt (h.allocated b hold)
    · rw [List.mem_singleton.mp hnew]
      exact Nat.lt_succ_self _
  free := fun a ha => h.free a (Nat.le_of_succ_le ha)
  clones := by
    intro b hb c hc heq
    rcases List.mem_append.mp hb with hold | hnew <;> rcases List.mem_append.mp hc with hold' | hnew'
    · exact h.clones b hold c hold' heq
    · rw [List.mem_singleton.mp hnew'] at heq
      exact absurd heq (h.allocated b hold).ne
    · rw [List.mem_singleton.mp hnew] at heq
      exact absurd heq.symm (h.allocated c hold').ne
    · rw [List.mem_singleton.mp hnew, List.mem_singleton.mp hnew']
  last := by
    intro b hb hpos
    rcases List.mem_append.mp hb with hold | hnew
    · exact h.last b hold hpos
    · obtain rfl := List.mem_singleton.mp hnew
      obtain ⟨hlines, hpushed⟩ := h.free s.allocated le_rfl
      show s.lines s.allocated = (s.pushed s.allocated).rtake capacity
      rw [hlines, hpushed, List.rtake_nil]

theorem InOrder.clone {s : Buffers} (h : s.InOrder) {b : ConsoleBuffer} (hb : b ∈ s.handles) :
    InOrder { s with handles := s.handles ++ [b] } := by
  have hmem : ∀ c ∈ s.handles ++ [b], c ∈ s.handles := by
    intro c hc
    rcases List.mem_append.mp hc with hold | hnew
    · exact hold
    · rw [List.mem_singleton.mp hnew]
      exact hb
  exact ⟨fun c hc => h.allocated c (hmem c hc), h.free,
    fun c hc d hd => h.clones c (hmem c hc) d (hmem d hd), fun c hc => h.last c (hmem c hc)⟩

theorem InOrder.push {s : Buffers} (h : s.InOrder) {b : ConsoleBuffer} (hb : b ∈ s.handles)
    (line : String) : (s.push b line).InOrder where
  allocated := h.allocated
  free := by
    intro a ha
    have hne : a ≠ b.inner := fun heq => Nat.not_le_of_lt (h.allocated b hb) (heq ▸ ha)
    simp only [Buffers.push]
    rw [Function.update_of_ne hne, Function.update_of_ne hne]
    exact h.free a ha
  clones := h.clones
  last := by
    intro c hc hpos
    simp only [linesOf, Buffers.push]
    by_cases hsame : c.inner = b.inner
    · obtain rfl := h.clones c hc b hb hsame
      rw [Function.update_self, Function.update_self,
        show s.lines c.inner = (s.pushed c.inner).rtake c.capacity from h.last c hc hpos]
      exact ring_rtake hpos _ line
    · rw [Function.update_of_ne hsame, Function.update_of_ne hsame]
      exact h.last c hc hpos

theorem InOrder.step {s s' : Buffers} (l : BufferLabel) (h : s.InOrder)
    (hstep : s.step l = some s') : s'.InOrder := by
  cases l with
  | make capacity =>
    cases hstep
    exact h.make capacity
  | clone handle =>
    obtain ⟨b, hb, rfl⟩ := Option.map_eq_some_iff.mp hstep
    exact h.clone (List.mem_of_getElem? hb)
  | push handle line =>
    obtain ⟨b, hb, rfl⟩ := Option.map_eq_some_iff.mp hstep
    exact h.push (List.mem_of_getElem? hb) line

/-- In every run of buffers that are made and cloned and of pushes through any of them, each
handle of a positive capacity reads the last lines that were pushed behind its reference, as
many as the capacity allows, in the order of the pushes. -/
theorem reads_last_lines {labels : List BufferLabel} {s : Buffers} {b : ConsoleBuffer}
    (hrun : run step initial labels = some s) (hb : b ∈ s.handles) (hpos : 0 < b.capacity) :
    s.linesOf b = (s.pushed b.inner).rtake b.capacity ∧
      (s.linesOf b).length = min b.capacity (s.pushed b.inner).length := by
  have h := run_preserves (fun s l s' h hstep => InOrder.step l h hstep) inOrder_initial hrun
  refine ⟨h.last b hb hpos, ?_⟩
  rw [h.last b hb hpos, List.rtake, List.length_drop]
  omega

/-- Four pushes through a buffer of three lines and through its clone, in turn. -/
def fourPushes : List BufferLabel :=
  [.make 3, .clone 0, .push 0 "line1", .push 1 "line2", .push 0 "line3", .push 1 "line4"]

theorem reads_last_three : ∃ s, run step initial fourPushes = some s ∧
    s.linesOf ⟨0, 3⟩ = (s.pushed 0).rtake 3 ∧ s.linesOf ⟨0, 3⟩ = ["line2", "line3", "line4"] :=
  ⟨_, rfl, (@reads_last_lines fourPushes _ ⟨0, 3⟩ rfl (by decide) (by decide)).1, by decide⟩

end Buffers

end Wings.SharedBuffers
