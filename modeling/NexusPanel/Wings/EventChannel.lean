import NexusPanel.Foundation.BoundedBuffer
import NexusPanel.Foundation.Transition
import NexusPanel.Wings.Grpc

/-!
# The channel of events

Wings puts its events into a bounded channel, and the stream to the panel takes them out. Nobody
waits for room: `try_send` fails when the channel is full. The event that is lost is then the new
one, though the warning speaks of the oldest.

Events are numbered in the order in which they are emitted. `newest` is a history variable, which
no code reads: what a queue would hold that drops its oldest event to make room.
-/

namespace Wings

open BoundedBuffer Transition

/-! ## The channel -/

def maxEventBuffer : Nat := 1000

/-- The events that Wings emits. -/
inductive WingsEvent
  | stateChanged (uuid : String) (previousState newState : ServerState) (timestampMs : Int)
  | installComplete (uuid : String) (timestampMs : Int)
  | installFailed (uuid errorMessage : String) (timestampMs : Int)
deriving DecidableEq, Repr

/-- A bounded channel, oldest event first. -/
structure EventChannel (α : Type) where
  waiting : List α
  bounded : waiting.length ≤ maxEventBuffer

namespace EventChannel

variable {α : Type}

def create : EventChannel α := ⟨[], Nat.zero_le _⟩

/-- `try_send`: an error when the channel is full. -/
def trySend (c : EventChannel α) (event : α) : Option (EventChannel α) :=
  if h : c.waiting.length < maxEventBuffer then
    some ⟨c.waiting ++ [event], by rw [List.length_append, List.length_singleton]; omega⟩
  else none

/-- `emit_event`, and the background tasks: an error is logged, or ignored. -/
def emitEvent (c : EventChannel α) (event : α) : EventChannel α := (c.trySend event).getD c

/-- The reader takes the oldest event. -/
def recv (c : EventChannel α) : Option (α × EventChannel α) :=
  match c with
  | ⟨[], _⟩ => none
  | ⟨event :: waiting, bounded⟩ => some (event, ⟨waiting, Nat.le_of_succ_le bounded⟩)

theorem waiting_emitEvent (c : EventChannel α) (event : α) :
    (c.emitEvent event).waiting = offer maxEventBuffer c.waiting event := by
  unfold emitEvent trySend offer
  split <;> rfl

theorem recv_eq_some {c c' : EventChannel α} {event : α} (h : c.recv = some (event, c')) :
    c.waiting = event :: c'.waiting := by
  obtain ⟨waiting, bounded⟩ := c
  cases waiting with
  | nil => cases h
  | cons first waiting =>
    cases h
    rfl

end EventChannel

/-! ## Emitting and reading -/

structure ChannelState where
  channel : EventChannel (Nat × WingsEvent)
  /-- How many events have been emitted. -/
  emitted : Nat
  newest : List (Nat × WingsEvent)

inductive ChannelLabel
  | emit (event : WingsEvent)
  | read
deriving DecidableEq, Repr

namespace ChannelState

def initial : ChannelState := ⟨.create, 0, []⟩

def step (s : ChannelState) : ChannelLabel → Option ChannelState
  | .emit event =>
    some ⟨s.channel.emitEvent (s.emitted, event), s.emitted + 1,
      ring maxEventBuffer s.newest (s.emitted, event)⟩
  | .read => s.channel.recv.map fun r => ⟨r.2, s.emitted, s.newest.drop 1⟩

/-- The events that wait are the ones a queue holds that drops its oldest event when it has no
room for another. -/
def KeepsNewest (s : ChannelState) : Prop := s.channel.waiting = s.newest

/-- An event that is emitted finds room in the channel. -/
def FindsRoom (s : ChannelState) : ChannelLabel → Prop
  | .emit _ => s.channel.waiting.length < maxEventBuffer
  | .read => True

/-- The channel is as it should be, and what waits was emitted. -/
structure InStep (s : ChannelState) : Prop where
  keeps : s.KeepsNewest
  numbered : ∀ e ∈ s.channel.waiting, e.1 < s.emitted

theorem inStep_initial : initial.InStep := by
  refine ⟨rfl, fun e he => ?_⟩
  cases he

/-- The number of the next event is new. -/
theorem InStep.fresh {s : ChannelState} (h : s.InStep) (event : WingsEvent) :
    (s.emitted, event) ∉ s.channel.waiting :=
  fun hmem => Nat.lt_irrefl _ (h.numbered _ hmem)

/-- The channel stays as it should be after an event exactly when there was room. -/
theorem InStep.keeps_emit_iff {s : ChannelState} (h : s.InStep) (event : WingsEvent) :
    (s.channel.emitEvent (s.emitted, event)).waiting =
        ring maxEventBuffer s.newest (s.emitted, event) ↔
      s.channel.waiting.length < maxEventBuffer := by
  have hnewest : s.newest = s.channel.waiting := h.keeps.symm
  rw [EventChannel.waiting_emitEvent, hnewest]
  exact offer_eq_ring_iff (h.fresh event)

theorem InStep.step {s s' : ChannelState} {l : ChannelLabel} (h : s.InStep)
    (hroom : s.FindsRoom l) (hstep : s.step l = some s') : s'.InStep := by
  cases l with
  | emit event =>
    cases hstep
    refine ⟨(h.keeps_emit_iff event).mpr hroom, fun e he => ?_⟩
    show e.1 < s.emitted + 1
    rw [EventChannel.waiting_emitEvent, offer_of_room hroom] at he
    rcases List.mem_append.mp he with hold | hnew
    · exact Nat.lt_succ_of_lt (h.numbered e hold)
    · rw [List.mem_singleton.mp hnew]
      exact Nat.lt_succ_self _
  | read =>
    obtain ⟨⟨event, channel⟩, hrecv, rfl⟩ := Option.map_eq_some_iff.mp hstep
    have hwaiting := EventChannel.recv_eq_some hrecv
    refine ⟨?_, fun e he => h.numbered e (hwaiting ▸ List.mem_cons_of_mem _ he)⟩
    show channel.waiting = s.newest.drop 1
    rw [← h.keeps, hwaiting]
    rfl

/-- In every run of events that are emitted and read, in any order, the newest events wait in
every state reached if and only if no event is emitted while the channel is full. -/
theorem keeps_newest_iff (labels : List ChannelLabel) :
    (∀ ks, ks <+: labels → ∀ s, run step initial ks = some s → s.KeepsNewest) ↔
      Along step FindsRoom initial labels := by
  refine property_iff_along (fun s h => h.keeps) (fun s l s' h hroom => h.step hroom) ?_ ?_
    inStep_initial
  · intro s l s' h hstep hkeeps
    cases l with
    | emit event =>
      cases hstep
      exact (h.keeps_emit_iff event).mp hkeeps
    | read => trivial
  · intro s l hstep
    cases l with
    | emit event => cases hstep
    | read => trivial

/-! ## One event too many -/

/-- Events that nobody reads fill the channel. -/
theorem run_emits (event : WingsEvent) (n : Nat) (hn : n ≤ maxEventBuffer) :
    ∃ s, run step initial (List.replicate n (.emit event)) = some s ∧ s.InStep ∧
      s.channel.waiting.length = n := by
  induction n with
  | zero => exact ⟨initial, rfl, inStep_initial, rfl⟩
  | succ n ih =>
    obtain ⟨s, hrun, hs, hlength⟩ := ih (Nat.le_of_succ_le hn)
    have hroom : s.FindsRoom (.emit event) := by
      show s.channel.waiting.length < maxEventBuffer
      omega
    have hstep : s.step (.emit event) = some ⟨s.channel.emitEvent (s.emitted, event),
        s.emitted + 1, ring maxEventBuffer s.newest (s.emitted, event)⟩ := rfl
    refine ⟨_, ?_, hs.step hroom hstep, ?_⟩
    · rw [List.replicate_succ', run_append, hrun]
      exact run_step hstep rfl
    · rw [EventChannel.waiting_emitEvent, offer_of_room hroom, List.length_append, hlength]
      rfl

/-- With a thousand events waiting, the next one is lost and not the first. -/
theorem loses_newest : ¬ ∀ labels ks, ks <+: labels → ∀ s, run step initial ks = some s →
    s.KeepsNewest := by
  intro h
  obtain ⟨s, hrun, hs, hlength⟩ := run_emits (.installComplete "u" 0) maxEventBuffer le_rfl
  have hafter : run step initial (List.replicate maxEventBuffer (.emit (.installComplete "u" 0)) ++
      [.emit (.installComplete "u" 1)]) = some ⟨s.channel.emitEvent (s.emitted, .installComplete "u" 1),
        s.emitted + 1, ring maxEventBuffer s.newest (s.emitted, .installComplete "u" 1)⟩ := by
    rw [run_append, hrun]
    rfl
  have hkeeps := h _ _ (List.prefix_refl _) _ hafter
  have hroom := (hs.keeps_emit_iff (.installComplete "u" 1)).mp hkeeps
  omega

end ChannelState

end Wings
