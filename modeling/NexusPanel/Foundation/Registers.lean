import Mathlib.Data.List.MinMax

/-!
# Registers

A part of a state that every event either overwrites or leaves alone is a register. After any
number of events it holds what was written last, whatever stamps the events carry
(`holds_lastWritten`). It holds what the event with the greatest stamp has written when the
events come in the order of their stamps (`newestWritten_of_inOrder`).
-/

namespace Register

variable {σ ε β τ : Type} [LinearOrder τ]

/-- What the last of the events that write has written. -/
def lastWritten (writes : ε → Option β) (events : List ε) : Option β :=
  (events.filterMap writes).getLast?

/-- What the event with the greatest stamp, of those that write, has written. -/
def newestWritten (stamp : ε → τ) (writes : ε → Option β) (events : List ε) : Option β :=
  ((events.filter fun e => (writes e).isSome).argmax stamp).bind writes

/-- The events come in the order of their stamps, and no two stamps are the same. -/
def InOrder (stamp : ε → τ) (events : List ε) : Prop :=
  events.Pairwise fun a b => stamp a < stamp b

theorem lastWritten_cons {writes : ε → Option β} (e : ε) (events : List ε) :
    lastWritten writes (e :: events) = (lastWritten writes events).or (writes e) := by
  unfold lastWritten
  cases h : writes e with
  | none => rw [List.filterMap_cons_none h, Option.or_none]
  | some b =>
    rw [List.filterMap_cons_some h, List.getLast?_cons]
    cases (events.filterMap writes).getLast? with
    | none => rfl
    | some last => rfl

/-- A register holds what was written last. Which part of the state is a register may depend on
an invariant of the steps. -/
theorem holds_lastWritten {step : σ → ε → σ} (view : σ → β) (Inv : σ → Prop)
    {writes : ε → Option β} (hkeeps : ∀ s e, Inv s → Inv (step s e))
    (hwrites : ∀ s e, Inv s → view (step s e) = (writes e).getD (view s))
    (events : List ε) {s : σ} (hs : Inv s) :
    view (events.foldl step s) = (lastWritten writes events).getD (view s) := by
  induction events generalizing s with
  | nil => rfl
  | cons e events ih =>
    rw [List.foldl_cons, ih (hkeeps s e hs), hwrites s e hs, lastWritten_cons]
    cases lastWritten writes events with
    | none => rfl
    | some last => rfl

/-- The last of events in order is the one with the greatest stamp. -/
theorem argmax_of_inOrder {stamp : ε → τ} {events : List ε} (h : InOrder stamp events) :
    events.argmax stamp = events.getLast? := by
  induction events using List.reverseRecOn with
  | nil => rfl
  | append_singleton events e ih =>
    obtain ⟨hevents, -, hbefore⟩ := List.pairwise_append.mp h
    rw [List.argmax_concat, ih hevents, List.getLast?_concat]
    cases hlast : events.getLast? with
    | none => rfl
    | some last =>
      have hlt := hbefore last (List.mem_of_getLast? hlast) e (List.mem_singleton.mpr rfl)
      exact if_pos hlt

/-- Events in the order of their stamps leave what the newest of them wrote. -/
theorem newestWritten_of_inOrder {stamp : ε → τ} {writes : ε → Option β} {events : List ε}
    (h : InOrder stamp events) :
    newestWritten stamp writes events = lastWritten writes events := by
  rw [newestWritten, argmax_of_inOrder (h.sublist List.filter_sublist)]
  clear h
  induction events with
  | nil => rfl
  | cons e events ih =>
    rw [lastWritten_cons, ← ih]
    cases hwrites : writes e with
    | none =>
      rw [List.filter_cons_of_neg (by simp [hwrites]), Option.or_none]
    | some b =>
      rw [List.filter_cons_of_pos (by rw [hwrites]; rfl), List.getLast?_cons]
      cases hlast : (events.filter fun e => (writes e).isSome).getLast? with
      | none => exact hwrites
      | some last =>
        have hmem := (List.mem_filter.mp (List.mem_of_getLast? hlast)).2
        obtain ⟨c, hc⟩ := Option.isSome_iff_exists.mp hmem
        simp only [Option.getD_some, Option.bind_some, hc, Option.or_some]

end Register
