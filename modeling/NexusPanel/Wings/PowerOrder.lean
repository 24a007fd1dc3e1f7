import Mathlib.Data.List.Chain
import NexusPanel.Wings.MutualExclusion

/-!
# The order of power actions

The mutex of a server covers a start from the first query to the event. A stop, a restart or a
kill is only covered up to the point where it is left to the background: the call to Docker
is issued and returns after the guard is gone. The next power action can be let in while it is
outstanding, so that two calls overlap and both report the state the container was in before
either of them.

Power actions on a server are in order as long as none is let into its section while the
background part of another one is still running.
-/

namespace Wings.Service

open Transition

/-! ## The order of the actions -/

/-- The handler waits for a start to return. -/
def Task.starting (t : Task) : Bool :=
  match t.stage with
  | .inside _ (.starting _) => true
  | _ => false

/-- The background part waits for a stop, a restart or a kill to return. -/
def Task.calling (t : Task) : Bool :=
  match t.background with
  | some (.calling _ _) => true
  | _ => false

/-- How many power calls have been issued and have not returned. -/
def outstanding (p : State) : Nat := p.count Task.starting + p.count Task.calling

/-- Each event goes on from the state the one before it reported. -/
def Chained (s : Store) : Prop :=
  s.events.IsChain fun event earlier => event.previousState = earlier.newState

instance (s : Store) : Decidable (Chained s) :=
  inferInstanceAs (Decidable (List.IsChain _ _))

/-- The requests are power actions on the server. -/
def PowerOnly (uuid : String) : Label → Prop
  | .start t => ∃ action, t.request = .sendPowerAction uuid action
  | _ => True

/-- Where the step lets a power action into its section, none runs in the background. -/
def EntersAlone (uuid : String) (p : State) : Label → Prop
  | .turn i (.handler, _) => ∀ t ∈ p.tasks[i]?, guarded t.request = some uuid →
      ∀ lock, t.stage = .waiting lock → lock ∉ p.store.held →
        ∀ u ∈ p.tasks, guarded u.request = some uuid → u.background = none
  | _ => True

/-- A waiting handler waits for one mutex. -/
instance {P : Nat → Prop} [DecidablePred P] :
    ∀ stage : Stage, Decidable (∀ lock, stage = .waiting lock → P lock)
  | .waiting lock => decidable_of_iff (P lock)
      ⟨fun h _ heq => Stage.waiting.inj heq ▸ h, fun h => h lock rfl⟩
  | .arrived | .inside _ _ | .leaving _ _ | .answered => isTrue fun _ heq => by cases heq

instance (uuid : String) (p : State) : ∀ l, Decidable (EntersAlone uuid p l)
  | .turn i (.handler, _) =>
    inferInstanceAs (Decidable (∀ t ∈ p.tasks[i]?, _ → ∀ lock, t.stage = .waiting lock → _ → _))
  | .turn _ (.background, _) | .start _ | .outside _ => isTrue trivial

/-- Docker's answer is about the container: a query lists its state, a power call that succeeds
had a container to work on, and one that fails has left it in the state it was in. -/
def Answers (uuid : String) (s : Store) (t : Task) (strand : Strand) (answer : Answer) : Prop :=
  let state := s.containers (DockerManager.containerName uuid)
  match strand, t.stage, t.background with
  | .handler, .inside _ (.power _), _ | .handler, .inside _ (.before _), _
  | .handler, .inside _ (.started _), _ | .background, _, some (.finished _) =>
    answer = .ok state.toList
  | .handler, .inside _ (.starting previous), _ | .background, _, some (.calling _ previous) =>
    match answer with
    | .ok _ => state.isSome
    | .error _ => state.getD "unknown" = previous
  | _, _, _ => True

instance (uuid : String) (s : Store) (answer : Answer) :
    ∀ t strand, Decidable (Answers uuid s t strand answer)
  | ⟨_, .inside _ (.power _), _⟩, .handler | ⟨_, .inside _ (.before _), _⟩, .handler
  | ⟨_, .inside _ (.started _), _⟩, .handler | ⟨_, _, some (.finished _)⟩, .background =>
    inferInstanceAs (Decidable (answer = _))
  | ⟨_, .inside _ (.starting _), _⟩, .handler | ⟨_, _, some (.calling _ _)⟩, .background =>
    match answer with
    | .ok _ => inferInstanceAs (Decidable (Option.isSome _ = true))
    | .error _ => inferInstanceAs (Decidable (_ = (_ : String)))
  | ⟨_, .arrived, _⟩, .handler | ⟨_, .waiting _, _⟩, .handler | ⟨_, .leaving _ _, _⟩, .handler
  | ⟨_, .answered, _⟩, .handler | ⟨_, .inside _ .lookup, _⟩, .handler
  | ⟨_, .inside _ (.pull _), _⟩, .handler | ⟨_, .inside _ (.create _), _⟩, .handler
  | ⟨_, .inside _ (.start _), _⟩, .handler | ⟨_, .inside _ (.update _ _ _), _⟩, .handler
  | ⟨_, .inside _ (.read _ _ _), _⟩, .handler | ⟨_, .inside _ (.store _), _⟩, .handler
  | ⟨_, .inside _ (.stop _), _⟩, .handler | ⟨_, .inside _ (.remove _), _⟩, .handler
  | ⟨_, .inside _ .dropBuffer, _⟩, .handler | ⟨_, .inside _ .removeConfig, _⟩, .handler
  | ⟨_, .inside _ .removeLock, _⟩, .handler | ⟨_, _, none⟩, .background
  | ⟨_, _, some (.issue _ _)⟩, .background => isTrue trivial

/-- No other actor changes the container: its state changes while a power call is outstanding,
and Docker answers. -/
def Undisturbed (uuid : String) (p : State) : Label → Prop
  | .start _ => True
  | .turn i (strand, answer) => ∀ t ∈ p.tasks[i]?, Answers uuid p.store t strand answer
  | .outside (name, state) => name = DockerManager.containerName uuid →
      0 < outstanding p ∧ (p.store.containers name).isSome ∧ state.isSome

instance (uuid : String) (p : State) : ∀ l, Decidable (Undisturbed uuid p l)
  | .start _ => isTrue trivial
  | .turn i (strand, answer) =>
    inferInstanceAs (Decidable (∀ t ∈ p.tasks[i]?, Answers uuid p.store t strand answer))
  | .outside (_, _) => inferInstanceAs (Decidable (_ → _ ∧ _ ∧ _))

/-! ## One action at a time -/

/-- The points of a power action. -/
def Point.ofPower : Point → Bool
  | .power _ | .lookup | .pull _ | .create _ | .before _ | .start _ | .starting _
  | .started _ => true
  | _ => false

/-- The request is in its section or runs in the background. -/
def Task.busy (t : Task) : Bool :=
  match t.stage, t.background with
  | .inside _ _, _ | .leaving _ _, _ | _, some _ => true
  | _, none => false

/-- A request for a power action, which runs in the background only after it has come to its
result. -/
structure PowerTask (uuid : String) (t : Task) : Prop where
  request : ∃ action, t.request = .sendPowerAction uuid action
  point : ∀ lock point, t.stage = .inside lock point → point.ofPower
  background : t.background ≠ none → (∃ lock ok, t.stage = .leaving lock ok) ∨ t.stage = .answered

section Turns

variable {serde : Serde} {answer : Answer} {uuid : String} {s : Store} {t : Task}

theorem guarded_power {action : Nat} :
    guarded (.sendPowerAction uuid action) = some uuid := rfl

theorem PowerTask.guarded_eq (ht : PowerTask uuid t) : guarded t.request = some uuid := by
  obtain ⟨action, hrequest⟩ := ht.request
  rw [hrequest]
  rfl

/-- A power action stays among its points, and spawns only when it comes to its result. -/
theorem pointTurn_power (serde : Serde) (answer : Answer) (uuid : String) (s : Store)
    {point : Point} (h : point.ofPower) :
    (∀ next, (pointTurn serde uuid answer s point).2.1 = .inl next →
        next.ofPower ∧ (pointTurn serde uuid answer s point).2.2 = none) ∧
      (pointTurn serde uuid answer s point).1.serverLocks = s.serverLocks := by
  cases point with
  | power action =>
    simp only [pointTurn]
    split
    · exact ⟨fun _ h => (by cases h), rfl⟩
    · split
      · refine ⟨fun next h => ?_, rfl⟩
        cases h
        split <;> exact ⟨rfl, rfl⟩
      · exact ⟨fun next h => by cases h; exact ⟨rfl, rfl⟩, rfl⟩
  | lookup =>
    simp only [pointTurn]
    split
    · exact ⟨fun next h => by cases h; exact ⟨rfl, rfl⟩, rfl⟩
    · exact ⟨fun _ h => (by cases h), rfl⟩
  | pull config =>
    cases answer with
    | ok items => exact ⟨fun next h => by cases h; exact ⟨rfl, rfl⟩, rfl⟩
    | error message => exact ⟨fun _ h => (by cases h), rfl⟩
  | create config =>
    cases answer with
    | ok items => exact ⟨fun next h => by cases h; exact ⟨rfl, rfl⟩, rfl⟩
    | error message => exact ⟨fun _ h => (by cases h), rfl⟩
  | before action =>
    simp only [pointTurn]
    split
    · exact ⟨fun next h => by cases h; exact ⟨rfl, rfl⟩, rfl⟩
    · exact ⟨fun _ h => (by cases h), rfl⟩
  | start previous => exact ⟨fun next h => by cases h; exact ⟨rfl, rfl⟩, rfl⟩
  | starting previous =>
    cases answer with
    | ok items => exact ⟨fun next h => by cases h; exact ⟨rfl, rfl⟩, rfl⟩
    | error message => exact ⟨fun _ h => (by cases h), rfl⟩
  | started previous => exact ⟨fun _ h => (by cases h), rfl⟩
  | update | read | store | stop | remove | dropBuffer | removeConfig | removeLock => cases h

/-- What a turn makes of a power action: it stays one, and it is busy only if it was before, or
has just entered its section. -/
theorem taskTurn_power (serde : Serde) (answer : Answer) (s : Store) (ht : PowerTask uuid t)
    (strand : Strand) :
    PowerTask uuid (taskTurn serde strand answer s t).2 ∧
      ((taskTurn serde strand answer s t).2.busy = true → t.busy = true ∨
        strand = .handler ∧ ∃ lock, t.stage = .waiting lock ∧ lock ∉ s.held) ∧
      (t.stage ≠ .arrived →
        (taskTurn serde strand answer s t).1.serverLocks = s.serverLocks) := by
  obtain ⟨request, stage, background⟩ := t
  obtain ⟨action, rfl⟩ := ht.request
  cases strand with
  | handler =>
    cases stage with
    | arrived =>
      have hnone : background = none := by
        by_contra hne
        obtain ⟨_, _, h⟩ | h := ht.background hne <;> cases h
      subst hnone
      refine ⟨⟨⟨action, rfl⟩, fun _ _ h => (by cases h), fun h => absurd rfl h⟩, fun h => ?_,
        fun h => absurd rfl h⟩
      cases h
    | waiting lock =>
      have hnone : background = none := by
        by_contra hne
        obtain ⟨_, _, h⟩ | h := ht.background hne <;> cases h
      subst hnone
      simp only [taskTurn, handlerTurn, guardedSection]
      split
      next => exact ⟨ht, fun h => .inl h, fun _ => rfl⟩
      next hfree =>
        refine ⟨⟨⟨action, rfl⟩, fun _ _ h => ?_, fun h => absurd rfl h⟩,
          fun _ => .inr ⟨trivial, lock, rfl, hfree⟩, fun _ => rfl⟩
        cases h
        rfl
    | inside lock point =>
      obtain ⟨hnext, hlocks⟩ := pointTurn_power serde answer uuid s (ht.point lock point rfl)
      have hnone : background = none := by
        by_contra hne
        obtain ⟨_, _, h⟩ | h := ht.background hne <;> cases h
      subst hnone
      simp only [taskTurn, handlerTurn, guarded_power]
      refine ⟨⟨⟨action, rfl⟩, fun l point' h => ?_, fun hne => ?_⟩, fun _ => .inl rfl,
        fun _ => hlocks⟩
      · cases hresult : (pointTurn serde uuid answer s point).2.1 with
        | inl next =>
          rw [hresult] at h
          cases h
          exact (hnext _ hresult).1
        | inr ok =>
          rw [hresult] at h
          cases h
      · cases hresult : (pointTurn serde uuid answer s point).2.1 with
        | inl next => exact absurd ((Option.or_none).trans (hnext _ hresult).2) hne
        | inr ok => exact .inl ⟨lock, ok, rfl⟩
    | leaving lock ok =>
      refine ⟨⟨⟨action, rfl⟩, fun _ _ h => (by cases h), fun _ => .inr rfl⟩, fun _ => .inl rfl,
        fun _ => rfl⟩
    | answered => exact ⟨ht, fun h => .inl h, fun _ => rfl⟩
  | background =>
    cases background with
    | none => exact ⟨ht, fun h => .inl h, fun _ => rfl⟩
    | some b =>
      refine ⟨⟨⟨action, rfl⟩, ht.point, fun _ => ht.background (Option.some_ne_none b)⟩,
        fun _ => .inl ?_, fun _ => ?_⟩
      · cases stage <;> rfl
      · cases b <;> rfl

end Turns

/-- The tasks are power actions on the server, its mutex is in order and stays in the lock map,
and one of them is busy at most. -/
structure Serial (uuid : String) (p : State) : Prop where
  tasks : ∀ t ∈ p.tasks, PowerTask uuid t
  locked : Locked uuid p
  entry : ∀ t ∈ p.tasks, t.stage.lock ≠ none → p.store.serverLocks.lookup uuid ≠ none
  busy : p.count Task.busy ≤ 1

section Serial

variable {serde : Serde} {uuid : String} {p p' : State} {i : Nat} {strand : Strand}
  {answer : Answer} {t : Task}

theorem Serial.of_idle (h : Idle p) : Serial uuid p := by
  have htasks := h.1
  refine ⟨fun t ht => ?_, .of_idle h, fun t ht => ?_, ?_⟩
  · rw [htasks] at ht
    cases ht
  · rw [htasks] at ht
    cases ht
  · rw [Pool.count, htasks]
    exact Nat.zero_le 1

/-- The lock map has an entry, so no new mutex is made beside an earlier one. -/
theorem Serial.newMutexUnshared (hp : Serial uuid p) (l : Label) : NewMutexUnshared uuid p l := by
  cases l with
  | turn i reply =>
    obtain ⟨strand, answer⟩ := reply
    cases strand with
    | background => trivial
    | handler =>
      intro t _ _ _ hlookup u hu _
      by_contra hlock
      exact hp.entry u hu hlock hlookup
  | start | outside => trivial

theorem not_over_of_busy (t : Task) (h : t.over = true) : t.busy = false := by
  obtain ⟨request, stage, background⟩ := t
  cases background with
  | some b => cases stage <;> cases h
  | none =>
    cases stage with
    | inside | leaving => cases h
    | _ => rfl

/-- When the mutex of a waiting request is free and nothing runs in the background, nothing is
busy. -/
theorem Serial.not_busy (hp : Serial uuid p) (ht : t ∈ p.tasks) {lock : Nat}
    (hstage : t.stage = .waiting lock) (hfree : lock ∉ p.store.held)
    (halone : ∀ u ∈ p.tasks, guarded u.request = some uuid → u.background = none) :
    p.count Task.busy = 0 := by
  rw [Pool.count, List.countP_eq_zero]
  intro u hu hbusy
  have hguarded := (hp.tasks u hu).guarded_eq
  have hnone := halone u hu hguarded
  obtain ⟨lock', -, hshared⟩ := hp.locked.shared
  have hlock : lock = lock' :=
    hshared t ht (hp.tasks t ht).guarded_eq lock (by rw [hstage]; rfl)
  subst hlock
  have hholds : u.stage.holds lock = true := by
    have hu' := hshared u hu hguarded
    obtain ⟨request, stage, background⟩ := u
    subst hnone
    cases stage with
    | inside l point | leaving l ok => exact beq_iff_eq.mpr (hu' l rfl)
    | _ => cases hbusy
  have hpos : 0 < p.store.held.count lock := by
    rw [← hp.locked.held lock]
    exact List.countP_pos_iff.mpr ⟨u, hu, hholds⟩
  exact hfree (List.count_pos_iff.mp hpos)

theorem lookup_getLock_self {s : Store} : (s.getLock uuid).2.serverLocks.lookup uuid ≠ none := by
  unfold Store.getLock
  split
  next lock h =>
    rw [h]
    exact Option.some_ne_none _
  next =>
    rw [AList.lookup_insert]
    exact Option.some_ne_none _

/-- The entry of the server stays in the lock map, and a request that is given a mutex finds
one there. -/
theorem Serial.entry_turn (hp : Serial uuid p) (ht : p.tasks[i]? = some t)
    (h : (Service.tasks serde).step p (.turn i (strand, answer)) = some p') :
    ∀ u ∈ p'.tasks, u.stage.lock ≠ none → p'.store.serverLocks.lookup uuid ≠ none := by
  have hmem := List.mem_of_getElem? ht
  have hpower := hp.tasks t hmem
  obtain ⟨t', ht', hstore, -⟩ := step_turn h
  cases ht.symm.trans ht'
  have hsame := (taskTurn_power serde answer p.store hpower strand).2.2
  have hturn := taskTurn_locks serde answer p.store t strand
  rw [← hstore] at hturn hsame
  -- Unless the request has just been given its mutex, its entry is the one that was there.
  have hkeep : p'.store.serverLocks = p.store.serverLocks →
      ((taskTurn serde strand answer p.store t).2.stage.lock ≠ none → t.stage.lock ≠ none) →
      ∀ u ∈ p'.tasks, u.stage.lock ≠ none → p'.store.serverLocks.lookup uuid ≠ none := by
    intro hlocks hstage u hu hlock
    rw [hlocks]
    rcases mem_turn ht h hu with rfl | hu
    · exact hp.entry t hmem (hstage hlock)
    · exact hp.entry u (List.mem_of_mem_eraseIdx hu) hlock
  cases hturn with
  | get u hstage hguarded hstage' hlocks _ =>
    cases hguarded.symm.trans hpower.guarded_eq
    intro v hv hlock
    rw [hlocks]
    exact lookup_getLock_self
  | take lock point hstage _ _ hlocks _ =>
    exact hkeep hlocks fun _ => by rw [hstage]; exact Option.some_ne_none _
  | work lock point next hstage _ _ _ =>
    refine hkeep (hsame ?_) fun _ => ?_
    · rw [hstage]
      exact fun h => nomatch h
    · rw [hstage]
      exact Option.some_ne_none _
  | drop lock ok hstage _ hlocks _ =>
    exact hkeep hlocks fun _ => by rw [hstage]; exact Option.some_ne_none _
  | other hstage hlocks _ =>
    refine hkeep hlocks fun hlock => ?_
    rcases hstage with hstage | ⟨-, hstage'⟩
    · rw [hstage] at hlock
      exact hlock
    · rw [hstage'] at hlock
      exact absurd rfl hlock

/-- One step that lets a power action in only alone. -/
theorem Serial.step (hp : Serial uuid p) {l : Label} (honly : PowerOnly uuid l)
    (halone : EntersAlone uuid p l) (h : (Service.tasks serde).step p l = some p') :
    Serial uuid p' := by
  have hlocked := hp.locked.step (hp.newMutexUnshared l) h
  cases l with
  | start t =>
    obtain ⟨ht, rfl⟩ := step_start h
    refine ⟨fun u hu => ?_, hlocked, fun u hu => ?_, ?_⟩
    · rcases List.mem_cons.mp hu with rfl | hu
      · rw [ht]
        exact ⟨honly, fun _ _ h => (nomatch h), fun h => absurd rfl h⟩
      · exact hp.tasks u hu
    · rcases List.mem_cons.mp hu with rfl | hu
      · rw [ht]
        exact fun h => absurd rfl h
      · exact hp.entry u hu
    · rw [Pool.count_start h, ht]
      exact hp.busy
  | turn i reply =>
    obtain ⟨strand, answer⟩ := reply
    obtain ⟨t, ht, -, -⟩ := step_turn h
    have hmem := List.mem_of_getElem? ht
    obtain ⟨hpower', hbusy, -⟩ := taskTurn_power serde answer p.store (hp.tasks t hmem) strand
    refine ⟨fun u hu => ?_, hlocked, hp.entry_turn ht h, ?_⟩
    · rcases mem_turn ht h hu with rfl | hu
      · exact hpower'
      · exact hp.tasks u (List.mem_of_mem_eraseIdx hu)
    · have hcount := count_turn not_over_of_busy ht h
      have hone := hp.busy
      cases hafter : (taskTurn serde strand answer p.store t).2.busy with
      | false =>
        rw [hafter] at hcount
        simp only [Bool.false_eq_true, if_false] at hcount
        omega
      | true =>
        rcases hbusy hafter with hbefore | ⟨rfl, lock, hstage, hfree⟩
        · rw [hafter, hbefore] at hcount
          omega
        · have hzero := hp.not_busy hmem hstage hfree
            (halone t ht (hp.tasks t hmem).guarded_eq lock hstage hfree)
          rw [hafter, hzero] at hcount
          simp only [if_true] at hcount
          omega
  | outside event =>
    cases step_outside h
    exact ⟨hp.tasks, hlocked, hp.entry, hp.busy⟩

/-- Two tests that no element passes at once, and only those that pass a third one. -/
theorem countP_add_le {α : Type} {q r s : α → Bool} {l : List α}
    (h : ∀ x ∈ l, (q x = true → r x = false ∧ s x = true) ∧ (r x = true → s x = true)) :
    l.countP q + l.countP r ≤ l.countP s := by
  induction l with
  | nil => exact Nat.le_refl 0
  | cons x l ih =>
    have hrest := ih fun y hy => h y (List.mem_cons_of_mem x hy)
    obtain ⟨hq, hr⟩ := h x List.mem_cons_self
    simp only [List.countP_cons]
    cases hqx : q x with
    | true =>
      obtain ⟨hrx, hsx⟩ := hq hqx
      simp only [hrx, hsx, Bool.false_eq_true, if_true, if_false]
      omega
    | false =>
      cases hrx : r x with
      | true =>
        simp only [hr hrx, Bool.false_eq_true, if_true, if_false]
        omega
      | false =>
        simp only [Bool.false_eq_true, if_false]
        split <;> omega

/-- What is outstanding belongs to the task that is busy. -/
theorem Serial.outstanding_le (hp : Serial uuid p) : outstanding p ≤ 1 := by
  refine Nat.le_trans (countP_add_le fun t ht => ?_) hp.busy
  have hpower := hp.tasks t ht
  obtain ⟨request, stage, background⟩ := t
  cases background with
  | none =>
    cases stage with
    | inside lock point => exact ⟨fun _ => ⟨rfl, rfl⟩, fun h => nomatch h⟩
    | _ => exact ⟨fun h => (nomatch h), fun h => nomatch h⟩
  | some b =>
    refine ⟨fun hstarting => ?_, fun _ => ?_⟩
    · obtain ⟨_, _, h⟩ | h := hpower.background (Option.some_ne_none b) <;>
        (cases h; cases hstarting)
    · cases stage <;> rfl

end Serial

/-! ## The events -/

section Events

variable (uuid : String) (s : Store)

/-- The state in which the container of the server is reported. -/
def currentState : String := (s.containers (DockerManager.containerName uuid)).getD "unknown"

/-- The last event, if there is one, reported the state, and there is a container. -/
def Reported (state : String) : Prop :=
  ∀ event ∈ s.events.head?, (s.containers (DockerManager.containerName uuid)).isSome ∧
    event.newState = Grpc.dockerStateToProto state

/-- The last event reported the state the container is in. -/
def Settled : Prop := Reported uuid s (currentState uuid s)

/-- What a busy power action knows: the state it found is the one the last event reported, and
a missing container is only found when there has been no event. -/
def Consistent (t : Task) : Prop :=
  match t.background, t.stage with
  | some (.issue _ previous), _ => Settled uuid s ∧ previous = currentState uuid s
  | some (.calling _ previous), _ => Reported uuid s previous
  | some (.finished previous), _ => Reported uuid s previous ∧
      (s.containers (DockerManager.containerName uuid)).isSome
  | none, .inside _ (.lookup) | none, .inside _ (.pull _) | none, .inside _ (.create _) =>
    s.events = []
  | none, .inside _ (.start previous) => Settled uuid s ∧ previous = currentState uuid s
  | none, .inside _ (.starting previous) => Reported uuid s previous
  | none, .inside _ (.started previous) => Reported uuid s previous ∧
      (s.containers (DockerManager.containerName uuid)).isSome
  | none, .inside _ _ | none, .leaving _ _ => Settled uuid s
  | none, _ => True

end Events

section Consistent

variable {serde : Serde} {uuid : String} {s s' : Store} {t : Task} {answer : Answer}
  {state : String}

theorem reported_of_nil (h : s.events = []) : Reported uuid s state := by
  intro event hevent
  rw [h] at hevent
  cases hevent

/-- The last event and the state of the container are all that counts. -/
theorem Reported.congr (h : Reported uuid s state) (hevents : s'.events = s.events)
    (hcontainer : s'.containers (DockerManager.containerName uuid) =
      s.containers (DockerManager.containerName uuid)) : Reported uuid s' state := by
  unfold Reported
  rw [hevents, hcontainer]
  exact h

theorem Settled.congr (h : Settled uuid s) (hevents : s'.events = s.events)
    (hcontainer : s'.containers (DockerManager.containerName uuid) =
      s.containers (DockerManager.containerName uuid)) : Settled uuid s' := by
  unfold Settled currentState
  rw [hcontainer]
  exact Reported.congr h hevents hcontainer

theorem consistent_of_not_busy (h : t.busy = false) : Consistent uuid s t := by
  obtain ⟨request, stage, background⟩ := t
  cases background with
  | some b => cases stage <;> cases h
  | none =>
    cases stage with
    | inside | leaving => cases h
    | _ => trivial

/-- An event that is emitted goes on from the last one, and reports the state the container is
in. -/
theorem settled_emit {previous : String} (h : Reported uuid s previous)
    (hcontainer : (s.containers (DockerManager.containerName uuid)).isSome) {q : DockerQuery}
    (hanswer : answer = .ok (s.containers (DockerManager.containerName uuid)).toList) :
    Settled uuid ((s.query q).emit (stateChanged uuid previous (stateOf answer))) ∧
      (Chained s → Chained ((s.query q).emit (stateChanged uuid previous (stateOf answer)))) := by
  have hstate : stateOf answer = currentState uuid s := by
    subst hanswer
    unfold currentState
    cases s.containers (DockerManager.containerName uuid) <;> rfl
  rw [hstate]
  refine ⟨fun event hevent => ?_, fun hchained => ?_⟩
  · cases hevent
    exact ⟨hcontainer, rfl⟩
  · exact hchained.cons fun event hevent => (h event hevent).2.symm

/-- A turn in the section, told the truth. -/
theorem pointTurn_consistent (serde : Serde) {point : Point} (hpower : point.ofPower) {lock : Nat}
    {request : GrpcRequest}
    (h : Consistent uuid s ⟨request, .inside lock point, none⟩)
    (hanswer : Answers uuid s ⟨request, .inside lock point, none⟩ .handler answer)
    {next : Point ⊕ Bool} {spawned : Option Background}
    (hturn : pointTurn serde uuid answer s point = (s', next, spawned)) :
    Consistent uuid s' ⟨request, next.elim (.inside lock) (.leaving lock), spawned⟩ ∧
      (Chained s → Chained s') := by
  cases point with
  | power action =>
    simp only [pointTurn] at hturn
    split at hturn
    · cases hturn
      exact ⟨h, fun h => h⟩
    · split at hturn
      · cases hturn
        refine ⟨?_, fun h => h⟩
        have hstatus : statusOf answer = s.containers (DockerManager.containerName uuid) := by
          rw [show answer = _ from hanswer]
          cases s.containers (DockerManager.containerName uuid) <;> rfl
        rw [hstatus]
        split
        next => exact h
        next hmissing =>
          -- No container is listed, so there has been no event.
          cases hevents : s.events with
          | nil => exact hevents
          | cons event events =>
            exact absurd (h event (by rw [hevents]; rfl)).1 hmissing
      · cases hturn
        exact ⟨h, fun h => h⟩
  | lookup =>
    simp only [pointTurn] at hturn
    split at hturn
    · cases hturn
      exact ⟨h, fun h => h⟩
    · cases hturn
      exact ⟨reported_of_nil h, fun h => h⟩
  | pull config =>
    cases answer with
    | ok items =>
      cases hturn
      exact ⟨h, fun h => h⟩
    | error message =>
      cases hturn
      exact ⟨reported_of_nil h, fun h => h⟩
  | create config =>
    cases answer with
    | ok items =>
      cases hturn
      exact ⟨reported_of_nil h, fun h => h⟩
    | error message =>
      cases hturn
      exact ⟨reported_of_nil h, fun h => h⟩
  | before action =>
    have hstate : stateOf answer = currentState uuid s := by
      rw [show answer = _ from hanswer]
      unfold currentState
      cases s.containers (DockerManager.containerName uuid) <;> rfl
    simp only [pointTurn] at hturn
    split at hturn
    · cases hturn
      exact ⟨⟨h, hstate⟩, fun h => h⟩
    · cases hturn
      exact ⟨⟨h, hstate⟩, fun h => h⟩
  | start previous =>
    cases hturn
    obtain ⟨hsettled, rfl⟩ := h
    exact ⟨hsettled, fun h => h⟩
  | starting previous =>
    cases answer with
    | ok items =>
      cases hturn
      exact ⟨⟨h, hanswer⟩, fun h => h⟩
    | error message =>
      cases hturn
      refine ⟨?_, fun h => h⟩
      have hsame : currentState uuid s = previous := hanswer
      change Reported uuid s (currentState uuid s)
      rw [hsame]
      exact h
  | started previous =>
    cases hturn
    exact settled_emit h.1 h.2 hanswer
  | update | read | store | stop | remove | dropBuffer | removeConfig | removeLock => cases hpower

/-- A turn in the background, told the truth. -/
theorem backgroundTurn_consistent {request : GrpcRequest} {stage : Stage} {b : Background}
    (h : Consistent uuid s ⟨request, stage, some b⟩)
    (hanswer : Answers uuid s ⟨request, stage, some b⟩ .background answer)
    {next : Option Background} (hturn : backgroundTurn uuid answer s b = (s', next)) :
    (∀ b', next = some b' → Consistent uuid s' ⟨request, stage, some b'⟩) ∧
      (next = none → Settled uuid s') ∧ (Chained s → Chained s') := by
  cases b with
  | issue action previous =>
    cases hturn
    obtain ⟨hsettled, rfl⟩ := h
    exact ⟨fun b' hb => by cases hb; exact hsettled, fun h => (nomatch h), fun h => h⟩
  | calling action previous =>
    cases answer with
    | ok items =>
      cases hturn
      exact ⟨fun b' hb => by cases hb; exact ⟨h, hanswer⟩, fun h => (nomatch h), fun h => h⟩
    | error message =>
      cases hturn
      refine ⟨fun _ h => (nomatch h), fun _ => ?_, fun h => h⟩
      have hsame : currentState uuid s = previous := hanswer
      change Reported uuid s (currentState uuid s)
      rw [hsame]
      exact h
  | finished previous =>
    cases hturn
    obtain ⟨hsettled, hchained⟩ := settled_emit h.1 h.2 (q := .listContainers _) hanswer
    exact ⟨fun _ h => (nomatch h), fun _ => hsettled, hchained⟩

/-- A turn of a busy power action, told the truth: what it knows afterwards, and that the events
are in order. -/
theorem taskTurn_consistent (serde : Serde) (ht : PowerTask uuid t) (hbusy : t.busy = true)
    (h : Consistent uuid s t) {strand : Strand} (hanswer : Answers uuid s t strand answer) :
    Consistent uuid (taskTurn serde strand answer s t).1 (taskTurn serde strand answer s t).2 ∧
      ((taskTurn serde strand answer s t).2.busy = false →
        Settled uuid (taskTurn serde strand answer s t).1) ∧
      (Chained s → Chained (taskTurn serde strand answer s t).1) := by
  obtain ⟨request, stage, background⟩ := t
  obtain ⟨action, rfl⟩ := ht.request
  cases strand with
  | handler =>
    cases stage with
    | inside lock point =>
      have hnone : background = none := by
        by_contra hne
        obtain ⟨_, _, h⟩ | h := ht.background hne <;> cases h
      subst hnone
      obtain ⟨hconsistent, hchained⟩ := pointTurn_consistent serde (ht.point lock point rfl) h hanswer rfl
      simp only [taskTurn, handlerTurn, guarded_power, Option.or_none]
      refine ⟨hconsistent, fun hover => ?_, hchained⟩
      revert hover
      cases (pointTurn serde uuid answer s point).2.1 <;>
        cases (pointTurn serde uuid answer s point).2.2 <;> exact fun hover => by cases hover
    | leaving lock ok =>
      cases background with
      | none => exact ⟨trivial, fun _ => h, fun h => h⟩
      | some b => exact ⟨by cases b <;> exact h, fun hover => (by cases hover), fun h => h⟩
    | arrived | waiting =>
      cases background with
      | none => cases hbusy
      | some b => obtain ⟨_, _, h⟩ | h := ht.background (Option.some_ne_none b) <;> cases h
    | answered =>
      refine ⟨h, fun hover => ?_, fun h => h⟩
      cases hbusy.symm.trans hover
  | background =>
    cases background with
    | none =>
      refine ⟨h, fun hover => ?_, fun h => h⟩
      cases hbusy.symm.trans hover
    | some b =>
      obtain ⟨hnext, hsettled, hchained⟩ := backgroundTurn_consistent h hanswer rfl
      have hstage := ht.background (Option.some_ne_none b)
      simp only [taskTurn, guarded_power]
      refine ⟨?_, fun hover => ?_, hchained⟩
      · cases hresult : (backgroundTurn uuid answer s b).2 with
        | some b' => exact hnext b' hresult
        | none =>
          obtain ⟨lock, ok, rfl⟩ | rfl := hstage
          · exact hsettled hresult
          · trivial
      · cases hresult : (backgroundTurn uuid answer s b).2 with
        | some b' =>
          rw [hresult] at hover
          cases stage <;> cases hover
        | none => exact hsettled hresult

/-- A turn of a task that is not busy changes neither the events nor the containers. -/
theorem taskTurn_idle (serde : Serde) (answer : Answer) (s : Store) (strand : Strand)
    (ht : PowerTask uuid t) (hbusy : t.busy = false) :
    (taskTurn serde strand answer s t).1.events = s.events ∧
      (taskTurn serde strand answer s t).1.containers = s.containers ∧
      ((taskTurn serde strand answer s t).2.busy = true → Settled uuid s →
        Consistent uuid s (taskTurn serde strand answer s t).2) := by
  obtain ⟨request, stage, background⟩ := t
  obtain ⟨action, rfl⟩ := ht.request
  cases background with
  | some b => cases stage <;> cases hbusy
  | none =>
    cases strand with
    | background => exact ⟨rfl, rfl, fun h => by cases hbusy.symm.trans h⟩
    | handler =>
      cases stage with
      | arrived =>
        simp only [taskTurn, handlerTurn, guarded_power, Store.getLock]
        split <;> exact ⟨rfl, rfl, fun h => by cases h⟩
      | waiting lock =>
        simp only [taskTurn, handlerTurn, guardedSection]
        split
        · exact ⟨rfl, rfl, fun h => by cases h⟩
        · exact ⟨rfl, rfl, fun _ h => h⟩
      | inside | leaving => cases hbusy
      | answered => exact ⟨rfl, rfl, fun h => by cases h⟩

end Consistent

/-! ## Runs -/

/-- One action at a time, each knows where the last event left the container, and the events
are in order. -/
structure InOrder (uuid : String) (p : State) : Prop where
  serial : Serial uuid p
  consistent : ∀ t ∈ p.tasks, Consistent uuid p.store t
  settled : p.count Task.busy = 0 → Settled uuid p.store
  chained : Chained p.store

section Runs

variable {serde : Serde} {uuid : String} {p p' : State}

/-- Of two elements that pass a test which at most one passes, one is the other. -/
theorem eq_of_countP_le_one {α : Type} {q : α → Bool} {l : List α} (h : l.countP q ≤ 1) {x y : α}
    (hx : x ∈ l) (hy : y ∈ l) (hqx : q x = true) (hqy : q y = true) : x = y := by
  rw [List.countP_eq_length_filter] at h
  have hx' : x ∈ l.filter q := List.mem_filter.mpr ⟨hx, hqx⟩
  have hy' : y ∈ l.filter q := List.mem_filter.mpr ⟨hy, hqy⟩
  match hl : l.filter q with
  | [] =>
    rw [hl] at hx'
    cases hx'
  | [z] =>
    rw [hl] at hx' hy'
    rw [List.mem_singleton.mp hx', List.mem_singleton.mp hy']
  | _ :: _ :: _ =>
    rw [hl] at h
    exact absurd h (by simp)

/-- Beside a busy task, no other one is busy. -/
theorem Serial.others_not_busy (hp : Serial uuid p) {i : Nat} {t : Task} (ht : p.tasks[i]? = some t)
    (hbusy : t.busy = true) : ∀ u ∈ p.tasks.eraseIdx i, u.busy = false := by
  obtain ⟨hi, rfl⟩ := List.getElem?_eq_some_iff.mp ht
  have hone := hp.busy
  rw [Pool.count, ← (List.getElem_cons_eraseIdx_perm hi).countP_eq Task.busy,
    List.countP_cons_of_pos hbusy] at hone
  have hzero : (p.tasks.eraseIdx i).countP Task.busy = 0 := by omega
  intro u hu
  exact Bool.eq_false_iff.mpr (List.countP_eq_zero.mp hzero u hu)

/-- What a task knows only depends on the events and on the container. -/
theorem Consistent.congr {s s' : Store} {t : Task} (h : Consistent uuid s t)
    (hevents : s'.events = s.events) (hcontainers : s'.containers = s.containers) :
    Consistent uuid s' t := by
  unfold Consistent Settled Reported currentState at h ⊢
  rw [hevents, hcontainers]
  exact h

theorem InOrder.of_idle (h : Idle p) (hevents : p.store.events = []) : InOrder uuid p := by
  refine ⟨.of_idle h, fun t ht => ?_, fun _ => reported_of_nil hevents, ?_⟩
  · rw [h.1] at ht
    cases ht
  · rw [Chained, hevents]
    exact .nil

/-- A turn that is told the truth. -/
theorem InOrder.turn (hp : InOrder uuid p) {i : Nat} {strand : Strand} {answer : Answer}
    (hserial : Serial uuid p') (htruth : Undisturbed uuid p (.turn i (strand, answer)))
    (h : (tasks serde).step p (.turn i (strand, answer)) = some p') : InOrder uuid p' := by
  obtain ⟨t, ht, hstore, htasks⟩ := step_turn h
  have hmem := List.mem_of_getElem? ht
  have hpower := hp.serial.tasks t hmem
  have hcount := count_turn not_over_of_busy ht h
  cases hbusy : t.busy with
  | true =>
    obtain ⟨hconsistent, hsettled, hchained⟩ := taskTurn_consistent serde hpower hbusy
      (hp.consistent t hmem) (htruth t ht)
    rw [← hstore] at hconsistent hsettled hchained
    refine ⟨hserial, fun u hu => ?_, fun hzero => hsettled ?_, hchained hp.chained⟩
    · rcases mem_turn ht h hu with rfl | hu
      · exact hconsistent
      · exact consistent_of_not_busy (hp.serial.others_not_busy ht hbusy u hu)
    · cases hafter : (taskTurn serde strand answer p.store t).2.busy with
      | false => rfl
      | true =>
        rw [hzero, hbusy, hafter] at hcount
        have hpos : 0 < p.count Task.busy := List.countP_pos_iff.mpr ⟨t, hmem, hbusy⟩
        simp only [if_true] at hcount
        omega
  | false =>
    obtain ⟨hevents, hcontainers, hentered⟩ := taskTurn_idle serde answer p.store
      strand hpower hbusy
    rw [← hstore] at hevents hcontainers
    rw [hbusy] at hcount
    simp only [Bool.false_eq_true, if_false, Nat.add_zero] at hcount
    refine ⟨hserial, fun u hu => ?_, fun hzero => ?_, ?_⟩
    · rcases mem_turn ht h hu with rfl | hu
      · cases hafter : (taskTurn serde strand answer p.store t).2.busy with
        | false => exact consistent_of_not_busy hafter
        | true =>
          rw [hafter] at hcount
          simp only [if_true] at hcount
          have hone := hserial.busy
          exact (hentered hafter (hp.settled (by omega))).congr hevents hcontainers
      · exact (hp.consistent u (List.mem_of_mem_eraseIdx hu)).congr hevents hcontainers
    · exact (hp.settled (by omega)).congr hevents (by rw [hcontainers])
    · rw [Chained, hevents]
      exact hp.chained

/-- A change of a container from outside. -/
theorem InOrder.outside (hp : InOrder uuid p) {event : String × Option String}
    (hserial : Serial uuid ⟨p.store.setContainer event.1 event.2, p.tasks⟩)
    (hundisturbed : Undisturbed uuid p (.outside event)) :
    InOrder uuid ⟨p.store.setContainer event.1 event.2, p.tasks⟩ := by
  obtain ⟨name, state⟩ := event
  by_cases hname : name = DockerManager.containerName uuid
  · obtain ⟨hout, hbefore, hafter⟩ := hundisturbed hname
    subst hname
    have hcontainer : (p.store.setContainer (DockerManager.containerName uuid) state).containers
        (DockerManager.containerName uuid) = state := if_pos rfl
    -- The one task that is busy waits for a power call.
    obtain ⟨t, htmem, htbusy, htwaits⟩ : ∃ t ∈ p.tasks, t.busy = true ∧
        (t.starting = true ∨ t.calling = true) := by
      rcases Nat.add_pos_iff_pos_or_pos.mp hout with hpos | hpos
      · obtain ⟨t, ht, hstarting⟩ := List.countP_pos_iff.mp hpos
        refine ⟨t, ht, ?_, .inl hstarting⟩
        obtain ⟨request, stage, background⟩ := t
        cases stage with
        | inside lock point => rfl
        | _ => cases hstarting
      · obtain ⟨t, ht, hcalling⟩ := List.countP_pos_iff.mp hpos
        refine ⟨t, ht, ?_, .inr hcalling⟩
        obtain ⟨request, stage, background⟩ := t
        cases background with
        | some b => cases stage <;> rfl
        | none => cases hcalling
    refine ⟨hserial, fun u hu => ?_, fun hzero => ?_, hp.chained⟩
    · cases hbusy : u.busy with
      | false => exact consistent_of_not_busy hbusy
      | true =>
        cases eq_of_countP_le_one hp.serial.busy htmem hu htbusy hbusy
        have hknown := hp.consistent t htmem
        have hkeep : ∀ previous, Reported uuid p.store previous →
            Reported uuid (p.store.setContainer (DockerManager.containerName uuid) state) previous := by
          intro previous h event hevent
          rw [hcontainer]
          exact ⟨hafter, (h event hevent).2⟩
        obtain ⟨request, stage, background⟩ := t
        rcases htwaits with hstarting | hcalling
        · cases stage with
          | inside lock point =>
            cases point with
            | starting previous =>
              cases background with
              | none => exact hkeep previous hknown
              | some b =>
                obtain ⟨_, _, h⟩ | h :=
                  (hp.serial.tasks _ htmem).background (Option.some_ne_none b) <;> cases h
            | _ => cases hstarting
          | _ => cases hstarting
        · cases background with
          | some b =>
            cases b with
            | calling action previous => exact hkeep previous hknown
            | _ => cases hcalling
          | none => cases hcalling
    · have hpos : 0 < p.count Task.busy := List.countP_pos_iff.mpr ⟨t, htmem, htbusy⟩
      exact absurd hzero (Nat.pos_iff_ne_zero.mp hpos)
  · have hcontainer : (p.store.setContainer name state).containers
        (DockerManager.containerName uuid) =
        p.store.containers (DockerManager.containerName uuid) := if_neg (Ne.symm hname)
    refine ⟨hserial, fun u hu => ?_, fun hzero => (hp.settled hzero).congr rfl hcontainer, hp.chained⟩
    have hknown := hp.consistent u hu
    unfold Consistent Settled Reported currentState at hknown ⊢
    rw [hcontainer]
    exact hknown

theorem InOrder.step (hp : InOrder uuid p) {l : Label} (honly : PowerOnly uuid l)
    (halone : EntersAlone uuid p l) (hundisturbed : Undisturbed uuid p l)
    (h : (tasks serde).step p l = some p') : InOrder uuid p' := by
  have hserial := hp.serial.step honly halone h
  cases l with
  | start t =>
    obtain ⟨ht, rfl⟩ := step_start h
    refine ⟨hserial, fun u hu => ?_, fun hzero => hp.settled ?_, hp.chained⟩
    · rcases List.mem_cons.mp hu with rfl | hu
      · rw [ht]
        trivial
      · exact hp.consistent u hu
    · rw [Pool.count_start h, ht] at hzero
      exact hzero
  | turn i reply => exact hp.turn hserial hundisturbed h
  | outside event =>
    cases step_outside h
    exact hp.outside hserial hundisturbed

/-- In every run of power actions on one server, in which none is let into its section while
another one is still running in the background: at most one power call is outstanding in every
state, and as long as no other actor changes the container and Docker answers, each event goes
on from the state the one before it reported. -/
theorem power_actions_in_order (hidle : Idle p) (hevents : p.store.events = []) {ls : List Label}
    (honly : ∀ l ∈ ls, PowerOnly uuid l)
    (halone : Along (tasks serde).step (EntersAlone uuid) p ls) :
    ∀ ks, ks <+: ls → ∀ p', run (tasks serde).step p ks = some p' →
      outstanding p' ≤ 1 ∧
        (Along (tasks serde).step (Undisturbed uuid) p ks → Chained p'.store) := by
  rintro ks ⟨rest, rfl⟩ p' hrun
  have honly' : Along (tasks serde).step (fun _ l => PowerOnly uuid l) p ks :=
    along_of_forall fun l hl _ => honly l (List.mem_append_left rest hl)
  have halone' := along_and.mpr ⟨honly', (along_append.mp halone).1⟩
  refine ⟨?_, fun hundisturbed => ?_⟩
  · have hserial : Serial uuid p' :=
      run_invariant (fun _ _ _ hq hl hstep => Serial.step hq hl.1 hl.2 hstep) (.of_idle hidle)
        halone' hrun
    exact hserial.outstanding_le
  · have hinOrder : InOrder uuid p' :=
      run_invariant (fun _ _ _ hq hl hstep => InOrder.step hq hl.1.1 hl.1.2 hl.2 hstep)
        (.of_idle hidle hevents) (along_and.mpr ⟨halone', hundisturbed⟩) hrun
    exact hinOrder.chained

end Runs

/-! ## A kill after a stop -/

section Counterexample

/-- A service with one server whose container is running. -/
def runningService : State := Service.started emptyApp fun _ => some "running"

/-- A start arrives while a stop is running in the background, and is let in when the stop has
reported the end of the container. -/
def stopThenStart : List Label :=
  [arrives (.sendPowerAction "u" 1), handles 0 (.ok []), handles 0 (.ok []),
    handles 0 (.ok ["running"]), handles 0 (.ok ["running"]), handles 0 (.ok []),
    arrives (.sendPowerAction "u" 0), handles 0 (.ok []), runs 1 (.ok []),
    .outside (DockerManager.containerName "u", some "exited"), runs 0 (.ok []),
    runs 0 (.ok ["exited"]), handles 0 (.ok []), handles 0 (.ok ["exited"]),
    handles 0 (.ok ["exited"]), handles 0 (.ok []),
    .outside (DockerManager.containerName "u", some "running"), handles 0 (.ok []),
    handles 0 (.ok ["running"]), handles 0 (.ok [])]

/-- The start goes on from the state the stop has reported. -/
theorem in_order_stop :
    (∃ p', run (tasks .framed).step runningService stopThenStart = some p' ∧ p'.store.events =
      [stateChanged "u" "exited" "running", stateChanged "u" "running" "exited"]) ∧
    Along (tasks .framed).step (Undisturbed "u") runningService stopThenStart ∧
    Always (tasks .framed).step (fun ks p' => outstanding p' ≤ 1 ∧
        (Along (tasks .framed).step (Undisturbed "u") runningService ks → Chained p'.store))
      runningService stopThenStart := by
  refine ⟨⟨_, rfl, ?_⟩, ?_, power_actions_in_order ⟨rfl, rfl⟩ rfl (fun l hl => ?_) ?_⟩
  · decide +kernel
  · decide +kernel
  · cases l with
    | start t =>
      simp only [stopThenStart, arrives, handles, runs, List.mem_cons, reduceCtorEq, false_or,
        List.not_mem_nil, or_false, PoolLabel.start.injEq] at hl
      obtain rfl | rfl := hl
      · exact ⟨1, rfl⟩
      · exact ⟨0, rfl⟩
    | turn | outside => trivial
  · decide +kernel

/-- A stop is answered and goes on in the background; a kill is let in, and both issue their
calls. -/
def killWhileStopping : List Label :=
  [arrives (.sendPowerAction "u" 1), handles 0 (.ok []), handles 0 (.ok []), handles 0 (.ok []),
    handles 0 (.ok ["running"]), handles 0 (.ok []),
    arrives (.sendPowerAction "u" 3), handles 0 (.ok []), handles 0 (.ok []), handles 0 (.ok []),
    handles 0 (.ok ["running"]), runs 0 (.ok []), runs 1 (.ok [])]

/-- The container exits, the calls return, and each part reports what it found. -/
def bothReport : List Label :=
  [.outside (DockerManager.containerName "u", some "exited"), runs 0 (.ok []), runs 1 (.ok []),
    runs 0 (.ok ["exited"]), runs 1 (.ok ["exited"])]

theorem power_actions_overlap :
    (∃ p', run (tasks .framed).step runningService killWhileStopping = some p' ∧
      ¬outstanding p' ≤ 1) ∧
    ∃ p', run (tasks .framed).step runningService (killWhileStopping ++ bothReport) = some p' ∧
      ¬Chained p'.store := by
  refine ⟨⟨_, rfl, ?_⟩, _, rfl, ?_⟩
  · decide +kernel
  · decide +kernel

end Counterexample

end Wings.Service
