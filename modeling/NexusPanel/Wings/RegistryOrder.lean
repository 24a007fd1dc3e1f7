import Mathlib.Data.List.Permutation
import NexusPanel.Wings.Deletion
import NexusPanel.Wings.MutualExclusion

/-!
# Updates of the registry

Updating the resources of a server reads its configuration, changes the limits and stores the
whole record. Synchronising a configuration and reinstalling a server store one without taking
the mutex, so either can come between the reading and the storing, and what it stored is then
overwritten with what the update had read.

As long as nothing is stored or removed in between, the requests take effect one at a time:
the registry in memory and on disk is what it would be if they had been served one after the
other.
-/

namespace Wings.Service

open Transition

/-! ## Serving one request after the other -/

/-- The two states have the same registry, in memory and on disk. -/
structure SameRegistry (s s' : AppState) : Prop where
  memory : s'.serverConfigs = s.serverConfigs
  disk : s'.fs = s.fs
  config : s'.config = s.config

/-- The requests, served one after the other, with these results, take the registry of the
first state to that of the last one. What Docker answers, and what else has happened to the
state in between, is left open. -/
inductive OneByOne (serde : Serde) : AppState → List (GrpcRequest × Bool) → AppState → Prop
  | nil {s s' : AppState} (h : SameRegistry s s') : OneByOne serde s [] s'
  | cons {s u s' : AppState} {request : GrpcRequest} {rest : List (GrpcRequest × Bool)}
    (h : SameRegistry s u)
    (hrest : OneByOne serde (Grpc.serve serde request u).2 rest s') :
    OneByOne serde s ((request, (Grpc.serve serde request u).1.isOk) :: rest) s'

/-- The request that arrives with the step. -/
def arrival : Label → Option GrpcRequest
  | .start t => some t.request
  | _ => none

/-- The requests that have arrived on the way left the registry as if they had been served in
some order from the first state, with the results they had. -/
def Serialised (serde : Serde) (p : State) (ls : List Label) (p' : State) : Prop :=
  ∃ order, (order.map Prod.fst).Perm (ls.filterMap arrival) ∧ order.Perm p'.store.responses ∧
    OneByOne serde p.store.app order p'.store.app

/-- The requests that write the registry of a server and belong to it. -/
def WritesOf (uuid : String) : GrpcRequest → Prop
  | .syncServerConfig server | .reinstallServer server _ _ => ∀ cfg ∈ server, cfg.uuid = uuid
  | .updateResources u _ _ _ | .deleteServer u _ => u = uuid
  | _ => False

/-- Only requests that write the registry of the server arrive. -/
def WritesOnly (uuid : String) : Label → Prop
  | .start t => WritesOf uuid t.request
  | _ => True

/-- The next turn of the handler stores or removes a configuration. -/
def Task.writes (t : Task) : Bool :=
  match t.stage, t.request with
  | .arrived, .syncServerConfig (some _) | .arrived, .reinstallServer (some _) _ _
  | .inside _ (.store _), _ | .inside _ .removeConfig, _ => true
  | _, _ => false

/-- The handler has read a configuration and is about to store it. -/
def Task.storing (t : Task) : Bool :=
  match t.stage with
  | .inside _ (.store _) => true
  | _ => false

/-- Where the step stores or removes a configuration, no other request is between reading one
and storing it. -/
def NotBetween (p : State) : Label → Prop
  | .turn i (.handler, _) => ∀ t ∈ p.tasks[i]?, t.writes = true →
      ∀ u ∈ p.tasks.eraseIdx i, u.storing = false
  | _ => True

instance (p : State) : ∀ l, Decidable (NotBetween p l)
  | .turn i (.handler, _) =>
    inferInstanceAs (Decidable (∀ t ∈ p.tasks[i]?, _ → ∀ u ∈ p.tasks.eraseIdx i, _))
  | .turn _ (.background, _) | .start _ | .outside _ => isTrue trivial

/-! ## The effect of a request -/

theorem SameRegistry.refl (s : AppState) : SameRegistry s s := ⟨rfl, rfl, rfl⟩

/-- What has been spawned does not count. -/
theorem SameRegistry.spawned (s : AppState) (spawned : List Spawned) :
    SameRegistry s { s with spawned } := ⟨rfl, rfl, rfl⟩

theorem SameRegistry.symm {s s' : AppState} (h : SameRegistry s s') : SameRegistry s' s :=
  ⟨h.memory.symm, h.disk.symm, h.config.symm⟩

theorem SameRegistry.trans {s s' s'' : AppState} (h : SameRegistry s s')
    (h' : SameRegistry s' s'') : SameRegistry s s'' :=
  ⟨h'.memory.trans h.memory, h'.disk.trans h.disk, h'.config.trans h.config⟩

section Effect

variable (serde : Serde)

/-- What a request with the given result does to the registry. -/
def effect (s : AppState) : GrpcRequest × Bool → AppState
  | (.syncServerConfig (some cfg), true) | (.reinstallServer (some cfg) _ _, true) =>
    (AppState.storeServerConfig serde (Grpc.toDockerConfig cfg) s).2
  | (.updateResources uuid memory cpu disk, true) =>
    match s.serverConfigs.lookup uuid with
    | some config => (AppState.storeServerConfig serde { config with
        memoryLimit := memory, cpuLimit := cpu.toUInt64, diskLimit := disk } s).2
    | none => s
  | (.deleteServer uuid _, true) => (AppState.removeServerConfig uuid s).2
  | _ => s

/-- The results a request can have: storing a configuration cannot fail, and a missing one
cannot be stored. -/
def Possible : GrpcRequest × Bool → Prop
  | (.syncServerConfig server, ok) | (.reinstallServer server _ _, ok) => ok = server.isSome
  | (.updateResources _ _ _ _, _) | (.deleteServer _ _, _) => True
  | _ => False

variable {serde} {s u : AppState}

theorem SameRegistry.store (h : SameRegistry s u) (config : ServerConfig) :
    SameRegistry (AppState.storeServerConfig serde config s).2
      (AppState.storeServerConfig serde config u).2 := by
  obtain ⟨hmemory, hdisk, hconfig⟩ := h
  constructor <;>
    simp only [AppState.storeServerConfig, StateAction.modify, hmemory, hdisk, hconfig]

theorem SameRegistry.remove (h : SameRegistry s u) (uuid : String) :
    SameRegistry (AppState.removeServerConfig uuid s).2
      (AppState.removeServerConfig uuid u).2 := by
  obtain ⟨hmemory, hdisk, hconfig⟩ := h
  constructor <;>
    simp only [AppState.removeServerConfig, StateAction.modify, hmemory, hdisk, hconfig]

/-- The effect of a request only depends on the registry. -/
theorem SameRegistry.effect (serde : Serde) (h : SameRegistry s u) (r : GrpcRequest × Bool) :
    SameRegistry (effect serde s r) (effect serde u r) := by
  obtain ⟨request, ok⟩ := r
  cases ok with
  | false =>
    cases request with
    | syncServerConfig server | reinstallServer server _ _ => cases server <;> exact h
    | _ => exact h
  | true =>
    cases request with
    | syncServerConfig server =>
      cases server with
      | none => exact h
      | some cfg => exact h.store _
    | reinstallServer server script image =>
      cases server with
      | none => exact h
      | some cfg => exact h.store _
    | updateResources uuid memory cpu disk =>
      simp only [Service.effect, h.memory]
      cases s.serverConfigs.lookup uuid with
      | none => exact h
      | some config => exact h.store _
    | deleteServer uuid removeVolumes => exact h.remove uuid
    | _ => exact h

theorem SameRegistry.foldl (serde : Serde) (order : List (GrpcRequest × Bool)) {s u : AppState}
    (h : SameRegistry s u) : SameRegistry (order.foldl (Service.effect serde) s)
      (order.foldl (Service.effect serde) u) := by
  induction order generalizing s u with
  | nil => exact h
  | cons r order ih => exact ih (h.effect serde r)

/-- The effect of a request, when it is served in one go. -/
theorem serve_effect (serde : Serde) {uuid : String} {request : GrpcRequest} (h : WritesOf uuid request)
    (u : AppState) : SameRegistry (Service.effect serde u
      (request, (Grpc.serve serde request u).1.isOk)) (Grpc.serve serde request u).2 := by
  cases request with
  | syncServerConfig server =>
    cases server with
    | none => exact ⟨rfl, rfl, rfl⟩
    | some cfg =>
      simp only [Grpc.serve, Grpc.syncServerConfig, Grpc.internal, StateAction.ofOption, StateAction.mapErr,
        bind, Bind.bind, pure, Pure.pure, AppState.storeServerConfig, StateAction.modify, Except.isOk,
        Except.toBool, Service.effect]
      exact .refl _
  | reinstallServer server script image =>
    cases server with
    | none => exact ⟨rfl, rfl, rfl⟩
    | some cfg =>
      simp only [Grpc.serve, Grpc.reinstallServer, Grpc.internal, Grpc.spawn, StateAction.ofOption,
        StateAction.mapErr, bind, Bind.bind, pure, Pure.pure, AppState.storeServerConfig, StateAction.modify,
        Except.isOk, Except.toBool, Service.effect]
      constructor <;> rfl
  | updateResources v memory cpu disk =>
    simp only [Grpc.serve, Grpc.updateResources, Grpc.internal, StateAction.mapErr, bind, Bind.bind, dockerCall, ask,
      StateAction.get, StateAction.modify]
    cases u.docker.answers u.docker.asked with
    | error message => exact ⟨rfl, rfl, rfl⟩
    | ok items =>
      simp only [pure, Pure.pure, AppState.getServerConfig, bind, Bind.bind, StateAction.get]
      cases hlookup : u.serverConfigs.lookup v with
      | none =>
        simp only [Except.isOk, Except.toBool, Service.effect, hlookup]
        constructor <;> rfl
      | some config =>
        simp only [Except.isOk, Except.toBool, Service.effect, hlookup,
          AppState.storeServerConfig, StateAction.modify]
        constructor <;> rfl
  | deleteServer v removeVolumes =>
    simp only [Grpc.serve, Grpc.deleteServer, Grpc.internal, StateAction.mapErr, bind, Bind.bind,
      deleteServer_eq]
    cases u.docker.answers (u.docker.asked + 1) with
    | error message => exact ⟨rfl, rfl, rfl⟩
    | ok items =>
      simp only [StateAction.modify, AppState.removeServerConfig, pure, Pure.pure, Except.isOk,
        Except.toBool, Service.effect]
      constructor <;> rfl
  | _ => exact h.elim

/-- Every possible result is one for some answers of Docker. -/
theorem serve_possible (serde : Serde) {request : GrpcRequest} {ok : Bool} (h : Possible (request, ok))
    (s : AppState) : ∃ u, SameRegistry s u ∧ (Grpc.serve serde request u).1.isOk = ok := by
  refine ⟨{ s with docker := { s.docker with
    answers := fun _ => if ok then .ok [] else .error "" } }, ⟨rfl, rfl, rfl⟩, ?_⟩
  cases request with
  | syncServerConfig server | reinstallServer server script image =>
    cases server <;> exact h.symm
  | updateResources v memory cpu disk =>
    simp only [Grpc.serve, Grpc.updateResources, Grpc.internal, StateAction.mapErr, bind, Bind.bind, dockerCall, ask,
      StateAction.get, StateAction.modify]
    cases ok with
    | false => rfl
    | true =>
      simp only [if_true, pure, Pure.pure, AppState.getServerConfig, bind, Bind.bind, StateAction.get]
      cases s.serverConfigs.lookup v <;> rfl
  | deleteServer v removeVolumes =>
    simp only [Grpc.serve, Grpc.deleteServer, Grpc.internal, StateAction.mapErr, bind, Bind.bind,
      deleteServer_eq]
    cases ok <;> rfl
  | _ => exact h.elim

end Effect

section Order

variable {serde : Serde} {s s' s'' : AppState} {order : List (GrpcRequest × Bool)}
  {uuid : String} {request : GrpcRequest} {ok : Bool}

theorem OneByOne.congr (h : OneByOne serde s order s') (h' : SameRegistry s' s'') :
    OneByOne serde s order s'' := by
  induction h with
  | nil h => exact .nil (h.trans h')
  | cons h _ ih => exact .cons h (ih h')

/-- One more request takes effect behind the others. -/
theorem OneByOne.snoc (h : OneByOne serde s order s') (hwrites : WritesOf uuid request)
    (hpossible : Possible (request, ok))
    (heffect : SameRegistry (effect serde s' (request, ok)) s'') :
    OneByOne serde s (order ++ [(request, ok)]) s'' := by
  induction h with
  | nil h =>
    rename_i s₀ s₁
    obtain ⟨u, hu, hok⟩ := serve_possible serde hpossible s₀
    subst hok
    have hserve := serve_effect serde hwrites u
    have hsame := (hu.symm.trans h).effect serde (request, (Grpc.serve serde request u).1.isOk)
    exact .cons hu (.nil ((hserve.symm.trans hsame).trans heffect))
  | cons h _ ih => exact .cons h (ih heffect)

/-- What the requests do to the registry, one after the other. -/
theorem OneByOne.effects (h : OneByOne serde s order s') (hwrites : ∀ r ∈ order, WritesOf uuid r.1) :
    SameRegistry (order.foldl (effect serde) s) s' := by
  induction h with
  | nil h => exact h
  | cons h _ ih =>
    rename_i s₀ u s₁ request rest _
    have hserve := serve_effect serde (hwrites _ List.mem_cons_self) u
    have hrest := ih fun r hr => hwrites r (List.mem_cons_of_mem _ hr)
    refine SameRegistry.trans ?_ hrest
    exact SameRegistry.foldl serde rest
      ((h.effect serde (request, (Grpc.serve serde request u).1.isOk)).trans hserve)

end Order

/-! ## What a turn does to the registry -/

/-- The result with which a request has already taken effect, before it is answered. -/
def Task.committed (t : Task) : Option (GrpcRequest × Bool) :=
  match t.stage with
  | .inside _ .removeLock => some (t.request, true)
  | .leaving _ ok => some (t.request, ok)
  | _ => none

/-- Where a request that writes the registry can be. One that is about to store a configuration
has read it off the registry. -/
inductive Writing (uuid : String) (s : AppState) : Task → Prop
  | arrived {request : GrpcRequest} (h : WritesOf uuid request) :
    Writing uuid s ⟨request, .arrived, none⟩
  | waiting {request : GrpcRequest} (h : WritesOf uuid request) (lock : Nat) :
    Writing uuid s ⟨request, .waiting lock, none⟩
  | update {memory disk : UInt64} {cpu : UInt32} (lock : Nat) : Writing uuid s
      ⟨.updateResources uuid memory cpu disk, .inside lock (.update memory cpu disk), none⟩
  | read {memory disk : UInt64} {cpu : UInt32} (lock : Nat) : Writing uuid s
      ⟨.updateResources uuid memory cpu disk, .inside lock (.read memory cpu disk), none⟩
  | store {memory disk : UInt64} {cpu : UInt32} (lock : Nat) {config : ServerConfig}
    (hread : s.serverConfigs.lookup uuid = some config) : Writing uuid s
      ⟨.updateResources uuid memory cpu disk, .inside lock (.store { config with
        memoryLimit := memory, cpuLimit := cpu.toUInt64, diskLimit := disk }), none⟩
  | delete {removeVolumes : Bool} (lock : Nat) {point : Point}
    (h : point ∈ [.stop removeVolumes, .remove removeVolumes, .dropBuffer, .removeConfig,
      .removeLock]) : Writing uuid s ⟨.deleteServer uuid removeVolumes, .inside lock point, none⟩
  | leaving {request : GrpcRequest} (h : WritesOf uuid request) (lock : Nat) (ok : Bool) :
    Writing uuid s ⟨request, .leaving lock ok, none⟩

/-- What a turn comes to: the request does not touch the registry, or takes effect, or is
answered with the result it has had. -/
inductive RegistryTurn (serde : Serde) (uuid : String) (s : Store) (t : Task) (s' : Store)
    (t' : Task) : Prop
  | untouched (hregistry : SameRegistry s.app s'.app) (hresponses : s'.responses = s.responses)
    (hcommitted : t'.committed = t.committed) (hwriting : Writing uuid s'.app t')
  | commits (ok : Bool) (hpossible : Possible (t.request, ok))
    (hwrites : t.writes = true ∨ SameRegistry s.app s'.app)
    (hregistry : SameRegistry (effect serde s.app (t.request, ok)) s'.app)
    (hresponses : s'.responses = s.responses) (hcommitted : t.committed = none)
    (hcommitted' : t'.committed = some (t.request, ok)) (hwriting : Writing uuid s'.app t')
  | answersAtOnce (ok : Bool) (hpossible : Possible (t.request, ok))
    (hwrites : t.writes = true ∨ SameRegistry s.app s'.app)
    (hregistry : SameRegistry (effect serde s.app (t.request, ok)) s'.app)
    (hresponses : s'.responses = (t.request, ok) :: s.responses) (hcommitted : t.committed = none)
    (hover : t'.over = true)
  | answers (c : GrpcRequest × Bool) (hregistry : SameRegistry s.app s'.app)
    (hresponses : s'.responses = c :: s.responses) (hcommitted : t.committed = some c)
    (hover : t'.over = true)

section Turns

variable {serde : Serde} {uuid : String} {s : Store} {t : Task} {answer : Answer}

theorem getLock_app (v : String) :
    (s.getLock v).2.app = s.app ∧ (s.getLock v).2.responses = s.responses := by
  unfold Store.getLock
  split <;> exact ⟨rfl, rfl⟩

theorem writesOf_update {memory disk : UInt64} {cpu : UInt32} :
    WritesOf uuid (.updateResources uuid memory cpu disk) := rfl

theorem writesOf_delete {removeVolumes : Bool} :
    WritesOf uuid (.deleteServer uuid removeVolumes) := rfl

theorem handlerTurn_registry (serde : Serde) (answer : Answer) (ht : Writing uuid s.app t) :
    RegistryTurn serde uuid s t (handlerTurn serde answer s t).1
      (handlerTurn serde answer s t).2 := by
  cases ht with
  | arrived h =>
    rename_i request
    cases request with
    | syncServerConfig server =>
      cases server with
      | none => exact .answersAtOnce false rfl (.inr (.refl _)) (.refl _) rfl rfl rfl
      | some cfg =>
        simp only [handlerTurn, guarded, guardedSection, Option.map_none, unguardedTurn]
        exact .answersAtOnce true rfl (.inl rfl) (.refl _) rfl rfl rfl
    | reinstallServer server script image =>
      cases server with
      | none => exact .answersAtOnce false rfl (.inr (.refl _)) (.refl _) rfl rfl rfl
      | some cfg =>
        simp only [handlerTurn, guarded, guardedSection, Option.map_none, unguardedTurn]
        refine .answersAtOnce true rfl (.inl rfl) ?_ rfl rfl rfl
        simp only [effect]
        exact .spawned _ _
    | updateResources v memory cpu disk =>
      obtain ⟨happ, hresponses⟩ := getLock_app (s := s) v
      refine .untouched ?_ hresponses rfl (.waiting h _)
      exact happ ▸ .refl _
    | deleteServer v removeVolumes =>
      obtain ⟨happ, hresponses⟩ := getLock_app (s := s) v
      refine .untouched ?_ hresponses rfl (.waiting h _)
      exact happ ▸ .refl _
    | _ => exact h.elim
  | waiting h lock =>
    rename_i request
    simp only [handlerTurn]
    split
    next v point hsection =>
      split
      next => exact .untouched (.refl _) rfl rfl (.waiting h lock)
      next =>
        cases request with
        | updateResources =>
          cases hsection
          cases h
          exact .untouched (.refl _) rfl rfl (.update lock)
        | deleteServer =>
          cases hsection
          cases h
          exact .untouched (.refl _) rfl rfl (.delete lock (by simp))
        | syncServerConfig | reinstallServer => cases hsection
        | _ => exact h.elim
    next => exact .untouched (.refl _) rfl rfl (.waiting h lock)
  | update lock =>
    cases answer with
    | ok items => exact .untouched ⟨rfl, rfl, rfl⟩ rfl rfl (.read lock)
    | error message =>
      exact .commits false trivial (.inr ⟨rfl, rfl, rfl⟩) ⟨rfl, rfl, rfl⟩ rfl rfl rfl (.leaving writesOf_update lock false)
  | read lock =>
    rename_i memory disk cpu
    cases hlookup : s.app.serverConfigs.lookup uuid with
    | none =>
      simp only [handlerTurn, guarded, guardedSection, Option.map_some, pointTurn, hlookup]
      refine .commits true trivial (.inr (.refl _)) ?_ rfl rfl rfl
        (.leaving writesOf_update lock true)
      simp only [effect, hlookup]
      exact .refl _
    | some config =>
      simp only [handlerTurn, guarded, guardedSection, Option.map_some, pointTurn, hlookup]
      exact .untouched (.refl _) rfl rfl (.store lock hlookup)
  | store lock hread =>
    simp only [handlerTurn, guarded, guardedSection, Option.map_some, pointTurn]
    refine .commits true trivial (.inl rfl) ?_ rfl rfl rfl (.leaving writesOf_update lock true)
    simp only [effect, hread]
    exact .refl _
  | delete lock h =>
    simp only [List.mem_cons, List.not_mem_nil, or_false] at h
    rcases h with rfl | rfl | rfl | rfl | rfl
    · exact .untouched ⟨rfl, rfl, rfl⟩ rfl rfl (.delete lock (by simp))
    · cases answer with
      | ok items => exact .untouched ⟨rfl, rfl, rfl⟩ rfl rfl (.delete lock (by simp))
      | error message =>
        exact .commits false trivial (.inr ⟨rfl, rfl, rfl⟩) ⟨rfl, rfl, rfl⟩ rfl rfl rfl (.leaving writesOf_delete lock false)
    · exact .untouched ⟨rfl, rfl, rfl⟩ rfl rfl (.delete lock (by simp))
    · simp only [handlerTurn, guarded, guardedSection, Option.map_some, pointTurn]
      refine .commits true trivial (.inl rfl) ?_ rfl rfl rfl (.delete lock (by simp))
      exact .refl _
    · exact .untouched ⟨rfl, rfl, rfl⟩ rfl rfl (.leaving writesOf_delete lock true)
  | leaving h lock ok => exact .answers _ (.refl _) rfl rfl rfl

/-- A request that writes the registry leaves nothing to the background. -/
theorem Writing.background_eq {app : AppState} (ht : Writing uuid app t) : t.background = none := by
  cases ht <;> rfl

theorem taskTurn_background (serde : Serde) (answer : Answer) (s : Store)
    (ht : t.background = none) : taskTurn serde .background answer s t = (s, t) := by
  obtain ⟨request, stage, background⟩ := t
  cases ht
  simp only [taskTurn]
  cases guarded request <;> rfl

theorem taskTurn_registry (serde : Serde) (strand : Strand) (answer : Answer)
    (ht : Writing uuid s.app t) : RegistryTurn serde uuid s t (taskTurn serde strand answer s t).1
      (taskTurn serde strand answer s t).2 := by
  cases strand with
  | handler => exact handlerTurn_registry serde answer ht
  | background =>
    rw [taskTurn_background serde answer s ht.background_eq]
    exact .untouched (.refl _) rfl rfl ht

/-- Where a request is does not depend on more than the registry. -/
theorem Writing.congr {app app' : AppState} (ht : Writing uuid app t)
    (h : SameRegistry app app') : Writing uuid app' t := by
  cases ht with
  | arrived h => exact .arrived h
  | waiting h lock => exact .waiting h lock
  | update lock => exact .update lock
  | read lock => exact .read lock
  | store lock hread => exact .store lock (by rw [h.memory]; exact hread)
  | delete lock h => exact .delete lock h
  | leaving h lock ok => exact .leaving h lock ok

/-- Only a request that is about to store a configuration depends on the registry. -/
theorem Writing.of_not_storing {app : AppState} (ht : Writing uuid app t)
    (hnot : t.storing = false) (app' : AppState) : Writing uuid app' t := by
  cases ht with
  | arrived h => exact .arrived h
  | waiting h lock => exact .waiting h lock
  | update lock => exact .update lock
  | read lock => exact .read lock
  | store lock hread => cases hnot
  | delete lock h => exact .delete lock h
  | leaving h lock ok => exact .leaving h lock ok

theorem Writing.writesOf {app : AppState} (ht : Writing uuid app t) : WritesOf uuid t.request := by
  cases ht with
  | arrived h | waiting h _ | leaving h _ _ => exact h
  | update | read | store | delete => rfl

theorem Writing.not_over {app : AppState} (ht : Writing uuid app t) : t.over = false := by
  cases ht <;> rfl

end Turns

/-! ## Runs -/

/-- Every request is where one that writes the registry can be, and the requests that have
taken effect did so one after the other. -/
structure InSequence (serde : Serde) (uuid : String) (s₀ : AppState) (p : State) : Prop where
  writing : ∀ t ∈ p.tasks, Writing uuid p.store.app t
  order : ∃ order, order.Perm (p.store.responses ++ p.tasks.filterMap Task.committed) ∧
    OneByOne serde s₀ order p.store.app

section Runs

variable {serde : Serde} {uuid : String} {s₀ : AppState} {p p' : State}

/-- The results of the tasks, with the one that takes a turn first. -/
theorem filterMap_eraseIdx {i : Nat} {t : Task} (ht : p.tasks[i]? = some t) :
    (p.tasks.filterMap Task.committed).Perm
      (t.committed.toList ++ (p.tasks.eraseIdx i).filterMap Task.committed) := by
  obtain ⟨hi, rfl⟩ := List.getElem?_eq_some_iff.mp ht
  have hperm := (List.getElem_cons_eraseIdx_perm hi).filterMap Task.committed
  rw [List.filterMap_cons] at hperm
  refine hperm.symm.trans ?_
  cases p.tasks[i].committed <;> exact .refl _

theorem InSequence.turn (hp : InSequence serde uuid s₀ p) {i : Nat} {strand : Strand}
    {answer : Answer} (hbetween : NotBetween p (.turn i (strand, answer)))
    (h : (tasks serde).step p (.turn i (strand, answer)) = some p') :
    InSequence serde uuid s₀ p' := by
  obtain ⟨t, ht, hstore, htasks⟩ := step_turn h
  have hmem := List.mem_of_getElem? ht
  have hturn := taskTurn_registry serde strand answer (hp.writing t hmem)
  obtain ⟨order, hperm, hserved⟩ := hp.order
  have hbefore := hperm.trans ((filterMap_eraseIdx ht).append_left p.store.responses)
  have hrest : (t.writes = true ∨ SameRegistry p.store.app p'.store.app) →
      ∀ u ∈ p.tasks.eraseIdx i, Writing uuid p'.store.app u := by
    rintro (hwrites | hsame) u hu
    · cases strand with
      | handler =>
        exact (hp.writing u (List.mem_of_mem_eraseIdx hu)).of_not_storing
          (hbetween t ht hwrites u hu) _
      | background =>
        rw [hstore, taskTurn_background serde answer p.store (hp.writing t hmem).background_eq]
        exact hp.writing u (List.mem_of_mem_eraseIdx hu)
    · exact (hp.writing u (List.mem_of_mem_eraseIdx hu)).congr hsame
  rw [← hstore] at hturn
  cases hturn with
  | untouched hregistry hresponses hcommitted hwriting =>
    refine ⟨fun u hu => ?_, order, ?_, hserved.congr hregistry⟩
    · rcases mem_turn ht h hu with rfl | hu
      · exact hwriting
      · exact hrest (.inr hregistry) u hu
    · rw [htasks, hwriting.not_over, if_neg Bool.false_ne_true, hresponses, List.singleton_append,
        List.filterMap_cons, hcommitted]
      refine hbefore.trans (List.Perm.append_left _ ?_)
      cases t.committed <;> exact .refl _
  | commits ok hpossible hwrites hregistry hresponses hcommitted hcommitted' hwriting =>
    refine ⟨fun u hu => ?_, order ++ [(t.request, ok)], ?_,
      hserved.snoc (hp.writing t hmem).writesOf hpossible hregistry⟩
    · rcases mem_turn ht h hu with rfl | hu
      · exact hwriting
      · exact hrest hwrites u hu
    · rw [htasks, hwriting.not_over, if_neg Bool.false_ne_true, hresponses, List.singleton_append,
        List.filterMap_cons, hcommitted']
      rw [hcommitted] at hbefore
      refine (List.perm_append_singleton _ _).trans ?_
      exact (hbefore.cons _).trans (List.perm_middle.symm)
  | answersAtOnce ok hpossible hwrites hregistry hresponses hcommitted hover =>
    refine ⟨fun u hu => ?_, order ++ [(t.request, ok)], ?_,
      hserved.snoc (hp.writing t hmem).writesOf hpossible hregistry⟩
    · rw [htasks, hover, if_pos rfl] at hu
      exact hrest hwrites u hu
    · rw [htasks, hover, if_pos rfl, hresponses]
      rw [hcommitted] at hbefore
      exact (List.perm_append_singleton _ _).trans (hbefore.cons _)
  | answers c hregistry hresponses hcommitted hover =>
    refine ⟨fun u hu => ?_, order, ?_, hserved.congr hregistry⟩
    · rw [htasks, hover, if_pos rfl] at hu
      exact hrest (.inr hregistry) u hu
    · rw [htasks, hover, if_pos rfl, hresponses]
      rw [hcommitted] at hbefore
      exact hbefore.trans List.perm_middle

theorem InSequence.step (hp : InSequence serde uuid s₀ p) {l : Label} (honly : WritesOnly uuid l)
    (hbetween : NotBetween p l) (h : (tasks serde).step p l = some p') :
    InSequence serde uuid s₀ p' := by
  cases l with
  | start t =>
    obtain ⟨ht, rfl⟩ := step_start h
    refine ⟨fun u hu => ?_, ?_⟩
    · rcases List.mem_cons.mp hu with rfl | hu
      · rw [ht]
        exact .arrived honly
      · exact hp.writing u hu
    · rw [ht]
      exact hp.order
  | turn i reply => exact hp.turn hbetween h
  | outside event =>
    cases step_outside h
    exact ⟨hp.writing, hp.order⟩

/-- The requests that have been answered and those that are being served. -/
def requests (p : State) : List GrpcRequest :=
  p.store.responses.map Prod.fst ++ p.tasks.map Task.request

theorem committed_request {t : Task} {c : GrpcRequest × Bool} (h : t.committed = some c) :
    c.1 = t.request := by
  obtain ⟨request, stage, background⟩ := t
  cases stage with
  | leaving lock ok =>
    cases h
    rfl
  | inside lock point =>
    cases point with
    | removeLock =>
      cases h
      rfl
    | _ => cases h
  | _ => cases h

/-- A turn answers a request or goes on serving it. -/
theorem InSequence.requests_turn (hp : InSequence serde uuid s₀ p) {i : Nat} {strand : Strand}
    {answer : Answer} (h : (tasks serde).step p (.turn i (strand, answer)) = some p') :
    (requests p').Perm (requests p) := by
  obtain ⟨t, ht, hstore, htasks⟩ := step_turn h
  obtain ⟨hi, hget⟩ := List.getElem?_eq_some_iff.mp ht
  have hperm := (List.getElem_cons_eraseIdx_perm hi).map Task.request
  rw [hget, List.map_cons] at hperm
  have hrequest : (taskTurn serde strand answer p.store t).2.request = t.request :=
    taskTurn_request serde
  have hturn := taskTurn_registry serde strand answer (hp.writing t (List.mem_of_getElem? ht))
  rw [← hstore] at hturn
  unfold requests
  cases hturn with
  | untouched _ hresponses _ hwriting =>
    rw [htasks, hwriting.not_over, if_neg Bool.false_ne_true, hresponses, List.singleton_append,
      List.map_cons, hrequest]
    exact hperm.append_left _
  | commits ok _ _ _ hresponses _ _ hwriting =>
    rw [htasks, hwriting.not_over, if_neg Bool.false_ne_true, hresponses, List.singleton_append,
      List.map_cons, hrequest]
    exact hperm.append_left _
  | answersAtOnce ok _ _ _ hresponses _ hover =>
    rw [htasks, hover, if_pos rfl, hresponses, List.map_cons, List.nil_append]
    exact List.perm_middle.symm.trans (hperm.append_left _)
  | answers c _ hresponses hcommitted hover =>
    rw [htasks, hover, if_pos rfl, hresponses, List.map_cons, List.nil_append,
      committed_request hcommitted]
    exact List.perm_middle.symm.trans (hperm.append_left _)

/-- Along a run, the requests are those that arrive. -/
theorem InSequence.requests_run (hp : InSequence serde uuid s₀ p) {ls : List Label}
    (hsteps : Along (tasks serde).step (fun q l => WritesOnly uuid l ∧ NotBetween q l) p ls)
    (hrun : run (tasks serde).step p ls = some p') :
    (requests p').Perm (requests p ++ ls.filterMap arrival) := by
  induction ls generalizing p with
  | nil =>
    cases hrun
    rw [List.filterMap_nil, List.append_nil]
  | cons l ls ih =>
    obtain ⟨q, hstep, hrest⟩ := run_cons_eq_some.mp hrun
    have hq := hp.step hsteps.1.1 hsteps.1.2 hstep
    refine (ih hq (hsteps.2 q hstep) hrest).trans ?_
    cases l with
    | start t =>
      obtain ⟨-, rfl⟩ := step_start hstep
      change (p.store.responses.map Prod.fst ++ t.request :: p.tasks.map Task.request ++
        ls.filterMap arrival).Perm (requests p ++ t.request :: ls.filterMap arrival)
      refine (List.perm_middle.append_right _).trans ?_
      exact List.perm_middle.symm
    | turn i reply => exact (hp.requests_turn hstep).append_right _
    | outside event =>
      cases step_outside hstep
      exact .refl _

/-- In every run of requests that write the registry of one server, in which nothing is stored
or removed while another request is between reading a configuration and storing it: once all
requests have been answered, the registry is what it is when they are served one after the
other in some order, with the results they had. -/
theorem serialised_of_notBetween (hidle : Idle p) (hresponses : p.store.responses = [])
    {ls : List Label} (honly : ∀ l ∈ ls, WritesOnly uuid l)
    (hbetween : Along (tasks serde).step NotBetween p ls)
    (hrun : run (tasks serde).step p ls = some p') (hdone : p'.tasks = []) :
    Serialised serde p ls p' := by
  have hsteps : Along (tasks serde).step (fun q l => WritesOnly uuid l ∧ NotBetween q l) p ls :=
    along_and.mpr ⟨along_of_forall fun l hl _ => honly l hl, hbetween⟩
  have hfirst : InSequence serde uuid p.store.app p := by
    refine ⟨fun t ht => ?_, [], ?_, .nil (.refl _)⟩
    · rw [hidle.1] at ht
      cases ht
    · rw [hidle.1, hresponses]
      exact .refl _
  have hlast : InSequence serde uuid p.store.app p' :=
    run_invariant (fun _ _ _ hq hl hstep => InSequence.step hq hl.1 hl.2 hstep) hfirst hsteps hrun
  have hrequests := hfirst.requests_run hsteps hrun
  obtain ⟨order, hperm, hserved⟩ := hlast.order
  rw [hdone, List.filterMap_nil, List.append_nil] at hperm
  simp only [requests, hdone, hidle.1, hresponses, List.map_nil, List.append_nil,
    List.nil_append] at hrequests
  exact ⟨order, (hperm.map Prod.fst).trans hrequests, hperm, hserved⟩

end Runs

/-! ## A configuration that is synchronised during an update -/

section Counterexample

/-- A service with one server in its registry. -/
def registeredService : State :=
  Service.started (registeredDaemon fun _ => .ok []) fun _ => some "running"

/-- A new configuration of the server, with another image. -/
def newConfig : Proto.ServerConfig where
  uuid := "u"
  dockerImage := "new image"
  startupCommand := "run"
  environment := []
  memoryLimitMb := 1024
  cpuLimit := 100
  diskLimitMb := 1024
  portMappings := []
  volumePath := "/data/u"

/-- Between two configurations that are synchronised, the resources are updated. The second one
arrives when the update has read the first, and is stored after it. -/
def updateBetweenSyncs : List Label :=
  [arrives (.syncServerConfig (some newConfig)), handles 0 (.ok []),
    arrives (.updateResources "u" 2048 200 2048), handles 0 (.ok []), handles 0 (.ok []),
    handles 0 (.ok []), handles 0 (.ok []),
    arrives (.syncServerConfig (some { newConfig with startupCommand := "serve" })),
    handles 1 (.ok []), handles 1 (.ok []), handles 0 (.ok [])]

theorem serialised_syncs :
    ∃ p', run (tasks .framed).step registeredService updateBetweenSyncs = some p' ∧
      p'.store.responses.map Prod.snd = [true, true, true] ∧
      Serialised .framed registeredService updateBetweenSyncs p' := by
  have honly : ∀ l ∈ updateBetweenSyncs, WritesOnly "u" l := by
    intro l hl
    cases l with
    | start t =>
      simp only [updateBetweenSyncs, arrives, handles, List.mem_cons, reduceCtorEq, false_or,
        List.not_mem_nil, or_false, PoolLabel.start.injEq] at hl
      rcases hl with rfl | rfl | rfl
      · intro cfg hcfg
        cases hcfg
        rfl
      · rfl
      · intro cfg hcfg
        cases hcfg
        rfl
    | turn | outside => trivial
  have hbetween : Along (tasks .framed).step NotBetween registeredService updateBetweenSyncs := by
    decide +kernel
  exact ⟨_, rfl, by decide +kernel, serialised_of_notBetween ⟨rfl, rfl⟩ rfl honly hbetween rfl rfl⟩

/-- An update has read the configuration; another one is stored before it stores what it has
read. -/
def syncDuringUpdate : List Label :=
  [arrives (.updateResources "u" 2048 200 2048), handles 0 (.ok []), handles 0 (.ok []),
    handles 0 (.ok []), handles 0 (.ok []),
    arrives (.syncServerConfig (some newConfig)), handles 0 (.ok []),
    handles 0 (.ok []), handles 0 (.ok [])]

theorem sync_lost : ∃ p', run (tasks .framed).step registeredService syncDuringUpdate = some p' ∧
    p'.tasks = [] ∧ ¬Serialised .framed registeredService syncDuringUpdate p' := by
  refine ⟨_, rfl, rfl, ?_⟩
  rintro ⟨order, -, hperm, hserved⟩
  have hwrites : ∀ r ∈ order, WritesOf "u" r.1 := by
    intro r hr
    rcases List.mem_cons.mp (hperm.subset hr) with rfl | hr
    · rfl
    · cases List.mem_singleton.mp hr
      intro cfg hcfg
      cases hcfg
      rfl
  have hmemory := congrArg (fun configs => (configs.lookup "u").map ServerConfig.dockerImage)
    (hserved.effects hwrites).memory
  -- In either order the image is the new one; what was stored is the old one.
  obtain rfl | rfl := List.perm_pair.mp hperm
  · revert hmemory
    decide +kernel
  · revert hmemory
    decide +kernel

end Counterexample

end Wings.Service
