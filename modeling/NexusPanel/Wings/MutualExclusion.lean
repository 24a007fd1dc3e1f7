import NexusPanel.Wings.Service

/-!
# The per-server mutex

A mutex excludes: of the handlers that hold the guard of one mutex at most one is in its
section. That does not make the sections of one *server* exclusive. Deleting a server drops
its entry from the lock map while its own guard is still held and others may be waiting for
the mutex. The next request finds no entry and makes a new mutex, and from then on two
handlers for the server can be inside at once.

The sections of a server are exclusive as long as a new mutex is only made for it when no
request is left that was given an earlier one.
-/

namespace Wings.Service

open Transition

/-! ## Guarded sections -/

/-- The mutex a handler was given, while it waits for it or holds it. -/
def Stage.lock : Stage → Option Nat
  | .waiting lock | .inside lock _ | .leaving lock _ => some lock
  | .arrived | .answered => none

/-- The handler is in its guarded section, where it holds the guard of the mutex. -/
def Stage.holds (lock : Nat) : Stage → Bool
  | .inside l _ | .leaving l _ => l == lock
  | _ => false

/-- The handler is in the guarded section of a request for the server. -/
def Task.insideOf (uuid : String) (t : Task) : Bool :=
  match t.stage with
  | .inside _ _ | .leaving _ _ => guarded t.request == some uuid
  | _ => false

/-- No two handlers for the server are in their guarded sections. -/
def Exclusive (uuid : String) (p : State) : Prop := p.count (Task.insideOf uuid) ≤ 1

instance (uuid : String) (p : State) : Decidable (Exclusive uuid p) :=
  inferInstanceAs (Decidable (_ ≤ _))

/-- No request for the server has been given a mutex. -/
def Unlocked (uuid : String) (p : State) : Prop :=
  ∀ t ∈ p.tasks, guarded t.request = some uuid → t.stage.lock = none

/-- Where the step makes a new mutex for the server, no earlier one is waited for or held. -/
def NewMutexUnshared (uuid : String) (p : State) : Label → Prop
  | .turn i (.handler, _) => ∀ t ∈ p.tasks[i]?, t.stage = .arrived → guarded t.request = some uuid →
      p.store.serverLocks.lookup uuid = none → Unlocked uuid p
  | _ => True

instance (uuid : String) (p : State) : Decidable (Unlocked uuid p) :=
  inferInstanceAs (Decidable (∀ t ∈ p.tasks, _ → _))

instance (uuid : String) (p : State) : ∀ l, Decidable (NewMutexUnshared uuid p l)
  | .turn i (.handler, _) => inferInstanceAs (Decidable (∀ t ∈ p.tasks[i]?, _ → _ → _ → _))
  | .turn _ (.background, _) | .start _ | .outside _ => isTrue trivial

/-! ## What a turn does to the mutexes -/

section Turns

variable (serde : Serde) (answer : Answer) (s : Store)

/-- Inside its section a handler leaves the guards alone, and the lock map too, but for the
entry of its server, which it may drop. -/
theorem pointTurn_locks (uuid : String) (point : Point) :
    (pointTurn serde uuid answer s point).1.held = s.held ∧
      ((pointTurn serde uuid answer s point).1.serverLocks = s.serverLocks ∨
        (pointTurn serde uuid answer s point).1.serverLocks = s.serverLocks.erase uuid) := by
  cases point with
  | power action =>
    simp only [pointTurn]
    split
    · exact ⟨rfl, .inl rfl⟩
    · split <;> exact ⟨rfl, .inl rfl⟩
  | lookup =>
    simp only [pointTurn]
    split <;> exact ⟨rfl, .inl rfl⟩
  | read memory cpu disk =>
    simp only [pointTurn]
    split <;> exact ⟨rfl, .inl rfl⟩
  | create config =>
    simp only [pointTurn]
    split <;> exact ⟨rfl, .inl rfl⟩
  | before action =>
    simp only [pointTurn]
    split <;> exact ⟨rfl, .inl rfl⟩
  | remove removeVolumes =>
    simp only [pointTurn]
    split <;> exact ⟨rfl, .inl rfl⟩
  | removeLock => exact ⟨rfl, .inr rfl⟩
  | pull | start | starting | started | update | store | stop | dropBuffer | removeConfig =>
    exact ⟨rfl, .inl rfl⟩

/-- What a turn of a task does to the mutexes. -/
inductive LockTurn (s : Store) (t : Task) (s' : Store) (t' : Task) : Prop
  /-- The handler is given the mutex of its server. -/
  | get (uuid : String) (hstage : t.stage = .arrived) (hguarded : guarded t.request = some uuid)
    (hstage' : t'.stage = .waiting (s.getLock uuid).1)
    (hlocks : s'.serverLocks = (s.getLock uuid).2.serverLocks) (hheld : s'.held = s.held)
  /-- The handler finds its mutex free. -/
  | take (lock : Nat) (point : Point) (hstage : t.stage = .waiting lock) (hfree : lock ∉ s.held)
    (hstage' : t'.stage = .inside lock point) (hlocks : s'.serverLocks = s.serverLocks)
    (hheld : s'.held = lock :: s.held)
  /-- The handler goes on in its section or comes to its result. -/
  | work (lock : Nat) (point : Point) (next : Point ⊕ Bool) (hstage : t.stage = .inside lock point)
    (hstage' : t'.stage = next.elim (.inside lock) (.leaving lock)) (hheld : s'.held = s.held)
    (hlocks : s'.serverLocks = s.serverLocks ∨
      ∃ uuid, s'.serverLocks = s.serverLocks.erase uuid)
  /-- The handler drops its guard. -/
  | drop (lock : Nat) (ok : Bool) (hstage : t.stage = .leaving lock ok)
    (hstage' : t'.stage = .answered) (hlocks : s'.serverLocks = s.serverLocks)
    (hheld : s'.held = s.held.erase lock)
  /-- The turn is about something else. -/
  | other (hstage : t'.stage = t.stage ∨ t.stage = .arrived ∧ t'.stage = .answered)
    (hlocks : s'.serverLocks = s.serverLocks) (hheld : s'.held = s.held)

theorem unguardedTurn_locks (request : GrpcRequest) :
    (unguardedTurn serde request s).serverLocks = s.serverLocks ∧
      (unguardedTurn serde request s).held = s.held := by
  unfold unguardedTurn
  split <;> exact ⟨rfl, rfl⟩

theorem getLock_held (uuid : String) : (s.getLock uuid).2.held = s.held := by
  unfold Store.getLock
  split <;> rfl

theorem handlerTurn_locks (t : Task) :
    LockTurn s t (handlerTurn serde answer s t).1 (handlerTurn serde answer s t).2 := by
  obtain ⟨request, stage, background⟩ := t
  cases stage with
  | arrived =>
    simp only [handlerTurn]
    split
    next uuid hguarded => exact .get uuid rfl hguarded rfl rfl (getLock_held s uuid)
    next =>
      obtain ⟨hlocks, hheld⟩ := unguardedTurn_locks serde s request
      exact .other (.inr ⟨rfl, rfl⟩) hlocks hheld
  | waiting lock =>
    simp only [handlerTurn]
    split
    · split
      next => exact .other (.inl rfl) rfl rfl
      next hfree => exact .take lock _ rfl hfree rfl rfl rfl
    · exact .other (.inl rfl) rfl rfl
  | inside lock point =>
    simp only [handlerTurn]
    split
    next uuid _ =>
      obtain ⟨hheld, hlocks⟩ := pointTurn_locks serde answer s uuid point
      exact .work lock point _ rfl rfl hheld (hlocks.imp_right fun h => ⟨uuid, h⟩)
    next => exact .other (.inl rfl) rfl rfl
  | leaving lock ok => exact .drop lock ok rfl rfl rfl rfl
  | answered => exact .other (.inl rfl) rfl rfl

theorem backgroundTurn_locks (uuid : String) (background : Background) :
    (backgroundTurn uuid answer s background).1.serverLocks = s.serverLocks ∧
      (backgroundTurn uuid answer s background).1.held = s.held := by
  cases background <;> exact ⟨rfl, rfl⟩

theorem taskTurn_locks (t : Task) (strand : Strand) :
    LockTurn s t (taskTurn serde strand answer s t).1 (taskTurn serde strand answer s t).2 := by
  cases strand with
  | handler => exact handlerTurn_locks serde answer s t
  | background =>
    simp only [taskTurn]
    split
    next h => cases h
    next uuid background _ _ _ =>
      obtain ⟨hlocks, hheld⟩ := backgroundTurn_locks answer s uuid background
      exact .other (.inl rfl) hlocks hheld
    next => exact .other (.inl rfl) rfl rfl

/-- A turn in the background leaves the handler where it is. -/
theorem taskTurn_stage (t : Task) : (taskTurn serde .background answer s t).2.stage = t.stage := by
  simp only [taskTurn]
  split
  next h => cases h
  next => rfl
  next => rfl

end Turns

/-! ## The invariant -/

/-- A mutex is held by as many handlers as the store says, once at most, and the server has
one mutex: the one in the lock map if it has an entry there, and that of every request that was
given one. -/
structure Locked (uuid : String) (p : State) : Prop where
  held : ∀ lock, p.count (fun t => t.stage.holds lock) = p.store.held.count lock
  once : p.store.held.Nodup
  shared : ∃ lock, (∀ l ∈ p.store.serverLocks.lookup uuid, l = lock) ∧
    ∀ t ∈ p.tasks, guarded t.request = some uuid → ∀ l ∈ t.stage.lock, l = lock

section Invariant

variable {serde : Serde} {uuid : String} {p p' : State} {i : Nat} {strand : Strand}
  {answer : Answer}

/-- A service that is working on nothing. -/
def Idle (p : State) : Prop := p.tasks = [] ∧ p.store.held = []

theorem Locked.of_idle (h : Idle p) : Locked uuid p := by
  obtain ⟨htasks, hheld⟩ := h
  refine ⟨fun lock => ?_, ?_, ?_⟩
  · rw [Pool.count, htasks, hheld]
    rfl
  · rw [hheld]
    exact List.nodup_nil
  · refine ⟨(p.store.serverLocks.lookup uuid).getD 0, fun l hl => ?_, fun t ht => ?_⟩
    · rw [Option.mem_def.mp hl]
      rfl
    · rw [htasks] at ht
      cases ht

/-- All handlers in sections of the server hold its one mutex, and only one can. -/
theorem Locked.exclusive (h : Locked uuid p) : Exclusive uuid p := by
  obtain ⟨lock, -, hshared⟩ := h.shared
  calc p.count (Task.insideOf uuid)
      ≤ p.count fun t => t.stage.holds lock := by
        refine List.countP_mono_left fun t ht hinside => ?_
        have hlock := hshared t ht
        obtain ⟨request, stage, background⟩ := t
        cases stage with
        | inside l point | leaving l ok =>
          exact beq_iff_eq.mpr (hlock (beq_iff_eq.mp hinside) l rfl)
        | _ => cases hinside
    _ = p.store.held.count lock := h.held lock
    _ ≤ 1 := List.nodup_iff_count_le_one.mp h.once lock

theorem not_over_of_holds {lock : Nat} (t : Task) (h : t.over = true) :
    t.stage.holds lock = false := by
  obtain ⟨request, stage, background⟩ := t
  cases stage with
  | inside | leaving => cases h
  | _ => rfl

/-- The guards stay in step with the handlers. -/
theorem held_turn (hheld : ∀ lock, p.count (fun t => t.stage.holds lock) = p.store.held.count lock)
    (honce : p.store.held.Nodup) (h : (tasks serde).step p (.turn i (strand, answer)) = some p') :
    (∀ lock, p'.count (fun t => t.stage.holds lock) = p'.store.held.count lock) ∧
      p'.store.held.Nodup := by
  obtain ⟨t, ht, hstore, -⟩ := step_turn h
  have hcount : ∀ lock, p'.count (fun t => t.stage.holds lock) +
      (if t.stage.holds lock then 1 else 0) = p.store.held.count lock +
        if (taskTurn serde strand answer p.store t).2.stage.holds lock then 1 else 0 :=
    fun lock => hheld lock ▸
      count_turn (q := fun t => t.stage.holds lock) not_over_of_holds ht h
  have hturn := taskTurn_locks serde answer p.store t strand
  rw [← hstore] at hturn
  cases hturn with
  | get uuid hstage _ hstage' _ hheld =>
    rw [hheld]
    rw [hstage, hstage'] at hcount
    exact ⟨hcount, honce⟩
  | take lock point hstage hfree hstage' _ hheld =>
    rw [hheld]
    rw [hstage, hstage'] at hcount
    refine ⟨fun l => ?_, List.nodup_cons.mpr ⟨hfree, honce⟩⟩
    rw [List.count_cons]
    exact hcount l
  | work lock point next hstage hstage' hheld _ =>
    rw [hheld]
    rw [hstage, hstage'] at hcount
    refine ⟨fun l => ?_, honce⟩
    have hl := hcount l
    cases next <;> exact Nat.add_right_cancel hl
  | drop lock ok hstage hstage' _ hheld =>
    rw [hheld]
    rw [hstage, hstage'] at hcount
    refine ⟨fun l => ?_, honce.erase lock⟩
    have hl := hcount l
    rw [List.count_erase]
    cases heq : lock == l <;>
      simp only [Stage.holds, heq, Bool.false_eq_true, if_false, if_true] at hl ⊢ <;> omega
  | other hstage _ hheld =>
    rw [hheld]
    refine ⟨fun l => ?_, honce⟩
    have hl := hcount l
    rcases hstage with hstage | ⟨hstage, hstage'⟩
    · rw [hstage] at hl
      exact Nat.add_right_cancel hl
    · rw [hstage, hstage'] at hl
      exact hl

/-- The server keeps to one mutex, if a new one is only made for it when no request has been
given an earlier one. -/
theorem Locked.shared_turn (hp : Locked uuid p) (hnew : NewMutexUnshared uuid p (.turn i (strand, answer)))
    (h : (tasks serde).step p (.turn i (strand, answer)) = some p') :
    ∃ lock, (∀ l ∈ p'.store.serverLocks.lookup uuid, l = lock) ∧
      ∀ t ∈ p'.tasks, guarded t.request = some uuid → ∀ l ∈ t.stage.lock, l = lock := by
  obtain ⟨t, ht, hstore, -⟩ := step_turn h
  obtain ⟨lock, hentry, hshared⟩ := hp.shared
  have hmem := List.mem_of_getElem? ht
  have hrequest : (taskTurn serde strand answer p.store t).2.request = t.request :=
    taskTurn_request serde
  have hturn := taskTurn_locks serde answer p.store t strand
  rw [← hstore] at hturn
  -- A turn that gives no new mutex to a request for the server.
  have hkeep : (∀ l ∈ p'.store.serverLocks.lookup uuid, l = lock) →
      (guarded t.request = some uuid →
        ∀ l ∈ (taskTurn serde strand answer p.store t).2.stage.lock, l = lock) →
      ∃ lock, (∀ l ∈ p'.store.serverLocks.lookup uuid, l = lock) ∧
        ∀ t ∈ p'.tasks, guarded t.request = some uuid → ∀ l ∈ t.stage.lock, l = lock := by
    refine fun hentry' hturned => ⟨lock, hentry', fun u hu hguarded => ?_⟩
    rcases mem_turn ht h hu with rfl | hu
    · rw [hrequest] at hguarded
      exact hturned hguarded
    · exact hshared u (List.mem_of_mem_eraseIdx hu) hguarded
  cases hturn with
  | get u hstage hguarded hstage' hlocks _ =>
    by_cases hu : u = uuid
    · subst hu
      cases hlookup : p.store.serverLocks.lookup u with
      | some l =>
        have hget : p.store.getLock u = (l, p.store) := by rw [Store.getLock, hlookup]
        rw [hget] at hlocks hstage'
        have hl := hentry l hlookup
        refine hkeep (by rw [hlocks]; exact hentry) fun _ l' hl' => ?_
        rw [hstage'] at hl'
        cases hl'
        exact hl
      | none =>
        have hget : (p.store.getLock u).1 = p.store.made ∧ (p.store.getLock u).2.serverLocks =
            p.store.serverLocks.insert u p.store.made := by
          rw [Store.getLock, hlookup]
          exact ⟨rfl, rfl⟩
        rw [hget.1] at hstage'
        rw [hget.2] at hlocks
        have hunlocked : Unlocked u p := by
          cases strand with
          | handler => exact hnew t ht hstage hguarded hlookup
          | background =>
            rw [taskTurn_stage] at hstage'
            rw [hstage] at hstage'
            cases hstage'
        refine ⟨p.store.made, fun l hl => ?_, fun v hv hguarded' l hl => ?_⟩
        · rw [hlocks, AList.lookup_insert] at hl
          exact (Option.some.inj hl).symm
        · rcases mem_turn ht h hv with rfl | hv
          · rw [hstage'] at hl
            exact (Option.some.inj hl).symm
          · rw [hunlocked v (List.mem_of_mem_eraseIdx hv) hguarded'] at hl
            cases hl
    · refine hkeep (fun l hl => ?_) fun hguarded' => ?_
      · rw [hlocks] at hl
        unfold Store.getLock at hl
        split at hl
        · exact hentry l hl
        · rw [AList.lookup_insert_ne (Ne.symm hu)] at hl
          exact hentry l hl
      · rw [hguarded] at hguarded'
        exact absurd (Option.some.inj hguarded') hu
  | take l point hstage hfree hstage' hlocks _ =>
    refine hkeep (by rw [hlocks]; exact hentry) fun hguarded l' hl' => ?_
    rw [hstage'] at hl'
    exact hshared t hmem hguarded l' (by rw [hstage]; exact hl')
  | work l point next hstage hstage' _ hlocks =>
    refine hkeep (fun l' hl' => ?_) fun hguarded l' hl' => ?_
    · rcases hlocks with hlocks | ⟨u, hlocks⟩
      · rw [hlocks] at hl'
        exact hentry l' hl'
      · rw [hlocks] at hl'
        by_cases hu : uuid = u
        · subst hu
          rw [AList.lookup_erase] at hl'
          cases hl'
        · rw [AList.lookup_erase_ne hu] at hl'
          exact hentry l' hl'
    · rw [hstage'] at hl'
      refine hshared t hmem hguarded l' ?_
      rw [hstage]
      cases next <;> exact hl'
  | drop l ok hstage hstage' hlocks _ =>
    refine hkeep (by rw [hlocks]; exact hentry) fun _ l' hl' => ?_
    rw [hstage'] at hl'
    cases hl'
  | other hstage hlocks _ =>
    refine hkeep (by rw [hlocks]; exact hentry) fun hguarded l' hl' => ?_
    rcases hstage with hstage | ⟨-, hstage'⟩
    · rw [hstage] at hl'
      exact hshared t hmem hguarded l' hl'
    · rw [hstage'] at hl'
      cases hl'

/-- One step. -/
theorem Locked.step (hp : Locked uuid p) {l : Label} (hnew : NewMutexUnshared uuid p l)
    (h : (tasks serde).step p l = some p') : Locked uuid p' := by
  cases l with
  | start t =>
    obtain ⟨ht, rfl⟩ := step_start h
    obtain ⟨lock, hentry, hshared⟩ := hp.shared
    refine ⟨fun l => ?_, hp.once, lock, hentry, fun u hu => ?_⟩
    · rw [Pool.count_start h, ht]
      exact hp.held l
    · rcases List.mem_cons.mp hu with rfl | hu
      · rw [ht]
        exact fun _ _ hl => nomatch hl
      · exact hshared u hu
  | turn i reply =>
    obtain ⟨strand, answer⟩ := reply
    obtain ⟨hheld, honce⟩ := held_turn hp.held hp.once h
    exact ⟨hheld, honce, hp.shared_turn hnew h⟩
  | outside event =>
    cases step_outside h
    exact ⟨hp.held, hp.once, hp.shared⟩

/-- In every run of a service that starts idle, and makes a new mutex for the server only when
no request is left that was given an earlier one: no two handlers for the server are ever in
their guarded sections at the same time. -/
theorem exclusive_of_newMutexUnshared (hidle : Idle p) {ls : List Label}
    (hnew : Along (tasks serde).step (NewMutexUnshared uuid) p ls) :
    ∀ ks, ks <+: ls → ∀ p', run (tasks serde).step p ks = some p' → Exclusive uuid p' := by
  rintro ks ⟨rest, rfl⟩ p' hrun
  have hlocked : Locked uuid p' :=
    run_invariant (fun _ _ _ hq hl hstep => Locked.step hq hl hstep) (.of_idle hidle)
      (along_append.mp hnew).1 hrun
  exact hlocked.exclusive

end Invariant

/-! ## A request that waits for a server to be deleted -/

section Counterexample

/-- A daemon that knows no server. -/
def emptyApp : AppState :=
  .fresh ⟨"https://panel.example.com", "tid", "token", "/data"⟩ fun _ => .ok []

/-- A deletion waits for an update, and is over before a power action arrives. -/
def deleteBetween : List Label :=
  [arrives (.updateResources "u" 1024 100 1024), handles 0 (.ok []), handles 0 (.ok []),
    arrives (.deleteServer "u" false), handles 0 (.ok []), handles 0 (.ok []),
    handles 1 (.ok []), handles 0 (.ok []), handles 0 (.ok []),
    handles 0 (.ok []), handles 0 (.ok []), handles 0 (.ok []), handles 0 (.ok []),
    handles 0 (.ok []), handles 0 (.ok []), handles 0 (.ok []),
    arrives (.sendPowerAction "u" 3), handles 0 (.ok []), handles 0 (.ok [])]

/-- The power action has a mutex of its own, as nobody is left with the first one. -/
theorem exclusive_pair :
    (∃ p', run (tasks .framed).step (started emptyApp fun _ => none) deleteBetween = some p' ∧
      p'.store.made = 2 ∧ p'.count (Task.insideOf "u") = 1) ∧
    Always (tasks .framed).step (fun _ => Exclusive "u") (started emptyApp fun _ => none)
      deleteBetween := by
  refine ⟨⟨_, rfl, ?_⟩, exclusive_of_newMutexUnshared ⟨rfl, rfl⟩ ?_⟩
  · decide +kernel
  · decide +kernel

/-- An update waits while the server is being deleted. A power action that arrives afterwards
is given a new mutex, and both are in their sections. -/
def overtakenDelete : List Label :=
  [arrives (.deleteServer "u" false), handles 0 (.ok []), handles 0 (.ok []),
    arrives (.updateResources "u" 1024 100 1024), handles 0 (.ok []),
    handles 1 (.ok []), handles 0 (.ok []), handles 0 (.ok []), handles 0 (.ok []),
    handles 0 (.ok []), handles 0 (.ok []), handles 0 (.ok []),
    arrives (.sendPowerAction "u" 3), handles 0 (.ok []), handles 0 (.ok [])]

theorem sections_overlap :
    ∃ p', run (tasks .framed).step (started emptyApp fun _ => none) overtakenDelete = some p' ∧
      ¬Exclusive "u" p' := by
  refine ⟨_, rfl, ?_⟩
  decide +kernel

end Counterexample

end Wings.Service
