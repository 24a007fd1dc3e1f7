import NexusPanel.Foundation.Tally
import NexusPanel.Wings.MutualExclusion

/-!
# Requests get their answers

A number in the lock map belongs to one server for good, also when its entry has been dropped. So
a request that has to wait for its mutex waits for another request for the same server, and that
one is in its section, where every turn takes it further whatever Docker answers. Whatever the
requests for other servers are doing, those for one server can go on until all of them are over,
and each is answered once and takes a bounded number of turns. That is so of requests that their
clients wait for: one that is cancelled, or whose handler panics over the name of the container,
is not answered.
-/

namespace Wings.Service

open Transition

/-! ## What is left to do -/

/-- The request takes the mutex of the server. -/
def Task.concerns (uuid : String) (t : Task) : Bool := guarded t.request == some uuid

def Task.unanswered (uuid : String) (t : Task) : Bool := t.concerns uuid && t.stage != .answered

def answerFor (uuid : String) (response : GrpcRequest × Bool) : Bool :=
  guarded response.1 == some uuid

def arrivalFor (uuid : String) : Label → Bool
  | .start t => t.concerns uuid
  | _ => false

/-- The turns a handler has before it in its section, at most. -/
def Point.turns : Point → Nat
  | .power _ => 8
  | .lookup => 7
  | .pull _ => 6
  | .create _ | .stop _ => 5
  | .before _ | .remove _ => 4
  | .start _ | .update _ _ _ | .dropBuffer => 3
  | .starting _ | .read _ _ _ | .removeConfig => 2
  | .started _ | .store _ | .removeLock => 1

def Stage.turns : Stage → Nat
  | .arrived => 11
  | .waiting _ => 10
  | .inside _ point => point.turns + 1
  | .leaving _ _ => 1
  | .answered => 0

def Background.turns : Background → Nat
  | .issue _ _ => 3
  | .calling _ _ => 2
  | .finished _ => 1

/-- The turns that are left to a request, at most. -/
def Task.turns (t : Task) : Nat := t.stage.turns + t.background.elim 0 Background.turns

def turnsFor (uuid : String) (t : Task) : Nat := if t.concerns uuid then t.turns else 0

section Turns

variable (serde : Serde) (answer : Answer) (s : Store) {t : Task} {uuid : String}

/-- The label is a turn of a request for the server, and one that is not spent on waiting. -/
def advances (uuid : String) (p : State) : Label → Bool
  | .turn i (strand, answer) => p.tasks[i]?.any fun t =>
      t.concerns uuid && (taskTurn serde strand answer p.store t).2 != t
  | _ => false

def advancing (uuid : String) (p : State) (l : Label) : List Label :=
  if advances serde uuid p l then [l] else []

/-! ## One turn -/

/-- A turn in the section comes nearer to its end, also with what it leaves to the background. -/
theorem pointTurn_turns (uuid : String) (point : Point) :
    (pointTurn serde uuid answer s point).2.1.elim (fun next => next.turns + 1) (fun _ => 1) +
      (pointTurn serde uuid answer s point).2.2.elim 0 Background.turns ≤ point.turns := by
  cases point with
  | power action =>
    simp only [pointTurn]
    split
    · simp [Point.turns]
    · split
      · split <;> simp [Point.turns]
      · simp [Point.turns]
  | lookup | read | pull | create | before | starting | update | remove =>
    simp only [pointTurn]
    split <;> simp [Point.turns, Background.turns]
  | start | started | store | stop | dropBuffer | removeConfig | removeLock =>
    simp [pointTurn, Point.turns]

theorem pointTurn_frame (uuid : String) (point : Point) :
    (pointTurn serde uuid answer s point).1.made = s.made ∧
      (pointTurn serde uuid answer s point).1.responses = s.responses := by
  cases point with
  | power action =>
    simp only [pointTurn]
    split
    · exact ⟨rfl, rfl⟩
    · split <;> exact ⟨rfl, rfl⟩
  | lookup | read | create | before | remove =>
    simp only [pointTurn]
    split <;> exact ⟨rfl, rfl⟩
  | pull | start | starting | started | update | store | stop | dropBuffer | removeConfig
  | removeLock => exact ⟨rfl, rfl⟩

/-- A handler that need not wait comes nearer to its end. -/
theorem handlerTurn_turns (hguarded : guarded t.request = some uuid) (hstage : t.stage ≠ .answered)
    (hfree : ∀ lock ∈ s.held, t.stage ≠ .waiting lock) :
    (handlerTurn serde answer s t).2.turns < t.turns := by
  obtain ⟨request, stage, background⟩ := t
  dsimp only at hguarded hstage hfree
  cases stage with
  | arrived =>
    simp only [handlerTurn, hguarded, Task.turns, Stage.turns]
    omega
  | waiting lock =>
    obtain ⟨⟨u, point⟩, hsection, -⟩ := Option.map_eq_some_iff.mp hguarded
    have hlock : lock ∉ s.held := fun hheld => hfree lock hheld rfl
    have hpoint : point.turns ≤ 8 := by cases point <;> simp [Point.turns]
    simp only [handlerTurn, hsection, if_neg hlock, Task.turns, Stage.turns]
    omega
  | inside lock point =>
    have hturn := pointTurn_turns serde answer s uuid point
    simp only [handlerTurn, hguarded, Task.turns, Stage.turns]
    revert hturn
    cases (pointTurn serde uuid answer s point).2.1 <;>
      cases (pointTurn serde uuid answer s point).2.2 <;>
      simp only [Sum.elim_inl, Sum.elim_inr, Option.elim_none, Option.elim_some, Option.none_or,
        Option.some_or] <;> omega
  | leaving lock ok =>
    simp only [handlerTurn, Task.turns, Stage.turns]
    omega
  | answered => exact absurd rfl hstage

theorem handlerTurn_waits {lock : Nat} (hstage : t.stage = .waiting lock) (hheld : lock ∈ s.held) :
    (handlerTurn serde answer s t).2 = t := by
  obtain ⟨request, stage, background⟩ := t
  cases hstage
  simp only [handlerTurn, if_pos hheld]
  split <;> rfl

theorem backgroundTurn_turns (uuid : String) (background : Background) :
    (backgroundTurn uuid answer s background).2.elim 0 Background.turns < background.turns := by
  cases background with
  | calling action previous =>
    simp only [backgroundTurn]
    split <;> simp [Background.turns]
  | issue | finished => simp [backgroundTurn, Background.turns]

/-- The background part of a request always comes nearer to its end. -/
theorem taskTurn_background_turns (hguarded : guarded t.request = some uuid)
    (hbackground : t.background ≠ none) :
    (taskTurn serde .background answer s t).2.turns < t.turns := by
  obtain ⟨request, stage, background⟩ := t
  obtain ⟨background, rfl⟩ := Option.ne_none_iff_exists'.mp hbackground
  have hturn := backgroundTurn_turns answer s uuid background
  simp only at hguarded
  simp only [taskTurn, hguarded, Task.turns, Option.elim_some]
  omega

/-- A turn of a request for a server leaves it as it is, or takes it further. -/
theorem taskTurn_turns (hconcerns : t.concerns uuid = true) (strand : Strand) :
    (taskTurn serde strand answer s t).2 = t ∨
      (taskTurn serde strand answer s t).2.turns < t.turns := by
  have hguarded : guarded t.request = some uuid := beq_iff_eq.mp hconcerns
  cases strand with
  | background =>
    by_cases hnone : t.background = none
    · left
      simp only [taskTurn, hguarded, hnone]
    · exact .inr (taskTurn_background_turns serde answer s hguarded hnone)
  | handler =>
    by_cases hanswered : t.stage = .answered
    · left
      simp only [taskTurn, handlerTurn, hanswered]
    · by_cases hwaits : ∃ lock ∈ s.held, t.stage = .waiting lock
      · obtain ⟨lock, hheld, hstage⟩ := hwaits
        exact .inl (handlerTurn_waits serde answer s hstage hheld)
      · right
        refine handlerTurn_turns serde answer s hguarded hanswered fun lock hheld hstage => ?_
        exact hwaits ⟨lock, hheld, hstage⟩

theorem taskTurn_turnsFor (t : Task) (strand : Strand) (uuid : String) :
    (if t.concerns uuid && (taskTurn serde strand answer s t).2 != t then 1 else 0) +
      turnsFor uuid (taskTurn serde strand answer s t).2 ≤ turnsFor uuid t := by
  have hconcerns : (taskTurn serde strand answer s t).2.concerns uuid = t.concerns uuid := by
    rw [Task.concerns, taskTurn_request, Task.concerns]
  unfold turnsFor
  rw [hconcerns]
  cases hfor : t.concerns uuid with
  | false => simp
  | true =>
    rcases taskTurn_turns serde answer s hfor strand with hsame | hless
    · simp [hsame]
    · simp only [if_true, Bool.true_and]
      split <;> omega

/-- A request that need not wait for its mutex can go on, whatever Docker answers. -/
theorem exists_strand (hconcerns : t.concerns uuid = true) (hover : t.over = false)
    (hfree : ∀ lock ∈ s.held, t.stage ≠ .waiting lock) :
    ∃ strand, ∀ answer, (taskTurn serde strand answer s t).2 ≠ t := by
  have hguarded : guarded t.request = some uuid := beq_iff_eq.mp hconcerns
  have hne {t' : Task} (h : t'.turns < t.turns) : t' ≠ t := fun heq => by
    rw [heq] at h
    exact Nat.lt_irrefl _ h
  by_cases hnone : t.background = none
  · have hstage : t.stage ≠ .answered := fun hstage => by
      simp [Task.over, hnone, hstage] at hover
    exact ⟨.handler, fun answer => hne (handlerTurn_turns serde answer s hguarded hstage hfree)⟩
  · exact ⟨.background, fun answer => hne (taskTurn_background_turns serde answer s hguarded hnone)⟩

/-! ## The mutex of a request -/

theorem getLock_eq (uuid : String) :
    (∃ lock, s.serverLocks.lookup uuid = some lock ∧ s.getLock uuid = (lock, s)) ∨
      s.serverLocks.lookup uuid = none ∧ s.getLock uuid = (s.made,
        { s with serverLocks := s.serverLocks.insert uuid s.made, made := s.made + 1 }) := by
  cases h : s.serverLocks.lookup uuid with
  | some lock => exact .inl ⟨lock, rfl, by rw [Store.getLock, h]⟩
  | none => exact .inr ⟨rfl, by rw [Store.getLock, h]⟩

/-- A turn either gives a request its mutex, or makes none, adds nothing to the lock map and
leaves the request the one it has. -/
theorem taskTurn_mutex (t : Task) (strand : Strand) :
    (∃ uuid, guarded t.request = some uuid ∧
      (taskTurn serde strand answer s t).1 = (s.getLock uuid).2 ∧
      (taskTurn serde strand answer s t).2.stage = .waiting (s.getLock uuid).1) ∨
    (taskTurn serde strand answer s t).1.made = s.made ∧
      ((taskTurn serde strand answer s t).1.serverLocks = s.serverLocks ∨
        ∃ uuid, (taskTurn serde strand answer s t).1.serverLocks = s.serverLocks.erase uuid) ∧
      ∀ lock ∈ (taskTurn serde strand answer s t).2.stage.lock, lock ∈ t.stage.lock := by
  cases strand with
  | background =>
    refine .inr ?_
    simp only [taskTurn]
    split
    next h => cases h
    next uuid background _ _ _ =>
      exact ⟨by cases background <;> rfl, .inl (backgroundTurn_locks answer s uuid background).1,
        fun _ h => h⟩
    next => exact ⟨rfl, .inl rfl, fun _ h => h⟩
  | handler =>
    obtain ⟨request, stage, background⟩ := t
    simp only [taskTurn]
    cases stage with
    | arrived =>
      simp only [handlerTurn]
      split
      next uuid hguarded => exact .inl ⟨uuid, hguarded, rfl, rfl⟩
      next =>
        refine .inr ⟨?_, .inl (unguardedTurn_locks serde s request).1, ?_⟩
        · unfold unguardedTurn
          split <;> rfl
        · intro lock h
          cases h
    | waiting lock =>
      refine .inr ?_
      simp only [handlerTurn]
      split
      · split
        · exact ⟨rfl, .inl rfl, fun _ h => h⟩
        · exact ⟨rfl, .inl rfl, fun _ h => h⟩
      · exact ⟨rfl, .inl rfl, fun _ h => h⟩
    | inside lock point =>
      refine .inr ?_
      simp only [handlerTurn]
      split
      next uuid _ =>
        refine ⟨(pointTurn_frame serde answer s uuid point).1,
          (pointTurn_locks serde answer s uuid point).2.imp_right fun h => ⟨uuid, h⟩, ?_⟩
        cases (pointTurn serde uuid answer s point).2.1 <;> exact fun _ h => h
      next => exact ⟨rfl, .inl rfl, fun _ h => h⟩
    | leaving lock ok =>
      refine .inr ⟨rfl, .inl rfl, ?_⟩
      intro lock h
      cases h
    | answered => exact .inr ⟨rfl, .inl rfl, fun _ h => h⟩

theorem unguardedTurn_responses (request : GrpcRequest) :
    ∃ ok, (unguardedTurn serde request s).responses = (request, ok) :: s.responses := by
  unfold unguardedTurn
  split
  · exact ⟨true, rfl⟩
  · exact ⟨true, rfl⟩
  · exact ⟨false, rfl⟩

/-- An answer goes out exactly when a request is answered. -/
theorem taskTurn_answers (t : Task) (strand : Strand) (uuid : String) :
    ((taskTurn serde strand answer s t).1.responses.countP (answerFor uuid) =
        s.responses.countP (answerFor uuid) ∧
      (taskTurn serde strand answer s t).2.unanswered uuid = t.unanswered uuid) ∨
    (taskTurn serde strand answer s t).1.responses.countP (answerFor uuid) =
        s.responses.countP (answerFor uuid) + 1 ∧
      t.unanswered uuid = true ∧ (taskTurn serde strand answer s t).2.unanswered uuid = false := by
  cases strand with
  | background =>
    left
    simp only [taskTurn]
    split
    next h => cases h
    next u background _ _ _ => cases background <;> exact ⟨rfl, rfl⟩
    next => exact ⟨rfl, rfl⟩
  | handler =>
    obtain ⟨request, stage, background⟩ := t
    simp only [taskTurn]
    cases stage with
    | arrived =>
      left
      simp only [handlerTurn]
      split
      next u hguarded =>
        refine ⟨?_, rfl⟩
        rcases getLock_eq s u with ⟨lock, -, hget⟩ | ⟨-, hget⟩
        · rw [hget]
        · rw [hget]
      next hguarded =>
        obtain ⟨ok, hresponses⟩ := unguardedTurn_responses serde s request
        rw [hresponses, List.countP_cons]
        simp [answerFor, Task.unanswered, Task.concerns, hguarded]
    | waiting lock =>
      left
      simp only [handlerTurn]
      split
      · split <;> exact ⟨rfl, rfl⟩
      · exact ⟨rfl, rfl⟩
    | inside lock point =>
      left
      simp only [handlerTurn]
      split
      next u _ =>
        refine ⟨by rw [(pointTurn_frame serde answer s u point).2], ?_⟩
        cases (pointTurn serde u answer s point).2.1 <;> rfl
      next => exact ⟨rfl, rfl⟩
    | leaving lock ok =>
      cases hconcerns : guarded request == some uuid
      · left
        simp [handlerTurn, Task.unanswered, Task.concerns, answerFor, hconcerns]
      · right
        simp [handlerTurn, Task.unanswered, Task.concerns, answerFor, hconcerns]
    | answered => exact .inl ⟨rfl, rfl⟩

end Turns

/-! ## The invariant -/

/-- The server each mutex was made for is the one whose entry has it and whose requests are
given it. -/
structure Owned (owner : Nat → String) (p : State) : Prop where
  entries : ∀ uuid lock, p.store.serverLocks.lookup uuid = some lock →
    lock < p.store.made ∧ owner lock = uuid
  given : ∀ t ∈ p.tasks, ∀ lock ∈ t.stage.lock,
    lock < p.store.made ∧ guarded t.request = some (owner lock)

/-- The guards that are held are those of the handlers in their sections, no mutex is one of two
servers, and no request is kept that is over. -/
structure Steady (p : State) : Prop where
  held : ∀ lock, p.count (fun t => t.stage.holds lock) = p.store.held.count lock
  once : p.store.held.Nodup
  owned : ∃ owner, Owned owner p
  unfinished : ∀ t ∈ p.tasks, t.over = false

section Invariant

variable {serde : Serde} {uuid : String} {p p' : State} {i : Nat} {strand : Strand}
  {answer : Answer} {owner : Nat → String}

theorem Steady.started (app : AppState) (containers : String → Option String) :
    Steady (started app containers) :=
  ⟨fun _ => rfl, List.nodup_nil,
    ⟨fun _ => "", ⟨fun _ _ h => (nomatch h), List.forall_mem_nil _⟩⟩, List.forall_mem_nil _⟩

/-- A step that makes no mutex keeps what is known of the others. -/
theorem Owned.of_turn (hp : Owned owner p) {t : Task} (ht : p.tasks[i]? = some t)
    (h : (tasks serde).step p (.turn i (strand, answer)) = some p')
    (hmade : p'.store.made = p.store.made)
    (hentries : ∀ uuid lock, p'.store.serverLocks.lookup uuid = some lock →
      p.store.serverLocks.lookup uuid = some lock)
    (hgiven : ∀ lock ∈ (taskTurn serde strand answer p.store t).2.stage.lock,
      lock < p.store.made ∧ guarded t.request = some (owner lock)) : Owned owner p' := by
  refine ⟨fun uuid l hl => ?_, fun v hv l hl => ?_⟩
  · rw [hmade]
    exact hp.entries uuid l (hentries uuid l hl)
  · rw [hmade]
    rcases mem_turn ht h hv with rfl | hv
    · rw [taskTurn_request]
      exact hgiven l hl
    · exact hp.given v (List.mem_of_mem_eraseIdx hv) l hl

/-- A mutex that is made is made for the server of the request that is given it. -/
theorem Owned.of_new (hp : Owned owner p) {t : Task} (ht : p.tasks[i]? = some t)
    (h : (tasks serde).step p (.turn i (strand, answer)) = some p')
    (hguarded : guarded t.request = some uuid)
    (hmade : p'.store.made = p.store.made + 1)
    (hlocks : p'.store.serverLocks = p.store.serverLocks.insert uuid p.store.made)
    (hstage : (taskTurn serde strand answer p.store t).2.stage = .waiting p.store.made) :
    Owned (Function.update owner p.store.made uuid) p' := by
  have hold {l : Nat} (hl : l < p.store.made) :
      Function.update owner p.store.made uuid l = owner l :=
    Function.update_of_ne (Nat.ne_of_lt hl) _ _
  refine ⟨fun v l hl => ?_, fun v hv l hl => ?_⟩
  · rw [hlocks] at hl
    rw [hmade]
    by_cases hv : v = uuid
    · subst hv
      rw [AList.lookup_insert] at hl
      cases hl
      exact ⟨Nat.lt_succ_self _, Function.update_self ..⟩
    · rw [AList.lookup_insert_ne hv] at hl
      obtain ⟨hlt, howner⟩ := hp.entries v l hl
      exact ⟨Nat.lt_succ_of_lt hlt, by rw [hold hlt, howner]⟩
  · rw [hmade]
    rcases mem_turn ht h hv with rfl | hv
    · rw [hstage] at hl
      cases hl
      rw [taskTurn_request, Function.update_self]
      exact ⟨Nat.lt_succ_self _, hguarded⟩
    · obtain ⟨hlt, howner⟩ := hp.given v (List.mem_of_mem_eraseIdx hv) l hl
      exact ⟨Nat.lt_succ_of_lt hlt, by rw [hold hlt, howner]⟩

theorem Owned.turn (hp : Owned owner p)
    (h : (tasks serde).step p (.turn i (strand, answer)) = some p') : ∃ owner, Owned owner p' := by
  obtain ⟨t, ht, hstore, -⟩ := step_turn h
  rcases taskTurn_mutex serde answer p.store t strand with
    ⟨u, hguarded, hturn, hstage⟩ | ⟨hmade, hlocks, hlock⟩
  · rw [hturn] at hstore
    rcases getLock_eq p.store u with ⟨lock, hlookup, hget⟩ | ⟨-, hget⟩
    · rw [hget] at hstore hstage
      refine ⟨owner, hp.of_turn ht h (by rw [hstore]) (fun _ _ hl => by rwa [hstore] at hl) ?_⟩
      intro l hl
      rw [hstage] at hl
      cases hl
      obtain ⟨hlt, rfl⟩ := hp.entries u lock hlookup
      exact ⟨hlt, hguarded⟩
    · rw [hget] at hstore hstage
      exact ⟨_, hp.of_new ht h hguarded (by rw [hstore]) (by rw [hstore]) hstage⟩
  · rw [← hstore] at hmade hlocks
    refine ⟨owner, hp.of_turn ht h hmade (fun v l hl => ?_) fun l hl =>
      hp.given t (List.mem_of_getElem? ht) l (hlock l hl)⟩
    rcases hlocks with hlocks | ⟨u, hlocks⟩
    · rwa [hlocks] at hl
    · rw [hlocks] at hl
      by_cases hv : v = u
      · subst hv
        rw [AList.lookup_erase] at hl
        cases hl
      · rwa [AList.lookup_erase_ne hv] at hl

theorem Steady.step (hp : Steady p) {l : Label} (h : (tasks serde).step p l = some p') :
    Steady p' := by
  cases l with
  | start t =>
    obtain ⟨ht, rfl⟩ := step_start h
    obtain ⟨owner, hentries, hgiven⟩ := hp.owned
    refine ⟨fun l => ?_, hp.once, ⟨owner, hentries, fun u hu => ?_⟩, fun u hu => ?_⟩
    · rw [Pool.count_start h, ht]
      exact hp.held l
    · rcases List.mem_cons.mp hu with rfl | hu
      · rw [ht]
        exact fun _ hl => nomatch hl
      · exact hgiven u hu
    · rcases List.mem_cons.mp hu with rfl | hu
      · rw [ht]
        rfl
      · exact hp.unfinished u hu
  | turn i reply =>
    obtain ⟨strand, answer⟩ := reply
    obtain ⟨hheld, honce⟩ := held_turn hp.held hp.once h
    obtain ⟨owner, howned⟩ := hp.owned
    refine ⟨hheld, honce, howned.turn h, fun u hu => ?_⟩
    obtain ⟨t, ht, -, htasks⟩ := step_turn h
    rw [htasks] at hu
    rcases List.mem_append.mp hu with hu | hu
    · split at hu
      next => cases hu
      next hover =>
        rw [List.mem_singleton.mp hu]
        exact Bool.eq_false_iff.mpr hover
    · exact hp.unfinished u (List.mem_of_mem_eraseIdx hu)
  | outside event =>
    cases step_outside h
    exact ⟨hp.held, hp.once, hp.owned.imp fun _ howned => ⟨howned.entries, howned.given⟩,
      hp.unfinished⟩

/-- A request that waits for a mutex that is held waits for another of the same server, which
is in its section. -/
theorem Steady.holder (hp : Steady p) {t : Task} (ht : t ∈ p.tasks)
    (hconcerns : t.concerns uuid = true) {lock : Nat} (hstage : t.stage = .waiting lock)
    (hheld : lock ∈ p.store.held) :
    ∃ u ∈ p.tasks, u.concerns uuid = true ∧ u.stage.holds lock = true := by
  obtain ⟨owner, howned⟩ := hp.owned
  have hpos : 0 < p.count fun t => t.stage.holds lock := by
    rw [hp.held lock]
    exact List.count_pos_iff.mpr hheld
  obtain ⟨u, hu, hholds⟩ := List.countP_pos_iff.mp hpos
  have hlock : lock ∈ u.stage.lock := by
    obtain ⟨request, stage, background⟩ := u
    cases stage with
    | inside | leaving => exact congrArg some (beq_iff_eq.mp hholds)
    | _ => cases hholds
  refine ⟨u, hu, beq_iff_eq.mpr ?_, hholds⟩
  calc guarded u.request
    _ = some (owner lock) := (howned.given u hu lock hlock).2
    _ = guarded t.request := (howned.given t ht lock (by rw [hstage]; rfl)).2.symm
    _ = some uuid := beq_iff_eq.mp hconcerns

/-- As long as a request for the server is left, one of them can go on. -/
theorem Steady.progress (hp : Steady p) (hleft : p.count (Task.concerns uuid) ≠ 0) :
    ∃ i strand, ∀ answer, advances serde uuid p (.turn i (strand, answer)) = true := by
  have hcan {u : Task} (hu : u ∈ p.tasks) (hconcerns : u.concerns uuid = true)
      (hfree : ∀ lock ∈ p.store.held, u.stage ≠ .waiting lock) :
      ∃ i strand, ∀ answer, advances serde uuid p (.turn i (strand, answer)) = true := by
    obtain ⟨i, hi⟩ := List.mem_iff_getElem?.mp hu
    obtain ⟨strand, hne⟩ := exists_strand serde p.store hconcerns (hp.unfinished u hu) hfree
    refine ⟨i, strand, fun answer => ?_⟩
    rw [advances, hi, Option.any_some, hconcerns, Bool.true_and]
    exact bne_iff_ne.mpr (hne answer)
  obtain ⟨t, ht, hconcerns⟩ := List.countP_pos_iff.mp (Nat.pos_of_ne_zero hleft)
  by_cases hwaits : ∃ lock ∈ p.store.held, t.stage = .waiting lock
  · obtain ⟨lock, hheld, hstage⟩ := hwaits
    obtain ⟨u, hu, huconcerns, hholds⟩ := hp.holder ht hconcerns hstage hheld
    refine hcan hu huconcerns fun l _ hl => ?_
    rw [hl] at hholds
    cases hholds
  · exact hcan ht hconcerns fun lock hheld hstage => hwaits ⟨lock, hheld, hstage⟩

/-! ## What a step does to the counts -/

/-- A request that arrives is answered or still to be answered. -/
theorem answers_step (serde : Serde) (uuid : String) {l : Label} (h : (tasks serde).step p l = some p') :
    p'.store.responses.countP (answerFor uuid) + p'.count (Task.unanswered uuid) =
      p.store.responses.countP (answerFor uuid) + p.count (Task.unanswered uuid) +
        if arrivalFor uuid l then 1 else 0 := by
  cases l with
  | start t =>
    obtain ⟨ht, rfl⟩ := step_start h
    have hnew : t.unanswered uuid = arrivalFor uuid (.start t) := by
      rw [ht]
      exact Bool.and_true _
    rw [Pool.count_start h, hnew, Nat.add_assoc]
  | turn i reply =>
    obtain ⟨strand, answer⟩ := reply
    obtain ⟨t, ht, hstore, -⟩ := step_turn h
    have hcount := count_turn (q := Task.unanswered uuid)
      (fun t hover => by simp_all [Task.over, Task.unanswered]) ht h
    have hnone : arrivalFor uuid (.turn i (strand, answer)) = false := rfl
    rw [hstore, hnone, if_neg Bool.false_ne_true]
    rcases taskTurn_answers serde answer p.store t strand uuid with
      ⟨hsame, hstill⟩ | ⟨hmore, hbefore, hafter⟩
    · rw [hstill] at hcount
      omega
    · rw [hbefore, hafter, if_pos rfl, if_neg Bool.false_ne_true] at hcount
      omega
  | outside event =>
    cases step_outside h
    rfl

/-- A turn that takes a request further is one of those it has left. -/
theorem turns_step (serde : Serde) (uuid : String) {l : Label} (h : (tasks serde).step p l = some p') :
    (advancing serde uuid p l).countP (fun _ => true) + p'.total (turnsFor uuid) ≤
      p.total (turnsFor uuid) + if arrivalFor uuid l then 11 else 0 := by
  cases l with
  | start t =>
    obtain ⟨ht, rfl⟩ := step_start h
    rw [Pool.total_start h, arrivalFor, turnsFor, ht]
    exact Nat.le_of_eq (Nat.zero_add _)
  | turn i reply =>
    obtain ⟨strand, answer⟩ := reply
    obtain ⟨t, ht, -, -⟩ := step_turn h
    have htotal := Pool.total_turn (f := turnsFor uuid) ht h
    have hnext : (((tasks serde).turn p.store (strand, answer) t).next.toList.map
        (turnsFor uuid)).sum ≤ turnsFor uuid (taskTurn serde strand answer p.store t).2 := by
      simp only [tasks]
      split <;> simp
    have hturn := taskTurn_turnsFor serde answer p.store t strand uuid
    have hadvances : (advancing serde uuid p (.turn i (strand, answer))).countP (fun _ => true) =
        if t.concerns uuid && (taskTurn serde strand answer p.store t).2 != t then 1 else 0 := by
      simp only [advancing, advances, ht, Option.any_some]
      split <;> rfl
    have hnone : arrivalFor uuid (.turn i (strand, answer)) = false := rfl
    rw [hadvances, hnone, if_neg Bool.false_ne_true]
    omega
  | outside event =>
    cases step_outside h
    exact Nat.le_of_eq (Nat.zero_add _)

/-- In every run of a service, whatever the other requests are doing and Docker answers: the
requests for a server are answered once each, they take eleven turns each at most that are not
spent on waiting, and as long as one is left one of them can go on. -/
theorem requests_answered {app : AppState} {containers : String → Option String} {ls : List Label}
    (hrun : run (tasks serde).step (started app containers) ls = some p) (uuid : String) :
    p.store.responses.countP (answerFor uuid) + p.count (Task.unanswered uuid) =
        ls.countP (arrivalFor uuid) ∧
      (collect (tasks serde).step (advancing serde uuid) (started app containers) ls).length ≤
        11 * ls.countP (arrivalFor uuid) ∧
      (p.count (Task.concerns uuid) ≠ 0 →
        ∃ i strand, ∀ answer, advances serde uuid p (.turn i (strand, answer)) = true) := by
  have hsteady : Steady p :=
    run_preserves (fun _ _ _ hp => Steady.step hp) (.started app containers) hrun
  have hanswers := run_countP (w := fun p : State =>
      p.store.responses.countP (answerFor uuid) + p.count (Task.unanswered uuid))
    (fun _ _ _ h => answers_step serde uuid h) hrun
  have halong : Along (tasks serde).step (fun _ _ => True) (started app containers) ls :=
    along_of_forall fun _ _ _ => trivial
  have hturns := countP_collect_le (p := arrivalFor uuid)
    (w := fun p : State => p.total (turnsFor uuid))
    (fun _ _ _ _ h => turns_step serde uuid h) halong hrun
  rw [List.countP_true] at hturns
  refine ⟨hanswers.trans (Nat.zero_add _), ?_, hsteady.progress⟩
  exact (Nat.le_add_right _ _).trans (hturns.trans_eq (Nat.zero_add _))

end Invariant

/-- The removal of a server's container does not come back, a second request for that server
waits, and a request for another server arrives. -/
def hangingDelete : List Label :=
  [arrives (.deleteServer "u" false), handles 0 (.ok []), handles 0 (.ok []), handles 0 (.ok []),
    arrives (.updateResources "u" 1024 100 1024), handles 0 (.ok []), handles 0 (.ok []),
    arrives (.sendPowerAction "v" 3), handles 0 (.ok []), handles 0 (.ok [])]

theorem other_server_goes_on :
    ∃ p, run (tasks .framed).step (started emptyApp fun _ => none) hangingDelete = some p ∧
      ∃ i strand, ∀ answer, advances .framed "v" p (.turn i (strand, answer)) = true := by
  obtain ⟨p, hrun⟩ : ∃ p, run (tasks .framed).step (started emptyApp fun _ => none)
    hangingDelete = some p := ⟨_, rfl⟩
  have hleft : (run (tasks .framed).step (started emptyApp fun _ => none) hangingDelete).map
      (fun p => p.count (Task.concerns "v")) = some 1 := by decide +kernel
  rw [hrun] at hleft
  have hone : p.count (Task.concerns "v") = 1 := Option.some.inj hleft
  exact ⟨p, hrun, (requests_answered hrun "v").2.2 (by rw [hone]; exact Nat.one_ne_zero)⟩

end Wings.Service
