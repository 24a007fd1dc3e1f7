import NexusPanel.Foundation.Pool
import NexusPanel.Wings.InstallReport

/-!
# Install runs of one server, one turn at a time

`Installer.install` is a run in one go. The service spawns a task for every install that is
asked for, and nothing keeps two of them for one server apart: they work under one container
name, and each begins and ends with the forced removal of whatever has that name.

Here the runs of a server are tasks of a pool, cut at every call that is awaited. A run has
the number of runs that had started before it. The store says which run made the container
that has the name now, and keeps for statements which containers the runs have laid hands on,
which callbacks the panel has received, and how the runs have ended.
-/

namespace Wings.InstallRuns

open Transition StateAction

/-- The next thing a run does. A run that is waiting has asked for the exit code; the code is
there from then on unless the script succeeded. -/
inductive Point
  | pull
  | cleanUp
  | create
  | start
  | logs
  | wait (output : List String)
  | waiting (output : List String)
  | notify (output : List String) (code : Option String)
  | remove (output : List String) (code : Option String)
deriving DecidableEq

inductive Stage
  | arrived
  | running (number : Nat) (point : Point)
deriving DecidableEq

structure Run where
  config : ServerConfig
  script : String
  image : String
  stage : Stage

/-- What `run_install` returns. -/
abbrev Result := Except WingsError (List String)

/-- The state of the daemon, the run that made the container with the name, and how many runs
have started. Newest first: the runs that force-removed a container or waited on it, with the
runs that had made it, the callbacks that arrived, and the runs that are over. -/
structure Store where
  app : AppState
  container : Option Nat
  started : Nat
  touched : List (Nat × Nat)
  received : List Callback
  ended : List (Nat × Result)

/-! ## Turns -/

namespace Store

/-- A question to Docker, and what comes behind it. -/
def asks {α : Type} (m : Handler α) (next : Except WingsError α → Point ⊕ Result) (s : Store) :
    Store × (Point ⊕ Result) :=
  ({ s with app := (m s.app).2 }, next (m s.app).1)

/-- The run lays hands on the container with the name. -/
def touch (number : Nat) (s : Store) : Store :=
  { s with touched := s.container.toList.map (number, ·) ++ s.touched }

/-- The forced removal of the container with the name; nobody looks at the answer. -/
def forceRemove (number : Nat) (name : String) (s : Store) : Store :=
  let (answer, app) := dockerCall (.removeContainer name false) s.app
  { s.touch number with
    app
    container := match answer with
      | .ok _ => none
      | .error _ => s.container }

/-- A container is created when Docker agrees and no container has the name. -/
def create (number : Nat) (name : String) (spec : ContainerSpec) (s : Store) :
    Store × (Point ⊕ Result) :=
  let (answer, app) := dockerCall (.createContainer name spec) s.app
  match s.container, answer with
  | none, .ok _ => ({ s with app, container := some number }, .inl .start)
  | none, .error e => ({ s with app }, .inr (.error e))
  | some _, .ok _ => ({ s with app }, .inr (.error (.docker "the name is in use")))
  | some _, .error e => ({ s with app }, .inr (.error e))

/-- A callback is posted; it arrives or is lost. -/
def post (callback : Callback) (arrives : Bool) (s : Store) : Store :=
  { s with
    app := { s.app with posts := callback :: s.app.posts }
    received := if arrives then callback :: s.received else s.received }

end Store

/-- A failed call ends the run. -/
def orEnd {α : Type} (next : α → Point) : Except WingsError α → Point ⊕ Result
  | .ok a => .inl (next a)
  | .error e => .inr (.error e)

/-- What the panel is told of a run that saw the exit code. -/
def callbackOf (config : ServerConfig) (s : AppState) (output : List String) :
    Option String → Callback
  | some _ => reportOf s config.uuid "failed" (some (Installer.lastLines output))
  | none => reportOf s config.uuid "success" none

def resultOf (output : List String) : Option String → Result
  | some code => .error (.io ("Install script exited with code " ++ code))
  | none => .ok output

/-- One turn of a run: the store, and the next point or the result. -/
def pointTurn (r : Run) (number : Nat) (arrives : Bool) (s : Store) :
    Point → Store × (Point ⊕ Result)
  | .pull => s.asks (dockerCall (.pullImage r.image)) (orEnd fun _ => .cleanUp)
  | .cleanUp => (s.forceRemove number (Installer.containerName r.config.uuid), .inl .create)
  | .create =>
    s.create number (Installer.containerName r.config.uuid)
      (Installer.installSpec r.config r.script r.image)
  | .start =>
    s.asks (dockerCall (.startContainer (Installer.containerName r.config.uuid)))
      (orEnd fun _ => .logs)
  | .logs =>
    s.asks ((dockerQuery (.logs (Installer.containerName r.config.uuid))).attempt)
      (orEnd fun log => .wait (log.getD []))
  | .wait output => (s.touch number, .inl (.waiting output))
  | .waiting output =>
    s.asks (dockerQuery (.waitContainer (Installer.containerName r.config.uuid)))
      (orEnd fun exit => .notify output (exit.head?.filter (· ≠ "0")))
  | .notify output code =>
    (s.post (callbackOf r.config s.app output code) arrives, .inl (.remove output code))
  | .remove output code =>
    (s.forceRemove number (Installer.containerName r.config.uuid), .inr (resultOf output code))

/-- A run gets its number with its first turn. -/
def turn (s : Store) (arrives : Bool) (r : Run) : Turn Store Unit Run :=
  match r.stage with
  | .arrived =>
    ⟨{ s with started := s.started + 1 }, (), some { r with stage := .running s.started .pull }⟩
  | .running number point =>
    match pointTurn r number arrives s point with
    | (s, .inl point) => ⟨s, (), some { r with stage := .running number point }⟩
    | (s, .inr result) => ⟨{ s with ended := (number, result) :: s.ended }, (), none⟩

def Stage.isArrived : Stage → Bool
  | .arrived => true
  | .running _ _ => false

/-- The install runs of one server. A turn that posts a callback is told whether it arrives. -/
def runs (uuid : String) : Tasks Store Run Bool Unit Empty where
  turn := turn
  starts r := r.config.uuid == uuid && r.stage.isArrived
  outside _ _ := none

abbrev State := Pool Store Run

abbrev Label := PoolLabel Run Bool Empty

/-- A daemon in which no install has been asked for yet. -/
def idle (app : AppState) : State := ⟨⟨app, none, 0, [], [], []⟩, []⟩

/-! ## Runs beside each other -/

/-- What the panel should have been told of a run. -/
def statusOf : Result → String
  | .ok _ => "success"
  | .error _ => "failed"

/-- Whatever a run has force-removed or waited on it had made, and when all runs are over, the
last status the panel has received is the outcome of the run that started last. -/
structure Undisturbed (p : State) : Prop where
  own : ∀ x ∈ p.store.touched, x.1 = x.2
  told : p.tasks = [] → ∀ number, p.store.started = number + 1 →
    ∃ result callback, (number, result) ∈ p.store.ended ∧
      p.store.received.head? = some callback ∧ callback.status = statusOf result

def Run.number (r : Run) : Option Nat :=
  match r.stage with
  | .arrived => none
  | .running number _ => some number

/-- The numbers of the runs in progress. -/
def numbers (tasks : List Run) : List Nat := tasks.filterMap Run.number

/-- The next turn ends the run without a word to the panel, or the word is lost. -/
def Unheard (s : Store) (arrives : Bool) : Point → Prop
  | .pull | .start | .waiting _ => (s.app.answer 0).isOk = false
  | .create => s.container ≠ none ∨ (s.app.answer 0).isOk = false
  | .notify _ _ => arrives = false
  | _ => False

instance (s : Store) (arrives : Bool) : ∀ point, Decidable (Unheard s arrives point)
  | .pull | .start | .waiting _ => inferInstanceAs (Decidable ((s.app.answer 0).isOk = false))
  | .create =>
    inferInstanceAs (Decidable (s.container ≠ none ∨ (s.app.answer 0).isOk = false))
  | .notify _ _ => inferInstanceAs (Decidable (arrives = false))
  | .cleanUp | .logs | .wait _ | .remove _ _ => inferInstanceAs (Decidable False)

/-- A turn that removes leftovers finds none, and every run that started before is over; and of
the run that started last the panel hears. -/
def Permitted (p : State) (arrives : Bool) : Stage → Prop
  | .arrived => True
  | .running number point =>
    (point = .cleanUp → p.store.container = none ∧ ∀ k ∈ numbers p.tasks, number ≤ k) ∧
      (Unheard p.store arrives point → number + 1 < p.store.started)

def Separate (p : State) : Label → Prop
  | .turn i arrives => ∀ r ∈ p.tasks[i]?, Permitted p arrives r.stage
  | _ => True

instance (p : State) (arrives : Bool) : ∀ stage, Decidable (Permitted p arrives stage)
  | .arrived => inferInstanceAs (Decidable True)
  | .running number point => inferInstanceAs (Decidable
      ((point = .cleanUp → p.store.container = none ∧ ∀ k ∈ numbers p.tasks, number ≤ k) ∧
        (Unheard p.store arrives point → number + 1 < p.store.started)))

instance (p : State) : ∀ label, Decidable (Separate p label)
  | .turn i arrives =>
    inferInstanceAs (Decidable (∀ r ∈ p.tasks[i]?, Permitted p arrives r.stage))
  | .start _ | .outside _ => inferInstanceAs (Decidable True)

/-! ## What one turn does -/

/-- The run has removed leftovers. -/
def Point.past : Point → Bool
  | .pull | .cleanUp => false
  | _ => true

/-- The run has posted its callback. -/
def Point.reported : Point → Bool
  | .remove _ _ => true
  | _ => false

/-- What a run that is past the removal of leftovers knows of the container. -/
def Fits (s : Store) (number : Nat) : Point → Prop
  | .create => s.container = none
  | point => point.past = true → ∀ maker ∈ s.container, number = maker

section Turns

variable {r : Run} {number : Nat} {arrives : Bool} {s : Store} {point next : Point}
  {result : Result}

theorem Fits.own (h : Fits s number point) (hpast : point.past = true) :
    ∀ maker ∈ s.container, number = maker := by
  cases point with
  | create =>
    intro maker hmaker
    rw [show s.container = none from h] at hmaker
    cases hmaker
  | pull | cleanUp => cases hpast
  | start | logs | wait | waiting | notify | remove => exact h hpast

/-- A failed call goes nowhere. -/
theorem of_orEnd_inl {α : Type} {next' : α → Point} {answer : Except WingsError α}
    (h : orEnd next' answer = .inl next) : ∃ a, answer = .ok a ∧ next = next' a := by
  cases answer with
  | ok a =>
    cases h
    exact ⟨a, rfl, rfl⟩
  | error e => cases h

theorem of_orEnd_inr {α : Type} {next' : α → Point} {answer : Except WingsError α}
    (h : orEnd next' answer = .inr result) : ∃ e, answer = .error e := by
  cases answer with
  | ok a => cases h
  | error e => exact ⟨e, rfl⟩

/-- A question fails only when Docker's next answer is a failure. -/
theorem answer_of_ask {keep : Docker → Docker} (hkeep : ∀ d, (keep d).answers = d.answers)
    {app : AppState} {e : WingsError} (h : (ask keep app).1 = .error e) :
    (app.answer 0).isOk = false := by
  have hpost := (asked_ask (s := app) (k := 0) hkeep).post app ⟨rfl, rfl, rfl⟩
  revert hpost h
  cases ask keep app with
  | mk answer app' =>
    rintro rfl hpost
    obtain ⟨message, hmessage⟩ := hpost.1
    rw [hmessage]
    rfl

theorem touch_own (hcontainer : ∀ maker ∈ s.container, number = maker)
    (hown : ∀ x ∈ s.touched, x.1 = x.2) : ∀ x ∈ (s.touch number).touched, x.1 = x.2 := by
  intro x hx
  rcases List.mem_append.mp hx with hx | hx
  · obtain ⟨maker, hmaker, rfl⟩ := List.mem_map.mp hx
    exact hcontainer maker (Option.mem_toList.mp hmaker)
  · exact hown x hx

theorem pointTurn_started :
    (pointTurn r number arrives s point).1.started = s.started ∧
      (pointTurn r number arrives s point).1.ended = s.ended := by
  cases point with
  | create =>
    simp only [pointTurn, Store.create]
    split <;> exact ⟨rfl, rfl⟩
  | pull | cleanUp | start | logs | wait | waiting | notify | remove => exact ⟨rfl, rfl⟩

/-- A run that finds no leftovers lays hands on its own container only. -/
theorem pointTurn_own (hfits : Fits s number point)
    (hclean : point = .cleanUp → s.container = none) (hown : ∀ x ∈ s.touched, x.1 = x.2) :
    ∀ x ∈ (pointTurn r number arrives s point).1.touched, x.1 = x.2 := by
  cases point with
  | cleanUp =>
    refine touch_own (fun maker hmaker => ?_) hown
    rw [hclean rfl] at hmaker
    cases hmaker
  | create =>
    simp only [pointTurn, Store.create]
    split <;> exact hown
  | wait | remove => exact touch_own (hfits.own rfl) hown
  | pull | start | logs | waiting | notify => exact hown

theorem container_forceRemove {name : String} (h : s.container = none) :
    (s.forceRemove number name).container = none := by
  simp only [Store.forceRemove]
  split
  · rfl
  · exact h

/-- Only a run that is past the removal of leftovers changes anything about the container. -/
theorem pointTurn_container (hclean : point = .cleanUp → s.container = none) :
    (pointTurn r number arrives s point).1.container = s.container ∨ point.past = true := by
  cases point with
  | pull => exact .inl rfl
  | cleanUp =>
    refine .inl ?_
    rw [hclean rfl]
    exact container_forceRemove (hclean rfl)
  | create | start | logs | wait | waiting | notify | remove => exact .inr rfl

theorem pointTurn_fits (hfits : Fits s number point)
    (hclean : point = .cleanUp → s.container = none)
    (h : (pointTurn r number arrives s point).2 = .inl next) :
    Fits (pointTurn r number arrives s point).1 number next := by
  cases point with
  | pull =>
    obtain ⟨items, -, rfl⟩ := of_orEnd_inl h
    intro hpast
    cases hpast
  | cleanUp =>
    cases h
    exact container_forceRemove (hclean rfl)
  | create =>
    revert h
    simp only [pointTurn, Store.create]
    split
    · intro h
      cases h
      intro _ maker hmaker
      exact Option.mem_some.mp hmaker
    all_goals intro h; cases h
  | start =>
    obtain ⟨items, -, rfl⟩ := of_orEnd_inl h
    exact fun _ => hfits.own rfl
  | logs =>
    obtain ⟨items, -, rfl⟩ := of_orEnd_inl h
    exact fun _ => hfits.own rfl
  | wait output =>
    cases h
    exact fun _ => hfits.own rfl
  | waiting output =>
    obtain ⟨items, -, rfl⟩ := of_orEnd_inl h
    exact fun _ => hfits.own rfl
  | notify output code =>
    cases h
    exact fun _ => hfits.own rfl
  | remove => cases h

/-- A run gets past the removal of leftovers by removing them. -/
theorem pointTurn_past (h : (pointTurn r number arrives s point).2 = .inl next)
    (hpast : next.past = true) : point.past = true ∨ point = .cleanUp := by
  cases point with
  | pull =>
    obtain ⟨items, -, rfl⟩ := of_orEnd_inl h
    cases hpast
  | cleanUp => exact .inr rfl
  | create | start | logs | wait | waiting | notify | remove => exact .inl rfl

/-- A run has reported when it has posted its callback. -/
theorem pointTurn_reported (h : (pointTurn r number arrives s point).2 = .inl next)
    (hreported : next.reported = true) :
    ∃ output code, point = .notify output code ∧ next = .remove output code := by
  cases point with
  | notify output code =>
    cases h
    exact ⟨output, code, rfl, rfl⟩
  | create =>
    revert h
    simp only [pointTurn, Store.create]
    split
    · intro h
      cases h
      cases hreported
    all_goals intro h; cases h
  | pull | start | logs | waiting =>
    obtain ⟨a, -, rfl⟩ := of_orEnd_inl h
    cases hreported
  | cleanUp | wait =>
    cases h
    cases hreported
  | remove => cases h

/-- A run that ends has posted its callback, or the panel does not hear of it. -/
theorem pointTurn_ends (h : (pointTurn r number arrives s point).2 = .inr result) :
    Unheard s arrives point ∨
      ∃ output code, point = .remove output code ∧ result = resultOf output code := by
  cases point with
  | pull | start | waiting =>
    obtain ⟨e, he⟩ := of_orEnd_inr h
    refine .inl (answer_of_ask ?_ he)
    exact fun _ => rfl
  | create =>
    revert h
    simp only [pointTurn, Store.create]
    split
    · intro h
      cases h
    next he =>
      refine fun _ => .inl (.inr (answer_of_ask ?_ he))
      exact fun _ => rfl
    next hcontainer _ => exact fun _ => .inl (.inl (by rw [hcontainer]; exact Option.some_ne_none _))
    next hcontainer _ => exact fun _ => .inl (.inl (by rw [hcontainer]; exact Option.some_ne_none _))
  | logs =>
    obtain ⟨e, he⟩ := of_orEnd_inr h
    obtain ⟨a, ha⟩ := attempt_ok (dockerQuery (.logs (Installer.containerName r.config.uuid))) s.app
    cases ha.symm.trans he
  | cleanUp | wait | notify => cases h
  | remove output code =>
    cases h
    exact .inr ⟨output, code, rfl, rfl⟩

/-- A turn that gets a run to its next point. -/
theorem turn_inl (hstage : r.stage = .running number point)
    (h : (pointTurn r number arrives s point).2 = .inl next) :
    turn s arrives r = ⟨(pointTurn r number arrives s point).1, (),
      some { r with stage := .running number next }⟩ := by
  simp only [turn, hstage]
  cases hturn : pointTurn r number arrives s point with
  | mk s' result =>
    rw [hturn] at h
    rw [show result = .inl next from h]

/-- A turn that ends a run. -/
theorem turn_inr (hstage : r.stage = .running number point)
    (h : (pointTurn r number arrives s point).2 = .inr result) :
    turn s arrives r = ⟨{ (pointTurn r number arrives s point).1 with
      ended := (number, result) :: (pointTurn r number arrives s point).1.ended }, (), none⟩ := by
  simp only [turn, hstage]
  cases hturn : pointTurn r number arrives s point with
  | mk s' result' =>
    rw [hturn] at h
    rw [show result' = .inr result from h]

end Turns

/-! ## The runs in their order -/

section Invariant

variable {s s' : Store} {tasks rest : List Run} {r u : Run} {number : Nat} {arrives : Bool}
  {point next : Point} {result : Result}

/-- The run has not posted its callback yet. -/
def Awaited (number : Nat) (tasks : List Run) : Prop :=
  ∃ r ∈ tasks, ∃ point, r.stage = .running number point ∧ point.reported = false

/-- Nothing is in progress but the run itself, which has come to its result. -/
inductive Settled (number : Nat) (s : Store) (tasks : List Run) (result : Result) : Prop
  | leaving (r : Run) (output : List String) (code : Option String) (hr : r ∈ tasks)
      (hstage : r.stage = .running number (.remove output code))
      (hresult : result = resultOf output code) (honly : ∀ k ∈ numbers tasks, k = number)
  | past (hended : (number, result) ∈ s.ended) (hnone : numbers tasks = [])

/-- The panel has heard of the run and of no other since. -/
def Told (number : Nat) (s : Store) (tasks : List Run) : Prop :=
  ∃ result callback, s.received.head? = some callback ∧ callback.status = statusOf result ∧
    Settled number s tasks result

/-- The runs in progress have different numbers; one that is past the removal of leftovers
started before the others, and the container is its own; and the run that started last is one
the panel is going to hear of or has just heard of. -/
structure Ordered (s : Store) (tasks : List Run) : Prop where
  distinct : (numbers tasks).Nodup
  numbered : ∀ k ∈ numbers tasks, k < s.started
  first : ∀ r ∈ tasks, ∀ number point, r.stage = .running number point → point.past = true →
    ∀ k ∈ numbers tasks, number ≤ k
  fits : ∀ r ∈ tasks, ∀ number point, r.stage = .running number point → Fits s number point
  own : ∀ x ∈ s.touched, x.1 = x.2
  told : ∀ number, s.started = number + 1 → Awaited number tasks ∨ Told number s tasks

theorem numbers_running (hstage : r.stage = .running number point) :
    numbers (r :: rest) = number :: numbers rest := by
  simp [numbers, Run.number, hstage]

theorem numbers_arrived (hstage : r.stage = .arrived) : numbers (r :: rest) = numbers rest := by
  simp [numbers, Run.number, hstage]

theorem mem_numbers (hr : r ∈ tasks) (hstage : r.stage = .running number point) :
    number ∈ numbers tasks :=
  List.mem_filterMap.mpr ⟨r, hr, by simp [Run.number, hstage]⟩

/-- The order of the tasks does not matter. -/
theorem Ordered.perm {tasks' : List Run} (hp : Ordered s tasks) (h : tasks.Perm tasks') :
    Ordered s tasks' := by
  have hnumbers : (numbers tasks).Perm (numbers tasks') := h.filterMap _
  have hmem : ∀ {k}, k ∈ numbers tasks' → k ∈ numbers tasks := hnumbers.mem_iff.mpr
  refine ⟨hnumbers.nodup_iff.mp hp.distinct, fun k hk => hp.numbered k (hmem hk),
    fun r hr number point hstage hpast k hk => ?_,
    fun r hr number point hstage => hp.fits r (h.mem_iff.mpr hr) number point hstage, hp.own,
    fun number hlast => ?_⟩
  · exact hp.first r (h.mem_iff.mpr hr) number point hstage hpast k (hmem hk)
  rcases hp.told number hlast with ⟨r, hr, hstage⟩ | ⟨result, callback, hhead, hstatus, hsettled⟩
  · exact .inl ⟨r, h.mem_iff.mp hr, hstage⟩
  refine .inr ⟨result, callback, hhead, hstatus, ?_⟩
  cases hsettled with
  | leaving r output code hr hstage hresult honly =>
    exact .leaving r output code (h.mem_iff.mp hr) hstage hresult fun k hk => honly k (hmem hk)
  | past hended hnone =>
    exact .past hended (List.Perm.eq_nil (hnone ▸ hnumbers.symm))

/-- A run that arrives has no number yet. -/
theorem Ordered.arrive (hp : Ordered s tasks) (hstage : r.stage = .arrived) :
    Ordered s (r :: tasks) := by
  have hrunning : ∀ u ∈ r :: tasks, ∀ number point, u.stage = .running number point →
      u ∈ tasks := by
    intro u hu number point hu'
    rcases List.mem_cons.mp hu with rfl | hu
    · cases hstage.symm.trans hu'
    · exact hu
  have hnumbers : numbers (r :: tasks) = numbers tasks := numbers_arrived hstage
  refine ⟨hnumbers ▸ hp.distinct, hnumbers ▸ hp.numbered,
    fun u hu number point hu' => hnumbers ▸ hp.first u (hrunning u hu _ _ hu') number point hu',
    fun u hu number point hu' => hp.fits u (hrunning u hu _ _ hu') number point hu', hp.own,
    fun number hlast => ?_⟩
  rcases hp.told number hlast with ⟨u, hu, hu'⟩ | ⟨result, callback, hhead, hstatus, hsettled⟩
  · exact .inl ⟨u, List.mem_cons_of_mem r hu, hu'⟩
  refine .inr ⟨result, callback, hhead, hstatus, ?_⟩
  cases hsettled with
  | leaving u output code hu hu' hresult honly =>
    exact .leaving u output code (List.mem_cons_of_mem r hu) hu' hresult (hnumbers ▸ honly)
  | past hended hnone => exact .past hended (hnumbers.trans hnone)

/-- A run that starts has a greater number than the others. -/
theorem Ordered.start (hp : Ordered s (r :: rest)) (hstage : r.stage = .arrived) :
    Ordered { s with started := s.started + 1 }
      ({ r with stage := .running s.started .pull } :: rest) := by
  have hrest : numbers (r :: rest) = numbers rest := numbers_arrived hstage
  have hnumbers : numbers ({ r with stage := .running s.started .pull } :: rest) =
      s.started :: numbers rest := numbers_running rfl
  have hbelow : ∀ k ∈ numbers rest, k < s.started := hrest ▸ hp.numbered
  refine ⟨?_, fun k hk => ?_, fun u hu number point hu' hpast k hk => ?_,
    fun u hu number point hu' => ?_, hp.own, fun number hlast => .inl ?_⟩
  · rw [hnumbers]
    exact List.nodup_cons.mpr ⟨fun h => absurd (hbelow _ h) (lt_irrefl _), hrest ▸ hp.distinct⟩
  · rw [hnumbers] at hk
    show k < s.started + 1
    rcases List.mem_cons.mp hk with rfl | hk
    · omega
    · have := hbelow k hk
      omega
  · rw [hnumbers] at hk
    rcases List.mem_cons.mp hu with rfl | hu
    · cases hu'
      cases hpast
    rcases List.mem_cons.mp hk with rfl | hk
    · exact (hbelow number (mem_numbers hu hu')).le
    · exact hp.first u (List.mem_cons_of_mem r hu) number point hu' hpast k (hrest ▸ hk)
  · rcases List.mem_cons.mp hu with rfl | hu
    · cases hu'
      intro hpast
      cases hpast
    · exact hp.fits u (List.mem_cons_of_mem r hu) number point hu'
  · have hlast : number = s.started := by
      simpa using hlast.symm
    rw [hlast]
    exact ⟨_, List.mem_cons_self, .pull, rfl, rfl⟩

theorem Ordered.fresh (hp : Ordered s (r :: rest)) (hstage : r.stage = .running number point) :
    number ∉ numbers rest ∧ (numbers rest).Nodup := by
  have hdistinct := hp.distinct
  rw [numbers_running hstage] at hdistinct
  exact List.nodup_cons.mp hdistinct

theorem Ordered.numbered_rest (hp : Ordered s (r :: rest))
    (hstage : r.stage = .running number point) :
    number < s.started ∧ ∀ k ∈ numbers rest, k < s.started := by
  have hnumbered := hp.numbered
  rw [numbers_running hstage] at hnumbered
  exact List.forall_mem_cons.mp hnumbered

/-- At most one run is past the removal of leftovers. -/
theorem Ordered.alone (hp : Ordered s (r :: rest)) (hstage : r.stage = .running number point)
    (hfirst : ∀ k ∈ numbers (r :: rest), number ≤ k) (hu : u ∈ rest) {m : Nat}
    (hu' : u.stage = .running m next) : next.past = false := by
  cases hpast : next.past with
  | false => rfl
  | true =>
    have hle := hp.first u (List.mem_cons_of_mem r hu) m next hu' hpast number
      (mem_numbers List.mem_cons_self hstage)
    have hge := hfirst m (mem_numbers (List.mem_cons_of_mem r hu) hu')
    have hmem := mem_numbers hu hu'
    rw [le_antisymm hle hge] at hmem
    exact absurd hmem (hp.fresh hstage).1

/-- What a turn of one run leaves standing for the others. -/
theorem Ordered.others (hp : Ordered s (r :: rest)) (hstage : r.stage = .running number point)
    (hcontainer : s'.container = s.container ∨ point.past = true) (hu : u ∈ rest) {m : Nat}
    (hu' : u.stage = .running m next) : Fits s' m next := by
  have hmem : u ∈ r :: rest := List.mem_cons_of_mem r hu
  rcases hcontainer with hsame | hpast
  · have hfits := hp.fits u hmem m next hu'
    cases next with
    | create => exact hsame.trans hfits
    | pull | cleanUp | start | logs | wait | waiting | notify | remove =>
      intro hpast
      rw [hsame]
      exact hfits.own hpast
  · have hlate : next.past = false :=
      hp.alone hstage (hp.first r List.mem_cons_self number point hstage hpast) hu hu'
    cases next with
    | pull | cleanUp => exact fun h => by cases h
    | create | start | logs | wait | waiting | notify | remove => cases hlate

/-- A run that is past the removal of leftovers, or about to remove them, started first. -/
theorem Ordered.clean (hp : Ordered s (r :: rest)) (hstage : r.stage = .running number point)
    (hclean : point = .cleanUp → s.container = none ∧ ∀ k ∈ numbers (r :: rest), number ≤ k)
    (hpast : point.past = true ∨ point = .cleanUp) : ∀ k ∈ numbers (r :: rest), number ≤ k := by
  rcases hpast with hpast | hpoint
  · exact hp.first r List.mem_cons_self number point hstage hpast
  · exact (hclean hpoint).2

/-- The run that started last, after a turn that gets a run to its next point. -/
theorem Ordered.told_advance (hp : Ordered s (r :: rest))
    (hstage : r.stage = .running number point)
    (hclean : point = .cleanUp → s.container = none ∧ ∀ k ∈ numbers (r :: rest), number ≤ k)
    (hheard : Unheard s arrives point → number + 1 < s.started)
    (hnext : (pointTurn r number arrives s point).2 = .inl next) {last : Nat}
    (hlast : s.started = last + 1) :
    Awaited last ({ r with stage := .running number next } :: rest) ∨
      Told last (pointTurn r number arrives s point).1
        ({ r with stage := .running number next } :: rest) := by
  have hnumbers : numbers ({ r with stage := .running number next } :: rest) =
      numbers (r :: rest) := (numbers_running rfl).trans (numbers_running hstage).symm
  rcases hp.told last hlast with ⟨u, hu, q, hu', hq⟩ | ⟨result, callback, hhead, hstatus, hsettled⟩
  · rcases List.mem_cons.mp hu with rfl | hu
    · cases hstage.symm.trans hu'
      cases hreported : next.reported with
      | false => exact .inl ⟨_, List.mem_cons_self, next, rfl, hreported⟩
      | true =>
        -- the callback of the run that started last has just been posted
        obtain ⟨output, code, rfl, rfl⟩ := pointTurn_reported hnext hreported
        have harrives : arrives = true := by
          cases arrives with
          | true => rfl
          | false =>
            have := hheard rfl
            omega
        refine .inr ⟨resultOf output code, callbackOf u.config s.app output code, ?_, ?_, ?_⟩
        · rw [harrives]
          rfl
        · cases code <;> rfl
        · refine .leaving _ output code List.mem_cons_self rfl rfl fun k hk => ?_
          rw [hnumbers] at hk
          have hge := hp.first u List.mem_cons_self _ _ hstage rfl k hk
          have hlt := hp.numbered k hk
          omega
    · exact .inl ⟨u, List.mem_cons_of_mem _ hu, q, hu', hq⟩
  · -- the run that started last is leaving: it is the one that takes the turn, and ends
    cases hsettled with
    | past hended hnone =>
      rw [numbers_running hstage] at hnone
      cases hnone
    | leaving u output code hu hu' hresult honly =>
      have hnumber : number = last := honly number (mem_numbers List.mem_cons_self hstage)
      rcases List.mem_cons.mp hu with rfl | hu
      · cases hstage.symm.trans hu'
        cases hnext
      · have hmem := mem_numbers hu hu'
        rw [← hnumber] at hmem
        exact absurd hmem (hp.fresh hstage).1

/-- A run gets to its next point. -/
theorem Ordered.advance (hp : Ordered s (r :: rest)) (hstage : r.stage = .running number point)
    (hclean : point = .cleanUp → s.container = none ∧ ∀ k ∈ numbers (r :: rest), number ≤ k)
    (hheard : Unheard s arrives point → number + 1 < s.started)
    (hnext : (pointTurn r number arrives s point).2 = .inl next) :
    Ordered (pointTurn r number arrives s point).1
      ({ r with stage := .running number next } :: rest) := by
  have hfits := hp.fits r List.mem_cons_self number point hstage
  have hnone : point = .cleanUp → s.container = none := fun h => (hclean h).1
  have hnumbers : numbers ({ r with stage := .running number next } :: rest) =
      numbers (r :: rest) := (numbers_running rfl).trans (numbers_running hstage).symm
  refine ⟨hnumbers ▸ hp.distinct, ?_, fun u hu m q hu' hpast => ?_, fun u hu m q hu' => ?_,
    pointTurn_own hfits hnone hp.own, fun last hlast => ?_⟩
  · rw [hnumbers, pointTurn_started.1]
    exact hp.numbered
  · rw [hnumbers]
    rcases List.mem_cons.mp hu with rfl | hu
    · cases hu'
      exact hp.clean hstage hclean (pointTurn_past hnext hpast)
    · exact hp.first u (List.mem_cons_of_mem r hu) m q hu' hpast
  · rcases List.mem_cons.mp hu with rfl | hu
    · cases hu'
      exact pointTurn_fits hfits hnone hnext
    · exact hp.others hstage (pointTurn_container hnone) hu hu'
  · rw [pointTurn_started.1] at hlast
    exact hp.told_advance hstage hclean hheard hnext hlast

/-- The run that started last, after a turn that ends a run. -/
theorem Ordered.told_finish (hp : Ordered s (r :: rest))
    (hstage : r.stage = .running number point)
    (hheard : Unheard s arrives point → number + 1 < s.started)
    (hnext : (pointTurn r number arrives s point).2 = .inr result) {last : Nat}
    (hlast : s.started = last + 1) :
    Awaited last rest ∨ Told last { (pointTurn r number arrives s point).1 with
      ended := (number, result) :: (pointTurn r number arrives s point).1.ended } rest := by
  rcases hp.told last hlast with ⟨u, hu, q, hu', hq⟩ | ⟨result', callback, hhead, hstatus, hsettled⟩
  · rcases List.mem_cons.mp hu with rfl | hu
    · cases hstage.symm.trans hu'
      rcases pointTurn_ends hnext with hsilent | ⟨output, code, rfl, -⟩
      · have := hheard hsilent
        omega
      · cases hq
    · exact .inl ⟨u, hu, q, hu', hq⟩
  · cases hsettled with
    | past hended hnone =>
      rw [numbers_running hstage] at hnone
      cases hnone
    | leaving u output code hu hu' hresult honly =>
      have hnumber : number = last := honly number (mem_numbers List.mem_cons_self hstage)
      rcases List.mem_cons.mp hu with rfl | hu
      · cases hstage.symm.trans hu'
        cases hnext
        refine .inr ⟨_, callback, hhead, hstatus, .past ?_ ?_⟩
        · rw [hresult]
          exact List.mem_cons_self
        · refine List.eq_nil_iff_forall_not_mem.mpr fun k hk => ?_
          have hmem : k ∈ numbers (u :: rest) := by
            rw [numbers_running hstage]
            exact List.mem_cons_of_mem _ hk
          rw [honly k hmem] at hk
          exact (hp.fresh hstage).1 hk
      · have hmem := mem_numbers hu hu'
        rw [← hnumber] at hmem
        exact absurd hmem (hp.fresh hstage).1

/-- A run ends. -/
theorem Ordered.finish (hp : Ordered s (r :: rest)) (hstage : r.stage = .running number point)
    (hclean : point = .cleanUp → s.container = none)
    (hheard : Unheard s arrives point → number + 1 < s.started)
    (hnext : (pointTurn r number arrives s point).2 = .inr result) :
    Ordered { (pointTurn r number arrives s point).1 with
      ended := (number, result) :: (pointTurn r number arrives s point).1.ended } rest := by
  have hfits := hp.fits r List.mem_cons_self number point hstage
  have hrest : ∀ k ∈ numbers rest, k ∈ numbers (r :: rest) := by
    rw [numbers_running hstage]
    exact fun k hk => List.mem_cons_of_mem number hk
  refine ⟨(hp.fresh hstage).2, ?_, fun u hu m q hu' hpast k hk => ?_, fun u hu m q hu' => ?_,
    pointTurn_own hfits hclean hp.own, fun last hlast => ?_⟩
  · show ∀ k ∈ numbers rest, k < (pointTurn r number arrives s point).1.started
    rw [pointTurn_started.1]
    exact (hp.numbered_rest hstage).2
  · exact hp.first u (List.mem_cons_of_mem r hu) m q hu' hpast k (hrest k hk)
  · exact hp.others hstage (pointTurn_container hclean) hu hu'
  · exact hp.told_finish hstage hheard hnext (pointTurn_started.1.symm.trans hlast)

/-- A turn of the task in front of the others. -/
theorem Ordered.turn (hp : Ordered s (r :: rest))
    (hclean : ∀ number, r.stage = .running number .cleanUp →
      s.container = none ∧ ∀ k ∈ numbers (r :: rest), number ≤ k)
    (hheard : ∀ number point, r.stage = .running number point → Unheard s arrives point →
      number + 1 < s.started) :
    Ordered (turn s arrives r).store ((turn s arrives r).next.toList ++ rest) := by
  cases hstage : r.stage with
  | arrived =>
    simp only [InstallRuns.turn, hstage]
    exact hp.start hstage
  | running number point =>
    have hclean : point = .cleanUp → s.container = none ∧ ∀ k ∈ numbers (r :: rest), number ≤ k := by
      rintro rfl
      exact hclean number hstage
    cases hnext : (pointTurn r number arrives s point).2 with
    | inl next =>
      rw [turn_inl hstage hnext]
      exact hp.advance hstage hclean (hheard number point hstage) hnext
    | inr result =>
      rw [turn_inr hstage hnext]
      exact hp.finish hstage (fun h => (hclean h).1) (hheard number point hstage) hnext

theorem Ordered.step {uuid : String} {p p' : State} {label : Label}
    (hp : Ordered p.store p.tasks) (hseparate : Separate p label)
    (h : (runs uuid).step p label = some p') : Ordered p'.store p'.tasks := by
  cases label with
  | start r =>
    obtain ⟨hstarts, rfl⟩ := Tasks.step_start h
    refine hp.arrive ?_
    cases hstage : r.stage with
    | arrived => rfl
    | running number point =>
      simp only [runs, hstage, Stage.isArrived, Bool.and_false] at hstarts
      cases hstarts
  | turn i arrives =>
    obtain ⟨r, hr, rfl⟩ := Tasks.step_turn h
    obtain ⟨hi, rfl⟩ := List.getElem?_eq_some_iff.mp hr
    have hperm := (List.getElem_cons_eraseIdx_perm hi).symm
    have hturn := hseparate _ hr
    refine (hp.perm hperm).turn (fun number hstage => ?_) fun number point hstage => ?_
    · rw [hstage] at hturn
      obtain ⟨hnone, hfirst⟩ := hturn.1 rfl
      exact ⟨hnone, fun k hk => hfirst k ((hperm.filterMap _).mem_iff.mpr hk)⟩
    · rw [hstage] at hturn
      exact hturn.2
  | outside event => exact event.elim

theorem Ordered.undisturbed {p : State} (hp : Ordered p.store p.tasks) : Undisturbed p := by
  refine ⟨hp.own, fun hnone number hlast => ?_⟩
  rcases hp.told number hlast with ⟨r, hr, -⟩ | ⟨result, callback, hhead, hstatus, hsettled⟩
  · rw [hnone] at hr
    cases hr
  refine ⟨result, callback, ?_, hhead, hstatus⟩
  cases hsettled with
  | leaving r output code hr =>
    rw [hnone] at hr
    cases hr
  | past hended => exact hended

theorem ordered_idle (app : AppState) : Ordered (idle app).store (idle app).tasks where
  distinct := List.nodup_nil
  numbered := fun _ hk => by cases hk
  first := fun _ hr => by cases hr
  fits := fun _ hr => by cases hr
  own := fun _ hx => by cases hx
  told := fun _ hlast => by cases hlast

/-- In every run in which no install removes leftovers while there is a container or an install
that started before it is not over, and in which the panel hears of the install that started
last: no install lays hands on the container of another, and when all are over the panel knows
the outcome of the last. -/
theorem undisturbed_of_separate {uuid : String} {app : AppState} {ls : List Label}
    (hseparate : Along (runs uuid).step Separate (idle app) ls) :
    ∀ ks, ks <+: ls → ∀ p', run (runs uuid).step (idle app) ks = some p' → Undisturbed p' := by
  rintro ks ⟨rest, rfl⟩ p' hrun
  have hordered : Ordered p'.store p'.tasks :=
    run_invariant (fun _ _ _ hp hl hstep => Ordered.step hp hl hstep) (ordered_idle app)
      (along_append.mp hseparate).1 hrun
  exact hordered.undisturbed

end Invariant

/-! ## A run that is left alone -/

section Alone

variable {s : Store} {number : Nat} {arrives : Bool} {point next : Point} {result : Result}
  (config : ServerConfig) (script image : String)

/-- How many turns a run has left. -/
def Point.left : Point → Nat
  | .pull => 9
  | .cleanUp => 8
  | .create => 7
  | .start => 6
  | .logs => 5
  | .wait _ => 4
  | .waiting _ => 3
  | .notify _ _ => 2
  | .remove _ _ => 1

/-- What is left of `run_install` at each point. -/
def rest (url auth : String) (point : Point) : Handler (List String) :=
  let name := Installer.containerName config.uuid
  match point with
  | .pull => do
    let _ ← dockerCall (.pullImage image)
    rest url auth .cleanUp
  | .cleanUp => do
    let _ ← (dockerCall (.removeContainer name false)).attempt
    rest url auth .create
  | .create => do
    let _ ← dockerCall (.createContainer name (Installer.installSpec config script image))
    rest url auth .start
  | .start => do
    let _ ← dockerCall (.startContainer name)
    rest url auth .logs
  | .logs => do
    let log ← (dockerQuery (.logs name)).attempt
    rest url auth (.wait (log.getD []))
  | .wait output => rest url auth (.waiting output)
  | .waiting output => do
    let exit ← dockerQuery (.waitContainer name)
    rest url auth (.notify output (exit.head?.filter (· ≠ "0")))
  | .notify output code => do
    match code with
    | some _ =>
      Installer.notify (some url) (some auth) config.uuid "failed"
        (some (Installer.lastLines output))
    | none => Installer.notify (some url) (some auth) config.uuid "success" none
    rest url auth (.remove output code)
  | .remove output code => do
    let _ ← (dockerCall (.removeContainer name false)).attempt
    match code with
    | some code => fail (.io ("Install script exited with code " ++ code))
    | none => pure output
termination_by point.left
decreasing_by all_goals simp [Point.left]

theorem rest_pull (url auth : String) :
    rest config script image url auth .pull =
      Installer.runInstall config script image (some url) (some auth) := by
  unfold Installer.runInstall
  simp only [rest]
  congr 1; funext _; congr 1; funext _; congr 1; funext _; congr 1; funext _; congr 1; funext log
  congr 1; funext exit
  cases exit.head?.filter (· ≠ "0") with
  | some code => simp only [rest]
  | none => simp only [rest]

/-- What comes of a turn when the rest of the run follows it. -/
def goOn (k : Point → Handler (List String)) (turn : Store × (Point ⊕ Result)) :
    Result × AppState :=
  turn.2.elim (fun next => k next turn.1.app) fun result => (result, turn.1.app)

theorem goOn_asks {α : Type} {m : Handler α} {next' : α → Point}
    {k : Point → Handler (List String)} :
    (m >>= fun a => k (next' a)) s.app = goOn k (s.asks m (orEnd next')) := by
  unfold Store.asks
  cases h : m s.app with
  | mk answer app =>
    cases answer with
    | ok a => exact bind_ok h
    | error e => exact bind_error h

theorem app_forceRemove {name : String} :
    (s.forceRemove number name).app = (dockerCall (.removeContainer name false) s.app).2 := rfl

/-- A turn and what is left of `run_install` after it are what was left before. -/
theorem pointTurn_rest {stage : Stage} (hfits : Fits s number point) {url auth : String}
    (hurl : url = s.app.config.panelUrl)
    (hauth : auth = s.app.config.tokenId ++ "." ++ s.app.config.token) :
    rest config script image url auth point s.app =
      goOn (rest config script image url auth)
        (pointTurn ⟨config, script, image, stage⟩ number arrives s point) := by
  cases point with
  | pull | start | waiting =>
    rw [rest]
    exact goOn_asks
  | logs =>
    rw [rest]
    exact goOn_asks
  | cleanUp =>
    rw [rest]
    exact bind_attempt _ _ _
  | create =>
    rw [rest]
    simp only [pointTurn, Store.create, show s.container = none from hfits]
    cases h : dockerCall (.createContainer (Installer.containerName config.uuid)
        (Installer.installSpec config script image)) s.app with
    | mk answer app =>
      cases answer with
      | ok items => exact bind_ok h
      | error e => exact bind_error h
  | wait output =>
    rw [rest]
    rfl
  | notify output code =>
    subst hurl hauth
    cases code with
    | some code =>
      rw [rest]
      rfl
    | none =>
      rw [rest]
      rfl
  | remove output code =>
    cases code with
    | some code =>
      rw [rest]
      exact bind_attempt _ _ _
    | none =>
      rw [rest]
      exact bind_attempt _ _ _

theorem pointTurn_config {r : Run} :
    (pointTurn r number arrives s point).1.app.config = s.app.config := by
  have hask : ∀ keep : Docker → Docker, (ask keep s.app).2.config = s.app.config := fun keep =>
    (keeps_ask (I := fun t => t.config = s.app.config) fun _ h => h).snd rfl
  cases point with
  | pull | start | waiting => exact hask _
  | cleanUp | remove => exact (congrArg AppState.config app_forceRemove).trans (hask _)
  | create =>
    simp only [pointTurn, Store.create]
    split <;> exact hask _
  | logs => exact (congrArg AppState.config (snd_attempt _ _)).trans (hask _)
  | wait | notify => rfl

/-- A run always gets nearer to its end. -/
theorem pointTurn_left {r : Run} (h : (pointTurn r number arrives s point).2 = .inl next) :
    point.left = next.left + 1 := by
  cases point with
  | create =>
    revert h
    simp only [pointTurn, Store.create]
    split
    · intro h
      cases h
      rfl
    all_goals intro h; cases h
  | pull | start | logs | waiting =>
    obtain ⟨a, -, rfl⟩ := of_orEnd_inl h
    rfl
  | cleanUp | wait | notify =>
    cases h
    rfl
  | remove => cases h

theorem past_iff : point.past = true ↔ point.left ≤ 7 := by
  cases point <;> simp [Point.past, Point.left]

/-- With a run that is left alone, what is left of `run_install` happens. -/
theorem unbroken_rest {url auth : String} (hfits : Fits s number point)
    (hnone : point.past = false → s.container = none)
    (hurl : url = s.app.config.panelUrl)
    (hauth : auth = s.app.config.tokenId ++ "." ++ s.app.config.token) :
    ∃ s', unbroken (fun s r => turn s arrives r) point.left s
        ⟨config, script, image, .running number point⟩ = (s', none) ∧
      s'.ended = (number, (rest config script image url auth point s.app).1) :: s.ended ∧
      s'.app = (rest config script image url auth point s.app).2 := by
  induction hleft : point.left generalizing s point with
  | zero => cases point <;> cases hleft
  | succ n ih =>
    rw [pointTurn_rest config script image hfits hurl hauth, unbroken]
    have hclean : point = .cleanUp → s.container = none := by
      rintro rfl
      exact hnone rfl
    cases hnext : (pointTurn ⟨config, script, image, .running number point⟩ number arrives s
      point).2 with
    | inl next =>
      have hn := pointTurn_left hnext
      have hfree : next.past = false →
          (pointTurn ⟨config, script, image, .running number point⟩ number arrives s
            point).1.container = none := by
        intro hearly
        have hpast : point.past = false := by
          rw [← Bool.not_eq_true, past_iff] at hearly ⊢
          omega
        rcases pointTurn_container hclean with hsame | hlate
        · exact hsame.trans (hnone hpast)
        · rw [hpast] at hlate
          cases hlate
      have hconfig : (pointTurn ⟨config, script, image, .running number point⟩ number arrives s
          point).1.app.config = s.app.config := pointTurn_config
      obtain ⟨s', hdone, hended, happ⟩ := ih (pointTurn_fits hfits hclean hnext) hfree
        (by rw [hconfig]; exact hurl) (by rw [hconfig]; exact hauth)
        (Nat.succ.inj (hn.symm.trans hleft))
      refine ⟨s', ?_, ?_, ?_⟩
      · rw [turn_inl rfl hnext]
        exact hdone
      · rw [hended, pointTurn_started.2, goOn, hnext]
        rfl
      · rw [happ, goOn, hnext]
        rfl
    | inr result =>
      rw [turn_inr rfl hnext]
      refine ⟨_, rfl, ?_, ?_⟩
      · rw [pointTurn_started.2, goOn, hnext]
        rfl
      · rw [goOn, hnext]
        rfl

/-- An install that nothing interrupts, when there is no container, is `Installer.install`. -/
theorem unbroken_install (hnone : s.container = none) :
    ∃ s', unbroken (fun s r => turn s arrives r) 10 s ⟨config, script, image, .arrived⟩ =
        (s', none) ∧
      s'.ended = (s.started, (Installer.install config script image s.app).1) :: s.ended ∧
      s'.app = (Installer.install config script image s.app).2 := by
  have hinstall : Installer.install config script image s.app =
      rest config script image s.app.config.panelUrl
        (s.app.config.tokenId ++ "." ++ s.app.config.token) .pull s.app := by
    rw [rest_pull]
    rfl
  rw [hinstall]
  have hfits : Fits { s with started := s.started + 1 } s.started .pull := fun h => by cases h
  exact unbroken_rest config script image hfits (fun _ => hnone) rfl rfl

end Alone

/-! ## Two reinstalls of one server -/

section Counterexample

def uninstalled : ServerConfig := ⟨"u", "image", "run", [], 1024, 100, 1024, [], "/data/u"⟩

/-- A daemon whose Docker does as it is told. -/
def willing : AppState :=
  .fresh ⟨"https://panel.example.com", "tid", "token", "/data"⟩ fun _ => .ok ["0"]

/-- An install is asked for, and its task takes `n` turns. -/
def turns (n : Nat) : List Label :=
  .start ⟨uninstalled, "install", "installer", .arrived⟩ :: List.replicate n (.turn 0 true)

/-- Two installs, the second after the first. -/
theorem undisturbed_reinstall :
    Always (runs "u").step (fun _ => Undisturbed) (idle willing) (turns 10 ++ turns 10) :=
  undisturbed_of_separate (by decide +kernel)

/-- The second install removes the container of the first, which is waiting for its script. -/
theorem install_removed :
    ∃ p', run (runs "u").step (idle willing) (turns 7 ++ turns 3) = some p' ∧
      ¬Undisturbed p' := by
  refine ⟨_, rfl, fun h => ?_⟩
  exact absurd (h.own (1, 0) List.mem_cons_self) (by decide)

end Counterexample

end Wings.InstallRuns
