import NexusPanel.Panel.ServersFlow

/-!
# Power actions on suspended and installing servers

Two routes hand a power action to Wings. The REST route looks at the status of the row it has
loaded, the gateway at nothing. A server whose install is under way need not have the status
that says so: a reinstall sets only `installed`. And a row that passed the guard may be
suspended, or its server reinstalled, before the call is made.

The invariant is about the tasks that stand before such a call: their server is *clear*, that
is, neither suspended nor being installed. A load makes it so under `PowerGuarded`, and a
turn of another task leaves it so unless it is one that `blocks` the server.
-/

namespace Panel

open Transition ServersTurn

/-- Not suspended, and no install in progress. -/
def Clear (p : ServersState) (serverId : String) : Prop :=
  (∀ s ∈ p.db.servers, s.id = serverId → s.status ≠ some .suspended) ∧ serverId ∉ p.installs

/-- The calls a step makes, but for the kill that a suspension begins with. -/
def forwarded (js : Js) (p : ServersPool) (l : ServersLabel) : List WingsCall :=
  match l with
  | .turn i reply =>
    match p.tasks[i]? with
    | some (.suspend _) | none => []
    | some task => (task.turn js p.store reply).output.calls
  | _ => []

/-- Every power action the step forwards is for a server that is clear. -/
def ForwardsClear (js : Js) (p : ServersPool) (l : ServersLabel) : Prop :=
  ∀ server action, .sendPowerAction server action ∈ forwarded js p l → Clear p.store server.id

namespace Task

/-- The server whose power action the task is about to forward. -/
def forwards : Task → Option Server
  | .power (.call server _) => some server
  | .gateway (.call server _) => some server
  | _ => none

/-- The server the task is about to suspend, or whose install it is about to take up. -/
def blocks : Task → Option String
  | .suspend (.write server) => some server.id
  | .update (.save server _) => if server.status = some .suspended then some server.id else none
  | .create (.insert server) => some server.id
  | .reinstall (.mark server _ _) => some server.id
  | _ => none

/-- What a task that loads a server for a power action has to find. The REST route refuses a
server by its status, so only an install the status does not show is left. -/
def LoadsClear (p : ServersState) : Task → Prop
  | .power (.load uuid _) => ∀ server, ServersService.findByUuid p.db.servers uuid = .ok server →
      server.status ≠ some .installing → server.status ≠ some .suspended →
        server.id ∉ p.installs
  | .gateway (.load uuid _) => ∀ server,
      ServersService.findByUuid p.db.servers uuid = .ok server →
        server.status ≠ some .suspended ∧ server.id ∉ p.installs
  | _ => True

end Task

/-- A power action is loaded only for a server that is clear, as far as its route does not
look itself; and a server is not suspended, and no install of it taken up, while a power
action that was loaded for it has not been forwarded. -/
def PowerGuarded (p : ServersPool) : ServersLabel → Prop
  | .turn i .ok => ∀ task, p.tasks[i]? = some task → task.LoadsClear p.store ∧
      ∀ id, task.blocks = some id →
        ∀ t ∈ p.tasks, ∀ server, t.forwards = some server → server.id ≠ id
  | _ => True

/-! ## Which tasks call for power -/

variable {p : ServersState} {reply : Settled}

/-- Only a task that stands before a power action sends one, a suspension apart. -/
theorem Task.forwards_of_calls {js : Js} {task : Task} (hne : ∀ t, task ≠ .suspend t)
    {server : Server} {action : Nat}
    (h : .sendPowerAction server action ∈ (task.turn js p reply).output.calls) :
    task.forwards = some server := by
  rw [(task.performs js).calls, Option.mem_toList] at h
  have hcall : task.call = some (.sendPowerAction server action) := h
  unfold Task.call at hcall
  split at hcall
  · cases hcall
  · cases hcall
  · cases hcall
  · cases hcall
    rfl
  · exact absurd rfl (hne _)
  · cases hcall
  · cases hcall
    rfl
  · cases hcall

/-! ## What a turn leaves of a clear server -/

/-- The statement may leave a server suspended that was not. -/
def Statement.Suspends (id : String) : Statement → Prop
  | .createServer server | .saveServer server _ =>
    server.id = id ∧ server.status = some .suspended
  | .updateServer i columns => i = id ∧ columns.status = some (some .suspended)
  | .updateServerByUuid _ columns => columns.status = some (some .suspended)
  | _ => False

theorem suspended_of_exec {db db' : Database} {st : Statement} (hexec : db.exec st = some db')
    {y : Server} (hy : y ∈ db'.servers) (hstatus : y.status = some .suspended) :
    (∃ s ∈ db.servers, s.id = y.id ∧ s.status = some .suspended) ∨ st.Suspends y.id := by
  have columns {q : Server → Bool} {c : Lifecycle}
      (h : ∃ s ∈ db.servers, (if q s then c.set s else s) = y) :
      (∃ s ∈ db.servers, s.id = y.id ∧ s.status = some .suspended) ∨
        ∃ s ∈ db.servers, q s = true ∧ s.id = y.id ∧ c.status = some (some .suspended) := by
    obtain ⟨s, hs, rfl⟩ := h
    split at hstatus
    next hq =>
      cases hset : c.status with
      | none =>
        have hold : s.status = some .suspended := by
          simpa only [Lifecycle.set, hset, Option.getD_none] using hstatus
        exact .inl ⟨s, hs, by rw [if_pos hq]; rfl, hold⟩
      | some status =>
        have hnew : status = some .suspended := by
          simpa only [Lifecycle.set, hset, Option.getD_some] using hstatus
        exact .inr ⟨s, hs, hq, by rw [if_pos hq]; rfl, by rw [hnew]⟩
    next hq => exact .inl ⟨s, hs, by rw [if_neg hq], hstatus⟩
  cases st with
  | createServer server =>
    rcases (mem_servers_createServer hexec).2.mp hy with rfl | hy
    · exact .inr ⟨rfl, hstatus⟩
    · exact .inl ⟨y, hy, rfl, hstatus⟩
  | saveServer server allocation =>
    rcases (mem_servers_saveServer hexec).mp hy with rfl | ⟨hy, -⟩
    · exact .inr ⟨rfl, hstatus⟩
    · exact .inl ⟨y, hy, rfl, hstatus⟩
  | updateServer i c =>
    refine (columns ((mem_servers_updateServer hexec).mp hy)).imp_right ?_
    rintro ⟨s, -, hq, hid, hset⟩
    exact ⟨(beq_iff_eq.mp hq).symm.trans hid, hset⟩
  | updateServerByUuid uuid c =>
    refine (columns ((mem_servers_updateServerByUuid hexec).mp hy)).imp_right ?_
    rintro ⟨s, -, -, -, hset⟩
    exact hset
  | removeServer i => exact .inl ⟨y, ((mem_servers_removeServer hexec).mp hy).1, rfl, hstatus⟩
  | freeAllocation i => exact .inl ⟨y, servers_freeAllocation hexec ▸ hy, rfl, hstatus⟩
  | removeAllocation i => exact .inl ⟨y, servers_removeAllocation hexec ▸ hy, rfl, hstatus⟩
  | removeUnassigned n => exact .inl ⟨y, servers_removeUnassigned hexec ▸ hy, rfl, hstatus⟩

/-- A task suspends only the server it blocks. -/
theorem Task.blocks_of_suspends {task : Task} {st : Statement} {id : String}
    (hst : task.statement = some st) (h : st.Suspends id) : task.blocks = some id := by
  cases task with
  | create task =>
    cases task with
    | insert server =>
      cases hst
      exact congrArg some h.1
    | markFailed i message =>
      cases hst
      cases h.2
    | _ => cases hst
  | update task =>
    cases task with
    | save server =>
      cases hst
      simp only [Task.blocks, if_pos h.2, h.1]
    | _ => cases hst
  | delete task =>
    cases task with
    | free allocation server | remove server =>
      cases hst
      cases h
    | _ => cases hst
  | power task | gateway task => cases hst
  | suspend task =>
    cases task with
    | write server =>
      cases hst
      exact congrArg some h.1
    | _ => cases hst
  | unsuspend task =>
    cases task with
    | write server =>
      cases hst
      cases h.2
    | _ => cases hst
  | reinstall task =>
    cases task with
    | mark server allocation egg =>
      cases hst
      cases h.2
    | _ => cases hst
  | callback task =>
    cases task with
    | write server status =>
      cases hst
      revert h
      unfold ServersService.installOutcome
      split <;> exact fun h => by cases h.2
    | _ => cases hst
  | event task =>
    cases task with
    | handleInstallComplete uuid | handleInstallFailed uuid =>
      cases hst
      cases h
  | allocation task =>
    cases task with
    | remove i | bulkDelete n =>
      cases hst
      cases h
    | _ => cases hst

theorem Task.blocks_of_accepts {task : Task} {id : String} (h : task.accepts = some id) :
    task.blocks = some id := by
  unfold Task.accepts at h
  split at h
  · exact h
  · exact h
  · cases h

/-- A turn of a task that does not block the server leaves it clear. -/
theorem Clear.turn {js : Js} {task : Task} {id : String} (h : Clear p id)
    (hblocks : reply = .ok → task.blocks ≠ some id) :
    Clear (task.turn js p reply).store id := by
  have hperforms : Performs p reply task.statement task.accepts task.call (task.turn js p reply) :=
    task.performs js
  constructor
  · intro y hy hid hstatus
    rw [hperforms.db] at hy
    unfold Database.issue at hy
    split at hy
    next st hst =>
      cases hexec : p.db.exec st with
      | none =>
        rw [hexec] at hy
        exact h.1 y hy hid hstatus
      | some db =>
        rw [hexec] at hy
        rcases suspended_of_exec hexec hy hstatus with ⟨s, hs, hsid, hold⟩ | hsuspends
        · exact h.1 s hs (hsid.trans hid) hold
        · exact hblocks rfl (Task.blocks_of_suspends hst (hid ▸ hsuspends))
    next => exact h.1 y hy hid hstatus
  · intro hmem
    rcases hperforms.installs id hmem with hold | ⟨hok, haccepts⟩
    · exact h.2 hold
    · exact hblocks hok (Task.blocks_of_accepts haccepts)

/-! ## Where the tasks before a power action come from -/

/-- The REST route stands before a power action only behind its guard. -/
theorem ServersService.PowerTask.goesOn (task : PowerTask) :
    GoesOn (fun t => ∀ server action, t = .call server action →
      reply = .ok ∧ ∃ uuid a, task = .load uuid a ∧
        findByUuid p.db.servers uuid = .ok server ∧ server.status ≠ some .installing ∧
          server.status ≠ some .suspended) (task.turn p reply) := by
  cases task with
  | check uuid user action =>
    refine goesOn_read fun _ => goesOn_returned fun _ _ =>
      goesOn_returned fun _ _ => goesOn_goOn ?_
    exact fun _ _ h => nomatch h
  | load uuid action =>
    refine goesOn_read fun hok => goesOn_returned fun s hs =>
      goesOn_throwIf fun hinstalling => goesOn_throwIf fun hsuspended =>
        goesOn_goOn ?_
    intro server a h
    cases h
    exact ⟨hok, uuid, action, rfl, hs, of_decide_eq_false hinstalling,
      of_decide_eq_false hsuspended⟩
  | call server action =>
    intro t ht
    cases reply <;> cases ht

theorem GatewayTask.goesOn (task : GatewayTask) :
    GoesOn (fun t => ∀ server action, t = .call server action →
      reply = .ok ∧ ∃ uuid a, task = .load uuid a ∧
        ServersService.findByUuid p.db.servers uuid = .ok server) (task.turn p reply) := by
  cases task with
  | load serverUuid action =>
    refine goesOn_read fun hok => goesOn_returned fun s hs =>
      goesOn_goOn ?_
    intro server a h
    cases h
    exact ⟨hok, serverUuid, action, rfl, hs⟩
  | call server action =>
    intro t ht
    cases reply <;> cases ht

/-- The row a load has found is the only one with its id. -/
theorem clear_of_found {uuid : String} {server : Server}
    (hfind : ServersService.findByUuid p.db.servers uuid = .ok server)
    (hstatus : server.status ≠ some .suspended) (hinstalls : server.id ∉ p.installs) :
    Clear p server.id := by
  refine ⟨fun s hs hid => ?_, hinstalls⟩
  rw [Table.eq_of_key hs (ServersService.findByUuid_ok hfind).1 hid]
  exact hstatus

/-- A turn that finds what it has to goes on to a power action only for a clear server. -/
theorem Task.clear_next {js : Js} {task t : Task} {server : Server}
    (hloads : reply = .ok → task.LoadsClear p) (hnext : (task.turn js p reply).next = some t)
    (hforwards : t.forwards = some server) : Clear (task.turn js p reply).store server.id := by
  have other {τ : Type} {f : τ → Task} {u : ServersTurn τ} (hu : (u.map f).next = some t)
      (hf : ∀ x, (f x).forwards = none) : False := by
    obtain ⟨x, -, rfl⟩ := Option.map_eq_some_iff.mp hu
    rw [hf x] at hforwards
    cases hforwards
  cases task with
  | power task =>
    obtain ⟨x, hx, rfl⟩ := Option.map_eq_some_iff.mp hnext
    cases x with
    | check uuid user action | load uuid action => cases hforwards
    | call s action =>
      cases hforwards
      obtain ⟨hok, uuid, a, rfl, hfind, hinstalling, hsuspended⟩ :=
        task.goesOn _ hx server action rfl
      have hinstalls := hloads hok server hfind hinstalling hsuspended
      exact (clear_of_found hfind hsuspended hinstalls).turn fun _ h => nomatch h
  | gateway task =>
    obtain ⟨x, hx, rfl⟩ := Option.map_eq_some_iff.mp hnext
    cases x with
    | load uuid action => cases hforwards
    | call s action =>
      cases hforwards
      obtain ⟨hok, uuid, a, rfl, hfind⟩ := task.goesOn _ hx server action rfl
      obtain ⟨hsuspended, hinstalls⟩ := hloads hok server hfind
      exact (clear_of_found hfind hsuspended hinstalls).turn fun _ h => nomatch h
  | create task => exact (other (f := .create) hnext fun _ => rfl).elim
  | update task => exact (other (f := .update) hnext fun _ => rfl).elim
  | delete task => exact (other (f := .delete) hnext fun _ => rfl).elim
  | suspend task => exact (other (f := .suspend) hnext fun _ => rfl).elim
  | unsuspend task => exact (other (f := .unsuspend) hnext fun _ => rfl).elim
  | reinstall task => exact (other (f := .reinstall) hnext fun _ => rfl).elim
  | callback task => exact (other (f := .callback) hnext fun _ => rfl).elim
  | event task => exact (other (f := .event) hnext fun _ => rfl).elim
  | allocation task => exact (other (f := .allocation) hnext fun _ => rfl).elim

/-- No request begins in front of a power action. -/
theorem Task.forwards_of_starts {task : Task} (h : task.starts = true) :
    task.forwards = none := by
  unfold Task.starts at h
  split at h
  all_goals first | rfl | cases h

/-! ## Runs -/

/-- Every task that stands before a power action has a clear server. -/
def PowerClear : ServersPool → Prop :=
  Pool.Holds (fun _ => True) fun p t => ∀ server, t.forwards = some server → Clear p server.id

theorem PowerClear.step {js : Js} {q q' : ServersPool} {l : ServersLabel} (hq : PowerClear q)
    (hguarded : PowerGuarded q l) (h : serversStep js q l = some q') : PowerClear q' := by
  cases l with
  | start task =>
    refine hq.start (fun server hforwards => ?_) h
    rw [Task.forwards_of_starts (Tasks.step_start h).1] at hforwards
    cases hforwards
  | turn i reply =>
    have guarded {task : Task} (htask : q.tasks[i]? = some task) (hok : reply = .ok) :
        task.LoadsClear q.store ∧ ∀ id, task.blocks = some id →
          ∀ t ∈ q.tasks, ∀ server, t.forwards = some server → server.id ≠ id := by
      subst hok
      exact hguarded task htask
    refine hq.turn (fun _ _ _ => trivial) (fun task _ htask t hnext server hforwards => ?_)
      (fun task _ htask t ht hclear server hforwards => ?_) h
    · exact Task.clear_next (fun hok => (guarded htask hok).1) hnext hforwards
    · exact (hclear server hforwards).turn fun hok hblocks =>
        (guarded htask hok).2 server.id hblocks t ht server hforwards rfl
  | outside event =>
    refine hq.outside (fun _ _ => trivial) (fun store hstore t _ hclear server hforwards => ?_) h
    obtain ⟨hservers, hinstalls⟩ := servers_outside hstore
    obtain ⟨hstatus, hidle⟩ := hclear server hforwards
    exact ⟨by rwa [hservers], by rwa [hinstalls]⟩

/-- Where the invariant holds, a step forwards power actions for clear servers only. -/
theorem PowerClear.forwardsClear {js : Js} {q : ServersPool} (hq : PowerClear q)
    (l : ServersLabel) : ForwardsClear js q l := by
  intro server action hcall
  unfold forwarded at hcall
  split at hcall
  next i reply =>
    split at hcall
    next => cases hcall
    next => cases hcall
    next task hne htask =>
      have hforwards := Task.forwards_of_calls hne hcall
      exact hq.tasks task (List.mem_of_getElem? htask) server hforwards
  next => cases hcall

/-- From every state of the panel in which no operation is in flight, and for every run: if
power actions are loaded for clear servers only, and no server is suspended and no install of
it taken up between the load and the call, then none is forwarded for a server that is
suspended or has an install in progress. -/
theorem power_forwards_clear (js : Js) (store : ServersState) (labels : List ServersLabel)
    (h : Along (serversStep js) PowerGuarded ⟨store, []⟩ labels) :
    Along (serversStep js) (ForwardsClear js) ⟨store, []⟩ labels :=
  Along.weaken (I := PowerClear) (fun _ _ _ hq hguarded hstep => hq.step hguarded hstep)
    (fun _ l hq _ => hq.forwardsClear l) ⟨trivial, fun _ h => nomatch h⟩ h

/-! ## A suspended server that is started -/

section Gateway

/-- A start through the REST route. -/
def restPowerRun : List ServersLabel :=
  [.start (.power (.check "u" ⟨"owner", "owner@nexus.local", false⟩ .start)), .turn 0 .ok,
    .turn 0 .ok, .turn 0 .ok]

/-- A task that is alone, and blocks nothing. -/
theorem powerGuarded_alone {store : ServersState} {task : Task} (hloads : task.LoadsClear store)
    (hblocks : task.blocks = none) : PowerGuarded ⟨store, [task]⟩ (.turn 0 .ok) := by
  intro t ht
  cases ht
  refine ⟨hloads, fun id hid => ?_⟩
  rw [hblocks] at hid
  cases hid

theorem power_forwards_clear_rest :
    Along (serversStep .plain) (ForwardsClear .plain) ⟨⟨.oneServer none, [], []⟩, []⟩
      restPowerRun := by
  refine power_forwards_clear .plain ⟨.oneServer none, [], []⟩ restPowerRun
    ⟨trivial, fun p₁ h₁ => ?_⟩
  cases h₁
  refine ⟨powerGuarded_alone trivial rfl, fun p₂ h₂ => ?_⟩
  cases h₂
  refine ⟨powerGuarded_alone (fun _ _ _ _ => List.not_mem_nil) rfl, fun p₃ h₃ => ?_⟩
  cases h₃
  exact ⟨powerGuarded_alone trivial rfl, fun _ _ => trivial⟩

/-- A start through the gateway. -/
def gatewayPowerRun : List ServersLabel :=
  [.start (.gateway (.load "u" "start")), .turn 0 .ok, .turn 0 .ok]

/-- The gateway forwards it although the server is suspended. -/
theorem gateway_power_suspended :
    ¬ Along (serversStep .plain) (ForwardsClear .plain)
      ⟨⟨.oneServer (some .suspended), [], []⟩, []⟩ gatewayPowerRun := by
  intro h
  have hlast := ((h.2 _ rfl).2 _ rfl).1
  have hclear := hlast _ 0 List.mem_cons_self
  exact hclear.1 _ List.mem_cons_self rfl rfl

end Gateway

end Panel
