import NexusPanel.Panel.ServersFlow

/-!
# What a failed operation leaves behind

Only `create` has a transaction. The other operations are single statements with calls to Wings
between them, and one that throws behind a statement that has gone through does not take the
statement back. A statement that finds its row leaves a mark even when it writes what is there
already: TypeORM sets `updatedAt` with it. Here an operation runs on its own, and every
statement and every call of it may fail. What it has written so far is read off the place it
stands at (`Task.Stage`), so it is enough to look at the turn in which it throws.
-/

namespace Panel

open Transition ServersService ServersTurn

/-! ## An operation on its own -/

/-- The operations of `ServersService` that write. -/
inductive Operation
  | create
  | update
  | delete
  | suspend
  | unsuspend
  | reinstall
deriving DecidableEq, Repr

/-- The operation that the task is a place of. -/
def Task.operation : Task → Option Operation
  | .create _ => some .create
  | .update _ => some .update
  | .delete _ => some .delete
  | .suspend _ => some .suspend
  | .unsuspend _ => some .unsuspend
  | .reinstall _ => some .reinstall
  | _ => none

/-- A request for one of them. -/
def Task.requests (task : Task) : Bool := task.starts && task.operation.isSome

/-- How an operation ended: the database, the calls with how each was answered, the result, and
the turn that was the last. -/
structure Outcome where
  db : Database
  calls : List (WingsCall × Settled)
  result : Except HttpException Answer
  last : Task × Settled

/-- The turns of one operation and of nothing else, with the replies it gets. -/
def alone (js : Js) : List Settled → ServersState → List (WingsCall × Settled) → Task →
    Option Outcome
  | [], _, _, _ => none
  | reply :: replies, p, calls, task =>
    let u := task.turn js p reply
    let calls := calls ++ u.output.calls.map fun c => (c, reply)
    match u.output.answer, u.next with
    | some result, _ => some ⟨u.store.db, calls, result, (task, reply)⟩
    | none, some next => alone js replies u.store calls next
    | none, none => none

/-! ## The tables afterwards -/

/-- The two tables are as before, in every column. -/
structure Untouched (db db' : Database) : Prop where
  servers : db'.servers = db.servers
  allocations : db'.allocations = db.allocations
  updatedAt : ∀ s ∈ db.servers, db'.updatedAt s.id = db.updatedAt s.id

/-- The tables are the old ones with one more server, whose install has failed and to which its
allocation is assigned. -/
structure LeavesFailed (db db' : Database) (server : Server) : Prop where
  fresh : ∀ s ∈ db.servers, s.id ≠ server.id
  servers : ∀ x, x ∈ db'.servers ↔
    x = { server with status := some .installFailed } ∨ x ∈ db.servers
  allocations : ∀ x, x ∈ db'.allocations ↔ ∃ a ∈ db.allocations,
    (if a.id == server.allocationId then { a with serverId := some server.id } else a) = x
  updatedAt : ∀ s ∈ db.servers, db'.updatedAt s.id = db.updatedAt s.id

/-- Wings has failed the install of the server. -/
def Fails (calls : List (WingsCall × Settled)) (server : Server) : Prop :=
  ∃ config script container message,
    (.createServer server config script container, .failed message) ∈ calls

/-- The two tables are as before, or the operation was a `create`, Wings has failed it, and the
tables are left as it is meant to leave them then. -/
def Unharmed (db : Database) (task : Task) (db' : Database)
    (calls : List (WingsCall × Settled)) : Prop :=
  Untouched db db' ∨
    ∃ dto gen startup image env, task = .create (.findNode dto gen) ∧
      LeavesFailed db db' (newServer dto gen startup image env) ∧
      Fails calls (newServer dto gen startup image env)

/-- Nothing has been written that stays when the operation throws in this turn. -/
def Traceless (db : Database) : Task × Settled → Prop
  | (.create (.load _), _) | (.create (.markFailed _ _), .failed _) => False
  | (.delete (.remove server), _) => ∀ a ∈ db.allocations, a.serverId ≠ some server.id
  | (.suspend (.reload _), _) | (.unsuspend (.reload _), _) => False
  | (.reinstall (.mark _ _ _), .ok) | (.reinstall (.wings _ _ _ _), _)
  | (.reinstall (.reload _), _) => False
  | _ => True

/-! ## What the statements leave when the rest does not follow -/

section Leaves

variable {db db' : Database}

theorem Untouched.refl (db : Database) : Untouched db db := ⟨rfl, rfl, fun _ _ => rfl⟩

/-- A statement that finds its row leaves a mark on it. -/
theorem updateServer_marks {s : Server} {columns : Lifecycle} (hs : s ∈ db.servers)
    (h : db.exec (.updateServer s.id columns) = some db') : ¬ Untouched db db' :=
  fun hsame => (updatedAt_updateServer hs h).ne (hsame.updatedAt s hs).symm

/-- An allocation that was assigned is not what it was once it is free. -/
theorem freeAllocation_differs {a : Allocation} {id : String} (ha : a ∈ db.allocations)
    (hassigned : a.serverId = some id) (h : db.exec (.freeAllocation a.id) = some db') :
    db'.allocations ≠ db.allocations := by
  intro hsame
  have hmem : a ∈ db'.allocations := by rwa [hsame]
  obtain ⟨b, hb, hba⟩ := (mem_allocations_freeAllocation h).mp hmem
  split at hba
  next =>
    rw [← hba] at hassigned
    cases hassigned
  next hne =>
    subst hba
    exact hne (beq_self_eq_true _)

/-- The transaction of `create` leaves a table with a row that was not there. -/
theorem createServer_differs {server : Server}
    (h : db.exec (.createServer server) = some db') : db'.servers ≠ db.servers := by
  intro hsame
  have hmem : server ∈ db'.servers := (mem_servers_createServer h).2.mpr (.inl rfl)
  rw [hsame] at hmem
  exact (mem_servers_createServer (x := server) h).1 server hmem rfl

/-- The transaction of `create` and the status of a failed install behind it. -/
theorem leavesFailed {server : Server} {db'' : Database}
    (h : db.exec (.createServer server) = some db')
    (hmark : db'.exec (.updateServer server.id ⟨none, some (some .installFailed)⟩) = some db'') :
    LeavesFailed db db'' server where
  fresh := (mem_servers_createServer (x := server) h).1
  servers x := by
    have hfresh := (mem_servers_createServer (x := server) h).1
    rw [mem_servers_updateServer hmark]
    constructor
    · rintro ⟨s, hs, hx⟩
      rcases (mem_servers_createServer h).2.mp hs with rfl | hold
      · rw [beq_self_eq_true, if_pos rfl] at hx
        exact .inl hx.symm
      · rw [beq_false_of_ne (hfresh s hold), if_neg Bool.false_ne_true] at hx
        exact .inr (hx ▸ hold)
    · rintro (rfl | hold)
      · refine ⟨server, (mem_servers_createServer h).2.mpr (.inl rfl), ?_⟩
        rw [beq_self_eq_true, if_pos rfl]
        rfl
      · refine ⟨x, (mem_servers_createServer h).2.mpr (.inr hold), ?_⟩
        rw [beq_false_of_ne (hfresh x hold), if_neg Bool.false_ne_true]
  allocations x := by
    rw [allocations_updateServer hmark]
    exact mem_allocations_createServer h
  updatedAt s hs := by
    have hne := (mem_servers_createServer (x := server) h).1 s hs
    rw [updatedAt_updateServer_of_ne hne hmark, updatedAt_createServer_of_ne hne h]

end Leaves

/-! ## Where an operation stands -/

/-- The row that the `create` inserts; its allocation was there. -/
def Made (db₀ : Database) (start : Task) (server : Server) : Prop :=
  (∃ dto gen startup image env, start = .create (.findNode dto gen) ∧
    server = newServer dto gen startup image env) ∧
    ∃ a ∈ db₀.allocations, a.id = server.allocationId

/-- Columns of a server that was there have been written. -/
def Wrote (db₀ db : Database) (id : String) : Prop :=
  ∃ server ∈ db₀.servers, server.id = id ∧
    ∃ columns, db₀.exec (.updateServer server.id columns) = some db

theorem Wrote.not_untouched {db₀ db : Database} {id : String} (h : Wrote db₀ db id) :
    ¬ Untouched db₀ db := by
  obtain ⟨server, hserver, -, columns, hexec⟩ := h
  exact updateServer_marks hserver hexec

/-- What an operation that stands here, and has run on its own, has written. -/
def Task.Stage (db₀ : Database) (start : Task) (db : Database)
    (calls : List (WingsCall × Settled)) : Task → Prop
  | .create (.findNode dto gen) | .create (.checkAvailability dto gen _)
  | .create (.findEgg dto gen _) | .create (.findAllocation dto gen _ _) =>
    db = db₀ ∧ start = .create (.findNode dto gen)
  | .create (.findUser dto gen _ _) | .create (.sumCapacity dto gen _ _)
  | .create (.findVariables dto gen _) =>
    db = db₀ ∧ start = .create (.findNode dto gen) ∧
      ∃ a ∈ db₀.allocations, a.id = dto.allocationId
  | .create (.insert server) => db = db₀ ∧ Made db₀ start server
  | .create (.load id) =>
    ∃ server, server.id = id ∧ Made db₀ start server ∧ db₀.exec (.createServer server) = some db
  | .create (.wings server _ _ _) =>
    Made db₀ start server ∧ db₀.exec (.createServer server) = some db
  | .create (.markFailed id _) =>
    ∃ server, server.id = id ∧ Made db₀ start server ∧
      db₀.exec (.createServer server) = some db ∧ Fails calls server
  | .delete (.wings server found) =>
    db = db₀ ∧ found = db₀.allocations.findOne fun a => a.serverId == some server.id
  | .delete (.free a server) =>
    db = db₀ ∧ a ∈ db₀.allocations ∧ a.serverId = some server.id
  | .delete (.remove server) =>
    (db = db₀ ∧ ∀ a ∈ db₀.allocations, a.serverId ≠ some server.id) ∨
      ∃ a ∈ db₀.allocations, a.serverId = some server.id ∧
        db₀.exec (.freeAllocation a.id) = some db
  | .suspend (.kill server) | .suspend (.write server) | .unsuspend (.write server)
  | .reinstall (.mark server _ _) => db = db₀ ∧ server ∈ db₀.servers
  | .suspend (.reload id) | .unsuspend (.reload id) | .reinstall (.reload id) => Wrote db₀ db id
  | .reinstall (.wings server _ _ _) => Wrote db₀ db server.id
  | _ => db = db₀

/-! ## One turn of an operation on its own -/

variable {p : ServersState} {reply : Settled}

/-- A turn that throws leaves a database that satisfies `E`; one that goes on leaves one that
satisfies `N` with the next task. -/
structure Leads {τ : Type} (E : Database → Prop) (N : Database → τ → Prop) (u : ServersTurn τ) :
    Prop where
  throws : ∀ e, u.output.answer = some (.error e) → E u.store.db
  next : ∀ t, u.next = some t → N u.store.db t

namespace Leads

variable {τ α : Type} {E : Database → Prop} {N : Database → τ → Prop}

theorem goOn {task : τ} (h : N p.db task) : Leads E N (goOn p task) where
  throws := fun _ h => (nomatch h)
  next := by
    intro t ht
    cases ht
    exact h

theorem answer (a : Answer) : Leads E N (finish p (.ok a) : ServersTurn τ) :=
  ⟨fun _ h => (nomatch h), fun _ h => (nomatch h)⟩

theorem error {e : HttpException} (h : E p.db) :
    Leads E N (finish p (.error e) : ServersTurn τ) := ⟨fun _ _ => h, fun _ h => (nomatch h)⟩

theorem read {k : ServersTurn τ} (hfail : E p.db) (h : reply = .ok → Leads E N k) :
    Leads E N (read p reply k) := read_ind (fun _ => error hfail) h

theorem found {row : Option α} {e : HttpException} {k : α → ServersTurn τ} (hfail : E p.db)
    (h : ∀ a, row = some a → Leads E N (k a)) : Leads E N (found p row e k) :=
  found_ind (fun _ => error hfail) h

theorem returned {result : Except HttpException α} {k : α → ServersTurn τ} (hfail : E p.db)
    (h : ∀ a, result = .ok a → Leads E N (k a)) : Leads E N (returned p result k) :=
  returned_ind (fun _ => error hfail) h

theorem throwIf {bad : Bool} {e : HttpException} {k : ServersTurn τ} (hfail : E p.db)
    (h : bad = false → Leads E N k) : Leads E N (throwIf p bad e k) :=
  throwIf_ind (fun _ => error hfail) h

theorem execute {st : Statement} {k : ServersState → ServersTurn τ}
    (hfail : (reply = .ok → p.db.exec st = none) → E p.db)
    (h : reply = .ok → ∀ db, p.db.exec st = some db → Leads E N (k { p with db })) :
    Leads E N (execute p reply st k) := by
  cases reply with
  | failed message =>
    apply error
    apply hfail
    intro hok
    cases hok
  | ok =>
    cases hexec : p.db.exec st with
    | none =>
      simp only [ServersTurn.execute, hexec]
      exact error (hfail fun _ => hexec)
    | some db =>
      simp only [ServersTurn.execute, hexec]
      exact h rfl db hexec

theorem call {c : WingsCall} {onOk : ServersTurn τ} {onError : String → ServersTurn τ}
    (hok : reply = .ok → Leads E N onOk) (herror : ∀ m, reply = .failed m → Leads E N (onError m)) :
    Leads E N (call reply c onOk onError) := by
  cases reply with
  | ok => exact ⟨(hok rfl).throws, (hok rfl).next⟩
  | failed message => exact ⟨(herror message rfl).throws, (herror message rfl).next⟩

end Leads

section Turns

variable {db₀ : Database} {start : Task} {calls : List (WingsCall × Settled)}

/-- An operation that throws in this turn has done no harm exactly when it has left no trace. -/
def Ends (db₀ : Database) (start : Task) (calls : List (WingsCall × Settled)) (task : Task)
    (reply : Settled) (db : Database) : Prop :=
  Unharmed db₀ start db calls ↔ Traceless db₀ (task, reply)

/-- The calls of an operation when a turn has been taken. -/
def Task.record (task : Task) (reply : Settled) (calls : List (WingsCall × Settled)) :
    List (WingsCall × Settled) := calls ++ task.call.toList.map fun c => (c, reply)

theorem Fails.record {server : Server} (h : Fails calls server) (task : Task) (reply : Settled) :
    Fails (task.record reply calls) server := by
  obtain ⟨config, script, container, message, hmem⟩ := h
  exact ⟨config, script, container, message, List.mem_append_left _ hmem⟩

theorem ends_unwritten {task : Task} {db : Database} (hdb : db = db₀)
    (htraceless : Traceless db₀ (task, reply)) : Ends db₀ start calls task reply db := by
  subst hdb
  exact iff_of_true (.inl (.refl db)) htraceless

/-- The tasks that stand before a statement or call behind which nothing has been written. -/
def Task.reading : Task → Bool
  | .create (.load _) | .create (.wings _ _ _ _) | .create (.markFailed _ _)
  | .delete (.remove _) | .suspend (.reload _) | .unsuspend (.reload _)
  | .reinstall (.mark _ _ _) | .reinstall (.wings _ _ _ _) | .reinstall (.reload _) => false
  | _ => true

theorem traceless_of_reading {task : Task} (h : task.reading = true) :
    Traceless db₀ (task, reply) := by
  cases task with
  | create task | delete task | suspend task | unsuspend task | reinstall task =>
    cases task
    all_goals trivial
  | update task | power task | callback task | event task | gateway task | allocation task =>
    trivial

/-- An operation that is not a `create` leaves the tables alone or does harm. -/
theorem unharmed_iff {db : Database} (hstart : ∀ task, start ≠ .create task) :
    Unharmed db₀ start db calls ↔ Untouched db₀ db :=
  or_iff_left fun ⟨_, _, _, _, _, hcreate, _⟩ => hstart _ hcreate

/-- Columns that have been written are harm. -/
theorem ends_wrote {task : Task} {id : String} {db : Database} (hstart : ∀ task, start ≠ .create task)
    (hwrote : Wrote db₀ db id) (htraceless : ¬ Traceless db₀ (task, reply)) :
    Ends db₀ start calls task reply db :=
  (unharmed_iff hstart).trans (iff_of_false hwrote.not_untouched htraceless)

/-- The row of a `create` that is still being installed does harm. -/
theorem ends_inserted {task : Task} {server : Server} {db : Database} (hmade : Made db₀ start server)
    (hexec : db₀.exec (.createServer server) = some db)
    (htraceless : ¬ Traceless db₀ (task, reply)) : Ends db₀ start calls task reply db := by
  refine iff_of_false ?_ htraceless
  rintro (hsame | ⟨dto, gen, startup, image, env, hstart, hleaves, -⟩)
  · exact createServer_differs hexec hsame.servers
  · obtain ⟨⟨dto', gen', startup', image', env', hstart', rfl⟩, -⟩ := hmade
    rw [hstart] at hstart'
    cases hstart'
    have hnew := (mem_servers_createServer (x := newServer dto gen startup' image' env') hexec).2.mpr
      (.inl rfl)
    rcases (hleaves.servers _).mp hnew with heq | hold
    · cases congrArg Server.status heq
    · exact hleaves.fresh _ hold rfl

/-- The egg of a server is there. -/
theorem exists_eggOf {server : Server} (h : server ∈ p.db.servers) :
    ∃ egg, p.eggOf server = some egg := by
  obtain ⟨-, -, egg, hegg, hid⟩ := p.db.constraints.2.1 server h
  cases hfind : p.eggOf server with
  | some egg => exact ⟨egg, rfl⟩
  | none =>
    have hne := Table.findOne_eq_none.mp hfind egg hegg
    rw [hid, beq_self_eq_true] at hne
    cases hne

/-- The transaction assigns the allocation of the new server. -/
theorem Made.allocationOf {server : Server} (h : Made db₀ start server)
    (hexec : db₀.exec (.createServer server) = some p.db) :
    ∃ allocation, p.allocationOf server = some allocation := by
  obtain ⟨-, a, ha, hid⟩ := h
  cases hfind : p.allocationOf server with
  | some allocation => exact ⟨allocation, rfl⟩
  | none =>
    have hassigned : { a with serverId := some server.id } ∈ p.db.allocations := by
      refine (mem_allocations_createServer hexec).mpr ⟨a, ha, ?_⟩
      rw [hid, beq_self_eq_true, if_pos rfl]
    have hne := Table.findOne_eq_none.mp hfind _ hassigned
    rw [beq_self_eq_true] at hne
    cases hne

namespace ServersService

theorem CreateTask.leads (js : Js) {task : CreateTask}
    (h : Task.Stage db₀ start p.db calls (.create task)) :
    Leads (Ends db₀ start ((Task.create task).record reply calls) (.create task) reply)
      (fun db t => Task.Stage db₀ start db ((Task.create task).record reply calls) (.create t))
      (task.turn js p reply) := by
  have hfail (hdb : p.db = db₀) (hreading : (Task.create task).reading = true) :
      Ends db₀ start ((Task.create task).record reply calls) (.create task) reply p.db :=
    ends_unwritten hdb (traceless_of_reading hreading)
  cases task with
  | findNode dto gen =>
    exact .read (hfail h.1 rfl) fun _ => .found (hfail h.1 rfl) fun _ _ =>
      .throwIf (hfail h.1 rfl) fun _ => .goOn h
  | checkAvailability dto gen node =>
    exact .call (fun _ => .goOn h) fun _ _ => .error (hfail h.1 rfl)
  | findEgg dto gen node =>
    exact .read (hfail h.1 rfl) fun _ => .found (hfail h.1 rfl) fun _ _ => .goOn h
  | findAllocation dto gen node egg =>
    refine .read (hfail h.1 rfl) fun _ => .found (hfail h.1 rfl) fun a ha =>
      .throwIf (hfail h.1 rfl) fun _ => .throwIf (hfail h.1 rfl) fun _ =>
        .goOn ⟨h.1, h.2, a, ?_, ?_⟩
    · rw [← h.1]
      exact Table.findOne_mem ha
    · simpa using Table.findOne_sat ha
  | findUser dto gen node egg =>
    exact .read (hfail h.1 rfl) fun _ => .found (hfail h.1 rfl) fun _ _ => .goOn h
  | sumCapacity dto gen node egg =>
    exact .read (hfail h.1 rfl) fun _ => .throwIf (hfail h.1 rfl) fun _ =>
      .throwIf (hfail h.1 rfl) fun _ => .goOn h
  | findVariables dto gen egg =>
    exact .read (hfail h.1 rfl) fun _ => .throwIf (hfail h.1 rfl) fun _ =>
      .found (hfail h.1 rfl) fun startup _ => .goOn ⟨h.1, ⟨_, _, _, _, _, h.2.1, rfl⟩, h.2.2⟩
  | insert server =>
    obtain ⟨hdb, hmade⟩ := h
    simp only [turn]
    refine .execute (fun _ => hfail hdb rfl) fun _ db hexec => .goOn ?_
    exact ⟨server, rfl, hmade, by rwa [← hdb]⟩
  | load id =>
    obtain ⟨server, rfl, hmade, hexec⟩ := h
    have hrow : server ∈ p.db.servers := (mem_servers_createServer hexec).2.mpr (.inl rfl)
    obtain ⟨allocation, hallocation⟩ := hmade.allocationOf hexec
    obtain ⟨egg, hegg⟩ := exists_eggOf hrow
    simp only [turn]
    cases reply with
    | failed message => exact .error (ends_inserted hmade hexec not_false)
    | ok =>
      simp only [findById_of_mem hrow, hallocation, hegg]
      exact .goOn ⟨hmade, hexec⟩
  | wings server config script image =>
    refine .call (fun _ => .answer _) fun message hreply => .goOn ?_
    refine ⟨server, rfl, h.1, h.2, config, script, image, message, ?_⟩
    apply List.mem_append_right
    rw [hreply]
    exact List.mem_singleton.mpr rfl
  | markFailed id message =>
    obtain ⟨server, rfl, hmade, hexec, hfails⟩ := h
    simp only [turn]
    refine .execute ?_ ?_
    · intro hrefused
      cases reply with
      | failed message => exact ends_inserted hmade hexec id
      | ok =>
        obtain ⟨db, hdb⟩ := exec_updateServer p.db server.id ⟨none, some (some .installFailed)⟩
        rw [hrefused rfl] at hdb
        cases hdb
    · rintro rfl db hmark
      apply Leads.error
      refine iff_of_true (.inr ?_) trivial
      obtain ⟨⟨dto, gen, startup, image, env, hstart, rfl⟩, -⟩ := hmade
      exact ⟨dto, gen, startup, image, env, hstart, leavesFailed hexec hmark, hfails.record _ _⟩

theorem UpdateTask.leads {task : UpdateTask}
    (h : Task.Stage db₀ start p.db calls (.update task)) :
    Leads (Ends db₀ start ((Task.update task).record reply calls) (.update task) reply)
      (fun db t => Task.Stage db₀ start db ((Task.update task).record reply calls) (.update t))
      (task.turn p reply) := by
  have hfail : Ends db₀ start ((Task.update task).record reply calls) (.update task) reply p.db :=
    ends_unwritten h (traceless_of_reading rfl)
  cases task with
  | check uuid user dto =>
    exact .read hfail fun _ => .returned hfail fun _ _ => .returned hfail fun _ _ => .goOn h
  | load uuid dto => exact .read hfail fun _ => .returned hfail fun _ _ => .goOn h
  | save server allocation =>
    simp only [turn]
    exact .execute (fun _ => hfail) fun _ _ _ => .answer _

theorem DeleteTask.leads (hstart : ∀ t, start ≠ .create t) {task : DeleteTask}
    (h : Task.Stage db₀ start p.db calls (.delete task)) :
    Leads (Ends db₀ start ((Task.delete task).record reply calls) (.delete task) reply)
      (fun db t => Task.Stage db₀ start db ((Task.delete task).record reply calls) (.delete t))
      (task.turn p reply) := by
  have hfail (hdb : p.db = db₀) (hreading : (Task.delete task).reading = true) :
      Ends db₀ start ((Task.delete task).record reply calls) (.delete task) reply p.db :=
    ends_unwritten hdb (traceless_of_reading hreading)
  cases task with
  | load uuid =>
    refine .read (hfail h rfl) fun _ => .returned (hfail h rfl) fun server _ => .goOn ⟨h, ?_⟩
    rw [← show p.db = db₀ from h]
    rfl
  | wings server found =>
    obtain ⟨hdb, hfound⟩ := h
    cases found with
    | some a =>
      have hnext : Task.Stage db₀ start p.db calls (.delete (.free a server)) :=
        ⟨hdb, Table.findOne_mem hfound.symm, by simpa using Table.findOne_sat hfound.symm⟩
      exact .call (fun _ => .goOn hnext) fun _ _ => .goOn hnext
    | none =>
      have hnext : Task.Stage db₀ start p.db calls (.delete (.remove server)) := by
        refine .inl ⟨hdb, fun a ha => ?_⟩
        simpa using Table.findOne_eq_none.mp hfound.symm a ha
      exact .call (fun _ => .goOn hnext) fun _ _ => .goOn hnext
  | free a server =>
    obtain ⟨hdb, ha, hassigned⟩ := h
    simp only [turn]
    refine .execute (fun _ => hfail hdb rfl) fun _ db hexec => .goOn (.inr ⟨a, ha, hassigned, ?_⟩)
    rwa [← hdb]
  | remove server =>
    simp only [turn]
    refine .execute (fun _ => ?_) fun _ _ _ => .answer _
    rcases h with ⟨hdb, hnone⟩ | ⟨a, ha, hassigned, hexec⟩
    · exact ends_unwritten hdb hnone
    · refine (unharmed_iff hstart).trans (iff_of_false ?_ fun hnone => hnone a ha hassigned)
      exact fun hsame => freeAllocation_differs ha hassigned hexec hsame.allocations

theorem SuspendTask.leads (hstart : ∀ t, start ≠ .create t) {task : SuspendTask}
    (h : Task.Stage db₀ start p.db calls (.suspend task)) :
    Leads (Ends db₀ start ((Task.suspend task).record reply calls) (.suspend task) reply)
      (fun db t => Task.Stage db₀ start db ((Task.suspend task).record reply calls) (.suspend t))
      (task.turn p reply) := by
  have hfail (hdb : p.db = db₀) (hreading : (Task.suspend task).reading = true) :
      Ends db₀ start ((Task.suspend task).record reply calls) (.suspend task) reply p.db :=
    ends_unwritten hdb (traceless_of_reading hreading)
  cases task with
  | find uuid => exact .read (hfail h rfl) fun _ => .returned (hfail h rfl) fun _ _ => .goOn h
  | load id =>
    refine .read (hfail h rfl) fun _ => .returned (hfail h rfl) fun server hserver =>
      .throwIf (hfail h rfl) fun _ => .goOn ⟨h, ?_⟩
    rw [← show p.db = db₀ from h]
    exact (findById_ok hserver).1
  | kill server => exact .call (fun _ => .goOn h) fun _ _ => .goOn h
  | write server =>
    obtain ⟨hdb, hserver⟩ := h
    simp only [turn]
    refine .execute (fun _ => hfail hdb rfl) fun _ db hexec => .goOn ?_
    exact ⟨server, hserver, rfl, _, by rwa [← hdb]⟩
  | reload id =>
    exact .read (ends_wrote hstart h not_false) fun _ => .returned (ends_wrote hstart h not_false)
      fun _ _ => .answer _

theorem UnsuspendTask.leads (hstart : ∀ t, start ≠ .create t) {task : UnsuspendTask}
    (h : Task.Stage db₀ start p.db calls (.unsuspend task)) :
    Leads (Ends db₀ start ((Task.unsuspend task).record reply calls) (.unsuspend task) reply)
      (fun db t =>
        Task.Stage db₀ start db ((Task.unsuspend task).record reply calls) (.unsuspend t))
      (task.turn p reply) := by
  have hfail (hdb : p.db = db₀) (hreading : (Task.unsuspend task).reading = true) :
      Ends db₀ start ((Task.unsuspend task).record reply calls) (.unsuspend task) reply p.db :=
    ends_unwritten hdb (traceless_of_reading hreading)
  cases task with
  | find uuid => exact .read (hfail h rfl) fun _ => .returned (hfail h rfl) fun _ _ => .goOn h
  | load id =>
    refine .read (hfail h rfl) fun _ => .returned (hfail h rfl) fun server hserver =>
      .throwIf (hfail h rfl) fun _ => .goOn ⟨h, ?_⟩
    rw [← show p.db = db₀ from h]
    exact (findById_ok hserver).1
  | write server =>
    obtain ⟨hdb, hserver⟩ := h
    simp only [turn]
    refine .execute (fun _ => hfail hdb rfl) fun _ db hexec => .goOn ?_
    exact ⟨server, hserver, rfl, _, by rwa [← hdb]⟩
  | reload id =>
    exact .read (ends_wrote hstart h not_false) fun _ => .returned (ends_wrote hstart h not_false)
      fun _ _ => .answer _

theorem ReinstallTask.leads (hstart : ∀ t, start ≠ .create t) {task : ReinstallTask}
    (h : Task.Stage db₀ start p.db calls (.reinstall task)) :
    Leads (Ends db₀ start ((Task.reinstall task).record reply calls) (.reinstall task) reply)
      (fun db t =>
        Task.Stage db₀ start db ((Task.reinstall task).record reply calls) (.reinstall t))
      (task.turn p reply) := by
  have hfail (hdb : p.db = db₀) (hreading : (Task.reinstall task).reading = true) :
      Ends db₀ start ((Task.reinstall task).record reply calls) (.reinstall task) reply p.db :=
    ends_unwritten hdb (traceless_of_reading hreading)
  cases task with
  | find uuid => exact .read (hfail h rfl) fun _ => .returned (hfail h rfl) fun _ _ => .goOn h
  | load id =>
    refine .read (hfail h rfl) fun _ => .returned (hfail h rfl) fun server hserver =>
      .goOn ⟨h, ?_⟩
    rw [← show p.db = db₀ from h]
    exact (findById_ok hserver).1
  | mark server allocation egg =>
    obtain ⟨hdb, hserver⟩ := h
    simp only [turn]
    refine .execute (fun hrefused => ?_) fun hok db hexec => ?_
    · cases reply with
      | failed message => exact ends_unwritten hdb trivial
      | ok =>
        obtain ⟨db, hdb⟩ := exec_updateServer p.db server.id ⟨some 0, none⟩
        rw [hrefused rfl] at hdb
        cases hdb
    · subst hok
      have hwrote : Wrote db₀ db server.id := ⟨server, hserver, rfl, _, by rwa [← hdb]⟩
      cases allocation with
      | none => exact .error (ends_wrote hstart hwrote not_false)
      | some a =>
        cases egg with
        | none => exact .error (ends_wrote hstart hwrote not_false)
        | some egg => exact .goOn hwrote
  | wings server config script image =>
    exact .call (fun _ => .goOn h) fun _ _ => .error (ends_wrote hstart h not_false)
  | reload id =>
    exact .read (ends_wrote hstart h not_false) fun _ => .returned (ends_wrote hstart h not_false)
      fun _ _ => .answer _

end ServersService

/-- The place of an operation on its own. -/
def Task.Stands (db₀ : Database) (start : Task) (db : Database)
    (calls : List (WingsCall × Settled)) (task : Task) : Prop :=
  Task.Stage db₀ start db calls task ∧ task.operation = start.operation

theorem Leads.map {τ : Type} {E : Database → Prop} {N : Database → Task → Prop}
    {u : ServersTurn τ} {f : τ → Task} (h : Leads E (fun db t => N db (f t)) u) :
    Leads E N (u.map f) where
  throws := h.throws
  next := by
    intro t ht
    obtain ⟨x, hx, rfl⟩ := Option.map_eq_some_iff.mp ht
    exact h.next x hx

theorem Leads.and_operation {E : Database → Prop} {N : Database → Task → Prop} (js : Js)
    {task : Task} (h : Leads E N (task.turn js p reply)) :
    Leads E (fun db t => N db t ∧ t.operation = task.operation) (task.turn js p reply) where
  throws := h.throws
  next := by
    intro t ht
    refine ⟨h.next t ht, ?_⟩
    cases task
    all_goals
      obtain ⟨x, -, rfl⟩ := Option.map_eq_some_iff.mp ht
      rfl

/-- One turn of an operation on its own. -/
theorem Task.leads (js : Js) {task : Task} (hop : start.operation.isSome)
    (h : Task.Stands db₀ start p.db calls task) :
    Leads (Ends db₀ start (task.record reply calls) task reply)
      (fun db t => Task.Stands db₀ start db (task.record reply calls) t)
      (task.turn js p reply) := by
  obtain ⟨hstage, hsame⟩ := h
  have hstart (o : Operation) (ho : o ≠ .create) (htask : task.operation = some o) :
      ∀ t, start ≠ .create t := by
    rintro t rfl
    rw [htask] at hsame
    exact ho (Option.some.inj hsame)
  have hleads : Leads (Ends db₀ start (task.record reply calls) task reply)
      (fun db t => Task.Stage db₀ start db (task.record reply calls) t) (task.turn js p reply) := by
    cases task with
    | create task => exact (ServersService.CreateTask.leads js hstage).map
    | update task => exact (ServersService.UpdateTask.leads hstage).map
    | delete task => exact (ServersService.DeleteTask.leads (hstart .delete nofun rfl) hstage).map
    | suspend task =>
      exact (ServersService.SuspendTask.leads (hstart .suspend nofun rfl) hstage).map
    | unsuspend task =>
      exact (ServersService.UnsuspendTask.leads (hstart .unsuspend nofun rfl) hstage).map
    | reinstall task =>
      exact (ServersService.ReinstallTask.leads (hstart .reinstall nofun rfl) hstage).map
    | power task | callback task | event task | gateway task | allocation task =>
      rw [← hsame] at hop
      cases hop
  refine ⟨hleads.throws, fun t ht => ⟨hleads.next t ht, ?_⟩⟩
  rw [(hleads.and_operation js).next t ht |>.2, hsame]

end Turns

/-! ## A whole operation -/

theorem Task.stands_of_requests {db : Database} {task : Task} (h : task.requests = true) :
    Task.Stands db task db [] task := by
  refine ⟨?_, rfl⟩
  obtain ⟨hstarts, hop⟩ := Bool.and_eq_true_iff.mp h
  unfold Task.starts at hstarts
  split at hstarts
  any_goals cases hstarts
  any_goals cases hop
  · exact ⟨rfl, rfl⟩
  all_goals rfl

/-- From where an operation stands to its end. -/
theorem alone_ends {js : Js} {db₀ : Database} {start : Task} (hop : start.operation.isSome) :
    ∀ {replies : List Settled} {p : ServersState} {calls : List (WingsCall × Settled)}
      {task : Task} {o : Outcome} {e : HttpException}, Task.Stands db₀ start p.db calls task →
      alone js replies p calls task = some o → o.result = .error e →
      (Unharmed db₀ start o.db o.calls ↔ Traceless db₀ o.last) := by
  intro replies
  induction replies with
  | nil => exact fun _ hrun => nomatch hrun
  | cons reply replies ih =>
    intro p calls task o e hstands hrun hthrows
    have hleads : Leads (Ends db₀ start (task.record reply calls) task reply) _
      (task.turn js p reply) := Task.leads js hop hstands
    have hcalls : (task.turn js p reply).output.calls = task.call.toList := (task.performs js).calls
    simp only [alone, hcalls] at hrun
    split at hrun
    next result _ hanswer =>
      cases hrun
      cases hthrows
      exact hleads.throws e hanswer
    next t _ hnext => exact ih (hleads.next t hnext) hrun hthrows
    next => cases hrun

/-- An operation that throws has left the tables alone exactly when nothing that stays was
written before the turn in which it throws. -/
theorem unharmed_iff_traceless {js : Js} {replies : List Settled} {p : ServersState} {task : Task}
    {o : Outcome} {e : HttpException} (hrequests : task.requests = true)
    (hrun : alone js replies p [] task = some o) (hthrows : o.result = .error e) :
    Unharmed p.db task o.db o.calls ↔ Traceless p.db o.last :=
  alone_ends (Bool.and_eq_true_iff.mp hrequests).2 (Task.stands_of_requests hrequests) hrun hthrows

/-- An operation that is seen to throw. -/
theorem exists_error {run : Option Outcome}
    (h : (run.any fun o => o.result matches .error _) = true) :
    ∃ o e, run = some o ∧ o.result = .error e := by
  cases run with
  | none => cases h
  | some o =>
    cases hresult : o.result with
    | ok a => simp [hresult] at h
    | error e => exact ⟨o, e, rfl, hresult⟩

/-- Wings is out of reach. A suspension whose status cannot be written either leaves the server
of `oneServer` as it was; a reinstall has marked it by then, though it was not installed. -/
theorem suspend_unharmed_reinstall_not :
    (∃ o e, alone .plain [.ok, .ok, .failed "unavailable", .failed "deadlock detected"]
        ⟨.oneServer none, [], []⟩ [] (.suspend (.find "u")) = some o ∧ o.result = .error e ∧
      Unharmed (.oneServer none) (.suspend (.find "u")) o.db o.calls) ∧
    ∃ o e, alone .plain [.ok, .ok, .ok, .failed "unavailable"] ⟨.oneServer none, [], []⟩ []
        (.reinstall (.find "u")) = some o ∧ o.result = .error e ∧
      ¬ Unharmed (.oneServer none) (.reinstall (.find "u")) o.db o.calls := by
  constructor
  · have hrun : alone .plain [.ok, .ok, .failed "unavailable", .failed "deadlock detected"]
        ⟨.oneServer none, [], []⟩ [] (.suspend (.find "u")) = some _ := rfl
    exact ⟨_, _, hrun, rfl, (unharmed_iff_traceless (by decide) hrun rfl).mpr trivial⟩
  · have hrun : alone .plain [.ok, .ok, .ok, .failed "unavailable"] ⟨.oneServer none, [], []⟩ []
        (.reinstall (.find "u")) = some _ := rfl
    exact ⟨_, _, hrun, rfl, fun h => (unharmed_iff_traceless (by decide) hrun rfl).mp h⟩

/-- The row of a server cannot be removed, and its allocation is free all the same. -/
theorem delete_takes_nothing_back :
    ¬ ∀ (js : Js) (replies : List Settled) (p : ServersState) (task : Task) (o : Outcome)
        (e : HttpException), task.requests = true → alone js replies p [] task = some o →
        o.result = .error e → Unharmed p.db task o.db o.calls := by
  intro h
  have hhalf : ∃ o e, alone .plain [.ok, .ok, .ok, .failed "deadlock detected"]
      ⟨.oneServer none, [], []⟩ [] (.delete (.load "u")) = some o ∧ o.result = .error e :=
    exists_error (by decide +kernel)
  have hfreed : ((alone .plain [.ok, .ok, .ok, .failed "deadlock detected"]
      ⟨.oneServer none, [], []⟩ [] (.delete (.load "u"))).map fun o =>
        o.db.allocations.rows.map Allocation.serverId) = some [none, none] := by decide +kernel
  obtain ⟨o, e, hrun, hthrows⟩ := hhalf
  have hharm := h .plain _ _ _ o e (by decide) hrun hthrows
  obtain ⟨-, hallocations⟩ := (unharmed_iff fun _ hcreate => by cases hcreate).mp hharm
  rw [hrun, Option.map_some, hallocations] at hfreed
  exact absurd hfreed (by decide)

end Panel
