import NexusPanel.Panel.ServersFlow

/-!
# One server for an allocation

`create` looks whether its allocation is free, and long afterwards inserts the server and
assigns the allocation in one transaction. What the check saw may be out of date by then, but
`allocationId` is unique among the servers: of several creates that name one allocation the
first to commit wins, and the transactions of the others are refused.

That a server and its allocation are on one node is said by two maps, from the ids of servers
and from those of allocations to nodes: rows and operations in flight agree with both, and a
new id extends them. It is the ids that carry the argument, so the database must not generate
one that a row or an operation still knows.
-/

namespace Panel

open Transition ServersService

/-- The server whose creation the step commits. -/
def commits (p : ServersPool) (l : ServersLabel) : Option Server :=
  match issued p l with
  | some (.createServer server) =>
    if (p.store.db.exec (.createServer server)).isSome then some server else none
  | _ => none

/-- The servers whose creation a run commits. -/
def committed (js : Js) : ServersPool → List ServersLabel → List Server
  | _, [] => []
  | p, l :: ls => (commits p l).toList ++
    match serversStep js p l with
    | some p' => committed js p' ls
    | none => []

/-- No server is removed. -/
def KeepsServers (p : ServersPool) (l : ServersLabel) : Prop :=
  ∀ id, issued p l ≠ some (.removeServer id)

/-- The call has not come past its transaction. -/
def ServersService.CreateTask.uncommitted : CreateTask → Bool
  | .load _ | .wings _ _ _ _ | .markFailed _ _ => false
  | _ => true

/-- A turn of a create before its transaction, and one whose transaction is refused, leaves the
database alone; refused, the call ends with an exception, and otherwise it stays before its
transaction. -/
def LosesCleanly (js : Js) (p : ServersPool) : ServersLabel → Prop
  | .turn i reply => ∀ task, p.tasks[i]? = some (.create task) → task.uncommitted = true →
      commits p (.turn i reply) = none →
        (task.turn js p.store reply).store.db = p.store.db ∧
        (∀ t, (task.turn js p.store reply).next = some t → t.uncommitted = true) ∧
        ∀ server, task = .insert server →
          ∃ e, (task.turn js p.store reply).output.answer = some (.error e)
  | _ => True

/-- No two servers hold the same allocation, and a server is on the node of its own. -/
structure HeldOnce (db : Database) : Prop where
  once : ∀ s ∈ db.servers, ∀ s' ∈ db.servers, s.allocationId = s'.allocationId → s = s'
  onNode : ∀ s ∈ db.servers, ∀ a ∈ db.allocations,
    a.serverId = some s.id ∨ s.allocationId = a.id → a.nodeId = s.nodeId

/-- The allocations an operation has seen, with the node they were on. -/
def Task.names : Task → List (String × String)
  | .create (.findUser dto _ _ _) | .create (.sumCapacity dto _ _ _)
  | .create (.findVariables dto _ _) => [(dto.allocationId, dto.nodeId)]
  | .create (.insert server) => [(server.allocationId, server.nodeId)]
  | .update (.save server a) =>
    (server.allocationId, server.nodeId) :: a.toList.map fun a => (a.id, server.nodeId)
  | _ => []

/-- The server a create is about to insert. -/
def Task.inserts : Task → Option Server
  | .create (.insert server) => some server
  | _ => none

/-- An id the database generates is new: no row has it, and no operation in flight has loaded a
row that had it. -/
def DrawsNewIds (p : ServersPool) : ServersLabel → Prop
  | .turn i .ok => ∀ task ∈ p.tasks[i]?, ∀ server ∈ task.inserts,
      ∀ t ∈ p.tasks, ∀ s ∈ t.saves, s.id ≠ server.id
  | .outside (.provision allocation) =>
    (∀ s ∈ p.store.db.servers.rows, s.allocationId ≠ allocation.id) ∧
      ∀ t ∈ p.tasks, ∀ named ∈ t.names, named.1 ≠ allocation.id
  | _ => True

instance (p : ServersPool) : ∀ l, Decidable (DrawsNewIds p l)
  | .turn _ .ok => inferInstanceAs (Decidable (∀ _ ∈ _, _))
  | .outside (.provision _) => inferInstanceAs (Decidable (_ ∧ _))
  | .turn _ (.failed _) | .start _ | .outside (.edit _ _ _ _) | .outside (.heartbeats _) =>
    isTrue trivial

/-- What holds of the creates of a run. -/
structure ExclusiveOnCreate (js : Js) (p : ServersPool) (labels : List ServersLabel) : Prop where
  /-- Of the creates that name one allocation at most one commits, while no server goes. -/
  winner : Along (serversStep js) KeepsServers p labels →
    ((committed js p labels).map Server.allocationId).Nodup
  /-- The others leave nothing behind. -/
  losers : Along (serversStep js) (LosesCleanly js) p labels
  held : ∀ done, done <+: labels → ∀ p', run (serversStep js) p done = some p' →
    HeldOnce p'.store.db

/-! ## The losers -/

section Losers

variable {js : Js} {p : ServersPool} {i : Nat} {reply : Settled}

theorem commits_of_insert {server : Server} {db : Database}
    (htask : p.tasks[i]? = some (.create (.insert server)))
    (hexec : p.store.db.exec (.createServer server) = some db) :
    commits p (.turn i .ok) = some server := by
  simp only [commits, issued, htask, Option.bind_some, Task.statement, hexec, Option.isSome_some,
    if_true]

/-- A transaction that does not commit ends the call with an exception, and that is all. -/
theorem insert_refused (js : Js) {server : Server} (htask : p.tasks[i]? = some (.create (.insert server)))
    (hcommits : commits p (.turn i reply) = none) :
    ∃ e, (CreateTask.insert server).turn js p.store reply =
      ServersTurn.finish p.store (.error e) := by
  cases reply with
  | failed message => exact ⟨_, rfl⟩
  | ok =>
    cases hexec : p.store.db.exec (.createServer server) with
    | some db =>
      rw [commits_of_insert htask hexec] at hcommits
      cases hcommits
    | none =>
      simp only [CreateTask.turn, ServersTurn.execute, hexec]
      exact ⟨_, rfl⟩

/-- Before its transaction a create only reads. -/
theorem reads_of_uncommitted {task : CreateTask} (h : task.uncommitted = true)
    (hinsert : ∀ server, task ≠ .insert server) : (Task.create task).statement = none := by
  cases task with
  | insert server => exact absurd rfl (hinsert server)
  | load id | wings server config script image | markFailed id message => cases h
  | _ => rfl

theorem uncommitted_next {q : ServersState} {task t : CreateTask}
    (h : task.uncommitted = true) (hinsert : ∀ server, task ≠ .insert server)
    (hnext : (task.turn js q reply).next = some t) : t.uncommitted = true := by
  have hfollows := task.goesOn js t hnext
  cases task with
  | findNode dto gen =>
    obtain ⟨node, -, -, -, rfl⟩ := hfollows
    rfl
  | checkAvailability dto gen node =>
    cases hfollows
    rfl
  | findEgg dto gen node =>
    obtain ⟨egg, -, -, rfl⟩ := hfollows
    rfl
  | findAllocation dto gen node egg =>
    obtain ⟨a, -, -, -, -, rfl⟩ := hfollows
    rfl
  | findUser dto gen node egg =>
    obtain ⟨user, -, -, rfl⟩ := hfollows
    rfl
  | sumCapacity dto gen node egg =>
    obtain ⟨-, -, rfl⟩ := hfollows
    rfl
  | findVariables dto gen egg =>
    obtain ⟨startup, image, env, rfl⟩ := hfollows
    rfl
  | insert server => exact absurd rfl (hinsert server)
  | load id | wings server config script image | markFailed id message => cases h

theorem losesCleanly (js : Js) (p : ServersPool) (l : ServersLabel) : LosesCleanly js p l := by
  cases l with
  | start task => trivial
  | outside event => trivial
  | turn i reply =>
    intro task htask huncommitted hcommits
    by_cases hinsert : ∃ server, task = .insert server
    · obtain ⟨server, rfl⟩ := hinsert
      obtain ⟨e, hturn⟩ := insert_refused js htask hcommits
      rw [hturn]
      exact ⟨rfl, fun t ht => (nomatch ht), fun _ _ => ⟨e, rfl⟩⟩
    · rw [not_exists] at hinsert
      have hdb : (task.turn js p.store reply).store.db =
          p.store.db.issue reply (Task.create task).statement := (task.performs js).db
      rw [reads_of_uncommitted huncommitted hinsert] at hdb
      refine ⟨?_, fun t ht => uncommitted_next huncommitted hinsert ht,
        fun server heq => absurd heq (hinsert server)⟩
      rw [hdb]
      cases reply <;> rfl

end Losers

/-! ## The winner -/

section Winner

variable {js : Js} {p p' : ServersPool} {l : ServersLabel}

/-- A row an update is about to write back is there, with the allocation it has loaded. -/
def SavesPresent (p : ServersPool) : Prop :=
  p.Holds (fun _ => True) fun q t => ∀ server, t.saves = some server →
    ∃ row ∈ q.db.servers, row.id = server.id ∧ row.allocationId = server.allocationId

/-- Every server is still there, with its allocation. -/
def ServersStay (db db' : Database) : Prop :=
  ∀ row ∈ db.servers, ∃ row' ∈ db'.servers,
    row'.id = row.id ∧ row'.allocationId = row.allocationId

theorem serversStay_columns {db db' : Database} {q : Server → Bool} {c : Lifecycle}
    (h : ∀ x, x ∈ db'.servers ↔ ∃ s ∈ db.servers, (if q s then c.set s else s) = x) :
    ServersStay db db' := by
  intro row hrow
  refine ⟨_, (h _).mpr ⟨row, hrow, rfl⟩, ?_⟩
  split <;> exact ⟨rfl, rfl⟩

/-- Only a removal makes a server go, if what is saved is there. -/
theorem serversStay_exec {db db' : Database} {st : Statement} (hexec : db.exec st = some db')
    (hremove : ∀ id, st ≠ .removeServer id)
    (hsave : ∀ server allocation, st = .saveServer server allocation →
      ∃ row ∈ db.servers, row.id = server.id ∧ row.allocationId = server.allocationId) :
    ServersStay db db' := by
  cases st with
  | createServer server =>
    exact fun row hrow => ⟨row, (mem_servers_createServer hexec).2.mpr (.inr hrow), rfl, rfl⟩
  | saveServer server allocation =>
    intro row hrow
    obtain ⟨old, hold, hid, hallocation⟩ := hsave server allocation rfl
    by_cases heq : row.id = server.id
    · refine ⟨server, (mem_servers_saveServer hexec).mpr (.inl rfl), heq.symm, ?_⟩
      rw [Table.eq_of_key hrow hold (heq.trans hid.symm), hallocation]
    · exact ⟨row, (mem_servers_saveServer hexec).mpr (.inr ⟨hrow, heq⟩), rfl, rfl⟩
  | updateServer id c => exact serversStay_columns fun _ => mem_servers_updateServer hexec
  | updateServerByUuid uuid c =>
    exact serversStay_columns fun _ => mem_servers_updateServerByUuid hexec
  | removeServer id => exact absurd rfl (hremove id)
  | freeAllocation id =>
    exact fun row hrow => ⟨row, servers_freeAllocation hexec ▸ hrow, rfl, rfl⟩
  | removeAllocation id =>
    exact fun row hrow => ⟨row, servers_removeAllocation hexec ▸ hrow, rfl, rfl⟩
  | removeUnassigned id =>
    exact fun row hrow => ⟨row, servers_removeUnassigned hexec ▸ hrow, rfl, rfl⟩

/-- A save stands behind a load only. -/
theorem Task.saves_next {q : ServersState} {reply : Settled} {task t : Task} {server : Server}
    (hnext : (task.turn js q reply).next = some t) (hsaves : t.saves = some server) :
    ∃ row ∈ q.db.servers, row.id = server.id ∧ row.allocationId = server.allocationId ∧
      row.nodeId = server.nodeId := by
  obtain ⟨row, hrow, dto, rfl⟩ := Task.saves_loaded hnext hsaves
  exact ⟨row, hrow, rfl, rfl, rfl⟩

theorem serversStay_step (hp : SavesPresent p) (hkeeps : KeepsServers p l)
    (hstep : serversStep js p l = some p') : ServersStay p.store.db p'.store.db := by
  cases serversStep_changes hstep with
  | executed st hst hexec =>
    refine serversStay_exec hexec (fun id heq => hkeeps id (heq ▸ hst))
      fun server allocation heq => ?_
    obtain ⟨i, task, -, htask, hst⟩ := issued_eq_some hst
    rw [heq] at hst
    exact hp.tasks task (List.mem_of_getElem? htask) server (Task.saves_of_statement hst)
  | quiet _ hservers _ | provisioned _ _ _ _ hservers _ =>
    exact fun row hrow => ⟨row, hservers ▸ hrow, rfl, rfl⟩

theorem SavesPresent.step (hp : SavesPresent p) (hkeeps : KeepsServers p l)
    (hstep : serversStep js p l = some p') : SavesPresent p' := by
  have hstay := serversStay_step hp hkeeps hstep
  have hold : ∀ t ∈ p.tasks, ∀ server, t.saves = some server → ∃ row ∈ p'.store.db.servers,
      row.id = server.id ∧ row.allocationId = server.allocationId := by
    intro t ht server hsaves
    obtain ⟨row, hrow, hid, hallocation⟩ := hp.tasks t ht server hsaves
    obtain ⟨row', hrow', hid', hallocation'⟩ := hstay row hrow
    exact ⟨row', hrow', hid'.trans hid, hallocation'.trans hallocation⟩
  refine ⟨trivial, ?_⟩
  cases l with
  | start task =>
    obtain ⟨hstarts, rfl⟩ := Tasks.step_start hstep
    intro t ht server hsaves
    rcases List.mem_cons.mp ht with rfl | ht
    · rw [Task.saves_of_starts hstarts] at hsaves
      cases hsaves
    · exact hold t ht server hsaves
  | turn i reply =>
    obtain ⟨task, htask, rfl⟩ := Tasks.step_turn hstep
    intro t ht server hsaves
    rcases List.mem_append.mp ht with ht | ht
    · obtain ⟨row, hrow, hid, hallocation, -⟩ :=
        Task.saves_next (Option.mem_toList.mp ht) hsaves
      obtain ⟨row', hrow', hid', hallocation'⟩ := hstay row hrow
      exact ⟨row', hrow', hid'.trans hid, hallocation'.trans hallocation⟩
    · exact hold t (List.mem_of_mem_eraseIdx ht) server hsaves
  | outside event =>
    obtain ⟨store, -, rfl⟩ := Tasks.step_outside hstep
    exact hold

/-- A creation that commits finds its allocation with no server, and its server has it then. -/
theorem committed_new {server : Server} (hcommits : commits p l = some server)
    (hstep : serversStep js p l = some p') :
    server ∈ p'.store.db.servers ∧
      ∀ row ∈ p.store.db.servers, row.allocationId ≠ server.allocationId := by
  unfold commits at hcommits
  split at hcommits
  next new hissued =>
    split at hcommits
    next hsome =>
      cases hcommits
      obtain ⟨db', hexec⟩ := Option.isSome_iff_exists.mp hsome
      have hdb : p'.store.db = db' := by
        cases serversStep_changes hstep with
        | executed st hst hexec' =>
          cases hissued.symm.trans hst
          exact Option.some.inj (hexec'.symm.trans hexec)
        | quiet hst _ _ =>
          rw [hst _ hissued] at hexec
          cases hexec
        | provisioned hst _ _ _ _ _ => cases hissued.symm.trans hst
      rw [hdb]
      obtain ⟨hfresh, -⟩ := mem_servers_createServer (x := server) hexec
      have hmem := fun x => (mem_servers_createServer (x := x) hexec).2
      refine ⟨(hmem server).mpr (.inl rfl), fun row hrow heq => hfresh row hrow ?_⟩
      rw [db'.eq_of_allocationId ((hmem row).mpr (.inr hrow)) ((hmem server).mpr (.inl rfl)) heq]
    next => cases hcommits
  next => cases hcommits

/-- What a run commits has allocations of its own, which no server had before. -/
theorem committed_distinct {labels : List ServersLabel} (hp : SavesPresent p)
    (hkeeps : Along (serversStep js) KeepsServers p labels) :
    ((committed js p labels).map Server.allocationId).Nodup ∧
      ∀ s ∈ committed js p labels, ∀ row ∈ p.store.db.servers,
        row.allocationId ≠ s.allocationId := by
  induction labels generalizing p with
  | nil => exact ⟨.nil, fun s hs => (nomatch hs)⟩
  | cons l ls ih =>
    obtain ⟨hkeep, hrest⟩ := hkeeps
    cases hstep : serversStep js p l with
    | none =>
      have hnone : commits p l = none := by
        simp only [commits, issued_of_stuck hstep]
      simp only [committed, hstep, hnone, Option.toList_none, List.nil_append]
      exact ⟨.nil, fun s hs => (nomatch hs)⟩
    | some p' =>
      obtain ⟨hnodup, hothers⟩ := ih (hp.step hkeep hstep) (hrest p' hstep)
      have hstay := serversStay_step hp hkeep hstep
      have hlater : ∀ s ∈ committed js p' ls, ∀ row ∈ p.store.db.servers,
          row.allocationId ≠ s.allocationId := by
        intro s hs row hrow
        obtain ⟨row', hrow', -, hallocation⟩ := hstay row hrow
        rw [← hallocation]
        exact hothers s hs row' hrow'
      simp only [committed, hstep]
      cases hcommits : commits p l with
      | none => exact ⟨hnodup, hlater⟩
      | some server =>
        obtain ⟨hmem, hnew⟩ := committed_new hcommits hstep
        rw [Option.toList_some, List.singleton_append, List.map_cons, List.nodup_cons]
        refine ⟨⟨fun hdup => ?_, hnodup⟩, fun s hs => ?_⟩
        · obtain ⟨s, hs, heq⟩ := List.mem_map.mp hdup
          exact hothers s hs server hmem heq.symm
        · rcases List.mem_cons.mp hs with rfl | hs
          · exact hnew
          · exact hlater s hs

end Winner

/-! ## Servers and allocations on their nodes -/

/-- Rows agree with the maps from servers and from allocations to nodes. -/
structure Homes (home place : String → String) (db : Database) : Prop where
  servers : ∀ s ∈ db.servers, s.nodeId = home s.id ∧ s.nodeId = place s.allocationId
  allocations : ∀ a ∈ db.allocations, a.nodeId = place a.id ∧
    ∀ id, a.serverId = some id → a.nodeId = home id

/-- What an operation in flight has seen agrees with them too. -/
def Task.AtHome (home place : String → String) (t : Task) : Prop :=
  (∀ named ∈ t.names, named.2 = place named.1) ∧
    ∀ s, t.saves = some s → s.nodeId = home s.id

def Located (p : ServersPool) : Prop :=
  ∃ home place, p.Holds (fun q => Homes home place q.db) fun _ t => t.AtHome home place

section Held

variable {home place : String → String} {db db' : Database} {js : Js} {p p' : ServersPool}
  {l : ServersLabel}

theorem Homes.heldOnce (h : Homes home place db) : HeldOnce db := by
  refine ⟨fun s hs s' hs' heq => db.eq_of_allocationId hs hs' heq, fun s hs a ha hheld => ?_⟩
  obtain ⟨hhome, hplace⟩ := h.servers s hs
  obtain ⟨hat, hassigned⟩ := h.allocations a ha
  rcases hheld with hserver | hid
  · rw [hassigned s.id hserver, hhome]
  · rw [hat, hplace, hid]

/-- The maps of a database in which servers and allocations are on their nodes. -/
theorem HeldOnce.homes (h : HeldOnce db) : ∃ home place, Homes home place db := by
  let home id := ((db.servers.findOne fun s => s.id == id).map Server.nodeId).getD ""
  let place id := ((db.servers.findOne fun s => s.allocationId == id).map Server.nodeId).getD
    (((db.allocations.findOne fun a => a.id == id).map Allocation.nodeId).getD "")
  have hhome : ∀ s ∈ db.servers, home s.id = s.nodeId := by
    intro s hs
    have hfind : (db.servers.findOne fun x => x.id == s.id) = some s :=
      Table.findOne_eq_some hs (beq_self_eq_true _) fun x _ hx => beq_iff_eq.mp hx
    simp only [home, hfind, Option.map_some, Option.getD_some]
  have hfound : ∀ id s, (db.servers.findOne fun x => x.allocationId == id) = some s →
      s ∈ db.servers ∧ s.allocationId = id := by
    intro id s hs
    have hid := Table.findOne_sat hs
    exact ⟨Table.findOne_mem hs, beq_iff_eq.mp hid⟩
  refine ⟨home, place, fun s hs => ⟨(hhome s hs).symm, ?_⟩, fun a ha => ⟨?_, fun id hid => ?_⟩⟩
  · cases hx : db.servers.findOne fun x => x.allocationId == s.allocationId with
    | some x =>
      obtain ⟨hmem, heq⟩ := hfound _ _ hx
      simp only [place, hx, Option.map_some, Option.getD_some]
      rw [h.once x hmem s hs heq]
    | none =>
      have hfalse := Table.findOne_eq_none.mp hx s hs
      rw [beq_self_eq_true] at hfalse
      cases hfalse
  · cases hx : db.servers.findOne fun x => x.allocationId == a.id with
    | some x =>
      obtain ⟨hmem, heq⟩ := hfound _ _ hx
      simp only [place, hx, Option.map_some, Option.getD_some]
      exact h.onNode x hmem a ha (.inr heq)
    | none =>
      simp only [place, hx, Option.map_none, Option.getD_none]
      have hfind : (db.allocations.findOne fun b => b.id == a.id) = some a :=
        Table.findOne_eq_some ha (beq_self_eq_true _) fun b _ hb => beq_iff_eq.mp hb
      rw [hfind, Option.map_some, Option.getD_some]
  · obtain ⟨s, hs, rfl⟩ := db.exists_holder ha hid
    rw [hhome s hs]
    exact h.onNode s hs a ha (.inl hid)

/-- Rows that only look the same to the maps. -/
theorem Homes.congr (h : Homes home place db)
    (hservers : ∀ s ∈ db'.servers, ∃ s₀ ∈ db.servers,
      s.id = s₀.id ∧ s.allocationId = s₀.allocationId ∧ s.nodeId = s₀.nodeId)
    (hallocations : ∀ a ∈ db'.allocations, ∃ a₀ ∈ db.allocations,
      a.id = a₀.id ∧ a.nodeId = a₀.nodeId ∧ (a.serverId = none ∨ a.serverId = a₀.serverId)) :
    Homes home place db' := by
  constructor
  · intro s hs
    obtain ⟨s₀, hs₀, hid, hallocation, hnode⟩ := hservers s hs
    rw [hid, hallocation, hnode]
    exact h.servers s₀ hs₀
  · intro a ha
    obtain ⟨a₀, ha₀, hid, hnode, hserver⟩ := hallocations a ha
    obtain ⟨hat, hassigned⟩ := h.allocations a₀ ha₀
    rw [hid, hnode]
    refine ⟨hat, fun id hid => ?_⟩
    rcases hserver with hnone | hsame
    · rw [hnone] at hid
      cases hid
    · exact hassigned id (hsame ▸ hid)

theorem Homes.columns (h : Homes home place db) {q : Server → Bool} {c : Lifecycle}
    (hservers : ∀ x, x ∈ db'.servers ↔ ∃ s ∈ db.servers, (if q s then c.set s else s) = x)
    (hallocations : db'.allocations = db.allocations) : Homes home place db' := by
  refine h.congr (fun x hx => ?_) fun a ha => ⟨a, hallocations ▸ ha, rfl, rfl, .inr rfl⟩
  obtain ⟨s, hs, rfl⟩ := (hservers x).mp hx
  refine ⟨s, hs, ?_⟩
  split <;> exact ⟨rfl, rfl, rfl⟩

/-- Every statement but an insert keeps to the maps. -/
theorem Homes.exec (h : Homes home place db) {st : Statement} (hexec : db.exec st = some db')
    (hcreate : ∀ server, st ≠ .createServer server)
    (hsave : ∀ server allocation, st = .saveServer server allocation →
      server.nodeId = home server.id ∧ server.nodeId = place server.allocationId ∧
        ∀ id ∈ allocation, server.nodeId = place id) :
    Homes home place db' := by
  cases st with
  | createServer server => exact absurd rfl (hcreate server)
  | saveServer server allocation =>
    obtain ⟨hhome, hplace, hheld⟩ := hsave server allocation rfl
    refine ⟨fun s hs => ?_, fun b hb => ?_⟩
    · rcases (mem_servers_saveServer hexec).mp hs with rfl | ⟨hs, -⟩
      · exact ⟨hhome, hplace⟩
      · exact h.servers s hs
    · obtain ⟨a, ha, rfl⟩ := (mem_allocations_saveServer hexec).mp hb
      obtain ⟨hat, hassigned⟩ := h.allocations a ha
      split
      next hwritten =>
        refine ⟨hat, fun id hid => ?_⟩
        cases allocation with
        | none => cases hid
        | some allocationId =>
          cases hid
          rw [← hhome, hheld _ rfl, ← Allocation.writtenWith_some.mp hwritten]
          exact hat
      next => exact ⟨hat, hassigned⟩
  | updateServer id c =>
    exact h.columns (fun _ => mem_servers_updateServer hexec) (allocations_updateServer hexec)
  | updateServerByUuid uuid c =>
    exact h.columns (fun _ => mem_servers_updateServerByUuid hexec)
      (allocations_updateServerByUuid hexec)
  | removeServer id =>
    exact ⟨fun s hs => h.servers s ((mem_servers_removeServer hexec).mp hs).1,
      allocations_removeServer hexec ▸ h.allocations⟩
  | freeAllocation id =>
    refine h.congr (fun s hs => ⟨s, servers_freeAllocation hexec ▸ hs, rfl, rfl, rfl⟩)
      fun b hb => ?_
    obtain ⟨a, ha, rfl⟩ := (mem_allocations_freeAllocation hexec).mp hb
    refine ⟨a, ha, ?_⟩
    split
    next => exact ⟨rfl, rfl, .inl rfl⟩
    next => exact ⟨rfl, rfl, .inr rfl⟩
  | removeAllocation id =>
    exact ⟨servers_removeAllocation hexec ▸ h.servers,
      fun a ha => h.allocations a ((mem_allocations_removeAllocation hexec).mp ha).1⟩
  | removeUnassigned id =>
    exact ⟨servers_removeUnassigned hexec ▸ h.servers,
      fun a ha => h.allocations a ((mem_allocations_removeUnassigned hexec).mp ha).1⟩

/-- An insert extends the map of the servers. -/
theorem Homes.create (h : Homes home place db) {server : Server}
    (hexec : db.exec (.createServer server) = some db')
    (hplace : server.nodeId = place server.allocationId) :
    Homes (Function.update home server.id server.nodeId) place db' := by
  have hfresh := (mem_servers_createServer (x := server) hexec).1
  constructor
  · intro s hs
    rcases (mem_servers_createServer hexec).2.mp hs with rfl | hs
    · exact ⟨by rw [Function.update_self], hplace⟩
    · rw [Function.update_of_ne (hfresh s hs)]
      exact h.servers s hs
  · intro b hb
    obtain ⟨a, ha, rfl⟩ := (mem_allocations_createServer hexec).mp hb
    obtain ⟨hat, hassigned⟩ := h.allocations a ha
    split
    next heq =>
      refine ⟨hat, fun id hid => ?_⟩
      cases hid
      rw [Function.update_self, hplace, ← beq_iff_eq.mp heq]
      exact hat
    next =>
      refine ⟨hat, fun id hid => ?_⟩
      obtain ⟨s, hs, rfl⟩ := db.exists_holder ha hid
      rw [Function.update_of_ne (hfresh s hs)]
      exact hassigned s.id hid

/-- A new allocation extends the map of the allocations. -/
theorem Homes.provision (h : Homes home place db) {a : Allocation} (hfree : a.serverId = none)
    (hfresh : ∀ b ∈ db.allocations, b.id ≠ a.id) (hnew : ∀ s ∈ db.servers, s.allocationId ≠ a.id)
    (hservers : db'.servers = db.servers)
    (hallocations : ∀ b, b ∈ db'.allocations ↔ b = a ∨ b ∈ db.allocations) :
    Homes home (Function.update place a.id a.nodeId) db' := by
  constructor
  · intro s hs
    rw [hservers] at hs
    rw [Function.update_of_ne (hnew s hs)]
    exact h.servers s hs
  · intro b hb
    rcases (hallocations b).mp hb with rfl | hb
    · refine ⟨by rw [Function.update_self], fun id hid => ?_⟩
      rw [hfree] at hid
      cases hid
    · rw [Function.update_of_ne (hfresh b hb)]
      exact h.allocations b hb

theorem Task.atHome_of_starts {task : Task} (h : task.starts = true) :
    task.AtHome home place := by
  have hnames : task.names = [] := by
    unfold Task.starts at h
    split at h
    all_goals first | rfl | cases h
  refine ⟨fun named hnamed => ?_, fun s hs => ?_⟩
  · rw [hnames] at hnamed
    cases hnamed
  · rw [Task.saves_of_starts h] at hs
    cases hs

/-- What a turn goes on with has seen what the turn saw. -/
theorem Task.atHome_next {q : ServersState} {reply : Settled} {task t : Task}
    (h : Homes home place q.db) (htask : task.AtHome home place)
    (hnext : (task.turn js q reply).next = some t) : t.AtHome home place := by
  have hsaves : ∀ s, t.saves = some s → s.nodeId = home s.id := by
    intro s hs
    obtain ⟨row, hrow, hid, -, hnode⟩ := Task.saves_next hnext hs
    rw [← hid, ← hnode]
    exact (h.servers row hrow).1
  refine ⟨fun named hnamed => ?_, hsaves⟩
  cases task with
  | create task =>
    obtain ⟨x, hx, rfl⟩ := Option.map_eq_some_iff.mp hnext
    have hfollows := task.goesOn js x hx
    cases task with
    | findNode dto gen =>
      obtain ⟨node, -, -, -, rfl⟩ := hfollows
      cases hnamed
    | checkAvailability dto gen node =>
      cases hfollows
      cases hnamed
    | findEgg dto gen node =>
      obtain ⟨egg, -, -, rfl⟩ := hfollows
      cases hnamed
    | findAllocation dto gen node egg =>
      obtain ⟨a, ha, hid, hnode, -, rfl⟩ := hfollows
      rw [List.mem_singleton.mp hnamed, ← hid, ← hnode]
      exact (h.allocations a ha).1
    | findUser dto gen node egg =>
      obtain ⟨user, -, -, rfl⟩ := hfollows
      exact htask.1 named hnamed
    | sumCapacity dto gen node egg =>
      obtain ⟨-, -, rfl⟩ := hfollows
      exact htask.1 named hnamed
    | findVariables dto gen egg =>
      obtain ⟨startup, image, env, rfl⟩ := hfollows
      exact htask.1 named hnamed
    | insert server =>
      cases hfollows
      cases hnamed
    | load id =>
      rcases hfollows with ⟨_, _, _, _, _, _, _, _, rfl⟩ | ⟨_, rfl⟩
      · cases hnamed
      · cases hnamed
    | wings server config script image =>
      obtain ⟨message, rfl⟩ := hfollows
      cases hnamed
    | markFailed id message => cases hfollows
  | update task =>
    obtain ⟨x, hx, rfl⟩ := Option.map_eq_some_iff.mp hnext
    have hfollows := task.goesOn x hx
    cases task with
    | check uuid user dto =>
      obtain ⟨server, -, -, -, rfl⟩ := hfollows
      cases hnamed
    | load uuid dto =>
      obtain ⟨server, hserver, -, rfl⟩ := hfollows
      obtain ⟨hhome, hplace⟩ := h.servers server hserver
      rcases List.mem_cons.mp hnamed with rfl | hnamed
      · exact hplace
      · obtain ⟨a, ha, rfl⟩ := List.mem_map.mp hnamed
        obtain ⟨hmem, hheld⟩ := ServersState.allocationOf_eq_some (Option.mem_toList.mp ha)
        obtain ⟨hat, hassigned⟩ := h.allocations a hmem
        exact hhome.trans ((hassigned server.id hheld).symm.trans hat)
    | save server allocation => cases hfollows
  | delete task | power task | suspend task | unsuspend task | reinstall task | callback task
  | event task | gateway task | allocation task =>
    obtain ⟨x, -, rfl⟩ := Option.map_eq_some_iff.mp hnext
    cases hnamed

/-- A turn: only an insert that commits moves the maps. -/
theorem Located.turn {i : Nat} {reply : Settled} (hp : Located p)
    (hnew : DrawsNewIds p (.turn i reply)) (hstep : serversStep js p (.turn i reply) = some p') :
    Located p' := by
  obtain ⟨home, place, hp⟩ := hp
  obtain ⟨task, htask, hdb, -⟩ := serversStep_turn hstep
  have hmem := List.mem_of_getElem? htask
  obtain ⟨task', htask', hpool⟩ := Tasks.step_turn hstep
  cases htask.symm.trans htask'
  have htasks : ∀ t ∈ p'.tasks, t ∈ p.tasks ∨ (task.turn js p.store reply).next = some t := by
    intro t ht
    rw [hpool] at ht
    rcases List.mem_append.mp ht with ht | ht
    · exact .inr (Option.mem_toList.mp ht)
    · exact .inl (List.mem_of_mem_eraseIdx ht)
  have hkept : ∀ t ∈ p'.tasks, t.AtHome home place := by
    intro t ht
    rcases htasks t ht with ht | ht
    · exact hp.tasks t ht
    · exact Task.atHome_next hp.store (hp.tasks task hmem) ht
  have hsame (heq : p'.store.db = p.store.db) : Located p' :=
    ⟨home, place, heq ▸ hp.store, hkept⟩
  cases reply with
  | failed message => exact hsame hdb
  | ok =>
    cases hst : task.statement with
    | none =>
      rw [hst] at hdb
      exact hsame hdb
    | some st =>
      cases hexec : p.store.db.exec st with
      | none =>
        rw [hst] at hdb
        simp only [Database.issue, hexec, Option.getD_none] at hdb
        exact hsame hdb
      | some db' =>
        rw [hst] at hdb
        simp only [Database.issue, hexec, Option.getD_some] at hdb
        by_cases hcreate : ∃ server, st = .createServer server
        · obtain ⟨server, rfl⟩ := hcreate
          have hinserts : task.inserts = some server ∧
              (server.allocationId, server.nodeId) ∈ task.names := by
            unfold Task.statement at hst
            split at hst
            all_goals first | (cases hst; exact ⟨rfl, List.mem_cons_self⟩) | cases hst
          have hplace := (hp.tasks task hmem).1 _ hinserts.2
          refine ⟨Function.update home server.id server.nodeId, place, ?_, fun t ht => ?_⟩
          · show Homes _ _ p'.store.db
            rw [hdb]
            exact hp.store.create hexec hplace
          · obtain ⟨hnames, hsaves⟩ := hkept t ht
            refine ⟨hnames, fun s hs => ?_⟩
            have hne : s.id ≠ server.id := by
              rcases htasks t ht with ht | ht
              · exact hnew task htask server hinserts.1 t ht s hs
              · obtain ⟨row, hrow, hid, -⟩ := Task.saves_next ht hs
                rw [← hid]
                exact (mem_servers_createServer (x := server) hexec).1 row hrow
            rw [Function.update_of_ne hne]
            exact hsaves s hs
        · rw [not_exists] at hcreate
          refine ⟨home, place, ?_, hkept⟩
          show Homes _ _ p'.store.db
          rw [hdb]
          refine hp.store.exec hexec hcreate fun server allocation heq => ?_
          rw [heq] at hst
          obtain ⟨a, rfl, rfl⟩ := Task.eq_save hst
          obtain ⟨hnames, hsaves⟩ := hp.tasks _ hmem
          refine ⟨hsaves server rfl, hnames _ List.mem_cons_self, fun id hid => ?_⟩
          obtain ⟨held, hheld, rfl⟩ := Option.map_eq_some_iff.mp hid
          exact hnames (held.id, server.nodeId) (List.mem_cons_of_mem _
            (List.mem_map.mpr ⟨held, Option.mem_toList.mpr hheld, rfl⟩))

theorem Located.step (hp : Located p) (hnew : DrawsNewIds p l)
    (hstep : serversStep js p l = some p') : Located p' := by
  cases l with
  | start task =>
    obtain ⟨home, place, hp⟩ := hp
    obtain ⟨hstarts, -⟩ := Tasks.step_start hstep
    exact ⟨home, place, hp.start (Task.atHome_of_starts hstarts) hstep⟩
  | turn i reply => exact hp.turn hnew hstep
  | outside event =>
    obtain ⟨home, place, hp⟩ := hp
    obtain ⟨store, hout, rfl⟩ := Tasks.step_outside hstep
    have hservers := (servers_outside hout).1
    cases event with
    | provision allocation =>
      obtain ⟨hfresh, hallocations⟩ := outside_provision hout
      obtain ⟨hrows, htasks⟩ := hnew
      refine ⟨home, Function.update place allocation.id allocation.nodeId, ?_, fun t ht => ?_⟩
      · exact hp.store.provision (a := { allocation with serverId := none }) rfl hfresh hrows
          hservers hallocations
      · obtain ⟨hnames, hsaves⟩ := hp.tasks t ht
        refine ⟨fun named hnamed => ?_, hsaves⟩
        rw [Function.update_of_ne (htasks t ht named hnamed)]
        exact hnames named hnamed
    | edit nodes eggs eggVariables users =>
      obtain ⟨db, hdb, rfl⟩ := Option.map_eq_some_iff.mp hout
      refine ⟨home, place, ?_, hp.tasks⟩
      have htables := Database.ofTables_eq_some hdb
      refine hp.store.congr (fun s hs => ⟨s, hservers ▸ hs, rfl, rfl, rfl⟩) fun a ha => ?_
      dsimp only at ha
      rw [htables] at ha
      exact ⟨a, ha, rfl, rfl, .inr rfl⟩
    | heartbeats online =>
      cases hout
      exact ⟨home, place, hp.store, hp.tasks⟩

end Held

/-- For every database in which servers and allocations are on their nodes, and every run of
the operations whose generated ids are new: of the creates that name one allocation at most one
commits while no server is removed, the others leave the database as it is, and in every state
no two servers hold the same allocation and each server is on the node of its own. -/
theorem create_exclusive (js : Js) (db : Database) (online : List String)
    (labels : List ServersLabel) (hdb : HeldOnce db)
    (hnew : Along (serversStep js) DrawsNewIds (.idle db online) labels) :
    ExclusiveOnCreate js (.idle db online) labels := by
  refine ⟨fun hkeeps => ?_, ?_, ?_⟩
  · have hidle : SavesPresent (.idle db online) := ⟨trivial, fun t ht => by cases ht⟩
    exact (committed_distinct hidle hkeeps).1
  · exact along_of_forall fun l _ p => losesCleanly js p l
  · rintro done ⟨rest, rfl⟩ p' hrun
    obtain ⟨home, place, hhomes⟩ := hdb.homes
    have hidle : Located (.idle db online) := ⟨home, place, hhomes, fun t ht => by cases ht⟩
    obtain ⟨home', place', hp'⟩ := run_invariant (I := Located)
      (fun _ _ _ hp hnew hstep => hp.step hnew hstep) hidle (along_append.mp hnew).1 hrun
    exact hp'.store.heldOnce

/-! ## Two creates for one allocation -/

section Race

/-- A create up to where it is about to insert. -/
def createRun (id : String) : List ServersLabel :=
  .start (.create (.findNode secondServer ⟨id, id, id⟩)) :: List.replicate 7 (.turn 0 .ok)

/-- Two calls pass the check, and both come to their transaction. -/
def raceRun : List ServersLabel := createRun "2" ++ createRun "3" ++ [.turn 0 .ok, .turn 1 .ok]

theorem Database.oneServer_heldOnce (status : Option ServerStatus) :
    HeldOnce (.oneServer status) := by
  constructor
  · intro s hs s' hs' _
    rw [List.mem_singleton.mp hs, List.mem_singleton.mp hs']
  · intro s hs a ha _
    rw [List.mem_singleton.mp hs]
    rcases List.mem_cons.mp ha with rfl | ha
    · rfl
    · rw [List.mem_singleton.mp ha]
      rfl

example : ((committed .plain (.idle (.oneServer none) ["n"]) raceRun).map Server.id) = ["3"] := by
  decide +kernel

theorem create_exclusive_race :
    ExclusiveOnCreate .plain (.idle (.oneServer none) ["n"]) raceRun :=
  create_exclusive .plain _ _ raceRun (Database.oneServer_heldOnce none) (by decide +kernel)

end Race

end Panel
