import NexusPanel.Panel.Entities

/-!
# The panel's database

The tables the servers and their allocations live in, with the constraints of the schema, and
the statements that write `servers` and `allocations`. A database carries the proof of its
constraints, so a statement that would break one is refused: `exec` is the only way to change
the two tables. A transaction is one statement.
-/

namespace Panel

/-- `updates` stands for the column `updatedAt` of `servers`, which TypeORM sets with every
statement that writes columns of a row: the statements that have set it, newest first, each
with the ids of the rows it found. -/
structure Tables where
  nodes : Table Node
  eggs : Table Egg
  eggVariables : Table EggVariable
  users : Table User
  servers : Table Server
  allocations : Table Allocation
  updates : List (List String) := []

namespace Tables

variable (t : Tables)

/-- The column `updatedAt` of the server. No two statements are issued at one time, so time is
counted in statements. -/
def updatedAt (id : String) : Nat := (t.updates.dropWhile fun ids => id ∉ ids).length

/-- A statement that writes columns of the servers `p` holds of. -/
def updateServers (p : Server → Bool) (f : Server → Server)
    (hf : ∀ s, Keyed.key (f s) = Keyed.key s := by intro _; rfl) : Tables :=
  { t with
    servers := t.servers.update p f hf
    updates := (t.servers.find p).map Server.id :: t.updates }

/-- A save of the server. One that is stored as it is needs no statement. -/
def saveServer (server : Server) : Tables :=
  { t with
    servers := t.servers.save server
    updates := if server ∈ t.servers then t.updates else [server.id] :: t.updates }

/-- The unique columns of `servers`. -/
def ServersUnique : Prop :=
  ∀ s ∈ t.servers.rows, ∀ s' ∈ t.servers.rows, s.id ≠ s'.id →
    s.allocationId ≠ s'.allocationId ∧ s.uuidShort ≠ s'.uuidShort ∧
      (s.externalId = none ∨ s.externalId ≠ s'.externalId)

/-- The foreign keys of `servers`. -/
def ServersReference : Prop :=
  ∀ s ∈ t.servers.rows, (∃ u ∈ t.users.rows, u.id = s.userId) ∧
    (∃ n ∈ t.nodes.rows, n.id = s.nodeId) ∧ ∃ e ∈ t.eggs.rows, e.id = s.eggId

/-- The unique columns of `allocations`. -/
def AllocationsUnique : Prop :=
  ∀ a ∈ t.allocations.rows, ∀ a' ∈ t.allocations.rows, a.id ≠ a'.id →
    (a.serverId = none ∨ a.serverId ≠ a'.serverId) ∧
      (a.nodeId, a.ip, a.port) ≠ (a'.nodeId, a'.ip, a'.port)

/-- The foreign keys of `allocations`. -/
def AllocationsReference : Prop :=
  ∀ a ∈ t.allocations.rows, (∃ n ∈ t.nodes.rows, n.id = a.nodeId) ∧
    (a.serverId = none ∨ ∃ s ∈ t.servers.rows, some s.id = a.serverId)

def Constraints : Prop :=
  t.ServersUnique ∧ t.ServersReference ∧ t.AllocationsUnique ∧ t.AllocationsReference

instance : Decidable t.ServersUnique := List.decidableBAll _ _
instance : Decidable t.ServersReference := List.decidableBAll _ _
instance : Decidable t.AllocationsUnique := List.decidableBAll _ _
instance : Decidable t.AllocationsReference := List.decidableBAll _ _
instance : Decidable t.Constraints := inferInstanceAs (Decidable (_ ∧ _))

end Tables

structure Database extends Tables where
  constraints : toTables.Constraints

/-- The columns of `servers` that say how far along a server is. -/
structure Lifecycle where
  installed : Option Int
  status : Option (Option ServerStatus)
deriving DecidableEq, Repr

/-- The columns that are given are set. -/
def Lifecycle.set (c : Lifecycle) (s : Server) : Server :=
  { s with installed := c.installed.getD s.installed, status := c.status.getD s.status }

theorem Lifecycle.set_key (c : Lifecycle) (s : Server) : Keyed.key (c.set s) = Keyed.key s := rfl

/-- The statements issued on `servers` and `allocations`. -/
inductive Statement
  /-- `create`'s transaction: insert the server and assign its allocation. -/
  | createServer (server : Server)
  | updateServer (id : String) (columns : Lifecycle)
  | updateServerByUuid (uuid : String) (columns : Lifecycle)
  /-- `save` of a loaded server: all its columns are written, into a new row when the old
  one is gone. The entity was loaded with its relation `allocation`, so TypeORM writes that as
  well: into the row of the allocation, where the column is. -/
  | saveServer (server : Server) (allocation : Option String)
  | removeServer (id : String)
  | freeAllocation (id : String)
  | removeAllocation (id : String)
  | removeUnassigned (nodeId : String)
deriving DecidableEq, Repr

/-- The allocations a save writes: the one the server was loaded with, or, when it was loaded
with none, the one that is assigned to it by now. -/
def Allocation.writtenWith (server : Server) (allocation : Option String) (a : Allocation) :
    Bool :=
  match allocation with
  | some id => a.id == id
  | none => a.serverId == some server.id

@[simp] theorem Allocation.writtenWith_some {server : Server} {id : String} {a : Allocation} :
    a.writtenWith server (some id) = true ↔ a.id = id := beq_iff_eq

@[simp] theorem Allocation.writtenWith_none {server : Server} {a : Allocation} :
    a.writtenWith server none = true ↔ a.serverId = some server.id := beq_iff_eq

/-- The statement without the constraints; only an insert can fail by itself. -/
def Statement.apply (t : Tables) : Statement → Option Tables
  | .createServer server =>
    (t.servers.insert server).map fun servers =>
      { t with
        servers
        allocations := t.allocations.update (fun a => a.id == server.allocationId)
          fun a => { a with serverId := some server.id }
        updates := [server.id] :: t.updates }
  | .updateServer id columns => some (t.updateServers (fun s => s.id == id) columns.set)
  | .updateServerByUuid uuid columns =>
    some (t.updateServers (fun s => s.uuid == uuid) columns.set)
  | .saveServer server allocation =>
    some { t.saveServer server with
      allocations := t.allocations.update (Allocation.writtenWith server allocation)
        fun a => { a with serverId := allocation.map fun _ => server.id } }
  | .removeServer id => some { t with servers := t.servers.delete fun s => s.id == id }
  | .freeAllocation id =>
    some { t with
      allocations := t.allocations.update (fun a => a.id == id)
        fun a => { a with serverId := none } }
  | .removeAllocation id =>
    some { t with allocations := t.allocations.delete fun a => a.id == id }
  | .removeUnassigned nodeId =>
    some { t with
      allocations := t.allocations.delete fun a => a.nodeId == nodeId && a.serverId.isNone }

namespace Database

/-- Tables that keep the constraints. -/
def ofTables (t : Tables) : Option Database :=
  if h : t.Constraints then some { toTables := t, constraints := h } else none

/-- A statement that would break a constraint is refused. -/
def exec (db : Database) (st : Statement) : Option Database :=
  (st.apply db.toTables).bind ofTables

theorem ofTables_eq_some {t : Tables} {db : Database} (h : ofTables t = some db) :
    db.toTables = t := by
  unfold ofTables at h
  split at h
  next =>
    cases h
    rfl
  next => cases h

theorem exec_eq_some {db db' : Database} {st : Statement} (h : db.exec st = some db') :
    st.apply db.toTables = some db'.toTables := by
  obtain ⟨t, ht, hdb'⟩ := Option.bind_eq_some_iff.mp h
  rw [ht, ofTables_eq_some hdb']

theorem exec_of_constraints {db : Database} {st : Statement} {t : Tables}
    (hst : st.apply db.toTables = some t) (ht : t.Constraints) : ∃ db', db.exec st = some db' := by
  refine ⟨⟨t, ht⟩, ?_⟩
  rw [exec, hst, Option.bind_some, ofTables, dif_pos ht]

variable (db : Database)

/-- The column `allocationId` identifies the server. -/
theorem eq_of_allocationId {s s' : Server} (hs : s ∈ db.servers) (hs' : s' ∈ db.servers)
    (h : s.allocationId = s'.allocationId) : s = s' := by
  by_contra hne
  have hid : s.id ≠ s'.id := fun hid => hne (Table.eq_of_key hs hs' hid)
  exact (db.constraints.1 s hs s' hs' hid).1 h

/-- An assigned allocation is assigned to a server that is there. -/
theorem exists_holder {a : Allocation} (ha : a ∈ db.allocations) {id : String}
    (h : a.serverId = some id) : ∃ s ∈ db.servers, s.id = id := by
  rcases (db.constraints.2.2.2 a ha).2 with hnone | ⟨s, hs, hid⟩
  · rw [hnone] at h
    cases h
  · rw [h] at hid
    exact ⟨s, hs, Option.some.inj hid⟩

end Database

/-- No constraint is about the columns that are set this way. -/
theorem exec_updateServer (db : Database) (id : String) (columns : Lifecycle) :
    ∃ db', db.exec (.updateServer id columns) = some db' := by
  obtain ⟨hunique, hreference, hallocations, hassigned⟩ := db.constraints
  have hset : ∀ x ∈ (db.servers.update (fun s => s.id == id) columns.set).rows,
      ∃ s ∈ db.servers.rows, x = s ∨ x = columns.set s := by
    intro x hx
    obtain ⟨s, hs, rfl⟩ := List.mem_map.mp hx
    refine ⟨s, hs, ?_⟩
    split
    · exact .inr rfl
    · exact .inl rfl
  refine Database.exec_of_constraints rfl ⟨fun x hx y hy hne => ?_, fun x hx => ?_, hallocations,
    fun a ha => ⟨(hassigned a ha).1, (hassigned a ha).2.imp_right ?_⟩⟩
  · obtain ⟨s, hs, rfl | rfl⟩ := hset x hx
    · obtain ⟨s', hs', rfl | rfl⟩ := hset y hy
      · exact hunique x hs y hs' hne
      · exact hunique x hs s' hs' hne
    · obtain ⟨s', hs', rfl | rfl⟩ := hset y hy
      · exact hunique s hs y hs' hne
      · exact hunique s hs s' hs' hne
  · obtain ⟨s, hs, rfl | rfl⟩ := hset x hx
    · exact hreference x hs
    · exact hreference s hs
  · rintro ⟨s, hs, hid⟩
    refine ⟨_, List.mem_map.mpr ⟨s, hs, rfl⟩, ?_⟩
    split <;> exact hid

/-! ## What the statements do to the servers -/

section Servers

variable {db db' : Database} {x : Server}

theorem mem_servers_createServer {server : Server}
    (h : db.exec (.createServer server) = some db') :
    (∀ s ∈ db.servers, s.id ≠ server.id) ∧ (x ∈ db'.servers ↔ x = server ∨ x ∈ db.servers) := by
  obtain ⟨servers, hins, htables⟩ := Option.map_eq_some_iff.mp (Database.exec_eq_some h)
  rw [← htables]
  exact ⟨(Table.insert_eq_some hins).1, (Table.insert_eq_some hins).2 x⟩

theorem mem_servers_updateServer {id : String} {columns : Lifecycle}
    (h : db.exec (.updateServer id columns) = some db') :
    x ∈ db'.servers ↔ ∃ s ∈ db.servers, (if s.id == id then columns.set s else s) = x := by
  rw [← Option.some.inj (Database.exec_eq_some h)]
  exact List.mem_map

theorem mem_servers_updateServerByUuid {uuid : String} {columns : Lifecycle}
    (h : db.exec (.updateServerByUuid uuid columns) = some db') :
    x ∈ db'.servers ↔ ∃ s ∈ db.servers, (if s.uuid == uuid then columns.set s else s) = x := by
  rw [← Option.some.inj (Database.exec_eq_some h)]
  exact List.mem_map

theorem mem_servers_saveServer {server : Server} {allocation : Option String}
    (h : db.exec (.saveServer server allocation) = some db') :
    x ∈ db'.servers ↔ x = server ∨ x ∈ db.servers ∧ x.id ≠ server.id := by
  rw [← Option.some.inj (Database.exec_eq_some h)]
  exact Table.mem_save

theorem mem_servers_removeServer {id : String}
    (h : db.exec (.removeServer id) = some db') :
    x ∈ db'.servers ↔ x ∈ db.servers ∧ x.id ≠ id := by
  rw [← Option.some.inj (Database.exec_eq_some h)]
  refine Table.mem_delete.trans (and_congr_right fun _ => ?_)
  rw [beq_eq_false_iff_ne]

/-- The statements on allocations leave the servers as they are. -/
theorem servers_freeAllocation {id : String}
    (h : db.exec (.freeAllocation id) = some db') : db'.servers = db.servers := by
  rw [← Option.some.inj (Database.exec_eq_some h)]

theorem servers_removeAllocation {id : String}
    (h : db.exec (.removeAllocation id) = some db') : db'.servers = db.servers := by
  rw [← Option.some.inj (Database.exec_eq_some h)]

theorem servers_removeUnassigned {nodeId : String}
    (h : db.exec (.removeUnassigned nodeId) = some db') : db'.servers = db.servers := by
  rw [← Option.some.inj (Database.exec_eq_some h)]

end Servers

/-! ## What the statements do to the allocations -/

section Allocations

variable {db db' : Database} {x : Allocation}

theorem mem_allocations_createServer {server : Server}
    (h : db.exec (.createServer server) = some db') :
    x ∈ db'.allocations ↔ ∃ a ∈ db.allocations,
      (if a.id == server.allocationId then { a with serverId := some server.id } else a) = x := by
  obtain ⟨servers, -, htables⟩ := Option.map_eq_some_iff.mp (Database.exec_eq_some h)
  rw [← htables]
  exact List.mem_map

theorem mem_allocations_saveServer {server : Server} {allocation : Option String}
    (h : db.exec (.saveServer server allocation) = some db') :
    x ∈ db'.allocations ↔ ∃ a ∈ db.allocations,
      (if a.writtenWith server allocation then
        { a with serverId := allocation.map fun _ => server.id } else a) = x := by
  rw [← Option.some.inj (Database.exec_eq_some h)]
  exact List.mem_map

theorem mem_allocations_freeAllocation {id : String}
    (h : db.exec (.freeAllocation id) = some db') :
    x ∈ db'.allocations ↔
      ∃ a ∈ db.allocations, (if a.id == id then { a with serverId := none } else a) = x := by
  rw [← Option.some.inj (Database.exec_eq_some h)]
  exact List.mem_map

theorem mem_allocations_removeAllocation {id : String}
    (h : db.exec (.removeAllocation id) = some db') :
    x ∈ db'.allocations ↔ x ∈ db.allocations ∧ x.id ≠ id := by
  rw [← Option.some.inj (Database.exec_eq_some h)]
  refine Table.mem_delete.trans (and_congr_right fun _ => ?_)
  rw [beq_eq_false_iff_ne]

theorem mem_allocations_removeUnassigned {nodeId : String}
    (h : db.exec (.removeUnassigned nodeId) = some db') :
    x ∈ db'.allocations ↔ x ∈ db.allocations ∧ (x.nodeId ≠ nodeId ∨ x.serverId ≠ none) := by
  rw [← Option.some.inj (Database.exec_eq_some h)]
  refine Table.mem_delete.trans (and_congr_right fun _ => ?_)
  rw [Bool.and_eq_false_iff, beq_eq_false_iff_ne, Option.isNone_eq_false_iff,
    Option.isSome_iff_ne_none]

/-- The statements that set columns of servers leave the allocations as they are. -/
theorem allocations_updateServer {id : String} {columns : Lifecycle}
    (h : db.exec (.updateServer id columns) = some db') : db'.allocations = db.allocations := by
  rw [← Option.some.inj (Database.exec_eq_some h)]
  rfl

theorem allocations_updateServerByUuid {uuid : String} {columns : Lifecycle}
    (h : db.exec (.updateServerByUuid uuid columns) = some db') :
    db'.allocations = db.allocations := by
  rw [← Option.some.inj (Database.exec_eq_some h)]
  rfl

theorem allocations_removeServer {id : String}
    (h : db.exec (.removeServer id) = some db') : db'.allocations = db.allocations := by
  rw [← Option.some.inj (Database.exec_eq_some h)]

end Allocations

/-! ## What the statements do to `updatedAt` -/

section UpdatedAt

variable {db db' : Database}

theorem Tables.updatedAt_le (t : Tables) (id : String) :
    t.updatedAt id ≤ t.updates.length := (List.dropWhile_sublist _).length_le

/-- A statement that finds the row sets its column to a later time. -/
theorem updatedAt_updateServer {s : Server} {columns : Lifecycle} (hs : s ∈ db.servers)
    (h : db.exec (.updateServer s.id columns) = some db') :
    db.updatedAt s.id < db'.updatedAt s.id := by
  have hfound : s.id ∈ (db.servers.find fun x => x.id == s.id).map Server.id :=
    List.mem_map.mpr ⟨s, Table.mem_find.mpr ⟨hs, beq_self_eq_true _⟩, rfl⟩
  rw [← Option.some.inj (Database.exec_eq_some h)]
  simp only [Tables.updateServers, Tables.updatedAt, List.dropWhile_cons, hfound,
    not_true_eq_false, decide_false, Bool.false_eq_true, if_false, List.length_cons]
  exact Nat.lt_succ_of_le (db.toTables.updatedAt_le s.id)

/-- The other rows keep theirs. -/
theorem updatedAt_updateServer_of_ne {id id' : String} {columns : Lifecycle} (hne : id' ≠ id)
    (h : db.exec (.updateServer id columns) = some db') :
    db'.updatedAt id' = db.updatedAt id' := by
  have hunfound : id' ∉ (db.servers.find fun x => x.id == id).map Server.id := by
    rintro hmem
    obtain ⟨x, hx, rfl⟩ := List.mem_map.mp hmem
    exact hne (beq_iff_eq.mp (Table.mem_find.mp hx).2)
  rw [← Option.some.inj (Database.exec_eq_some h)]
  simp only [Tables.updateServers, Tables.updatedAt, List.dropWhile_cons, hunfound,
    not_false_eq_true, decide_true, if_true]

theorem updatedAt_createServer_of_ne {server : Server} {id : String} (hne : id ≠ server.id)
    (h : db.exec (.createServer server) = some db') : db'.updatedAt id = db.updatedAt id := by
  obtain ⟨servers, -, htables⟩ := Option.map_eq_some_iff.mp (Database.exec_eq_some h)
  rw [← htables]
  simp only [Tables.updatedAt, List.dropWhile_cons, List.mem_singleton, hne, not_false_eq_true,
    decide_true, if_true]

end UpdatedAt

end Panel
