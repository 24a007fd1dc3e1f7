import NexusPanel.Foundation.Fallible
import NexusPanel.Panel.ServersSystem

/-!
# Deleting nodes and users

The foreign keys of `servers` cascade: with a node or a user go its servers, and with a node its
allocations. Nobody tells Wings then. Four routes delete such a row. The two of the administrator
count the servers first, the others do not.

What a cascade may leave behind is decided by one column. The foreign key `allocations.serverId`
does not cascade, so an allocation that stays and is assigned to a server that goes makes the
database refuse the whole statement.
-/

namespace Panel

open Fallible

/-! ## The cascade -/

/-- What is deleted. -/
inductive Target
  | node
  | user
deriving DecidableEq, Repr

namespace Target

/-- The row a server hangs on. -/
def ofServer : Target → Server → String
  | .node, s => s.nodeId
  | .user, s => s.userId

/-- The row an allocation hangs on. -/
def ofAllocation : Target → Allocation → Option String
  | .node, a => some a.nodeId
  | .user, _ => none

/-- The row is there. -/
def Has : Target → Tables → String → Prop
  | .node, t, id => ∃ n ∈ t.nodes, n.id = id
  | .user, t, id => ∃ u ∈ t.users, u.id = id

end Target

/-- The tables without the row and without everything that hangs on it. -/
def Tables.cascade (t : Tables) (id : String) : Target → Tables
  | .node =>
    { t with
      nodes := t.nodes.delete fun n => n.id == id
      servers := t.servers.delete fun s => s.nodeId == id
      allocations := t.allocations.delete fun a => a.nodeId == id }
  | .user =>
    { t with
      users := t.users.delete fun u => u.id == id
      servers := t.servers.delete fun s => s.userId == id }

/-- `remove` of a loaded row; refused when a row that stays would refer to one that goes. -/
def Database.cascade (db : Database) (id : String) (target : Target) : Option Database :=
  ofTables (db.toTables.cascade id target)

section Cascade

variable {t : Tables} {id : String} {target : Target}

@[simp] theorem mem_servers_cascade {s : Server} :
    s ∈ (t.cascade id target).servers ↔ s ∈ t.servers ∧ target.ofServer s ≠ id := by
  cases target
  all_goals
    refine Table.mem_delete.trans (and_congr_right fun _ => ?_)
    exact beq_eq_false_iff_ne

@[simp] theorem mem_allocations_cascade {a : Allocation} :
    a ∈ (t.cascade id target).allocations ↔
      a ∈ t.allocations ∧ target.ofAllocation a ≠ some id := by
  cases target with
  | node =>
    refine Table.mem_delete.trans (and_congr_right fun _ => beq_eq_false_iff_ne.trans ?_)
    simp [Target.ofAllocation]
  | user => simp [Tables.cascade, Target.ofAllocation]

theorem mem_nodes_cascade {n : Node} :
    n ∈ (t.cascade id target).nodes ↔ n ∈ t.nodes ∧ (target = .node → n.id ≠ id) := by
  cases target with
  | node =>
    refine Table.mem_delete.trans (and_congr_right fun _ => beq_eq_false_iff_ne.trans ?_)
    simp
  | user => simp [Tables.cascade]

theorem mem_users_cascade {u : User} :
    u ∈ (t.cascade id target).users ↔ u ∈ t.users ∧ (target = .user → u.id ≠ id) := by
  cases target with
  | node => simp [Tables.cascade]
  | user =>
    refine Table.mem_delete.trans (and_congr_right fun _ => beq_eq_false_iff_ne.trans ?_)
    simp

theorem eggs_cascade : (t.cascade id target).eggs = t.eggs := by
  cases target <;> rfl

/-- An allocation that stays is assigned to a server that goes. -/
def Tables.Pinned (t : Tables) (id : String) (target : Target) : Prop :=
  ∃ a ∈ t.allocations, target.ofAllocation a ≠ some id ∧
    ∃ s ∈ t.servers, target.ofServer s = id ∧ a.serverId = some s.id

/-- Nothing but such an allocation makes the database refuse. -/
theorem Database.constraints_cascade (db : Database) :
    (db.toTables.cascade id target).Constraints ↔ ¬ db.Pinned id target := by
  obtain ⟨hunique, hreference, haunique, hareference⟩ := db.constraints
  constructor
  · rintro ⟨-, -, -, hkept⟩ ⟨a, ha, hstays, s, hs, hgoes, hassigned⟩
    rcases (hkept a (mem_allocations_cascade.mpr ⟨ha, hstays⟩)).2 with hnone | ⟨s', hs', hid⟩
    · rw [hassigned] at hnone
      cases hnone
    · obtain ⟨hold, hne⟩ := mem_servers_cascade.mp hs'
      rw [hassigned, Option.some.injEq] at hid
      rw [Table.eq_of_key hold hs hid] at hne
      exact hne hgoes
  · intro hpinned
    refine ⟨fun s hs s' hs' => ?_, fun s hs => ?_, fun a ha a' ha' => ?_, fun a ha => ?_⟩
    · exact hunique s (mem_servers_cascade.mp hs).1 s' (mem_servers_cascade.mp hs').1
    · obtain ⟨hold, hne⟩ := mem_servers_cascade.mp hs
      obtain ⟨⟨u, hu, huser⟩, ⟨n, hn, hnode⟩, hegg⟩ := hreference s hold
      refine ⟨⟨u, mem_users_cascade.mpr ⟨hu, ?_⟩, huser⟩,
        ⟨n, mem_nodes_cascade.mpr ⟨hn, ?_⟩, hnode⟩, by rwa [eggs_cascade]⟩
      · rintro rfl hid
        exact hne (huser.symm.trans hid)
      · rintro rfl hid
        exact hne (hnode.symm.trans hid)
    · exact haunique a (mem_allocations_cascade.mp ha).1 a' (mem_allocations_cascade.mp ha').1
    · obtain ⟨hold, hne⟩ := mem_allocations_cascade.mp ha
      obtain ⟨⟨n, hn, hnode⟩, hassigned⟩ := hareference a hold
      refine ⟨⟨n, mem_nodes_cascade.mpr ⟨hn, ?_⟩, hnode⟩, hassigned.imp_right ?_⟩
      · rintro rfl hid
        exact hne (congrArg some (hnode.symm.trans hid))
      · rintro ⟨s, hs, hid⟩
        refine ⟨s, mem_servers_cascade.mpr ⟨hs, fun hgoes => ?_⟩, hid⟩
        exact hpinned ⟨a, hold, hne, s, hs, hgoes, hid.symm⟩

theorem Database.cascade_eq_some {db db' : Database} (h : db.cascade id target = some db') :
    db'.toTables = db.toTables.cascade id target := ofTables_eq_some h

/-- The statement goes through unless an allocation pins one of the servers. -/
theorem Database.exists_cascade {db : Database} :
    (∃ db', db.cascade id target = some db') ↔ ¬ db.Pinned id target := by
  rw [← db.constraints_cascade]
  constructor
  · rintro ⟨db', h⟩
    rw [← cascade_eq_some h]
    exact db'.constraints
  · intro h
    exact ⟨⟨_, h⟩, dif_pos h⟩

end Cascade

/-! ## The routes -/

/-- The database as each statement of a request finds it; other requests go on in between. -/
structure Moments where
  counted : Database
  found : Database
  removed : Database

section Handlers

variable (m : Moments) (id : String)

/-- `NodesService.delete`. -/
def NodesService.delete : Except HttpException Database := do
  let node ← orThrow (m.found.nodes.findOne fun n => n.id == id) (.notFound "Node not found")
  orThrow (m.removed.cascade node.id .node) (.internal "violates foreign key constraint")

/-- `AdminNodesController.delete`. -/
def AdminNodesController.delete : Except HttpException Database := do
  let serverCount := (m.counted.servers.find fun s => s.nodeId == id).length
  require (serverCount == 0) (.badRequest
    s!"Cannot delete node: {serverCount} server(s) are still assigned to it")
  NodesService.delete m id

/-- `UsersController.delete`, which is `UsersService.delete`. -/
def UsersController.delete : Except HttpException Database := do
  let user ← orThrow (m.found.users.findOne fun u => u.id == id) (.notFound "User not found")
  orThrow (m.removed.cascade user.id .user) (.internal "violates foreign key constraint")

/-- `AdminUsersController.delete`: the user is loaded before the servers are counted. -/
def AdminUsersController.delete : Except HttpException Database := do
  let user ← orThrow (m.found.users.findOne fun u => u.id == id) (.badRequest "User not found")
  let serverCount := (m.counted.servers.find fun s => s.userId == id).length
  require (serverCount == 0) (.badRequest
    s!"Cannot delete user: {serverCount} server(s) are still owned by this user")
  orThrow (m.removed.cascade user.id .user) (.internal "violates foreign key constraint")

end Handlers

inductive DeleteRoute
  | nodes
  | adminNodes
  | users
  | adminUsers
deriving DecidableEq, Repr

namespace DeleteRoute

def target : DeleteRoute → Target
  | .nodes | .adminNodes => .node
  | .users | .adminUsers => .user

/-- The route counts the servers. -/
def counts : DeleteRoute → Bool
  | .nodes | .users => false
  | .adminNodes | .adminUsers => true

def handle (m : Moments) (id : String) : DeleteRoute → Except HttpException Database
  | .nodes => NodesService.delete m id
  | .adminNodes => AdminNodesController.delete m id
  | .users => UsersController.delete m id
  | .adminUsers => AdminUsersController.delete m id

variable {m : Moments} {id : String}

theorem count_eq_zero {q : Server → Bool} {db : Database} :
    ((db.servers.find q).length == 0) = true ↔ ∀ s ∈ db.servers, q s = false := by
  rw [beq_iff_eq, List.length_eq_zero_iff, List.eq_nil_iff_forall_not_mem]
  refine forall_congr' fun s => ?_
  rw [Table.mem_find, not_and, Bool.not_eq_true]

/-- A route goes through when its count finds no servers, its lookup finds the row and the
statement is not refused. -/
theorem handle_eq_ok (route : DeleteRoute) {after : Database} :
    route.handle m id = .ok after ↔
      (route.counts = true → ∀ s ∈ m.counted.servers, route.target.ofServer s ≠ id) ∧
        route.target.Has m.found.toTables id ∧ m.removed.cascade id route.target = some after := by
  cases route with
  | nodes =>
    simp only [handle, NodesService.delete, counts, Bool.false_eq_true, false_implies, true_and,
      bind_eq_ok, orThrow_eq_ok]
    exact Table.findOne_key (t := m.found.nodes) (P := fun k => m.removed.cascade k .node = some after)
  | adminNodes =>
    simp only [handle, AdminNodesController.delete, NodesService.delete, counts, true_implies,
      bind_eq_ok, orThrow_eq_ok, require_eq_ok, exists_const, count_eq_zero, beq_eq_false_iff_ne]
    refine and_congr_right fun _ => ?_
    exact Table.findOne_key (t := m.found.nodes) (P := fun k => m.removed.cascade k .node = some after)
  | users =>
    simp only [handle, UsersController.delete, counts, Bool.false_eq_true, false_implies, true_and,
      bind_eq_ok, orThrow_eq_ok]
    exact Table.findOne_key (t := m.found.users) (P := fun k => m.removed.cascade k .user = some after)
  | adminUsers =>
    simp only [handle, AdminUsersController.delete, counts, true_implies, bind_eq_ok, orThrow_eq_ok,
      require_eq_ok, exists_const, count_eq_zero, beq_eq_false_iff_ne]
    rw [and_left_comm]
    exact Table.findOne_key (t := m.found.users) (P := fun k =>
      (∀ s ∈ m.counted.servers, s.userId ≠ id) ∧ m.removed.cascade k .user = some after)

end DeleteRoute

/-! ## When servers go with the row -/

/-- A row that goes has no servers at that moment, and no server goes with it. -/
def TakesNoServer (m : Moments) (id : String) (route : DeleteRoute) : Prop :=
  ∀ after, route.handle m id = .ok after →
    (∀ s ∈ m.removed.servers, route.target.ofServer s ≠ id) ∧
      ∀ s ∈ m.removed.servers, s ∈ after.servers

/-- The route comes past its checks although servers are there when the row goes, and the
database does not mind. -/
structure Overlooks (m : Moments) (id : String) (route : DeleteRoute) : Prop where
  found : route.target.Has m.found.toTables id
  uncounted : route.counts = true → ∀ s ∈ m.counted.servers, route.target.ofServer s ≠ id
  assigned : ∃ s ∈ m.removed.servers, route.target.ofServer s = id
  unpinned : ¬ m.removed.Pinned id route.target

variable {m : Moments} {id : String} {route : DeleteRoute}

theorem takesNoServer_iff (m : Moments) (id : String) (route : DeleteRoute) :
    TakesNoServer m id route ↔ ¬ Overlooks m id route := by
  constructor
  · rintro hkeeps ⟨hfound, huncounted, ⟨s, hs, hassigned⟩, hunpinned⟩
    obtain ⟨after, hafter⟩ := Database.exists_cascade.mpr hunpinned
    have hok := (route.handle_eq_ok).mpr ⟨huncounted, hfound, hafter⟩
    exact (hkeeps after hok).1 s hs hassigned
  · intro hsafe after hok
    obtain ⟨huncounted, hfound, hafter⟩ := route.handle_eq_ok.mp hok
    have hnone : ∀ s ∈ m.removed.servers, route.target.ofServer s ≠ id := by
      intro s hs hassigned
      exact hsafe ⟨hfound, huncounted, ⟨s, hs, hassigned⟩, Database.exists_cascade.mp ⟨after, hafter⟩⟩
    refine ⟨hnone, fun s hs => ?_⟩
    rw [Database.cascade_eq_some hafter, mem_servers_cascade]
    exact ⟨hs, hnone s hs⟩

/-- A route that counts overlooks only servers that have come since. -/
theorem Overlooks.arrived (h : Overlooks m id route) (hcounts : route.counts = true) :
    ∃ s ∈ m.removed.servers, route.target.ofServer s = id ∧ s ∉ m.counted.servers := by
  obtain ⟨s, hs, hassigned⟩ := h.assigned
  exact ⟨s, hs, hassigned, fun hcounted => h.uncounted hcounts s hcounted hassigned⟩

/-- `DELETE /nodes/n` of the node on which the server of `oneServer` runs. -/
theorem node_takes_its_server :
    ¬ ∀ (m : Moments) (id : String) (route : DeleteRoute), TakesNoServer m id route := by
  intro h
  let db := Database.oneServer none
  have hgone : ((DeleteRoute.nodes.handle ⟨db, db, db⟩ "n").map fun after =>
      after.servers.rows).toOption = some [] := by decide +kernel
  cases hrun : DeleteRoute.nodes.handle ⟨db, db, db⟩ "n" with
  | error e =>
    rw [hrun] at hgone
    cases hgone
  | ok after => exact (h ⟨db, db, db⟩ "n" .nodes after hrun).1 _ List.mem_cons_self rfl

end Panel
