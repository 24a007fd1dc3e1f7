import Mathlib.Algebra.BigOperators.Group.List.Basic
import Mathlib.Algebra.Order.BigOperators.Group.List
import NexusPanel.Panel.ServersFlow

/-!
# The capacity of a node

`create` sums up what the servers of its node have and refuses a server there is no room for,
but the sum is old when the server is inserted. `update` sets memory and disk to what it is
given and does not look at the node at all. So the servers of a node fit into it as long as
every insert and every save finds the room it takes, the row it replaces not counted, and no
longer.
-/

namespace Panel

open Transition ServersService

/-- What the servers of the node, but for one, have been given of a resource. -/
def allocatedBesides (db : Database) (nodeId id : String) (resource : Server → Int) : Int :=
  ((db.servers.find fun s => s.nodeId == nodeId && s.id != id).map resource).sum

/-- The servers of the node fit into it, as `create` computes it: what they add up to is an
integer, and the capacity is a double. -/
structure WithinCapacity (node : Node) (db : Database) : Prop where
  memory : (allocated db node.id Server.memory : Rat) ≤
    capacity node.memory node.memoryOverallocate
  disk : (allocated db node.id Server.disk : Rat) ≤ capacity node.disk node.diskOverallocate

/-- There is room on the node for the server in the place of the row with its id. -/
def Fits (node : Node) (db : Database) (server : Server) : Prop :=
  server.nodeId = node.id →
    ((server.memory + allocatedBesides db node.id server.id Server.memory : Int) : Rat) ≤
        capacity node.memory node.memoryOverallocate ∧
      ((server.disk + allocatedBesides db node.id server.id Server.disk : Int) : Rat) ≤
        capacity node.disk node.diskOverallocate

/-- What a statement has to find. -/
def FindsRoom (node : Node) (db : Database) : Statement → Prop
  | .createServer server | .saveServer server _ => Fits node db server
  | _ => True

/-- Every statement that goes through finds room for what it writes. -/
def StatementsFindRoom (node : Node) (p : ServersPool) (l : ServersLabel) : Prop :=
  ∀ st, issued p l = some st → ∀ db', p.store.db.exec st = some db' →
    FindsRoom node p.store.db st

/-! ## Requests past their validators -/

/-- The bounds of `CreateServerDto`. -/
def CreateServerDto.Valid (dto : CreateServerDto) : Prop :=
  64 ≤ dto.memory ∧ 1 ≤ dto.cpu ∧ 256 ≤ dto.disk

/-- The bounds of `UpdateServerDto`. -/
def UpdateServerDto.Valid (dto : UpdateServerDto) : Prop :=
  (∀ memory ∈ dto.memory, 64 ≤ memory) ∧ (∀ cpu ∈ dto.cpu, 1 ≤ cpu) ∧ ∀ disk ∈ dto.disk, 256 ≤ disk

/-- The `ValidationPipe` lets only valid requests through to the services. -/
def Validated : ServersLabel → Prop
  | .start (.create (.findNode dto _)) => dto.Valid
  | .start (.update (.check _ _ dto)) => dto.Valid
  | _ => True

def Server.NonNegative (server : Server) : Prop := 0 ≤ server.memory ∧ 0 ≤ server.disk

/-- An operation in flight carries a valid request, or a row that comes of one. -/
def Task.NonNegative : Task → Prop
  | .create (.findNode dto _) | .create (.checkAvailability dto _ _)
  | .create (.findEgg dto _ _) | .create (.findAllocation dto _ _ _)
  | .create (.findUser dto _ _ _) | .create (.sumCapacity dto _ _ _)
  | .create (.findVariables dto _ _) => dto.Valid
  | .create (.insert server) => server.NonNegative
  | .update (.check _ _ dto) | .update (.load _ dto) => dto.Valid
  | .update (.save server _) => server.NonNegative
  | _ => True

/-! ## Sums over the servers of a node -/

section Sums

variable {db db' : Database} {server : Server} {nodeId id : String} {resource : Server → Int}

/-- A server that takes the place of the row with its id. -/
theorem allocated_write
    (h : db'.servers.rows = server :: db.servers.rows.filter fun s => s.id != server.id) :
    allocated db' nodeId resource =
      (if server.nodeId = nodeId then resource server else 0) +
        allocatedBesides db nodeId server.id resource := by
  simp only [allocated, allocatedBesides, Table.find, h, List.filter_cons, List.filter_filter,
    beq_iff_eq]
  split
  next => rw [List.map_cons, List.sum_cons]
  next => rw [Int.zero_add]

theorem allocated_remove (h : db'.servers.rows = db.servers.rows.filter fun s => s.id != id) :
    allocated db' nodeId resource = allocatedBesides db nodeId id resource := by
  simp only [allocated, allocatedBesides, Table.find, h, List.filter_filter]

/-- Setting columns that have to do with neither the node nor the resource. -/
theorem allocated_map {f : Server → Server} (h : db'.servers.rows = db.servers.rows.map f)
    (hnode : ∀ s, (f s).nodeId = s.nodeId) (hresource : ∀ s, resource (f s) = resource s) :
    allocated db' nodeId resource = allocated db nodeId resource := by
  simp only [allocated, Table.find, h, List.filter_map, List.map_map]
  have hfilter : ((fun s => s.nodeId == nodeId) ∘ f) = fun s : Server => s.nodeId == nodeId := by
    funext s
    simp only [Function.comp_apply, hnode]
  have hmap : resource ∘ f = resource := by
    funext s
    simp only [Function.comp_apply, hresource]
  rw [hfilter, hmap]

theorem allocatedBesides_le (h : ∀ s ∈ db.servers, 0 ≤ resource s) :
    allocatedBesides db nodeId id resource ≤ allocated db nodeId resource := by
  refine List.Sublist.sum_le_sum ?_ fun a ha => ?_
  · refine List.Sublist.map _ (List.monotone_filter_right _ fun s hs => ?_)
    simp only [Bool.and_eq_true] at hs
    exact hs.1
  · obtain ⟨s, hs, rfl⟩ := List.mem_map.mp ha
    exact h s (List.mem_filter.mp hs).1

end Sums

/-! ## One statement -/

section Statements

variable {node : Node} {db db' : Database} {server : Server}

theorem rows_createServer (h : db.exec (.createServer server) = some db') :
    db'.servers.rows = server :: db.servers.rows.filter fun s => s.id != server.id := by
  have hfresh := (mem_servers_createServer (x := server) h).1
  obtain ⟨servers, hins, htables⟩ := Option.map_eq_some_iff.mp (Database.exec_eq_some h)
  rw [← htables, List.filter_eq_self.mpr fun s hs => bne_iff_ne.mpr (hfresh s hs)]
  exact Table.rows_insert hins

theorem rows_saveServer {allocation : Option String}
    (h : db.exec (.saveServer server allocation) = some db') :
    db'.servers.rows = server :: db.servers.rows.filter fun s => s.id != server.id := by
  rw [← Option.some.inj (Database.exec_eq_some h)]
  simp only [Tables.saveServer, Table.save, ne_eq, bne, List.cons.injEq, true_and]
  refine List.filter_congr fun s _ => ?_
  simp [Keyed.key, beq_eq_decide]

/-- Only where its server goes does a write take room. -/
theorem withinCapacity_write (h : WithinCapacity node db)
    (hnonneg : ∀ s ∈ db.servers, s.NonNegative)
    (hrows : db'.servers.rows = server :: db.servers.rows.filter fun s => s.id != server.id) :
    WithinCapacity node db' ↔ Fits node db server := by
  by_cases hnode : server.nodeId = node.id
  · have hmemory : allocated db' node.id Server.memory = _ := allocated_write hrows
    have hdisk : allocated db' node.id Server.disk = _ := allocated_write hrows
    rw [if_pos hnode] at hmemory hdisk
    constructor
    · rintro ⟨hm, hd⟩ -
      rw [hmemory] at hm
      rw [hdisk] at hd
      exact ⟨hm, hd⟩
    · intro hfits
      obtain ⟨hm, hd⟩ := hfits hnode
      rw [← hmemory] at hm
      rw [← hdisk] at hd
      exact ⟨hm, hd⟩
  · refine iff_of_true ?_ fun heq => absurd heq hnode
    have hle (resource : Server → Int) (hpos : ∀ s ∈ db.servers, 0 ≤ resource s) :
        ((allocated db' node.id resource : Int) : Rat) ≤ allocated db node.id resource := by
      rw [allocated_write hrows, if_neg hnode, Int.zero_add, Int.cast_le]
      exact allocatedBesides_le hpos
    exact ⟨(hle _ fun s hs => (hnonneg s hs).1).trans h.memory,
      (hle _ fun s hs => (hnonneg s hs).2).trans h.disk⟩

/-- One statement that goes through keeps the node within its capacity exactly when it finds
room. -/
theorem withinCapacity_exec (h : WithinCapacity node db)
    (hnonneg : ∀ s ∈ db.servers, s.NonNegative) {st : Statement}
    (hexec : db.exec st = some db') : WithinCapacity node db' ↔ FindsRoom node db st := by
  have unchanged (hservers : db'.servers = db.servers) : WithinCapacity node db' := by
    refine ⟨?_, ?_⟩
    · rw [allocated, hservers]
      exact h.memory
    · rw [allocated, hservers]
      exact h.disk
  have columns {q : Server → Bool} {c : Lifecycle}
      (hrows : db'.servers.rows = db.servers.rows.map fun s => if q s then c.set s else s) :
      WithinCapacity node db' := by
    have hmemory : allocated db' node.id Server.memory = allocated db node.id Server.memory :=
      allocated_map hrows (fun s => by split <;> rfl) fun s => by split <;> rfl
    have hdisk : allocated db' node.id Server.disk = allocated db node.id Server.disk :=
      allocated_map hrows (fun s => by split <;> rfl) fun s => by split <;> rfl
    refine ⟨?_, ?_⟩
    · rw [hmemory]
      exact h.memory
    · rw [hdisk]
      exact h.disk
  cases st with
  | createServer server => exact withinCapacity_write h hnonneg (rows_createServer hexec)
  | saveServer server allocation => exact withinCapacity_write h hnonneg (rows_saveServer hexec)
  | updateServer id c =>
    refine iff_of_true (columns (q := fun s => s.id == id) (c := c) ?_) trivial
    rw [← Option.some.inj (Database.exec_eq_some hexec)]
    rfl
  | updateServerByUuid uuid c =>
    refine iff_of_true (columns (q := fun s => s.uuid == uuid) (c := c) ?_) trivial
    rw [← Option.some.inj (Database.exec_eq_some hexec)]
    rfl
  | removeServer id =>
    refine iff_of_true ?_ trivial
    have hrows : db'.servers.rows = db.servers.rows.filter fun s => s.id != id := by
      rw [← Option.some.inj (Database.exec_eq_some hexec)]
      rfl
    have hle (resource : Server → Int) (hpos : ∀ s ∈ db.servers, 0 ≤ resource s) :
        ((allocated db' node.id resource : Int) : Rat) ≤ allocated db node.id resource := by
      rw [allocated_remove hrows, Int.cast_le]
      exact allocatedBesides_le hpos
    exact ⟨(hle _ fun s hs => (hnonneg s hs).1).trans h.memory,
      (hle _ fun s hs => (hnonneg s hs).2).trans h.disk⟩
  | freeAllocation id => exact iff_of_true (unchanged (servers_freeAllocation hexec)) trivial
  | removeAllocation id => exact iff_of_true (unchanged (servers_removeAllocation hexec)) trivial
  | removeUnassigned id => exact iff_of_true (unchanged (servers_removeUnassigned hexec)) trivial

end Statements

/-! ## Operations in flight -/

section Steps

variable {js : Js} {node : Node} {p p' : ServersPool} {l : ServersLabel}

/-- A turn goes on with a valid request, or with a row that comes of one. -/
theorem Task.nonNegative_next {q : ServersState} {reply : Settled} {task t : Task}
    (hrows : ∀ s ∈ q.db.servers, s.NonNegative) (htask : task.NonNegative)
    (hnext : (task.turn js q reply).next = some t) : t.NonNegative := by
  cases task with
  | create task =>
    obtain ⟨x, hx, rfl⟩ := Option.map_eq_some_iff.mp hnext
    have hfollows := task.goesOn js x hx
    cases task with
    | findNode dto gen =>
      obtain ⟨node, -, -, -, rfl⟩ := hfollows
      exact htask
    | checkAvailability dto gen node =>
      cases hfollows
      exact htask
    | findEgg dto gen node =>
      obtain ⟨egg, -, -, rfl⟩ := hfollows
      exact htask
    | findAllocation dto gen node egg =>
      obtain ⟨a, -, -, -, -, rfl⟩ := hfollows
      exact htask
    | findUser dto gen node egg =>
      obtain ⟨user, -, -, rfl⟩ := hfollows
      exact htask
    | sumCapacity dto gen node egg =>
      obtain ⟨-, -, rfl⟩ := hfollows
      exact htask
    | findVariables dto gen egg =>
      obtain ⟨startup, image, env, rfl⟩ := hfollows
      obtain ⟨hmemory, -, hdisk⟩ := htask
      exact ⟨le_trans (by decide) hmemory, le_trans (by decide) hdisk⟩
    | insert server =>
      cases hfollows
      trivial
    | load id =>
      rcases hfollows with ⟨_, _, _, _, _, _, _, _, rfl⟩ | ⟨_, rfl⟩
      · trivial
      · trivial
    | wings server config script image =>
      obtain ⟨message, rfl⟩ := hfollows
      trivial
    | markFailed id message => cases hfollows
  | update task =>
    obtain ⟨x, hx, rfl⟩ := Option.map_eq_some_iff.mp hnext
    have hfollows := task.goesOn x hx
    cases task with
    | check uuid user dto =>
      obtain ⟨server, -, -, -, rfl⟩ := hfollows
      exact htask
    | load uuid dto =>
      obtain ⟨server, hserver, -, rfl⟩ := hfollows
      obtain ⟨hmemory, -, hdisk⟩ := htask
      obtain ⟨hm, hd⟩ := hrows server hserver
      refine ⟨?_, ?_⟩
      · show 0 ≤ dto.memory.getD server.memory
        cases hdto : dto.memory with
        | none => exact hm
        | some memory => exact le_trans (by decide) (hmemory memory hdto)
      · show 0 ≤ dto.disk.getD server.disk
        cases hdto : dto.disk with
        | none => exact hd
        | some disk => exact le_trans (by decide) (hdisk disk hdto)
    | save server allocation => cases hfollows
  | delete task | power task | suspend task | unsuspend task | reinstall task | callback task
  | event task | gateway task | allocation task =>
    obtain ⟨x, -, rfl⟩ := Option.map_eq_some_iff.mp hnext
    trivial

/-- A request past its validators, or what does not begin with one. -/
theorem Task.nonNegative_of_validated {task : Task} (hstarts : task.starts = true)
    (h : Validated (.start task)) : task.NonNegative := by
  unfold Task.starts at hstarts
  split at hstarts
  all_goals first | exact h | trivial

/-- A statement of an operation that carries valid values writes valid rows. -/
theorem nonNegative_exec {db db' : Database} {task : Task} {st : Statement}
    (hrows : ∀ s ∈ db.servers, s.NonNegative) (htask : task.NonNegative)
    (hst : task.statement = some st) (hexec : db.exec st = some db') :
    ∀ s ∈ db'.servers, s.NonNegative := by
  intro s hs
  cases st with
  | createServer server =>
    rcases (mem_servers_createServer hexec).2.mp hs with rfl | hs
    · unfold Task.statement at hst
      split at hst
      all_goals first | (cases hst; exact htask) | cases hst
    · exact hrows s hs
  | saveServer server allocation =>
    rcases (mem_servers_saveServer hexec).mp hs with rfl | ⟨hs, -⟩
    · unfold Task.statement at hst
      split at hst
      all_goals first | (cases hst; exact htask) | cases hst
    · exact hrows s hs
  | updateServer id c =>
    obtain ⟨x, hx, rfl⟩ := (mem_servers_updateServer hexec).mp hs
    split <;> exact hrows x hx
  | updateServerByUuid uuid c =>
    obtain ⟨x, hx, rfl⟩ := (mem_servers_updateServerByUuid hexec).mp hs
    split <;> exact hrows x hx
  | removeServer id => exact hrows s ((mem_servers_removeServer hexec).mp hs).1
  | freeAllocation id => exact hrows s (servers_freeAllocation hexec ▸ hs)
  | removeAllocation id => exact hrows s (servers_removeAllocation hexec ▸ hs)
  | removeUnassigned id => exact hrows s (servers_removeUnassigned hexec ▸ hs)

/-- What the operations in flight and the rows come of. -/
def AllNonNegative : ServersPool → Prop :=
  Pool.Holds (fun q => ∀ s ∈ q.db.servers, s.NonNegative) fun _ t => t.NonNegative

theorem AllNonNegative.step (hp : AllNonNegative p) (hvalid : Validated l)
    (hstep : serversStep js p l = some p') : AllNonNegative p' := by
  have hrows : ∀ s ∈ p'.store.db.servers, s.NonNegative := by
    cases serversStep_changes hstep with
    | executed st hst hexec =>
      obtain ⟨i, task, -, htask, hst⟩ := issued_eq_some hst
      exact nonNegative_exec hp.store (hp.tasks task (List.mem_of_getElem? htask)) hst hexec
    | quiet _ hservers _ | provisioned _ _ _ _ hservers _ =>
      intro s hs
      exact hp.store s (hservers ▸ hs)
  refine ⟨hrows, ?_⟩
  cases l with
  | start task =>
    obtain ⟨hstarts, rfl⟩ := Tasks.step_start hstep
    intro t ht
    rcases List.mem_cons.mp ht with rfl | ht
    · exact Task.nonNegative_of_validated hstarts hvalid
    · exact hp.tasks t ht
  | turn i reply =>
    obtain ⟨task, htask, rfl⟩ := Tasks.step_turn hstep
    intro t ht
    rcases List.mem_append.mp ht with ht | ht
    · exact Task.nonNegative_next hp.store (hp.tasks task (List.mem_of_getElem? htask))
        (Option.mem_toList.mp ht)
    · exact hp.tasks t (List.mem_of_mem_eraseIdx ht)
  | outside event =>
    obtain ⟨store, -, rfl⟩ := Tasks.step_outside hstep
    exact hp.tasks

/-- One step. -/
theorem withinCapacity_step (h : WithinCapacity node p.store.db) (hp : AllNonNegative p)
    (hstep : serversStep js p l = some p') :
    WithinCapacity node p'.store.db ↔ StatementsFindRoom node p l := by
  cases serversStep_changes hstep with
  | executed st hst hexec =>
    rw [withinCapacity_exec h hp.store hexec]
    constructor
    · intro hroom st' hst' _ _
      cases hst.symm.trans hst'
      exact hroom
    · exact fun hroom => hroom st hst _ hexec
  | quiet hst hservers _ =>
    refine iff_of_true ⟨?_, ?_⟩ fun st hissued db' hexec => ?_
    · rw [allocated, hservers]
      exact h.memory
    · rw [allocated, hservers]
      exact h.disk
    · rw [hst st hissued] at hexec
      cases hexec
  | provisioned hst a hfree hfresh hservers _ =>
    refine iff_of_true ⟨?_, ?_⟩ fun st hissued => by cases hst.symm.trans hissued
    · rw [allocated, hservers]
      exact h.memory
    · rw [allocated, hservers]
      exact h.disk

end Steps

/-- For every node with the settings it keeps, every database in which its servers fit into it
and no resource is negative, and every run of requests past their validators: the servers of
the node fit into it in every state of the run if and only if every insert and every save that
goes through finds room for what it writes. -/
theorem withinCapacity_iff (js : Js) (node : Node) (db : Database) (online : List String)
    (labels : List ServersLabel) (hfits : WithinCapacity node db)
    (hrows : ∀ s ∈ db.servers, s.NonNegative) (hvalid : ∀ l ∈ labels, Validated l) :
    (∀ done, done <+: labels → ∀ p', run (serversStep js) (.idle db online) done = some p' →
      WithinCapacity node p'.store.db) ↔
    Along (serversStep js) (StatementsFindRoom node) (.idle db online) labels := by
  have hinitial : AllNonNegative (.idle db online) := ⟨hrows, fun t ht => by cases ht⟩
  refine property_iff_along_under (E := fun _ l => Validated l)
    (I := fun q => WithinCapacity node q.store.db ∧ AllNonNegative q) (fun _ h => h.1)
    (fun q l q' hq hl hroom hstep => ?_) (fun q l q' hq _ hstep hfits' => ?_)
    (fun q l hstuck => ?_) ⟨hfits, hinitial⟩
    (along_of_forall fun l hl _ => hvalid l hl)
  · exact ⟨(withinCapacity_step hq.1 hq.2 hstep).mpr hroom, hq.2.step hl hstep⟩
  · exact (withinCapacity_step hq.1 hq.2 hstep).mp hfits'
  · intro st hst
    rw [issued_of_stuck hstuck] at hst
    cases hst

/-! ## An update that takes more than there is -/

section Counterexample

def biggerServer (memory : Int) : UpdateServerDto :=
  { name := none, description := none, memory := some memory, cpu := none, disk := none
    envVariables := none, swap := none, io := none, threads := none, oomDisabled := none
    startup := none, image := none, externalId := none }

/-- The owner asks for that much memory. -/
def growingRun (memory : Int) : List ServersLabel :=
  [.start (.update (.check "u" ⟨"owner", "owner@nexus.local", false⟩ (biggerServer memory))),
    .turn 0 .ok, .turn 0 .ok, .turn 0 .ok]

def smallNode : Node := ⟨"n", 4096, 0, 4096, 0⟩

theorem smallNode_capacity : capacity 4096 0 = 4096 := by
  exact_mod_cast capacity_zero (by norm_num)

theorem Database.oneServer_fits : WithinCapacity smallNode (.oneServer none) := by
  have hmemory : allocated (.oneServer none) smallNode.id Server.memory = 1024 := rfl
  have hdisk : allocated (.oneServer none) smallNode.id Server.disk = 1024 := rfl
  constructor
  · rw [hmemory]
    norm_num [smallNode, smallNode_capacity]
  · rw [hdisk]
    norm_num [smallNode, smallNode_capacity]

theorem Database.oneServer_nonNegative (status : Option ServerStatus) :
    ∀ s ∈ (Database.oneServer status).servers, s.NonNegative := by
  intro s hs
  rw [List.mem_singleton.mp hs]
  exact ⟨show (0 : Int) ≤ 1024 by decide, show (0 : Int) ≤ 1024 by decide⟩

theorem growingRun_valid {memory : Int} (h : 64 ≤ memory) :
    ∀ l ∈ growingRun memory, Validated l := by
  intro l hl
  rcases List.mem_cons.mp hl with rfl | hl
  · exact ⟨fun m hm => by cases hm; exact h, fun _ h => (nomatch h), fun _ h => (nomatch h)⟩
  · rcases List.mem_cons.mp hl with rfl | hl
    · trivial
    · rcases List.mem_cons.mp hl with rfl | hl
      · trivial
      · rw [List.mem_singleton.mp hl]
        trivial

/-- Twice as much as before still fits. -/
theorem withinCapacity_doubled :
    Always (serversStep .plain) (fun _ p' => WithinCapacity smallNode p'.store.db)
      (.idle (.oneServer none) []) (growingRun 2048) := by
  refine (withinCapacity_iff .plain smallNode (.oneServer none) [] (growingRun 2048)
    Database.oneServer_fits (Database.oneServer_nonNegative none)
    (growingRun_valid (by decide))).mpr ?_
  refine ⟨fun st hst => (nomatch hst), fun p₁ h₁ => ⟨fun st hst => ?_, fun p₂ h₂ =>
    ⟨fun st hst => ?_, fun p₃ h₃ => ⟨fun st hst db' hexec => ?_, fun _ _ => trivial⟩⟩⟩⟩
  · cases h₁
    cases hst
  · cases h₁
    cases h₂
    cases hst
  · cases h₁
    cases h₂
    cases h₃
    cases hst
    intro _
    constructor
    · change ((2048 : Int) : Rat) ≤ capacity 4096 0
      norm_num [smallNode_capacity]
    · change ((1024 : Int) : Rat) ≤ capacity 4096 0
      norm_num [smallNode_capacity]

/-- `update` asks nobody: the server gets twice what the node has. -/
theorem capacity_exceeded :
    ¬ ∀ done, done <+: growingRun 8192 →
      ∀ p', run (serversStep .plain) (.idle (.oneServer none) []) done = some p' →
        WithinCapacity smallNode p'.store.db := by
  intro h
  have hfits := (h (growingRun 8192) List.prefix_rfl _ rfl).memory
  change ((8192 : Int) : Rat) ≤ capacity 4096 0 at hfits
  norm_num [smallNode_capacity] at hfits

end Counterexample

end Panel
