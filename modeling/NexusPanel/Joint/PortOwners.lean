import NexusPanel.Joint.PortBinding
import NexusPanel.Wings.GameContainers

/-!
# The containers on a port

The panel says whose an allocation is, and Docker what runs on its port. The two are kept together
by nothing but the order in which the panel and Wings are told: `delete` frees an allocation
whether or not Wings has removed the container, and Wings makes a container of what it is sent
whether or not the server is still there.

In every state of a run a port is used by the container of the server that the panel shows, as
long as each step finds what it relies on (`KeepsPorts`). The property is its own invariant: a
step of the panel that writes an owner leaves those of ports in use alone, and a call to Wings
writes nothing and brings one container at most.
-/

namespace Joint

open Panel Wings Transition

/-! ## States and steps -/

/-- The container is bound to the port on the host. -/
def Publishes (c : Container) (port : Nat) : Prop := "0.0.0.0:" ++ toString port ∈ hostPorts c.spec

instance (c : Container) (port : Nat) : Decidable (Publishes c port) :=
  inferInstanceAs (Decidable (_ ∈ hostPorts c.spec))

/-- The panel and its daemons, and the containers of game servers on each node. -/
structure Fleet where
  system : State
  containers : String → List Container

namespace Fleet

def db (f : Fleet) : Database := f.system.panel.store.db

/-- No container is on the port of the allocation. -/
def Unused (f : Fleet) (a : Allocation) : Prop :=
  ∀ c ∈ f.containers a.nodeId, ¬ Publishes c a.port

instance (f : Fleet) (a : Allocation) : Decidable (f.Unused a) := List.decidableBAll _ _

/-- The call with which the step reaches a daemon. -/
def reaches (f : Fleet) : Label → Option WingsCall
  | .panel (.turn i reply) reached =>
    if reply = .ok ∨ reached = true then f.system.panel.tasks[i]?.bind Task.call else none
  | _ => none

/-- The statement that the step issues. -/
def issues (f : Fleet) : Label → Option Statement
  | .panel l _ => issued f.system.panel l
  | _ => none

/-- The containers after the step. -/
def next (serde : Serde) (f : Fleet) (l : Label) : String → List Container :=
  match f.reaches l with
  | some c => Function.update f.containers (nodeOf c)
    ((request c).containersAfter serde (f.system.wings (nodeOf c)) (f.containers (nodeOf c)))
  | none => f.containers

def step (serde : Serde) (js : Js) (f : Fleet) (l : Label) : Option Fleet :=
  (Joint.step serde js f.system l).map fun system => ⟨system, f.next serde l⟩

end Fleet

/-! ## Whose a port is -/

/-- The port of an allocation is used by the container of one server at most, and that is the one
the panel shows as its owner. -/
structure PortsOwned (f : Fleet) : Prop where
  one : ∀ a ∈ f.db.allocations, ∀ c ∈ f.containers a.nodeId, ∀ c' ∈ f.containers a.nodeId,
    Publishes c a.port → Publishes c' a.port → c.server = c'.server
  owner : ∀ a ∈ f.db.allocations, ∀ c ∈ f.containers a.nodeId, Publishes c a.port →
    ∃ row ∈ f.db.servers, a.serverId = some row.id ∧ c.server = some row.uuid

/-- The statement writes another owner into the allocation. -/
def takes (a : Allocation) : Statement → Bool
  | .createServer server => a.id == server.allocationId
  | .saveServer server allocation =>
    a.writtenWith server allocation && a.serverId != allocation.map fun _ => server.id
  | .freeAllocation id => a.id == id
  | _ => false

/-- The uuid of the row that the statement writes over stays as it is. -/
def SameUuid (db : Database) : Statement → Prop
  | .saveServer server _ => ∀ row ∈ db.servers, row.id = server.id → row.uuid = server.uuid
  | _ => True

/-- The allocation that a step brings in. -/
def Label.provisions : Label → Option Allocation
  | .panel (.outside (.provision a)) _ => some a
  | _ => none

/-- Every allocation of the node with a port of the configuration is assigned to its server. -/
def OwnsPorts (db : Database) (node : String) (config : Wings.ServerConfig) : Prop :=
  ∀ a ∈ db.allocations, a.nodeId = node → Publishes (.ofConfig config) a.port →
    ∃ row ∈ db.servers, a.serverId = some row.id ∧ row.uuid = config.uuid

/-- What a step relies on: an allocation is taken from a server only when no container is on its
port; a save writes over the row it was loaded from; a new allocation has a port that no
container is on; and a container is made only for a server that owns its ports. -/
structure KeepsPorts (f : Fleet) (l : Label) : Prop where
  taken : ∀ st ∈ f.issues l, ∀ a ∈ f.db.allocations, a.serverId ≠ none →
    takes a st = true → f.Unused a
  saved : ∀ st ∈ f.issues l, SameUuid f.db st
  provision : ∀ a ∈ l.provisions, f.Unused a
  make : ∀ c ∈ f.reaches l, ∀ config ∈ (request c).makes (f.system.wings (nodeOf c)),
    OwnsPorts f.db (nodeOf c) config

/-! ## The containers after a step -/

section Steps

variable {serde : Serde} {js : Js} {f f' : Fleet} {l : Label} {node : String} {c : Container}
  {config : Wings.ServerConfig}

/-- A container was there, or the step has it made. -/
theorem Fleet.mem_next (hc : c ∈ f.next serde l node) : c ∈ f.containers node ∨
    ∃ call config, f.reaches l = some call ∧ nodeOf call = node ∧
      (request call).makes (f.system.wings node) = some config ∧ c = .ofConfig config := by
  unfold Fleet.next at hc
  cases hcall : f.reaches l with
  | none =>
    rw [hcall] at hc
    exact .inl hc
  | some call =>
    rw [hcall] at hc
    dsimp only at hc
    by_cases hnode : node = nodeOf call
    · subst hnode
      rw [Function.update_self] at hc
      rcases GrpcRequest.mem_containersAfter hc with ⟨config, hmakes, rfl⟩ | hold
      · exact .inr ⟨call, config, rfl, rfl, hmakes, rfl⟩
      · exact .inl hold
    · rw [Function.update_of_ne hnode] at hc
      exact .inl hc

/-- Behind a call of `delete` that succeeds, no container has the name of the server's. -/
theorem Fleet.name_ne_of_delete {i : Nat} {reached : Bool} {server : Server}
    {allocation : Option Allocation}
    (htask : f.system.panel.tasks[i]? = some (.delete (.wings server allocation)))
    (hstep : f.step serde js (.panel (.turn i .ok) reached) = some f')
    (hc : c ∈ f'.containers server.nodeId) :
    c.name ≠ DockerManager.containerName server.uuid := by
  obtain ⟨system, hsystem, rfl⟩ := Option.map_eq_some_iff.mp hstep
  have hreaches : f.reaches (.panel (.turn i .ok) reached) =
      some (.deleteServer server false) := by
    simp only [Fleet.reaches, htask, true_or, if_true, Option.bind_some, Task.call]
  obtain ⟨-, ⟨hnone, -⟩ | ⟨j, reply, task, call, hl, htask', hcall, hexchange⟩⟩ :=
    step_panel hsystem
  · cases hnone i .ok _ rfl htask
  cases hl
  cases htask.symm.trans htask'
  cases hcall
  obtain ⟨⟨response, hresponse⟩, -⟩ := exchange_ok hexchange
  simp only [Fleet.next, hreaches, nodeOf, Function.update_self] at hc
  exact GrpcRequest.name_ne_of_delete hresponse hc

/-! ## The owners after a step -/

/-- What an allocation was before a statement: at the same place, and if it was assigned to a
server and is not taken from it, it still is. -/
theorem owner_exec {db db' : Database} {st : Statement} (hexec : db.exec st = some db')
    (hsaved : SameUuid db st) {a' : Allocation} (ha' : a' ∈ db'.allocations) :
    ∃ a ∈ db.allocations, a.nodeId = a'.nodeId ∧ a.port = a'.port ∧
      ∀ row ∈ db.servers, a.serverId = some row.id → takes a st = false →
        ∃ row' ∈ db'.servers, a'.serverId = some row'.id ∧ row'.uuid = row.uuid := by
  cases st with
  | createServer server =>
    obtain ⟨a, ha, rfl⟩ := (mem_allocations_createServer hexec).mp ha'
    refine ⟨a, ha, by split <;> rfl, by split <;> rfl, fun row hrow hserver htakes => ?_⟩
    have hkept : ¬ (a.id == server.allocationId) = true := by
      simpa only [takes, Bool.not_eq_true] using htakes
    rw [if_neg hkept]
    exact ⟨row, (mem_servers_createServer hexec).2.mpr (.inr hrow), hserver, rfl⟩
  | updateServer id columns =>
    refine ⟨a', allocations_updateServer hexec ▸ ha', rfl, rfl, fun row hrow hserver _ => ?_⟩
    refine ⟨_, (mem_servers_updateServer hexec).mpr ⟨row, hrow, rfl⟩, ?_, ?_⟩
    · split <;> exact hserver
    · split <;> rfl
  | updateServerByUuid uuid columns =>
    refine ⟨a', allocations_updateServerByUuid hexec ▸ ha', rfl, rfl,
      fun row hrow hserver _ => ?_⟩
    refine ⟨_, (mem_servers_updateServerByUuid hexec).mpr ⟨row, hrow, rfl⟩, ?_, ?_⟩
    · split <;> exact hserver
    · split <;> rfl
  | saveServer server allocation =>
    obtain ⟨a, ha, rfl⟩ := (mem_allocations_saveServer hexec).mp ha'
    refine ⟨a, ha, by split <;> rfl, by split <;> rfl, fun row hrow hserver htakes => ?_⟩
    -- a save that writes the allocation writes the owner it has
    have hsame : (if a.writtenWith server allocation then
        { a with serverId := allocation.map fun _ => server.id } else a).serverId =
          some row.id := by
      split
      next hwritten =>
        simp only [takes, hwritten, Bool.true_and, bne_eq_false_iff_eq] at htakes
        exact htakes.symm.trans hserver
      next => exact hserver
    rw [hsame]
    by_cases hid : row.id = server.id
    · exact ⟨server, (mem_servers_saveServer hexec).mpr (.inl rfl), congrArg some hid,
        (hsaved row hrow hid).symm⟩
    · exact ⟨row, (mem_servers_saveServer hexec).mpr (.inr ⟨hrow, hid⟩), rfl, rfl⟩
  | removeServer id =>
    have hallocations := allocations_removeServer hexec
    refine ⟨a', hallocations ▸ ha', rfl, rfl, fun row hrow hserver _ => ?_⟩
    -- the foreign key does not let go of a server that has an allocation
    obtain ⟨s, hs, hid⟩ := db'.exists_holder ha' hserver
    have hsame : s = row := Table.eq_of_key ((mem_servers_removeServer hexec).mp hs).1 hrow hid
    exact ⟨s, hs, hserver.trans (congrArg some hid.symm), congrArg Server.uuid hsame⟩
  | freeAllocation id =>
    obtain ⟨a, ha, rfl⟩ := (mem_allocations_freeAllocation hexec).mp ha'
    refine ⟨a, ha, by split <;> rfl, by split <;> rfl, fun row hrow hserver htakes => ?_⟩
    have hkept : ¬ (a.id == id) = true := by simpa only [takes, Bool.not_eq_true] using htakes
    rw [if_neg hkept]
    exact ⟨row, servers_freeAllocation hexec ▸ hrow, hserver, rfl⟩
  | removeAllocation id =>
    exact ⟨a', ((mem_allocations_removeAllocation hexec).mp ha').1, rfl, rfl,
      fun row hrow hserver _ => ⟨row, servers_removeAllocation hexec ▸ hrow, hserver, rfl⟩⟩
  | removeUnassigned nodeId =>
    exact ⟨a', ((mem_allocations_removeUnassigned hexec).mp ha').1, rfl, rfl,
      fun row hrow hserver _ => ⟨row, servers_removeUnassigned hexec ▸ hrow, hserver, rfl⟩⟩

/-- The allocation was at the same place before, and its owner still has the uuid it had, if no
container is on the port. -/
def StillOwned (f : Fleet) (db' : Database) (a' : Allocation) : Prop :=
  ∃ a ∈ f.db.allocations, a.nodeId = a'.nodeId ∧ a.port = a'.port ∧
    ∀ row ∈ f.db.servers, a.serverId = some row.id →
      f.Unused a ∨ ∃ row' ∈ db'.servers, a'.serverId = some row'.id ∧ row'.uuid = row.uuid

theorem stillOwned_of_eq {db' : Database} (hservers : db'.servers = f.db.servers)
    (hallocations : db'.allocations = f.db.allocations) {a' : Allocation}
    (ha' : a' ∈ db'.allocations) : StillOwned f db' a' :=
  ⟨a', hallocations ▸ ha', rfl, rfl, fun row hrow hserver =>
    .inr ⟨row, hservers ▸ hrow, hserver, rfl⟩⟩

/-- A turn leaves the database as it is, or its statement goes through. -/
theorem db_turn {p p' : ServersPool} {i : Nat} {reply : Settled}
    (hstep : serversStep js p (.turn i reply) = some p') : p'.store.db = p.store.db ∨
      ∃ st, issued p (.turn i reply) = some st ∧ p.store.db.exec st = some p'.store.db := by
  obtain ⟨task, htask, hdb, -⟩ := serversStep_turn hstep
  cases reply with
  | failed message => exact .inl hdb
  | ok =>
    cases hst : task.statement with
    | none =>
      rw [hst] at hdb
      exact .inl hdb
    | some st =>
      rw [hst] at hdb
      cases hexec : p.store.db.exec st with
      | none =>
        simp only [Database.issue, hexec, Option.getD_none] at hdb
        exact .inl hdb
      | some db =>
        simp only [Database.issue, hexec, Option.getD_some] at hdb
        refine .inr ⟨st, ?_, hdb ▸ hexec⟩
        simp only [issued, htask, Option.bind_some, hst]

/-- An allocation behind a step is new, with a port that no container is on, or it was there. -/
theorem stillOwned_step {s' : State} (hkeeps : KeepsPorts f l)
    (hstep : Joint.step serde js f.system l = some s') {a' : Allocation}
    (ha' : a' ∈ s'.panel.store.db.allocations) :
    f.Unused a' ∨ StillOwned f s'.panel.store.db a' := by
  have hsame (hdb : s'.panel.store.db = f.db) : StillOwned f s'.panel.store.db a' :=
    stillOwned_of_eq (by rw [hdb]) (by rw [hdb]) ha'
  cases l with
  | panel l reached =>
    have hpanel := (step_panel hstep).1
    cases l with
    | start task =>
      obtain ⟨-, hp⟩ := Tasks.step_start hpanel
      exact .inr (hsame (by rw [hp]; rfl))
    | turn i reply =>
      rcases db_turn hpanel with hdb | ⟨st, hst, hexec⟩
      · exact .inr (hsame hdb)
      · obtain ⟨a, ha, hnode, hport, howner⟩ := owner_exec hexec (hkeeps.saved st hst) ha'
        refine .inr ⟨a, ha, hnode, hport, fun row hrow hserver => ?_⟩
        cases htakes : takes a st with
        | true => exact .inl (hkeeps.taken st hst a ha (by rw [hserver]; simp) htakes)
        | false => exact .inr (howner row hrow hserver htakes)
    | outside event =>
      obtain ⟨store, houtside, hp⟩ := Tasks.step_outside hpanel
      have hstore : f.system.panel.store.outside event = some store := houtside
      have hservers : s'.panel.store.db.servers = f.db.servers := by
        rw [hp]
        exact (servers_outside hstore).1
      cases event with
      | provision a =>
        rw [hp] at ha'
        rcases ((outside_provision hstore).2 a').mp ha' with rfl | hold
        · exact .inl (hkeeps.provision a rfl)
        · exact .inr ⟨a', hold, rfl, rfl, fun row hrow hserver =>
            .inr ⟨row, hservers ▸ hrow, hserver, rfl⟩⟩
      | edit nodes eggs eggVariables users =>
        refine .inr (stillOwned_of_eq hservers ?_ ha')
        obtain ⟨db, hdb, hedited⟩ := Option.map_eq_some_iff.mp hstore
        rw [hp, ← hedited]
        dsimp only
        rw [Database.ofTables_eq_some hdb]
        rfl
      | heartbeats online =>
        cases hstore
        exact .inr (hsame (by rw [hp]; rfl))
  | task node index =>
    obtain ⟨wings, -, h⟩ := Option.bind_eq_some_iff.mp hstep
    cases h
    exact .inr (hsame rfl)
  | restart node entries =>
    obtain ⟨wings, -, h⟩ := Option.bind_eq_some_iff.mp hstep
    cases h
    exact .inr (hsame rfl)
  | deliver node uuid index =>
    simp only [Joint.step, deliver, Option.bind_eq_bind, Option.bind_eq_some_iff] at hstep
    obtain ⟨post, -, -, -, panel, hpanel, h⟩ := hstep
    cases h
    obtain ⟨-, rfl⟩ := Tasks.step_start hpanel
    exact .inr (hsame rfl)

/-- A step that calls a daemon issues no statement. -/
theorem db_of_reaches {s' : State} {call : WingsCall} (hcall : f.reaches l = some call)
    (hstep : Joint.step serde js f.system l = some s') : s'.panel.store.db = f.db := by
  unfold Fleet.reaches at hcall
  split at hcall
  next i reply reached =>
    rw [Option.ite_none_right_eq_some] at hcall
    obtain ⟨task, htask, hcalls⟩ := Option.bind_eq_some_iff.mp hcall.2
    obtain ⟨task', htask', hdb, -⟩ := serversStep_turn (step_panel hstep).1
    cases htask.symm.trans htask'
    have hst : task.statement = none := by
      unfold Task.call at hcalls
      split at hcalls <;> first | rfl | cases hcalls
    rw [hst] at hdb
    rw [hdb]
    cases reply <;> rfl
  next => cases hcall

/-- One step. -/
theorem PortsOwned.step (hf : PortsOwned f) (hkeeps : KeepsPorts f l)
    (hstep : f.step serde js l = some f') : PortsOwned f' := by
  obtain ⟨system, hsystem, rfl⟩ := Option.map_eq_some_iff.mp hstep
  have howner : ∀ a ∈ system.panel.store.db.allocations, ∀ c ∈ f.next serde l a.nodeId,
      Publishes c a.port → ∃ row ∈ system.panel.store.db.servers, a.serverId = some row.id ∧
        c.server = some row.uuid := by
    intro a' ha' c hc hport
    rcases Fleet.mem_next hc with hold | ⟨call, config, hcall, hnode, hmakes, rfl⟩
    · rcases stillOwned_step hkeeps hsystem ha' with hunused | ⟨a, ha, hnode, hports, howner⟩
      · exact absurd hport (hunused c hold)
      · rw [← hnode] at hold
        rw [← hports] at hport
        obtain ⟨row, hrow, hserver, hlabel⟩ := hf.owner a ha c hold hport
        rcases howner row hrow hserver with hunused | ⟨row', hrow', hserver', huuid⟩
        · exact absurd hport (hunused c hold)
        · exact ⟨row', hrow', hserver', hlabel.trans (congrArg some huuid.symm)⟩
    · rw [← hnode] at hmakes
      rw [db_of_reaches hcall hsystem] at ha' ⊢
      obtain ⟨row, hrow, hserver, huuid⟩ :=
        hkeeps.make call hcall config hmakes a' ha' hnode.symm hport
      exact ⟨row, hrow, hserver, congrArg some huuid.symm⟩
  refine ⟨fun a ha c hc c' hc' hport hport' => ?_, howner⟩
  obtain ⟨row, hrow, hserver, hlabel⟩ := howner a ha c hc hport
  obtain ⟨row', hrow', hserver', hlabel'⟩ := howner a ha c' hc' hport'
  have hsame : row = row' :=
    Table.eq_of_key hrow hrow' (Option.some.inj (hserver.symm.trans hserver'))
  rw [hlabel, hlabel', hsame]

end Steps

/-! ## Runs -/

/-- From every state in which the ports are owned, one without containers for instance, and for
every run, whichever calls to Wings fail and whether or not they have reached it: as long as each
step finds what it relies on, the port of an allocation is used by the container of one server at
most, the one the panel shows as its owner. -/
theorem ports_owned (serde : Serde) (js : Js) (f : Fleet) (labels : List Label) (hf : PortsOwned f)
    (hkeeps : Along (Fleet.step serde js) KeepsPorts f labels) :
    ∀ done, done <+: labels → ∀ f', run (Fleet.step serde js) f done = some f' →
      PortsOwned f' := by
  rintro done ⟨rest, rfl⟩ f' hrun
  exact run_invariant (I := PortsOwned) (fun _ _ _ hf hkeeps hstep => hf.step hkeeps hstep) hf
    (along_append.mp hkeeps).1 hrun

/-! ## A server is deleted and another takes its allocation -/

section TwoServers

instance (db : Database) : ∀ st, Decidable (SameUuid db st)
  | .saveServer server _ => inferInstanceAs
    (Decidable (∀ row ∈ db.servers, row.id = server.id → row.uuid = server.uuid))
  | .createServer _ | .updateServer _ _ | .updateServerByUuid _ _ | .removeServer _
  | .freeAllocation _ | .removeAllocation _ | .removeUnassigned _ =>
    inferInstanceAs (Decidable True)

instance (db : Database) (node : String) (config : Wings.ServerConfig) :
    Decidable (OwnsPorts db node config) :=
  inferInstanceAs (Decidable (∀ a ∈ db.allocations, a.nodeId = node →
    Publishes (.ofConfig config) a.port →
      ∃ row ∈ db.servers, a.serverId = some row.id ∧ row.uuid = config.uuid))

instance (f : Fleet) (l : Label) : Decidable (KeepsPorts f l) :=
  decidable_of_iff
    ((∀ st ∈ f.issues l, ∀ a ∈ f.db.allocations, a.serverId ≠ none →
        takes a st = true → f.Unused a) ∧
      (∀ st ∈ f.issues l, SameUuid f.db st) ∧ (∀ a ∈ l.provisions, f.Unused a) ∧
      ∀ c ∈ f.reaches l, ∀ config ∈ (request c).makes (f.system.wings (nodeOf c)),
        OwnsPorts f.db (nodeOf c) config)
    ⟨fun h => ⟨h.1, h.2.1, h.2.2.1, h.2.2.2⟩, fun h => ⟨h.taken, h.saved, h.provision, h.make⟩⟩

/-- One server, its container and the configuration it was made from. -/
def hosting : Fleet where
  system := { configuredState with panel := .idle (.oneServer none) ["n"] }
  containers := fun node => if node = "n" then
      [.ofConfig ⟨"u", "image", "run", [], 1024, 100, 1024, [⟨25565, 25565⟩], "/srv/u"⟩]
    else []

/-- The server is deleted, Wings answering the call like this, and another one is created on its
allocation. -/
def replaceServer (reply : Settled) : List Label :=
  [.panel (.start (.delete (.load "u"))) true, .panel (.turn 0 .ok) true,
    .panel (.turn 0 reply) false, .panel (.turn 0 .ok) true, .panel (.turn 0 .ok) true,
    .panel (.start (.create (.findNode { secondServer with allocationId := "a" }
      ⟨"2", "2", "2"⟩))) true] ++
  List.replicate 10 (.panel (.turn 0 .ok) true)

example : (run (Fleet.step .framed .plain) hosting (replaceServer .ok)).map
    (fun f => (f.containers "n").map Container.server) = some [some "2"] := by
  decide +kernel

example : (run (Fleet.step .framed .plain) hosting (replaceServer (.failed "unavailable"))).map
    (fun f => (f.containers "n").map Container.server) = some [some "2", some "u"] := by
  decide +kernel

theorem hosting_portsOwned : PortsOwned hosting := by
  have howner : ∀ a ∈ hosting.db.allocations, ∀ c ∈ hosting.containers a.nodeId,
      Publishes c a.port → ∃ row ∈ hosting.db.servers, a.serverId = some row.id ∧
        c.server = some row.uuid := by decide +kernel
  refine ⟨?_, howner⟩
  decide +kernel

theorem ports_owned_replaceServer :
    Always (Fleet.step .framed .plain) (fun _ => PortsOwned) hosting (replaceServer .ok) :=
  ports_owned .framed .plain hosting (replaceServer .ok) hosting_portsOwned (by decide +kernel)

/-- The call to Wings fails, the allocation is freed all the same, and the container of the next
server is on the port of the first one's. -/
theorem one_port_two_servers : PortsOwned hosting ∧
    ¬ ∀ done, done <+: replaceServer (.failed "unavailable") → ∀ f',
      run (Fleet.step .framed .plain) hosting done = some f' → PortsOwned f' := by
  refine ⟨hosting_portsOwned, fun h => ?_⟩
  have hthere : (run (Fleet.step .framed .plain) hosting
      (replaceServer (.failed "unavailable"))).any (fun f => f.db.allocations.rows.any fun a =>
        (f.containers a.nodeId).any fun c => (f.containers a.nodeId).any fun c' =>
          decide (Publishes c a.port) && decide (Publishes c' a.port) && c.server != c'.server) =
      true := by decide +kernel
  obtain ⟨f', hrun, hany⟩ := (Option.any_eq_true _ _).mp hthere
  obtain ⟨a, ha, hany⟩ := List.any_eq_true.mp hany
  obtain ⟨c, hc, hany⟩ := List.any_eq_true.mp hany
  obtain ⟨c', hc', hboth⟩ := List.any_eq_true.mp hany
  simp only [Bool.and_eq_true, decide_eq_true_eq, bne_iff_ne] at hboth
  obtain ⟨⟨hport, hport'⟩, hne⟩ := hboth
  exact hne ((h _ (List.prefix_refl _) f' hrun).one a ha c hc c' hc' hport hport')

end TwoServers

end Joint
