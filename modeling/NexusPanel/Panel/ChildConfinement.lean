import NexusPanel.Panel.ServerChildren

/-!
# Confinement of child resources

A request for a child of a server is *confined* to that server when its answer, and what it
does to the children of that server, are what they would be if no other server had any, and
it leaves the children of every other server as they are. The handlers check the caller
against the server and then act on a row found by its own id, so a request is confined
exactly when it is refused at the check or its id is not that of another server's child.

The frame half and the noninterference half of the argument are each one lemma about
`withRow` and parts of a table.
-/

namespace Panel

open Fallible

/-! ## Acting on a row of a part of a table -/

section WithRow

variable {ρ α : Type} [Keyed String ρ] {t t' : Table ρ} {id message : String}
  {f : ρ → α × RowWrite ρ} {q : ρ → Bool} {r : ρ}

/-- What is saved is the loaded row with its key, in the same part of the table. -/
def Saves (q : ρ → Bool) (f : ρ → α × RowWrite ρ) : Prop :=
  ∀ r r', (f r).2 = .save r' → Keyed.key r' = Keyed.key r ∧ q r' = q r

theorem withRow_ok {a : α} (h : withRow t id message f = .ok (a, t')) :
    ∃ r, (t.findOne fun r => Keyed.key r == id) = some r ∧ a = (f r).1 ∧
      t' = (f r).2.apply t r := by
  simp only [withRow, bind_eq_ok, orThrow_eq_ok, pure_eq_ok, Prod.mk.injEq] at h
  obtain ⟨r, hr, rfl, rfl⟩ := h
  exact ⟨r, hr, rfl, rfl⟩

theorem findOne_key_restrict :
    ((t.restrict q).findOne fun r => Keyed.key r == id) =
      (t.findOne fun r => Keyed.key r == id).filter q := by
  refine Table.findOne_restrict fun r s hr hs => ?_
  rw [beq_iff_eq.mp hr, beq_iff_eq.mp hs]

/-- A row in the part is found there, and the statement acts on the part alone. -/
theorem withRow_restrict (hf : Saves q f)
    (hq : ∀ r, (t.findOne fun r => Keyed.key r == id) = some r → q r = true) :
    withRow (t.restrict q) id message f =
      (withRow t id message f).map fun (a, t') => (a, t'.restrict q) := by
  unfold withRow
  rw [findOne_key_restrict]
  cases h : t.findOne fun r => Keyed.key r == id with
  | none => rfl
  | some r =>
    rw [Option.filter_some, if_pos (hq r h)]
    change Except.ok ((f r).1, (f r).2.apply (t.restrict q) r) =
      .ok ((f r).1, ((f r).2.apply t r).restrict q)
    cases hw : (f r).2 with
    | none => rfl
    | save r' =>
      obtain ⟨-, hqr⟩ := hf r r' hw
      rw [RowWrite.apply, RowWrite.apply, Table.restrict_save (hqr.trans (hq r h))]
    | remove => rw [RowWrite.apply, RowWrite.apply, Table.restrict_delete]

/-- A row outside the part is not found in it. -/
theorem withRow_restrict_of_not (hr : (t.findOne fun r => Keyed.key r == id) = some r)
    (hq : q r = false) : withRow (t.restrict q) id message f = .error (.notFound message) := by
  unfold withRow
  rw [findOne_key_restrict, hr, Option.filter_some, if_neg (Bool.eq_false_iff.mp hq)]
  rfl

/-- Acting on a row outside the part does not touch the part. -/
theorem restrict_of_withRow {a : α} (hf : Saves q f) (h : withRow t id message f = .ok (a, t'))
    (hq : ∀ r, (t.findOne fun r => Keyed.key r == id) = some r → q r = false) :
    t'.restrict q = t.restrict q := by
  obtain ⟨r, hr, -, rfl⟩ := withRow_ok h
  have hold : ∀ s ∈ t, Keyed.key s = Keyed.key r → q s = false := fun s hs hkey => by
    rw [Table.eq_of_key hs (Table.findOne_mem hr) hkey]
    exact hq r hr
  cases hw : (f r).2 with
  | none => rfl
  | save r' =>
    obtain ⟨hkey, hqr⟩ := hf r r' hw
    exact Table.restrict_save_of_not (hqr.trans (hq r hr)) (hkey ▸ hold)
  | remove => exact Table.restrict_delete_of_not fun s hs hkey => hold s hs (beq_iff_eq.mp hkey)

theorem saves_of_none {g : ρ → α} : Saves q fun r => (g r, .none) := fun _ _ h => nomatch h

theorem saves_of_remove {g : ρ → α} : Saves q fun r => (g r, .remove) := fun _ _ h => nomatch h

theorem saves_of_save {g : ρ → α} {w : ρ → ρ} (hkey : ∀ r, Keyed.key (w r) = Keyed.key r)
    (hq : ∀ r, q (w r) = q r) : Saves q fun r => (g r, .save (w r)) := by
  intro r r' h
  cases h
  exact ⟨hkey r, hq r⟩

end WithRow

/-! ## The children of some servers -/

namespace ServerTables

/-- The tables with the children of the servers with these ids only. -/
def restrict (db : ServerTables) (q : String → Bool) : ServerTables where
  servers := db.servers
  schedules := db.schedules.restrict fun r => q r.serverId
  subusers := db.subusers.restrict fun r => q r.serverId
  databases := db.databases.restrict fun r => q r.serverId

/-- The children of one server. -/
def only (db : ServerTables) (serverId : String) : ServerTables := db.restrict (· == serverId)

/-- The children of every other server. -/
def without (db : ServerTables) (serverId : String) : ServerTables := db.restrict (· != serverId)

/-- The server the parameter `:uuid` names. -/
def named (db : ServerTables) (uuid : String) : Option Server :=
  db.servers.findOne fun s => s.uuid == uuid

end ServerTables

namespace ChildOperation

/-- The server of the row that the parameter `:id` names. -/
def holder (db : ServerTables) : ChildOperation → Option String
  | .scheduleFindById id | .scheduleUpdate id _ _ | .scheduleDelete id | .scheduleExecute id _ =>
    (db.schedules.findOne fun r => r.id == id).map Schedule.serverId
  | .subuserUpdate id _ | .subuserRemove id =>
    (db.subusers.findOne fun r => r.id == id).map ServerSubuser.serverId
  | .databaseDelete id => (db.databases.findOne fun r => r.id == id).map ServerDatabase.serverId

end ChildOperation

/-- A request neither reads nor changes a child of any server but the one it names, and the server it
names, if it is not an administrator's request, is the caller's. -/
structure ChildConfined (db : ServerTables) (user : CurrentUser) (uuid : String)
    (op : ChildOperation) : Prop where
  /-- Answer and effect are those on the server's own children. -/
  own : ∀ server, db.named uuid = some server →
    op.serve (db.only server.id) user uuid =
      ((op.serve db user uuid).1, (op.serve db user uuid).2.only server.id)
  /-- The children of every other server stay. -/
  others : ∀ server, db.named uuid = some server →
    (op.serve db user uuid).2.without server.id = db.without server.id
  /-- A server that is not the caller's might as well have no children. -/
  owner : user.rootAdmin = false → ∀ server ∈ db.servers, server.userId ≠ user.id →
    (op.serve (db.without server.id) user uuid).1 = (op.serve db user uuid).1 ∧
      (op.serve db user uuid).2.only server.id = db.only server.id

/-- The caller is refused at the server, or the id is not that of another server's child. -/
def AddressesOwnChild (db : ServerTables) (user : CurrentUser) (uuid : String)
    (op : ChildOperation) : Prop :=
  ∀ server, getServerWithAccess db uuid user = .ok server →
    ∀ serverId, op.holder db = some serverId → serverId = server.id

/-! ## One call -/

/-- One of the three tables of children, with the laws of its place among the tables. -/
structure ChildTable (ρ : Type) [Keyed String ρ] where
  serverId : ρ → String
  get : ServerTables → Table ρ
  set : ServerTables → Table ρ → ServerTables
  set_get : ∀ db, set db (get db) = db
  set_servers : ∀ db t, (set db t).servers = db.servers
  get_restrict : ∀ db q, get (db.restrict q) = (get db).restrict fun r => q (serverId r)
  set_restrict : ∀ db t q,
    set (db.restrict q) (t.restrict fun r => q (serverId r)) = (set db t).restrict q

def schedulesTable : ChildTable Schedule where
  serverId := Schedule.serverId
  get db := db.schedules
  set db schedules := { db with schedules }
  set_get _ := rfl
  set_servers _ _ := rfl
  get_restrict _ _ := rfl
  set_restrict _ _ _ := rfl

def subusersTable : ChildTable ServerSubuser where
  serverId := ServerSubuser.serverId
  get db := db.subusers
  set db subusers := { db with subusers }
  set_get _ := rfl
  set_servers _ _ := rfl
  get_restrict _ _ := rfl
  set_restrict _ _ _ := rfl

def databasesTable : ChildTable ServerDatabase where
  serverId := ServerDatabase.serverId
  get db := db.databases
  set db databases := { db with databases }
  set_get _ := rfl
  set_servers _ _ := rfl
  get_restrict _ _ := rfl
  set_restrict _ _ _ := rfl

/-- The call acts on one row of the table, whose server it leaves as it is. -/
def ActsOn {ρ : Type} [Keyed String ρ] (c : ChildTable ρ) (op : ChildOperation) : Prop :=
  ∃ (α : Type) (f : ρ → α × RowWrite ρ) (id message : String) (answer : α → ChildAnswer),
    (∀ q : String → Bool, Saves (fun r => q (c.serverId r)) f) ∧
    ∀ db, op.holder db = ((c.get db).findOne fun r => Keyed.key r == id).map c.serverId ∧
      op.call db = (withRow (c.get db) id message f).map fun (a, t) => (answer a, c.set db t)

namespace ActsOn

variable {ρ : Type} [Keyed String ρ] {c : ChildTable ρ} {op : ChildOperation}
  {db db' : ServerTables} {q : String → Bool} {answer : ChildAnswer}

/-- A call for a child of the chosen servers does the same on their children alone. -/
theorem call_restrict (h : ActsOn c op) (hq : ∀ i, op.holder db = some i → q i = true) :
    op.call (db.restrict q) = (op.call db).map fun (a, db') => (a, db'.restrict q) := by
  obtain ⟨α, f, id, message, answer, hsaves, hop⟩ := h
  rw [(hop _).2, (hop db).2, c.get_restrict, withRow_restrict (hsaves q)]
  · cases withRow (c.get db) id message f with
    | error e => rfl
    | ok p => exact congrArg (fun db' => Except.ok (answer p.1, db')) (c.set_restrict db p.2 q)
  · intro r hr
    refine hq _ ?_
    rw [(hop db).1, hr]
    rfl

/-- A call for another server's child does not find it among the chosen ones. -/
theorem call_restrict_of_not (h : ActsOn c op) {i : String} (hi : op.holder db = some i)
    (hq : q i = false) : ∃ e, op.call (db.restrict q) = .error e := by
  obtain ⟨α, f, id, message, answer, -, hop⟩ := h
  rw [(hop db).1] at hi
  obtain ⟨r, hr, rfl⟩ := Option.map_eq_some_iff.mp hi
  refine ⟨.notFound message, ?_⟩
  rw [(hop _).2, c.get_restrict, withRow_restrict_of_not hr hq]
  rfl

/-- A call that finds its row succeeds. -/
theorem call_of_holder (h : ActsOn c op) {i : String} (hi : op.holder db = some i) :
    ∃ answer db', op.call db = .ok (answer, db') := by
  obtain ⟨α, f, id, message, answer, -, hop⟩ := h
  rw [(hop db).1] at hi
  obtain ⟨r, hr, -⟩ := Option.map_eq_some_iff.mp hi
  rw [(hop db).2]
  unfold withRow
  rw [hr]
  exact ⟨_, _, rfl⟩

/-- A call does not touch the children of servers whose child it is not for. -/
theorem restrict_of_call (h : ActsOn c op) (hcall : op.call db = .ok (answer, db'))
    (hq : ∀ i, op.holder db = some i → q i = false) : db'.restrict q = db.restrict q := by
  obtain ⟨α, f, id, message, mk, hsaves, hop⟩ := h
  rw [(hop db).2] at hcall
  cases hrow : withRow (c.get db) id message f with
  | error e =>
    rw [hrow] at hcall
    cases hcall
  | ok p =>
    rw [hrow] at hcall
    cases hcall
    have hpart := restrict_of_withRow (hsaves q) hrow fun r hr => hq _ (by rw [(hop db).1, hr]; rfl)
    rw [← c.set_restrict, hpart, c.set_restrict, c.set_get]

end ActsOn

/-- Every operation acts on one row of one of the three tables. -/
theorem ChildOperation.actsOn (op : ChildOperation) :
    ActsOn schedulesTable op ∨ ActsOn subusersTable op ∨ ActsOn databasesTable op := by
  cases op with
  | scheduleFindById id =>
    refine .inl ⟨_, _, id, _, .schedule, ?_, fun _ => ⟨rfl, rfl⟩⟩
    exact fun _ => saves_of_none
  | scheduleUpdate id dto taskId =>
    refine .inl ⟨_, _, id, _, .schedule, ?_, fun _ => ⟨rfl, rfl⟩⟩
    exact fun _ => saves_of_save (fun _ => rfl) fun _ => rfl
  | scheduleDelete id =>
    refine .inl ⟨_, _, id, _, fun _ => .noContent, ?_, fun _ => ⟨rfl, rfl⟩⟩
    exact fun _ => saves_of_remove
  | scheduleExecute id now =>
    refine .inl ⟨_, _, id, _, .message, ?_, fun _ => ⟨rfl, rfl⟩⟩
    exact fun _ => saves_of_save (fun _ => rfl) fun _ => rfl
  | subuserUpdate id permissions =>
    refine .inr (.inl ⟨_, _, id, _, .subuser, ?_, fun _ => ⟨rfl, rfl⟩⟩)
    exact fun _ => saves_of_save (fun _ => rfl) fun _ => rfl
  | subuserRemove id =>
    refine .inr (.inl ⟨_, _, id, _, fun _ => .noContent, ?_, fun _ => ⟨rfl, rfl⟩⟩)
    exact fun _ => saves_of_remove
  | databaseDelete id =>
    refine .inr (.inr ⟨_, _, id, _, fun _ => .noContent, ?_, fun _ => ⟨rfl, rfl⟩⟩)
    exact fun _ => saves_of_remove

/-! ## One request -/

namespace ChildOperation

variable {db db' : ServerTables} {op : ChildOperation} {user : CurrentUser} {uuid : String}
  {q : String → Bool} {server : Server} {answer : ChildAnswer}

theorem call_restrict (hq : ∀ i, op.holder db = some i → q i = true) :
    op.call (db.restrict q) = (op.call db).map fun (a, db') => (a, db'.restrict q) := by
  rcases op.actsOn with h | h | h <;> exact h.call_restrict hq

theorem call_restrict_of_not {i : String} (hi : op.holder db = some i) (hq : q i = false) :
    ∃ e, op.call (db.restrict q) = .error e := by
  rcases op.actsOn with h | h | h <;> exact h.call_restrict_of_not hi hq

theorem call_of_holder {i : String} (hi : op.holder db = some i) :
    ∃ answer db', op.call db = .ok (answer, db') := by
  rcases op.actsOn with h | h | h <;> exact h.call_of_holder hi

theorem restrict_of_call (hcall : op.call db = .ok (answer, db'))
    (hq : ∀ i, op.holder db = some i → q i = false) : db'.restrict q = db.restrict q := by
  rcases op.actsOn with h | h | h <;> exact h.restrict_of_call hcall hq

/-- The check looks at the servers only, so it comes out the same without some children. -/
theorem getServerWithAccess_restrict (q : String → Bool) :
    getServerWithAccess (db.restrict q) uuid user = getServerWithAccess db uuid user := rfl

theorem serve_of_refused {e : HttpException} (h : getServerWithAccess db uuid user = .error e) :
    op.serve db user uuid = (.error e, db) := by
  unfold serve handle
  rw [h]
  rfl

theorem serve_of_granted (h : getServerWithAccess db uuid user = .ok server) :
    op.serve db user uuid = match op.call db with
      | .ok (answer, db') => (.ok answer, db')
      | .error e => (.error e, db) := by
  unfold serve handle
  rw [h]
  rfl

/-- A request for a child of the chosen servers is served the same on their children alone. -/
theorem serve_restrict (hq : (∃ server, getServerWithAccess db uuid user = .ok server) →
      ∀ i, op.holder db = some i → q i = true) :
    op.serve (db.restrict q) user uuid =
      ((op.serve db user uuid).1, (op.serve db user uuid).2.restrict q) := by
  cases hserver : getServerWithAccess db uuid user with
  | error e =>
    rw [serve_of_refused hserver,
      serve_of_refused ((getServerWithAccess_restrict q).trans hserver)]
  | ok server =>
    rw [serve_of_granted hserver, serve_of_granted ((getServerWithAccess_restrict q).trans hserver),
      call_restrict (hq ⟨server, hserver⟩)]
    cases op.call db <;> rfl

/-- A request does not touch the children of servers whose child it is not for. -/
theorem restrict_of_serve (hq : (∃ server, getServerWithAccess db uuid user = .ok server) →
      ∀ i, op.holder db = some i → q i = false) :
    (op.serve db user uuid).2.restrict q = db.restrict q := by
  cases hserver : getServerWithAccess db uuid user with
  | error e => rw [serve_of_refused hserver]
  | ok server =>
    rw [serve_of_granted hserver]
    cases hcall : op.call db with
    | error e => rfl
    | ok p => exact restrict_of_call hcall (hq ⟨server, hserver⟩)

end ChildOperation

theorem getServerWithAccess_ok {db : ServerTables} {uuid : String} {user : CurrentUser}
    {server : Server} (h : getServerWithAccess db uuid user = .ok server) :
    db.named uuid = some server ∧ (user.rootAdmin = true ∨ server.userId = user.id) := by
  simp only [getServerWithAccess, bind_eq_ok, pure_eq_ok] at h
  obtain ⟨s, hfind, u, hcheck, rfl⟩ := h
  refine ⟨?_, ServersService.checkAccess_ok.mp hcheck⟩
  unfold ServersService.findByUuid at hfind
  split at hfind
  next hs =>
    cases hfind
    exact hs
  next => cases hfind

/-! ## Confined requests -/

/-- A request for a child of its own server is confined to it. -/
theorem AddressesOwnChild.confined {db : ServerTables} {user : CurrentUser} {uuid : String}
    {op : ChildOperation} (h : AddressesOwnChild db user uuid op) :
    ChildConfined db user uuid op where
  own := by
    intro server hnamed
    refine ChildOperation.serve_restrict fun ⟨server', hserver'⟩ i hi => ?_
    have hsame := (getServerWithAccess_ok hserver').1
    rw [hnamed] at hsame
    cases hsame
    exact beq_iff_eq.mpr (h server hserver' i hi)
  others := by
    intro server hnamed
    refine ChildOperation.restrict_of_serve fun ⟨server', hserver'⟩ i hi => ?_
    have hsame := (getServerWithAccess_ok hserver').1
    rw [hnamed] at hsame
    cases hsame
    exact bne_eq_false_iff_eq.mpr (h server hserver' i hi)
  owner := by
    intro hroot server hserver hforeign
    -- the server the request names is the caller's, so it is not this one
    have hne : (∃ server, getServerWithAccess db uuid user = .ok server) →
        ∀ i, op.holder db = some i → i ≠ server.id := by
      rintro ⟨server', hserver'⟩ i hi rfl
      obtain ⟨hnamed, haccess⟩ := getServerWithAccess_ok hserver'
      have hsame := Table.eq_of_key hserver (Table.findOne_mem hnamed) (h server' hserver' _ hi)
      rw [hsame] at hforeign
      rw [hroot] at haccess
      exact haccess.elim (fun h => nomatch h) hforeign
    constructor
    · have hserve := ChildOperation.serve_restrict (q := (· != server.id)) fun hok i hi =>
        bne_iff_ne.mpr (hne hok i hi)
      rw [ServerTables.without, hserve]
    · exact ChildOperation.restrict_of_serve fun hok i hi => beq_eq_false_iff_ne.mpr (hne hok i hi)

/-- A request reads and changes children of the server it names only, if and only if it is
refused at that server or its id is not that of another server's child. -/
theorem childConfined_iff (db : ServerTables) (user : CurrentUser) (uuid : String)
    (op : ChildOperation) : ChildConfined db user uuid op ↔ AddressesOwnChild db user uuid op := by
  refine ⟨fun h server hserver i hi => ?_, AddressesOwnChild.confined⟩
  by_contra hne
  -- the row is there for the whole database and missing among the server's own children
  obtain ⟨answer, db', hcall⟩ := ChildOperation.call_of_holder hi
  obtain ⟨e, hown⟩ := ChildOperation.call_restrict_of_not (q := (· == server.id)) hi
    (beq_eq_false_iff_ne.mpr hne)
  have heq := congrArg Prod.fst (h.own server (getServerWithAccess_ok hserver).1)
  rw [ChildOperation.serve_of_granted hserver, hcall, ServerTables.only,
    ChildOperation.serve_of_granted
      ((ChildOperation.getServerWithAccess_restrict (· == server.id)).trans hserver), hown] at heq
  cases heq

/-! ## Somebody else's subuser -/

section Foreign

/-- Two servers of two owners, each with one subuser. -/
def twoServers : ServerTables where
  servers := ⟨[.withDefaults "1" "mine" "mine" "mine" "caller" "n" "t" "e" "a" 1024 1024 "" "",
    .withDefaults "2" "theirs" "theirs" "theirs" "other" "n" "t" "e" "b" 1024 1024 "" ""],
    by decide⟩
  schedules := .empty
  subusers := ⟨[⟨"x", "1", "friend", []⟩, ⟨"y", "2", "friend", ["control.console"]⟩], by decide⟩
  databases := .empty

/-- The owner of one server takes a subuser off the other. -/
theorem childConfined_foreign : ¬ ChildConfined twoServers ⟨"caller", "caller@nexus.local", false⟩
    "mine" (.subuserRemove "y") := by
  intro h
  have hothers := h.others _ rfl
  have hrows := congrArg (fun db => db.subusers.rows) hothers
  revert hrows
  decide

end Foreign

end Panel
