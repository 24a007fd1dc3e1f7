import NexusPanel.Panel.Entities

/-!
# Who may use a server

The lookups of `ServersService` and the rule `checkAccess` that every REST route on a server
applies: a root administrator may use any server, anyone else only its own.
-/

namespace Panel

namespace ServersService

/-- The column is a uuid. For a text that is none the database refuses the query, which ends in a 500
and not, as here, in a 404; no row is found in either case. -/
def findByUuid (servers : Table Server) (uuid : String) : Except HttpException Server :=
  match servers.findOne fun s => s.uuid == uuid with
  | some server => .ok server
  | none => .error (.notFound "Server not found")

def findById (servers : Table Server) (id : String) : Except HttpException Server :=
  match servers.findOne fun s => s.id == id with
  | some server => .ok server
  | none => .error (.notFound "Server not found")

def checkAccess (server : Server) (userId : String) (isAdmin : Bool) :
    Except HttpException Unit :=
  if isAdmin then .ok ()
  else if server.userId ≠ userId then .error (.forbidden "You do not have access to this server")
  else .ok ()

theorem findByUuid_ok {servers : Table Server} {uuid : String} {server : Server}
    (h : findByUuid servers uuid = .ok server) : server ∈ servers ∧ server.uuid = uuid := by
  unfold findByUuid at h
  split at h
  next s hs =>
    cases h
    exact ⟨Table.findOne_mem hs, by simpa using Table.findOne_sat hs⟩
  next => cases h

theorem findById_ok {servers : Table Server} {id : String} {server : Server}
    (h : findById servers id = .ok server) : server ∈ servers ∧ server.id = id := by
  unfold findById at h
  split at h
  next s hs =>
    cases h
    exact ⟨Table.findOne_mem hs, by simpa using Table.findOne_sat hs⟩
  next => cases h

theorem findById_of_mem {servers : Table Server} {server : Server} (h : server ∈ servers) :
    findById servers server.id = .ok server := by
  have hfound : (servers.findOne fun s => s.id == server.id) = some server :=
    Table.findOne_eq_some h (beq_self_eq_true _) fun s _ hs => beq_iff_eq.mp hs
  rw [findById, hfound]

theorem findByUuid_of_mem {servers : Table Server} {server : Server} (h : server ∈ servers) :
    ∃ found, findByUuid servers server.uuid = .ok found := by
  cases hfound : servers.findOne fun s => s.uuid == server.uuid with
  | none =>
    have hne := Table.findOne_eq_none.mp hfound server h
    rw [beq_self_eq_true] at hne
    cases hne
  | some found => exact ⟨found, by rw [findByUuid, hfound]⟩

/-- The rule, without its order of tests. -/
theorem checkAccess_ok {server : Server} {userId : String} {isAdmin : Bool} {u : Unit} :
    checkAccess server userId isAdmin = .ok u ↔ isAdmin = true ∨ server.userId = userId := by
  unfold checkAccess
  cases isAdmin
  · by_cases h : server.userId = userId
    · simp [h]
    · simp [h]
  · simp

end ServersService

/-- The user is a root administrator. -/
def RootAdmin (users : Table User) (userId : String) : Prop :=
  ∃ u ∈ users, u.id = userId ∧ u.rootAdmin = true

/-- The user is a root administrator or owns every server that has this uuid. -/
def MayAccess (users : Table User) (servers : Table Server) (userId uuid : String) : Prop :=
  RootAdmin users userId ∨ ∀ server ∈ servers, server.uuid = uuid → server.userId = userId

end Panel
