import NexusPanel.Foundation.StampedCache
import NexusPanel.Panel.NodeCredentials

/-!
# The gRPC clients of the panel

`WingsService` keeps one gRPC client a node, made from the node's row with an address and with
credentials for the transport. `getClient` uses it again as long as the row still gives the same
address. That is a cache whose freshness test looks at the address only (`StampedCache`); an edit
that changes the scheme and keeps the address goes unnoticed.
-/

namespace Panel

open StampedCache

/-! ## Clients -/

inductive ChannelCredentials
  | ssl
  | insecure
deriving DecidableEq, Repr

/-- `new WingsService(address, creds)`. -/
structure GrpcClient where
  address : String
  credentials : ChannelCredentials
deriving DecidableEq, Repr

structure NodeGrpcClient where
  client : GrpcClient
  nodeId : String
  address : String
deriving DecidableEq, Repr

/-- A column in a template literal. -/
def ColumnValue.printed : ColumnValue → String
  | .null => "null"
  | .text value => value
  | .number value => toString value
  | .flag value => toString value

/-- `value + 1`. -/
def ColumnValue.plusOne : ColumnValue → ColumnValue
  | .null => .number 1
  | .text value => .text (value ++ "1")
  | .number value => .number (value + 1)
  | .flag value => .number (if value then 2 else 1)

/-- Whether a column counts as true. -/
def ColumnValue.isTrue : ColumnValue → Bool
  | .null => false
  | .text value => value != ""
  | .number value => value != 0
  | .flag value => value

namespace NodeEntity

/-- Behind a proxy gRPC goes through the daemon's own port, else to the one after it. -/
def grpcPort (node : NodeEntity) : ColumnValue :=
  if (node.columns .behindProxy).isTrue then node.columns .daemonPort
  else (node.columns .daemonPort).plusOne

def grpcAddress (node : NodeEntity) : String :=
  (node.columns .fqdn).printed ++ ":" ++ node.grpcPort.printed

def channelCredentials (node : NodeEntity) : ChannelCredentials :=
  if node.columns .scheme = .text "https" then .ssl else .insecure

/-- The client that the row determines. -/
def grpcClient (node : NodeEntity) : GrpcClient := ⟨node.grpcAddress, node.channelCredentials⟩

end NodeEntity

/-- `this.clients`. -/
abbrev GrpcClients := AList fun _ : String => NodeGrpcClient

def getClient (clients : GrpcClients) (node : NodeEntity) : GrpcClient × GrpcClients :=
  let made := (node.grpcClient, clients.insert node.id ⟨node.grpcClient, node.id, node.grpcAddress⟩)
  match clients.lookup node.id with
  | some cached => if cached.address = node.grpcAddress then (cached.client, clients) else made
  | none => made

/-! ## Edits and calls -/

/-- `NodesService.update`, or a call of `WingsService` for a node, with its row as it is then. -/
inductive NodeEvent
  | update (id : String) (dto : UpdateNodeDto)
  | call (id : String)

structure GrpcState where
  nodes : Table NodeEntity
  clients : GrpcClients

def findNode (nodes : Table NodeEntity) (id : String) : Option NodeEntity :=
  nodes.findOne fun n => n.id == id

/-- An update of a node that is not there throws. -/
def updateNode (nodes : Table NodeEntity) (id : String) (dto : UpdateNodeDto) : Table NodeEntity :=
  match findNode nodes id with
  | some node => nodes.save (node.assign dto)
  | none => nodes

/-- One event, and the client that a call used. No client is used for a node without a row. -/
def GrpcState.step (s : GrpcState) : NodeEvent → GrpcState × Option GrpcClient
  | .update id dto => ({ s with nodes := updateNode s.nodes id dto }, none)
  | .call id =>
    match findNode s.nodes id with
    | some node =>
      let (client, clients) := getClient s.clients node
      ({ s with clients }, some client)
    | none => (s, none)

/-- The clients used by the calls of a run. -/
def GrpcState.used (s : GrpcState) : List NodeEvent → List GrpcClient
  | [] => []
  | event :: events => (s.step event).2.toList ++ (s.step event).1.used events

/-- The calls of a run, each with the row of its node at the time. -/
def callsOf (nodes : Table NodeEntity) : List NodeEvent → List (String × NodeEntity)
  | [] => []
  | .update id dto :: events => callsOf (updateNode nodes id dto) events
  | .call id :: events =>
    ((findNode nodes id).map fun node => (id, node)).toList ++ callsOf nodes events

/-- Every call uses the client that the row of its node determines at the time of the call. -/
def ClientsCoherent (nodes : Table NodeEntity) (events : List NodeEvent) : Prop :=
  GrpcState.used ⟨nodes, ∅⟩ events = (callsOf nodes events).map fun call => call.2.grpcClient

/-- Whenever a node is called at the address of the last call to it, its scheme asks for the
credentials it asked for then. -/
def SchemesSteady (nodes : Table NodeEntity) (events : List NodeEvent) : Prop :=
  Steady NodeEntity.grpcAddress NodeEntity.channelCredentials (fun _ => none) (callsOf nodes events)

/-! ## The clients are a stamped cache -/

section Refinement

/-- What the clients keep under each id. -/
def kept (clients : GrpcClients) : Cache String String GrpcClient := fun id =>
  (clients.lookup id).map fun cached => (cached.address, cached.client)

theorem kept_insert (clients : GrpcClients) (id : String) (cached : NodeGrpcClient) :
    kept (clients.insert id cached) =
      Function.update (kept clients) id (some (cached.address, cached.client)) := by
  funext id'
  by_cases hid : id' = id
  · subst hid
    rw [Function.update_self, kept, AList.lookup_insert, Option.map_some]
  · rw [Function.update_of_ne hid, kept, AList.lookup_insert_ne hid, kept]

theorem getClient_refines (clients : GrpcClients) (node : NodeEntity) :
    ((getClient clients node).1, kept (getClient clients node).2) =
      fetch NodeEntity.grpcAddress NodeEntity.grpcClient (kept clients) node.id node := by
  have hkept : kept clients node.id =
      (clients.lookup node.id).map fun cached => (cached.address, cached.client) := rfl
  rw [getClient, fetch, hkept]
  cases clients.lookup node.id with
  | none =>
    dsimp only [Option.map_none]
    rw [kept_insert]
  | some cached =>
    dsimp only [Option.map_some]
    split
    next => rfl
    next => rw [kept_insert]

/-- The clients that a run uses are what the cache gives out. -/
theorem used_refines (s : GrpcState) (events : List NodeEvent) : s.used events =
    fetchAll NodeEntity.grpcAddress NodeEntity.grpcClient (kept s.clients)
      (callsOf s.nodes events) := by
  induction events generalizing s with
  | nil => rfl
  | cons event events ih =>
    rw [GrpcState.used, ih]
    cases event with
    | update id dto => rfl
    | call id =>
      rw [callsOf, GrpcState.step]
      cases hnode : findNode s.nodes id with
      | none => rfl
      | some node =>
        have hfound : (node.id == id) = true :=
          Table.findOne_sat (p := fun n : NodeEntity => n.id == id) hnode
        have hclient := getClient_refines s.clients node
        obtain rfl := beq_iff_eq.mp hfound
        show _ = fetchAll _ _ (kept s.clients) ((node.id, node) :: callsOf s.nodes events)
        rw [fetchAll, ← hclient]
        rfl

end Refinement

/-- For every table of nodes and every sequence of edits and calls: each call uses the client
that the row of its node determines at that time, if and only if no node is called at the
address of the last call to it with a scheme that asks for other credentials. -/
theorem clients_coherent_iff (nodes : Table NodeEntity) (events : List NodeEvent) :
    ClientsCoherent nodes events ↔ SchemesSteady nodes events := by
  have hempty : kept ∅ = fun _ => none := by
    funext id
    rw [kept, AList.lookup_empty, Option.map_none]
  have hclient : ∀ r r' : NodeEntity, r'.grpcAddress = r.grpcAddress →
      (r'.grpcClient = r.grpcClient ↔ r'.channelCredentials = r.channelCredentials) := by
    intro r r' haddress
    rw [NodeEntity.grpcClient, NodeEntity.grpcClient, haddress, GrpcClient.mk.injEq]
    exact and_iff_right rfl
  rw [ClientsCoherent, used_refines, hempty, fetchAll_empty_iff, SchemesSteady]
  exact steady_congr hclient (callsOf nodes events) fun _ => none

/-! ## An edit of the scheme -/

section Counterexample

/-- A node that is reached without encryption. -/
def plainNode : NodeEntity where
  id := "n"
  daemonTokenId := "tid"
  daemonToken := "token"
  columns
    | .fqdn => .text "node1.example.com"
    | .scheme => .text "http"
    | .daemonPort => .number 8080
    | .behindProxy => .flag false
    | _ => .null

/-- The node is called, its scheme is set to `https`, and it is called again. -/
def schemeEdited : List NodeEvent :=
  [.call "n", .update "n" fun | .scheme => some (.text "https") | _ => none, .call "n"]

/-- The second call still goes out without encryption. -/
theorem stale_client : ¬ ClientsCoherent (.single plainNode) schemeEdited := by
  unfold ClientsCoherent
  decide

end Counterexample

end Panel
