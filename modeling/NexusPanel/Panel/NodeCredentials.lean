import NexusPanel.Panel.DaemonCallbacks

/-!
# Credentials of nodes

`regenerateToken` loads a node, draws a new credential and sets the two columns it lives in.
`NodesService.update` loads a node, assigns to the other columns and saves: `save` reads the row
once more and writes back every loaded column that differs from it. `DaemonTokenGuard` looks the
first part of a bearer token up and compares the second. Any number of the three may be under
way at the same time, each statement on its own.

`issued` is a history variable, which no code reads: every credential that was ever drawn, latest
first, and what has become of it.
-/

namespace Panel

open Fallible Transition

/-! ## Credentials -/

/-- A byte in two lower case digits. -/
def hexByte (byte : UInt8) : List Char :=
  let digit (n : Nat) : Char := "0123456789abcdef".toList.getD n '0'
  [digit (byte.toNat / 16), digit (byte.toNat % 16)]

/-- `toString('hex')`. -/
def hex (bytes : List UInt8) : String := String.ofList (bytes.flatMap hexByte)

/-- The two columns of a node's credential. -/
structure Credential where
  daemonTokenId : String
  daemonToken : String
deriving DecidableEq, Repr

/-- What a daemon presents. -/
def Credential.bearer (c : Credential) : String := c.daemonTokenId ++ "." ++ c.daemonToken

def Credential.authorization (c : Credential) : String := "Bearer " ++ c.bearer

def DaemonNode.credential (n : DaemonNode) : Credential := ⟨n.daemonTokenId, n.daemonToken⟩

/-! ## Nodes -/

/-- The columns that `UpdateNodeDto` declares. -/
inductive NodeColumn
  | name
  | description
  | location
  | fqdn
  | scheme
  | behindProxy
  | memory
  | memoryOverallocate
  | disk
  | diskOverallocate
  | daemonPort
  | uploadSize
deriving DecidableEq, Repr

inductive ColumnValue
  | null
  | text (value : String)
  | number (value : Int)
  | flag (value : Bool)
deriving DecidableEq, Repr

/-- A row of `nodes`. -/
structure NodeEntity extends DaemonNode where
  columns : NodeColumn → ColumnValue

instance : Keyed String NodeEntity := ⟨fun n => n.id⟩

/-- The columns of the body that are given. -/
abbrev UpdateNodeDto := NodeColumn → Option ColumnValue

/-- `Object.assign(node, dto)`. -/
def NodeEntity.assign (node : NodeEntity) (dto : UpdateNodeDto) : NodeEntity :=
  { node with columns := fun c => (dto c).getD (node.columns c) }

/-- The columns that a `save` writes. -/
structure NodeChanges where
  daemonTokenId : Option String
  daemonToken : Option String
  columns : NodeColumn → Option ColumnValue

/-- The loaded columns that differ from the row. -/
def NodeEntity.diff (node row : NodeEntity) : NodeChanges where
  daemonTokenId := if node.daemonTokenId = row.daemonTokenId then none else some node.daemonTokenId
  daemonToken := if node.daemonToken = row.daemonToken then none else some node.daemonToken
  columns := fun c => if node.columns c = row.columns c then none else some (node.columns c)

def NodeChanges.apply (changes : NodeChanges) (row : NodeEntity) : NodeEntity where
  id := row.id
  daemonTokenId := changes.daemonTokenId.getD row.daemonTokenId
  daemonToken := changes.daemonToken.getD row.daemonToken
  columns := fun c => (changes.columns c).getD (row.columns c)

def NodeEntity.setCredential (row : NodeEntity) (c : Credential) : NodeEntity :=
  { row with daemonTokenId := c.daemonTokenId, daemonToken := c.daemonToken }

/-! ## The history of credentials -/

/-- What has become of a credential: it was there at the beginning, `regenerateToken` has drawn it
and not yet written it, or it has replaced another one. -/
inductive Progress
  | initial
  | pending
  | completed (replaced : Credential)
deriving DecidableEq, Repr

structure Issued where
  nodeId : String
  credential : Credential
  progress : Progress
deriving DecidableEq, Repr

/-- No token id is drawn twice. -/
instance : Keyed String Issued := ⟨fun x => x.credential.daemonTokenId⟩

structure NodesState where
  nodes : Table NodeEntity
  issued : Table Issued

namespace NodesState

/-- The nodes as the guard sees them. -/
def daemons (p : NodesState) : Table DaemonNode := p.nodes.map NodeEntity.toDaemonNode fun _ => rfl

/-- The credential that was drawn last for the node. -/
def latest (p : NodesState) (nodeId : String) : Option Issued :=
  p.issued.findOne fun x => x.nodeId == nodeId

/-- A credential has been drawn. -/
def draw (p : NodesState) (nodeId : String) (credential : Credential) : NodesState :=
  { p with issued := (p.issued.insert ⟨nodeId, credential, .pending⟩).getD p.issued }

/-- The two columns are set, and the credential has replaced the one that was there. -/
def rotate (p : NodesState) (row : NodeEntity) (credential : Credential) : NodesState where
  nodes := p.nodes.update (fun n => n.id == row.id) (·.setCredential credential)
  issued := p.issued.update (fun x => x.credential.daemonTokenId == credential.daemonTokenId)
    fun x => { x with progress := .completed row.credential }

/-- The changed columns are set. -/
def write (p : NodesState) (id : String) (changes : NodeChanges) : NodesState :=
  { p with nodes := p.nodes.update (fun n => n.id == id) changes.apply }

end NodesState

/-! ## Requests in flight -/

/-- What `regenerateToken` answers with; `token` is part of what the daemon is configured with. -/
structure NodeConfiguration where
  credential : Credential
  nodeId : String
  token : String
  panelUrl : String
deriving DecidableEq, Repr

inductive NodeAnswer
  | configuration (configuration : NodeConfiguration)
  | node (node : NodeEntity)
  | attributed (node : DaemonNode)

inductive NodeTask
  | regenerateToken (id : String) (bytes : List UInt8) (token : String)
  | rotate (id : String) (credential : Credential)
  | update (id : String) (dto : UpdateNodeDto)
  | save (node : NodeEntity)
  | write (node : NodeEntity) (changes : NodeChanges)
  | guard (authorization : Option String)

abbrev NodeTurn := Turn NodesState (Option (Except HttpException NodeAnswer)) NodeTask

def NodeTask.turn (panelUrl : String) (p : NodesState) (reply : Settled) : NodeTask → NodeTurn
  | .regenerateToken id bytes token =>
    match reply, p.nodes.findOne fun n => n.id == id with
    | .failed message, _ => ⟨p, some (.error (.internal message)), none⟩
    | .ok, none => ⟨p, some (.error (.notFound "Node not found")), none⟩
    | .ok, some _ => ⟨p.draw id ⟨hex bytes, token⟩, none, some (.rotate id ⟨hex bytes, token⟩)⟩
  | .rotate id credential =>
    let configuration : NodeConfiguration := ⟨credential, id, credential.bearer, panelUrl⟩
    match reply, p.nodes.findOne fun n => n.id == id with
    | .failed message, _ => ⟨p, some (.error (.internal message)), none⟩
    | .ok, none => ⟨p, some (.ok (.configuration configuration)), none⟩
    | .ok, some row => ⟨p.rotate row credential, some (.ok (.configuration configuration)), none⟩
  | .update id dto =>
    match reply, p.nodes.findOne fun n => n.id == id with
    | .failed message, _ => ⟨p, some (.error (.internal message)), none⟩
    | .ok, none => ⟨p, some (.error (.notFound "Node not found")), none⟩
    | .ok, some node => ⟨p, none, some (.save (node.assign dto))⟩
  | .save node =>
    match reply, p.nodes.findOne fun n => n.id == node.id with
    | .failed message, _ => ⟨p, some (.error (.internal message)), none⟩
    -- a row that is gone is inserted
    | .ok, none => ⟨{ p with nodes := p.nodes.save node }, some (.ok (.node node)), none⟩
    | .ok, some row => ⟨p, none, some (.write node (node.diff row))⟩
  | .write node changes =>
    match reply with
    | .failed message => ⟨p, some (.error (.internal message)), none⟩
    | .ok => ⟨p.write node.id changes, some (.ok (.node node)), none⟩
  | .guard authorization =>
    match reply with
    | .failed message => ⟨p, some (.error (.internal message)), none⟩
    | .ok =>
      ⟨p, some ((DaemonTokenGuard.canActivate p.daemons authorization).map .attributed), none⟩

def NodeTask.starts : NodeTask → Bool
  | .regenerateToken _ _ _ | .update _ _ | .guard _ => true
  | .rotate _ _ | .save _ | .write _ _ => false

def nodesSystem (panelUrl : String) :
    Tasks NodesState NodeTask Settled (Option (Except HttpException NodeAnswer)) Empty where
  turn := NodeTask.turn panelUrl
  starts := NodeTask.starts
  outside := fun _ e => nomatch e

abbrev NodesPool := Pool NodesState NodeTask
abbrev NodesLabel := PoolLabel NodeTask Settled Empty

def nodesStep (panelUrl : String) : NodesPool → NodesLabel → Option NodesPool :=
  (nodesSystem panelUrl).step

/-- Nodes whose token ids are distinct, as they are generated, and nothing under way. -/
def NodesPool.idle (nodes : Table NodeEntity)
    (h : (nodes.rows.map fun n => n.daemonTokenId).Nodup) : NodesPool :=
  ⟨⟨nodes, nodes.rows.map fun n => ⟨n.id, n.credential, .initial⟩, by rwa [List.map_map]⟩, []⟩

/-! ## What stays rotated -/

/-- The guard attributes a request with this header to the node. -/
def NodesState.Accepts (p : NodesState) (authorization : Option String) (nodeId : String) : Prop :=
  ∃ node, DaemonTokenGuard.canActivate p.daemons authorization = .ok node ∧ node.id = nodeId

/-- A node whose credential was replaced, with no later rotation started, is attributed exactly
the requests that present the new credential, and what a rotation has replaced is not accepted
for any node. -/
def StayRotated (p : NodesPool) : Prop :=
  (∀ nodeId x replaced, p.store.latest nodeId = some x → x.progress = .completed replaced →
    ∀ authorization, p.store.Accepts authorization nodeId ↔
      authorization = some x.credential.authorization) ∧
  ∀ x ∈ p.store.issued, ∀ replaced, x.progress = .completed replaced →
    ∀ nodeId, ¬ p.store.Accepts (some replaced.authorization) nodeId

/-- The bytes of the token id that the step draws. -/
def drawn (p : NodesPool) : NodesLabel → Option (List UInt8)
  | .turn i .ok =>
    match p.tasks[i]? with
    | some (.regenerateToken _ bytes _) => some bytes
    | _ => none
  | _ => none

/-- A new token id is one that was never drawn before. -/
def DrawsFreshIds (p : NodesPool) (l : NodesLabel) : Prop :=
  ∀ bytes ∈ drawn p l, ∀ x ∈ p.store.issued.rows, x.credential.daemonTokenId ≠ hex bytes

instance (p : NodesPool) (l : NodesLabel) : Decidable (DrawsFreshIds p l) :=
  inferInstanceAs (Decidable (∀ bytes ∈ drawn p l, ∀ x ∈ p.store.issued.rows, _))

/-- The node may be left with this credential: once its latest rotation has completed it is the
one of that rotation, and it is none that a completed rotation has replaced. -/
def NodesState.Allows (p : NodesState) (nodeId : String) (c : Credential) : Prop :=
  (∀ x replaced, p.latest nodeId = some x → x.progress = .completed replaced → c = x.credential) ∧
    ∀ x ∈ p.issued, x.progress ≠ .completed c

/-- A save writes no credential that was replaced since its row was loaded, and a rotation does
not write after one that was started later has completed. -/
def WritesInOrder (p : NodesPool) : NodesLabel → Prop
  | .turn i .ok =>
    (∀ node changes, p.tasks[i]? = some (.write node changes) → ∀ row ∈ p.store.nodes,
      row.id = node.id → p.store.Allows row.id (changes.apply row).credential) ∧
    ∀ id c, p.tasks[i]? = some (.rotate id c) → ∀ x replaced, p.store.latest id = some x →
      x.progress ≠ .completed replaced
  | _ => True

/-! ## Hexadecimal ids have no dot -/

theorem dot_not_mem_hex (bytes : List UInt8) : '.' ∉ (hex bytes).toList := by
  have hdigits : '.' ∉ "0123456789abcdef".toList := by decide
  have hdigit (n : Nat) : '.' ≠ "0123456789abcdef".toList.getD n '0' := by
    rw [List.getD_eq_getElem?_getD]
    cases hn : "0123456789abcdef".toList[n]? with
    | none => decide
    | some c =>
      rintro rfl
      exact hdigits (List.mem_of_getElem? hn)
  rw [hex, String.toList_ofList, List.mem_flatMap]
  rintro ⟨byte, -, h⟩
  rcases List.mem_cons.mp h with h | h
  · exact hdigit _ h
  · exact hdigit _ (List.mem_singleton.mp h)

theorem Credential.stripPrefix (c : Credential) :
    Text.stripPrefix? "Bearer " c.authorization = some c.bearer :=
  Text.stripPrefix?_eq_some.mpr rfl

theorem Credential.splitFirst {c : Credential} (h : '.' ∉ c.daemonTokenId.toList) :
    Text.splitFirst? '.' c.bearer = some (c.daemonTokenId, c.daemonToken) :=
  Text.splitFirst?_append h

/-- A bearer without a dot in its id says which credential it is. -/
theorem Credential.authorization_inj {c c' : Credential} (hc : '.' ∉ c.daemonTokenId.toList)
    (hc' : '.' ∉ c'.daemonTokenId.toList) (h : c.authorization = c'.authorization) : c = c' := by
  have hbearer : some c.bearer = some c'.bearer := by
    rw [← c.stripPrefix, h, c'.stripPrefix]
  have hsplit := Credential.splitFirst hc
  rw [Option.some.inj hbearer, Credential.splitFirst hc'] at hsplit
  cases c
  cases c'
  cases hsplit
  rfl

/-! ## The history -/

namespace NodesState

/-- The token id was drawn for the node, and has been in its row. -/
def Written (p : NodesState) (nodeId tokenId : String) : Prop :=
  ∃ x ∈ p.issued, x.nodeId = nodeId ∧ x.credential.daemonTokenId = tokenId ∧ x.progress ≠ .pending

/-- What is in the tables comes from the history. -/
structure Sound (p : NodesState) : Prop where
  dotless : ∀ x ∈ p.issued, '.' ∉ x.credential.daemonTokenId.toList
  node : ∀ x ∈ p.issued, ∃ row ∈ p.nodes, row.id = x.nodeId
  rows : ∀ row ∈ p.nodes, p.Written row.id row.daemonTokenId
  replaced : ∀ x ∈ p.issued, ∀ c, x.progress = .completed c → p.Written x.nodeId c.daemonTokenId

/-- Every row has a credential it may be left with. -/
def InOrder (p : NodesState) : Prop := ∀ row ∈ p.nodes, p.Allows row.id row.credential

variable {p : NodesState}

theorem latest_nodeId {nodeId : String} {x : Issued} (h : p.latest nodeId = some x) :
    x.nodeId = nodeId := by
  have hsat := Table.findOne_sat h
  rwa [beq_iff_eq] at hsat

/-- A token id was drawn for one node. -/
theorem Written.unique {nodeId nodeId' tokenId : String} (h : p.Written nodeId tokenId)
    (h' : p.Written nodeId' tokenId) : nodeId = nodeId' := by
  obtain ⟨x, hx, rfl, hid, -⟩ := h
  obtain ⟨x', hx', rfl, hid', -⟩ := h'
  rw [Table.eq_of_key hx hx' (hid.trans hid'.symm)]

theorem Written.dotless {nodeId tokenId : String} (hs : p.Sound) (h : p.Written nodeId tokenId) :
    '.' ∉ tokenId.toList := by
  obtain ⟨x, hx, -, rfl, -⟩ := h
  exact hs.dotless x hx

/-- Rows of the same token id are one row. -/
theorem Sound.eq_of_tokenId (hs : p.Sound) {row row' : NodeEntity} (h : row ∈ p.nodes)
    (h' : row' ∈ p.nodes) (hid : row.daemonTokenId = row'.daemonTokenId) : row = row' := by
  have hwritten := hs.rows row h
  rw [hid] at hwritten
  exact Table.eq_of_key h h' (hwritten.unique (hs.rows row' h'))

/-- The guard attributes to a node exactly what presents the credential in its row. -/
theorem Sound.accepts_iff (hs : p.Sound) {row : NodeEntity} (hrow : row ∈ p.nodes)
    {authorization : Option String} :
    p.Accepts authorization row.id ↔ authorization = some row.credential.authorization := by
  constructor
  · rintro ⟨node, hguard, hid⟩
    obtain ⟨hnode, bearer, hbearer, rfl⟩ := authorization_of_canActivate hguard
    obtain ⟨row', hrow', rfl⟩ := Table.mem_map.mp hnode
    obtain rfl : row' = row := Table.eq_of_key hrow' hrow hid
    obtain ⟨header, rfl, hheader⟩ := Option.bind_eq_some_iff.mp hbearer
    rw [Text.stripPrefix?_eq_some.mp hheader]
    rfl
  · rintro rfl
    refine ⟨row.toDaemonNode, ?_, rfl⟩
    have hsplit : Text.splitFirst? '.' row.credential.bearer =
        some (row.daemonTokenId, row.daemonToken) :=
      Credential.splitFirst ((hs.rows row hrow).dotless hs)
    have hfind : p.daemons.findOne (fun n => n.daemonTokenId == row.daemonTokenId) =
        some row.toDaemonNode := by
      refine Table.findOne_eq_some (Table.mem_map.mpr ⟨row, hrow, rfl⟩) (beq_self_eq_true _) ?_
      intro node hnode hid
      obtain ⟨row', hrow', rfl⟩ := Table.mem_map.mp hnode
      rw [hs.eq_of_tokenId hrow' hrow (beq_iff_eq.mp hid)]
    simp only [DaemonTokenGuard.canActivate, Option.bind_some, Credential.stripPrefix, orThrow_some, ok_bind,
      hsplit, hfind, beq_self_eq_true, require_true]
    rfl

end NodesState

/-- Whether the credentials stay rotated can be read off the rows. -/
theorem stayRotated_iff {p : NodesPool} (hs : p.store.Sound) :
    StayRotated p ↔ p.store.InOrder := by
  constructor
  · rintro ⟨hlatest, hreplaced⟩ row hrow
    have haccepts := (hs.accepts_iff hrow).mpr rfl
    constructor
    · intro x replaced hx hcompleted
      have hsame := (hlatest row.id x replaced hx hcompleted _).mp haccepts
      refine Credential.authorization_inj ((hs.rows row hrow).dotless hs)
        (hs.dotless x (Table.findOne_mem hx)) (Option.some.inj hsame)
    · intro x hx hcompleted
      exact hreplaced x hx _ hcompleted row.id haccepts
  · intro horder
    constructor
    · intro nodeId x replaced hx hcompleted authorization
      obtain ⟨row, hrow, hid⟩ := hs.node x (Table.findOne_mem hx)
      rw [NodesState.latest_nodeId hx] at hid
      subst hid
      rw [hs.accepts_iff hrow, (horder row hrow).1 x replaced hx hcompleted]
    · rintro x hx replaced hcompleted nodeId ⟨node, hguard, hid⟩
      obtain ⟨row, hrow, rfl⟩ := Table.mem_map.mp (authorization_of_canActivate hguard).1
      have hsame := (hs.accepts_iff hrow).mp ⟨_, hguard, rfl⟩
      have hcredential : replaced = row.credential := Credential.authorization_inj
        ((hs.replaced x hx replaced hcompleted).dotless hs) ((hs.rows row hrow).dotless hs)
        (Option.some.inj hsame)
      rw [hcredential] at hcompleted
      exact (horder row hrow).2 x hx hcompleted

/-! ## What a turn makes of the history -/

namespace NodesState

variable {p : NodesState} {nodeId : String} {c : Credential}

/-- A credential that is drawn for a node that is there. -/
theorem issued_draw (hfresh : ∀ x ∈ p.issued, x.credential.daemonTokenId ≠ c.daemonTokenId) :
    (p.draw nodeId c).issued.rows = ⟨nodeId, c, .pending⟩ :: p.issued.rows := by
  have hkey : Keyed.key (⟨nodeId, c, .pending⟩ : Issued) ∉ p.issued.rows.map Keyed.key := by
    rintro hmem
    obtain ⟨x, hx, hid⟩ := List.mem_map.mp hmem
    exact hfresh x hx hid
  have hinsert : p.issued.insert ⟨nodeId, c, .pending⟩ =
      some ⟨⟨nodeId, c, .pending⟩ :: p.issued.rows, List.nodup_cons.mpr ⟨hkey, p.issued.nodup⟩⟩ :=
    dif_neg hkey
  rw [draw, hinsert, Option.getD_some]

theorem mem_issued_draw (hfresh : ∀ x ∈ p.issued, x.credential.daemonTokenId ≠ c.daemonTokenId)
    {x : Issued} : x ∈ (p.draw nodeId c).issued ↔ x = ⟨nodeId, c, .pending⟩ ∨ x ∈ p.issued := by
  rw [← Table.mem_rows, issued_draw hfresh]
  exact List.mem_cons

theorem Written.draw (hfresh : ∀ x ∈ p.issued, x.credential.daemonTokenId ≠ c.daemonTokenId)
    {n t : String} (h : p.Written n t) : (p.draw nodeId c).Written n t := by
  obtain ⟨x, hx, hnode, hid, hprogress⟩ := h
  exact ⟨x, (mem_issued_draw hfresh).mpr (.inr hx), hnode, hid, hprogress⟩

theorem Sound.draw (hs : p.Sound) (hdot : '.' ∉ c.daemonTokenId.toList)
    (hnode : ∃ row ∈ p.nodes, row.id = nodeId)
    (hfresh : ∀ x ∈ p.issued, x.credential.daemonTokenId ≠ c.daemonTokenId) :
    (p.draw nodeId c).Sound where
  dotless := by
    intro x hx
    rcases (mem_issued_draw hfresh).mp hx with rfl | hx
    · exact hdot
    · exact hs.dotless x hx
  node := by
    intro x hx
    rcases (mem_issued_draw hfresh).mp hx with rfl | hx
    · exact hnode
    · exact hs.node x hx
  rows := fun row hrow => (hs.rows row hrow).draw hfresh
  replaced := by
    intro x hx old hcompleted
    rcases (mem_issued_draw hfresh).mp hx with rfl | hx
    · cases hcompleted
    · exact (hs.replaced x hx old hcompleted).draw hfresh

/-- A rotation that has only been started leaves everything allowed that was. -/
theorem InOrder.draw (hfresh : ∀ x ∈ p.issued, x.credential.daemonTokenId ≠ c.daemonTokenId)
    (h : p.InOrder) : (p.draw nodeId c).InOrder := by
  intro row hrow
  obtain ⟨hlatest, hreplaced⟩ := h row hrow
  constructor
  · intro x replaced hx hcompleted
    have hfind : (p.draw nodeId c).latest row.id =
        if nodeId == row.id then some ⟨nodeId, c, .pending⟩ else p.latest row.id := by
      rw [latest, Table.findOne, issued_draw hfresh, List.find?_cons]
      split <;> simp_all [latest, Table.findOne]
    rw [hfind] at hx
    split at hx
    · cases hx
      cases hcompleted
    · exact hlatest x replaced hx hcompleted
  · intro x hx hcompleted
    rcases (mem_issued_draw hfresh).mp hx with rfl | hx
    · cases hcompleted
    · exact hreplaced x hx hcompleted

/-- The credential is drawn and not written. -/
def Pending (p : NodesState) (tokenId : String) : Prop :=
  ∃ x ∈ p.issued, x.credential.daemonTokenId = tokenId ∧ x.progress = .pending

theorem Pending.not_written {tokenId : String} (h : p.Pending tokenId) :
    ¬ p.Written nodeId tokenId := by
  obtain ⟨x, hx, hid, hpending⟩ := h
  rintro ⟨y, hy, -, hid', hwritten⟩
  rw [Table.eq_of_key hy hx (hid'.trans hid.symm)] at hwritten
  exact hwritten hpending

section Rotate

variable {row : NodeEntity}

/-- The history with the credential of the rotation completed. -/
def complete (row : NodeEntity) (c : Credential) (x : Issued) : Issued :=
  if x.credential.daemonTokenId == c.daemonTokenId then
    { x with progress := .completed row.credential }
  else x

theorem mem_issued_rotate {y : Issued} :
    y ∈ (p.rotate row c).issued ↔ ∃ x ∈ p.issued, complete row c x = y :=
  Table.mem_update

@[simp] theorem complete_nodeId (x : Issued) : (complete row c x).nodeId = x.nodeId := by
  unfold complete
  split <;> rfl

@[simp] theorem complete_credential (x : Issued) :
    (complete row c x).credential = x.credential := by
  unfold complete
  split <;> rfl

/-- What was completed stays so or is what the rotation completes. -/
theorem complete_progress {x : Issued} {old : Credential}
    (h : (complete row c x).progress = .completed old) :
    x.progress = .completed old ∨
      x.credential.daemonTokenId = c.daemonTokenId ∧ old = row.credential := by
  unfold complete at h
  split at h
  next hid =>
    cases h
    exact .inr ⟨beq_iff_eq.mp hid, rfl⟩
  next => exact .inl h

theorem Written.rotate {n t : String} (h : p.Written n t) : (p.rotate row c).Written n t := by
  obtain ⟨x, hx, hnode, hid, hprogress⟩ := h
  refine ⟨_, mem_issued_rotate.mpr ⟨x, hx, rfl⟩, by rwa [complete_nodeId],
    by rwa [complete_credential], ?_⟩
  unfold complete
  split
  · exact nofun
  · exact hprogress

theorem mem_nodes_rotate {n : NodeEntity} :
    n ∈ (p.rotate row c).nodes ↔
      ∃ m ∈ p.nodes, (if m.id == row.id then m.setCredential c else m) = n :=
  Table.mem_update (f := fun m : NodeEntity => m.setCredential c) fun _ => rfl

theorem latest_rotate (n : String) :
    (p.rotate row c).latest n = (p.latest n).map (complete row c) := by
  have hsame : ((fun x : Issued => x.nodeId == n) ∘ complete row c) = fun x => x.nodeId == n := by
    funext x
    rw [Function.comp_apply, complete_nodeId]
  change List.find? _ (List.map (complete row c) _) = _
  rw [List.find?_map, hsame]
  rfl

variable (hs : p.Sound) (hrow : row ∈ p.nodes) (hpending : p.Pending c.daemonTokenId)
  (hissued : ∃ x ∈ p.issued, x.nodeId = row.id ∧ x.credential = c)

include hs hrow hissued in
theorem Sound.rotate : (p.rotate row c).Sound where
  dotless := by
    intro y hy
    obtain ⟨x, hx, rfl⟩ := mem_issued_rotate.mp hy
    rw [complete_credential]
    exact hs.dotless x hx
  node := by
    intro y hy
    obtain ⟨x, hx, rfl⟩ := mem_issued_rotate.mp hy
    obtain ⟨m, hm, hid⟩ := hs.node x hx
    refine ⟨_, mem_nodes_rotate.mpr ⟨m, hm, rfl⟩, ?_⟩
    rw [complete_nodeId, ← hid]
    split <;> rfl
  rows := by
    intro n hn
    obtain ⟨m, hm, rfl⟩ := mem_nodes_rotate.mp hn
    split
    next hid =>
      obtain ⟨x, hx, hnode, rfl⟩ := hissued
      refine ⟨_, mem_issued_rotate.mpr ⟨x, hx, rfl⟩, ?_, by rw [complete_credential]; rfl, ?_⟩
      · rw [complete_nodeId, hnode]
        exact (beq_iff_eq.mp hid).symm
      · rw [complete, if_pos (beq_self_eq_true _)]
        exact nofun
    next => exact (hs.rows m hm).rotate
  replaced := by
    intro y hy old hcompleted
    obtain ⟨x, hx, rfl⟩ := mem_issued_rotate.mp hy
    rw [complete_nodeId]
    rcases complete_progress hcompleted with hold | ⟨hid, rfl⟩
    · exact (hs.replaced x hx old hold).rotate
    · obtain ⟨z, hz, hnode, rfl⟩ := hissued
      rw [Table.eq_of_key hx hz hid, hnode]
      exact (hs.rows row hrow).rotate

include hpending in
theorem ne_of_completed {x : Issued} {old : Credential} (hx : x ∈ p.issued)
    (hcompleted : x.progress = .completed old) :
    x.credential.daemonTokenId ≠ c.daemonTokenId := by
  intro hid
  obtain ⟨y, hy, hid', hpending⟩ := hpending
  rw [Table.eq_of_key hx hy (hid.trans hid'.symm), hpending] at hcompleted
  cases hcompleted

include hs hrow hpending hissued in
/-- A rotation that writes leaves everything allowed unless a later one has completed. -/
theorem inOrder_rotate (horder : p.InOrder) :
    (p.rotate row c).InOrder ↔
      ∀ x replaced, p.latest row.id = some x → x.progress ≠ .completed replaced := by
  have hown {x : Issued} (hx : x ∈ p.issued) (hid : x.credential.daemonTokenId = c.daemonTokenId) :
      x.nodeId = row.id ∧ x.credential = c := by
    obtain ⟨y, hy, hnode, rfl⟩ := hissued
    obtain rfl : x = y := Table.eq_of_key hx hy hid
    exact ⟨hnode, rfl⟩
  constructor
  · intro h x replaced hx hcompleted
    have hne := ne_of_completed hpending (Table.findOne_mem hx) hcompleted
    have hkept : complete row c x = x := by
      rw [complete, if_neg (by rwa [beq_iff_eq])]
    have hnew : row.setCredential c ∈ (p.rotate row c).nodes := by
      refine mem_nodes_rotate.mpr ⟨row, hrow, ?_⟩
      rw [if_pos (beq_self_eq_true _)]
    have hlatest : (p.rotate row c).latest row.id = some x := by
      rw [latest_rotate, hx, Option.map_some, hkept]
    have hsame : c = x.credential := (h _ hnew).1 x replaced hlatest hcompleted
    exact hne (congrArg Credential.daemonTokenId hsame.symm)
  · intro hnone n hn
    obtain ⟨m, hm, rfl⟩ := mem_nodes_rotate.mp hn
    split
    next hid =>
      obtain rfl : m = row := Table.eq_of_key hm hrow (beq_iff_eq.mp hid)
      constructor
      · intro y replaced hy hcompleted
        rw [show (m.setCredential c).id = m.id from rfl, latest_rotate] at hy
        obtain ⟨x, hx, rfl⟩ := Option.map_eq_some_iff.mp hy
        rw [complete_credential]
        rcases complete_progress hcompleted with hold | ⟨hid, -⟩
        · exact absurd hold (hnone x replaced hx)
        · exact (hown (Table.findOne_mem hx) hid).2.symm
      · intro y hy hcompleted
        obtain ⟨x, hx, rfl⟩ := mem_issued_rotate.mp hy
        rcases complete_progress hcompleted with hold | ⟨-, hsame⟩
        · exact hpending.not_written (hs.replaced x hx c hold)
        · have hwritten : p.Written m.id c.daemonTokenId := by
            rw [show c = m.credential from hsame]
            exact hs.rows m hm
          exact hpending.not_written hwritten
    next hid =>
      have hne : m.id ≠ row.id := fun heq => hid (beq_iff_eq.mpr heq)
      constructor
      · intro y replaced hy hcompleted
        rw [latest_rotate] at hy
        obtain ⟨x, hx, rfl⟩ := Option.map_eq_some_iff.mp hy
        rw [complete_credential]
        rcases complete_progress hcompleted with hold | ⟨hid, -⟩
        · exact (horder m hm).1 x replaced hx hold
        · have hnode := (hown (Table.findOne_mem hx) hid).1
          rw [latest_nodeId hx] at hnode
          exact absurd hnode hne
      · intro y hy hcompleted
        obtain ⟨x, hx, rfl⟩ := mem_issued_rotate.mp hy
        rcases complete_progress hcompleted with hold | ⟨-, hsame⟩
        · exact (horder m hm).2 x hx hold
        · have hid : m.daemonTokenId = row.daemonTokenId :=
            congrArg Credential.daemonTokenId hsame
          exact hne (congrArg (fun n : NodeEntity => n.id) (hs.eq_of_tokenId hm hrow hid))

end Rotate

/-! ## What a save makes of the rows -/

section Write

variable {id : String} {changes : NodeChanges}

theorem mem_nodes_write {n : NodeEntity} :
    n ∈ (p.write id changes).nodes ↔
      ∃ m ∈ p.nodes, (if m.id == id then changes.apply m else m) = n :=
  Table.mem_update (f := changes.apply) fun _ => rfl

theorem Sound.write (hs : p.Sound)
    (hchanges : ∀ t, changes.daemonTokenId = some t → p.Written id t) :
    (p.write id changes).Sound where
  dotless := hs.dotless
  node := by
    intro x hx
    obtain ⟨m, hm, hid⟩ := hs.node x hx
    refine ⟨_, mem_nodes_write.mpr ⟨m, hm, rfl⟩, ?_⟩
    rw [← hid]
    split <;> rfl
  rows := by
    intro n hn
    obtain ⟨m, hm, rfl⟩ := mem_nodes_write.mp hn
    split
    next hid =>
      have hid : m.id = id := beq_iff_eq.mp hid
      change p.Written m.id (changes.daemonTokenId.getD m.daemonTokenId)
      cases hchange : changes.daemonTokenId with
      | none => exact hs.rows m hm
      | some t =>
        rw [hid]
        exact hchanges t hchange
    next => exact hs.rows m hm
  replaced := hs.replaced

theorem inOrder_write (horder : p.InOrder) :
    (p.write id changes).InOrder ↔
      ∀ row ∈ p.nodes, row.id = id → p.Allows row.id (changes.apply row).credential := by
  constructor
  · intro h row hrow hid
    refine h (changes.apply row) (mem_nodes_write.mpr ⟨row, hrow, ?_⟩)
    rw [if_pos (beq_iff_eq.mpr hid)]
  · intro hallowed n hn
    obtain ⟨m, hm, rfl⟩ := mem_nodes_write.mp hn
    split
    next hid => exact hallowed m hm (beq_iff_eq.mp hid)
    next => exact horder m hm

end Write

end NodesState

/-! ## One turn -/

namespace NodeTask

/-- The task is about to write the credential with the token id. -/
def rotates (tokenId : String) : NodeTask → Bool
  | .rotate _ c => c.daemonTokenId == tokenId
  | _ => false

/-- What the task has loaded or drawn is in the history. -/
def Known (p : NodesState) : NodeTask → Prop
  | .rotate id c => ∃ x ∈ p.issued, x.nodeId = id ∧ x.credential = c
  | .save node => p.Written node.id node.daemonTokenId
  | .write node changes => ∀ t, changes.daemonTokenId = some t → p.Written node.id t
  | _ => True

/-- What a turn of the task can do. -/
inductive Does (p : NodesState) (reply : Settled) (task : NodeTask) (u : NodeTurn) : Prop
  | nothing (hstore : u.store = p)
      (hnext : ∀ t, u.next = some t → t.Known p ∧ ∀ tokenId, t.rotates tokenId = false)
      (hrotate : ∀ id c, task = .rotate id c → reply ≠ .ok)
      (hwrite : ∀ node changes, task = .write node changes → reply ≠ .ok)
  | draws (id : String) (bytes : List UInt8) (token : String) (hreply : reply = .ok)
      (htask : task = .regenerateToken id bytes token) (hnode : ∃ row ∈ p.nodes, row.id = id)
      (hstore : u.store = p.draw id ⟨hex bytes, token⟩)
      (hnext : u.next = some (.rotate id ⟨hex bytes, token⟩))
  | rotates (row : NodeEntity) (c : Credential) (hreply : reply = .ok) (hrow : row ∈ p.nodes)
      (htask : task = .rotate row.id c) (hstore : u.store = p.rotate row c)
      (hnext : u.next = none)
  | writes (node : NodeEntity) (changes : NodeChanges) (hreply : reply = .ok)
      (htask : task = .write node changes) (hstore : u.store = p.write node.id changes)
      (hnext : u.next = none)

variable {panelUrl : String} {p : NodesState} {reply : Settled} {task : NodeTask}

theorem exists_row (hs : p.Sound) {id : String} (h : ∃ x ∈ p.issued, x.nodeId = id) :
    ∃ row ∈ p.nodes, row.id = id ∧ p.nodes.findOne (fun n => n.id == id) = some row := by
  obtain ⟨x, hx, rfl⟩ := h
  obtain ⟨row, hrow, hid⟩ := hs.node x hx
  refine ⟨row, hrow, hid, Table.findOne_eq_some hrow (beq_iff_eq.mpr hid) fun n _ hn => ?_⟩
  exact (beq_iff_eq.mp hn).trans hid.symm

theorem found_row {id : String} {row : NodeEntity}
    (h : p.nodes.findOne (fun n => n.id == id) = some row) : row ∈ p.nodes ∧ row.id = id :=
  ⟨Table.findOne_mem h, by simpa using Table.findOne_sat h⟩

/-- A turn that changes nothing and is not a write that went through. -/
theorem Does.over {u : NodeTurn} (hstore : u.store = p) (hnext : u.next = none)
    (h : reply ≠ .ok) : Does p reply task u :=
  .nothing hstore (fun t ht => by rw [hnext] at ht; cases ht) (fun _ _ _ => h) fun _ _ _ => h

theorem turn_does (hs : p.Sound) (hknown : task.Known p) :
    Does p reply task (task.turn panelUrl p reply) := by
  cases reply with
  | failed message =>
    cases task with
    | write node changes | guard authorization => exact .over rfl rfl nofun
    | regenerateToken id bytes token | rotate id c | update id dto | save node =>
      simp only [turn]
      exact .over rfl rfl nofun
  | ok =>
    cases task with
    | regenerateToken id bytes token =>
      simp only [turn]
      cases hfind : p.nodes.findOne fun n => n.id == id with
      | none => exact .nothing rfl (fun _ h => nomatch h) nofun nofun
      | some row => exact .draws id bytes token rfl rfl ⟨row, found_row hfind⟩ rfl rfl
    | rotate id c =>
      obtain ⟨x, hx, hnode, -⟩ := hknown
      obtain ⟨row, hrow, rfl, hfind⟩ := exists_row hs ⟨x, hx, hnode⟩
      simp only [turn, hfind]
      exact .rotates row c rfl hrow rfl rfl rfl
    | update id dto =>
      simp only [turn]
      cases hfind : p.nodes.findOne fun n => n.id == id with
      | none => exact .nothing rfl (fun _ h => nomatch h) nofun nofun
      | some row =>
        refine .nothing rfl (fun t ht => ?_) nofun nofun
        cases ht
        exact ⟨hs.rows row (found_row hfind).1, fun _ => rfl⟩
    | save node =>
      obtain ⟨x, hx, hnode, hid, hprogress⟩ := hknown
      obtain ⟨row, hrow, hrowid, hfind⟩ := exists_row hs ⟨x, hx, hnode⟩
      simp only [turn, hfind]
      refine .nothing rfl (fun t ht => ?_) nofun nofun
      cases ht
      refine ⟨fun tokenId hchange => ?_, fun _ => rfl⟩
      simp only [NodeEntity.diff] at hchange
      split at hchange
      · cases hchange
      · cases hchange
        exact ⟨x, hx, hnode, hid, hprogress⟩
    | write node changes => exact .writes node changes rfl rfl rfl rfl
    | guard authorization => exact .nothing rfl (fun _ h => nomatch h) nofun nofun

theorem Known.draw {id : String} {c : Credential} (h : task.Known p)
    (hfresh : ∀ x ∈ p.issued, x.credential.daemonTokenId ≠ c.daemonTokenId) :
    task.Known (p.draw id c) := by
  cases task with
  | rotate n d =>
    obtain ⟨x, hx, hmatch⟩ := h
    exact ⟨x, (NodesState.mem_issued_draw hfresh).mpr (.inr hx), hmatch⟩
  | save node => exact NodesState.Written.draw hfresh h
  | write node changes => exact fun t ht => (h t ht).draw hfresh
  | regenerateToken id bytes token | update id dto | guard authorization => trivial

theorem Known.rotate {row : NodeEntity} {c : Credential} (h : task.Known p) :
    task.Known (p.rotate row c) := by
  cases task with
  | rotate n d =>
    obtain ⟨x, hx, hmatch⟩ := h
    refine ⟨_, NodesState.mem_issued_rotate.mpr ⟨x, hx, rfl⟩, ?_⟩
    rwa [NodesState.complete_nodeId, NodesState.complete_credential]
  | save node => exact NodesState.Written.rotate h
  | write node changes => exact fun t ht => (h t ht).rotate
  | regenerateToken id bytes token | update id dto | guard authorization => trivial

end NodeTask

/-! ## Runs -/

/-- What holds of every run in which token ids are drawn once: a credential that is about to be
written is about to be written by one request, and was not written before. -/
structure NodesPool.Invariant (p : NodesPool) : Prop where
  holds : p.Holds NodesState.Sound NodeTask.Known
  once : ∀ t, p.count (NodeTask.rotates t) ≤ 1
  pending : ∀ t, 0 < p.count (NodeTask.rotates t) → p.store.Pending t

section Steps

variable {panelUrl : String} {p p' : NodesPool} {l : NodesLabel}

theorem invariant_step (h : p.Invariant) (hfresh : DrawsFreshIds p l)
    (hstep : nodesStep panelUrl p l = some p') : p'.Invariant := by
  cases l with
  | outside e => exact e.elim
  | start task =>
    have hstarts := (Tasks.step_start hstep).1
    have hrotates (t : String) : NodeTask.rotates t task = false := by
      cases task <;> first | rfl | cases hstarts
    have hcount (t : String) : p'.count (NodeTask.rotates t) = p.count (NodeTask.rotates t) := by
      rw [Pool.count_start hstep, hrotates]
      rfl
    obtain ⟨-, hp'⟩ := Tasks.step_start hstep
    refine ⟨h.holds.start ?_ hstep, fun t => ?_, fun t ht => ?_⟩
    · cases task <;> trivial
    · rw [hcount]
      exact h.once t
    · rw [hcount] at ht
      rw [hp']
      exact h.pending t ht
  | turn i reply =>
    obtain ⟨task, htask, hp'⟩ := Tasks.step_turn hstep
    have hcount (t : String) := Pool.count_turn (q := NodeTask.rotates t) htask hstep
    have hthis {Q : NodeTask → Prop} (hQ : Q task) :
        ∀ t ∈ p.tasks, p.tasks[i]? = some t → Q t := by
      intro t _ ht
      cases htask.symm.trans ht
      exact hQ
    have hdoes : NodeTask.Does p.store reply task ((nodesSystem panelUrl).turn p.store reply task) :=
      NodeTask.turn_does h.holds.store (h.holds.tasks task (List.mem_of_getElem? htask))
    have hstore' : p'.store = ((nodesSystem panelUrl).turn p.store reply task).store := by rw [hp']
    cases hdoes with
    | nothing hstore hnext =>
      rw [hstore] at hstore'
      have hle (t : String) : p'.count (NodeTask.rotates t) ≤ p.count (NodeTask.rotates t) := by
        have hnone : ((nodesSystem panelUrl).turn p.store reply task).next.toList.countP
            (NodeTask.rotates t) = 0 := by
          rw [List.countP_eq_zero]
          intro x hx
          rw [(hnext x (Option.mem_toList.mp hx)).2 t]
          exact Bool.false_ne_true
        have hsum := hcount t
        omega
      refine ⟨h.holds.turn (hthis ?_) (hthis ?_) (hthis ?_) hstep, fun t => ?_, fun t ht => ?_⟩
      · rw [hstore]
        exact h.holds.store
      · rw [hstore]
        exact fun t ht => (hnext t ht).1
      · rw [hstore]
        exact fun _ _ ht => ht
      · exact (hle t).trans (h.once t)
      · rw [hstore']
        exact h.pending t (ht.trans_le (hle t))
    | draws id bytes token hreply htask' hnode hstore hnext =>
      subst hreply htask'
      have hfresh : ∀ x ∈ p.store.issued, x.credential.daemonTokenId ≠ hex bytes :=
        hfresh bytes (by simp [drawn, htask])
      rw [hstore] at hstore'
      have hnew : p.count (NodeTask.rotates (hex bytes)) = 0 := by
        by_contra hne
        obtain ⟨x, hx, hid, -⟩ := h.pending _ (Nat.pos_of_ne_zero hne)
        exact hfresh x hx hid
      have hsum (t : String) : p'.count (NodeTask.rotates t) =
          p.count (NodeTask.rotates t) + if hex bytes == t then 1 else 0 := by
        have hsum := hcount t
        rw [hnext] at hsum
        simpa [NodeTask.rotates, List.countP_cons] using hsum
      refine ⟨h.holds.turn (hthis ?_) (hthis ?_) (hthis ?_) hstep, fun t => ?_, fun t ht => ?_⟩
      · rw [hstore]
        exact h.holds.store.draw (dot_not_mem_hex bytes) hnode hfresh
      · rw [hstore, hnext]
        rintro t ht
        cases ht
        exact ⟨_, (NodesState.mem_issued_draw hfresh).mpr (.inl rfl), rfl, rfl⟩
      · rw [hstore]
        exact fun _ _ ht => ht.draw hfresh
      · rw [hsum]
        split
        next heq =>
          rw [← beq_iff_eq.mp heq, hnew]
        next => exact h.once t
      · rw [hstore']
        rw [hsum] at ht
        split at ht
        next heq =>
          exact ⟨_, (NodesState.mem_issued_draw hfresh).mpr (.inl rfl), beq_iff_eq.mp heq, rfl⟩
        next =>
          obtain ⟨x, hx, hpending⟩ := h.pending t ht
          exact ⟨x, (NodesState.mem_issued_draw hfresh).mpr (.inr hx), hpending⟩
    | rotates row c hreply hrow htask' hstore hnext =>
      subst htask'
      rw [hstore] at hstore'
      have hknown := h.holds.tasks _ (List.mem_of_getElem? htask)
      have hsum (t : String) : p'.count (NodeTask.rotates t) +
          (if c.daemonTokenId == t then 1 else 0) = p.count (NodeTask.rotates t) := by
        have hsum := hcount t
        rw [hnext] at hsum
        exact hsum
      refine ⟨h.holds.turn (hthis ?_) (hthis ?_) (hthis ?_) hstep, fun t => ?_, fun t ht => ?_⟩
      · rw [hstore]
        exact h.holds.store.rotate hrow hknown
      · rw [hnext]
        exact nofun
      · rw [hstore]
        exact fun _ _ ht => ht.rotate
      · have honce := h.once t
        have hsum := hsum t
        omega
      · rw [hstore']
        have honce := h.once t
        have hsum := hsum t
        split at hsum
        next => omega
        next hne =>
          obtain ⟨x, hx, hid, hpending⟩ := h.pending t (by omega)
          refine ⟨_, NodesState.mem_issued_rotate.mpr ⟨x, hx, rfl⟩, ?_, ?_⟩
          · rwa [NodesState.complete_credential]
          · rw [NodesState.complete, if_neg, hpending]
            rintro heq
            rw [beq_iff_eq, hid] at heq
            exact hne (beq_iff_eq.mpr heq.symm)
    | writes node changes hreply htask' hstore hnext =>
      subst htask'
      rw [hstore] at hstore'
      have hknown := h.holds.tasks _ (List.mem_of_getElem? htask)
      have hsum (t : String) : p'.count (NodeTask.rotates t) = p.count (NodeTask.rotates t) := by
        have hsum := hcount t
        rw [hnext] at hsum
        exact hsum
      refine ⟨h.holds.turn (hthis ?_) (hthis ?_) (hthis ?_) hstep, fun t => ?_, fun t ht => ?_⟩
      · rw [hstore]
        exact h.holds.store.write hknown
      · rw [hnext]
        exact nofun
      · rw [hstore]
        intro t _ ht
        cases t <;> exact ht
      · rw [hsum]
        exact h.once t
      · rw [hstore']
        rw [hsum] at ht
        exact h.pending t ht

/-- A step leaves every node with a credential that is allowed exactly when it writes in order. -/
theorem inOrder_step (h : p.Invariant) (hfresh : DrawsFreshIds p l) (horder : p.store.InOrder)
    (hstep : nodesStep panelUrl p l = some p') : p'.store.InOrder ↔ WritesInOrder p l := by
  cases l with
  | outside e => exact e.elim
  | start task =>
    obtain ⟨-, rfl⟩ := Tasks.step_start hstep
    exact iff_of_true horder trivial
  | turn i reply =>
    obtain ⟨task, htask, rfl⟩ := Tasks.step_turn hstep
    have hmem := List.mem_of_getElem? htask
    have hdoes : NodeTask.Does p.store reply task ((nodesSystem panelUrl).turn p.store reply task) :=
      NodeTask.turn_does h.holds.store (h.holds.tasks task hmem)
    dsimp only
    cases hdoes with
    | nothing hstore hnext hrotate hwrite =>
      rw [hstore]
      refine iff_of_true horder ?_
      cases reply with
      | failed message => trivial
      | ok =>
        refine ⟨fun node changes hi => ?_, fun id c hi => ?_⟩
        · exact absurd rfl (hwrite node changes (Option.some.inj (htask.symm.trans hi)))
        · exact absurd rfl (hrotate id c (Option.some.inj (htask.symm.trans hi)))
    | draws id bytes token hreply htask' hnode hstore hnext =>
      subst hreply htask'
      rw [hstore]
      refine iff_of_true (horder.draw (hfresh bytes (by simp [drawn, htask]))) ?_
      refine ⟨fun node changes hi => ?_, fun id c hi => ?_⟩ <;> cases htask.symm.trans hi
    | rotates row c hreply hrow htask' hstore hnext =>
      subst hreply htask'
      rw [hstore]
      have hpending : p.store.Pending c.daemonTokenId := by
        refine h.pending _ (List.countP_pos_iff.mpr ⟨_, hmem, ?_⟩)
        exact beq_self_eq_true _
      rw [NodesState.inOrder_rotate h.holds.store hrow hpending (h.holds.tasks _ hmem) horder]
      constructor
      · intro hlatest
        refine ⟨fun node changes hi => ?_, fun id d hi => ?_⟩
        · cases htask.symm.trans hi
        · cases htask.symm.trans hi
          exact hlatest
      · exact fun hC => hC.2 row.id c htask
    | writes node changes hreply htask' hstore hnext =>
      subst hreply htask'
      rw [hstore, NodesState.inOrder_write horder]
      constructor
      · intro hallowed
        refine ⟨fun n ch hi => ?_, fun id d hi => ?_⟩
        · cases htask.symm.trans hi
          exact hallowed
        · cases htask.symm.trans hi
      · exact fun hC => hC.1 node changes htask

end Steps

/-- Nothing has been replaced at the beginning. -/
theorem invariant_idle {nodes : Table NodeEntity}
    (h : (nodes.rows.map fun n => n.daemonTokenId).Nodup)
    (hhex : ∀ n ∈ nodes, ∃ bytes, n.daemonTokenId = hex bytes) :
    (NodesPool.idle nodes h).Invariant ∧ (NodesPool.idle nodes h).store.InOrder := by
  have hissued {x : Issued} (hx : x ∈ (NodesPool.idle nodes h).store.issued) :
      ∃ n ∈ nodes, x = ⟨n.id, n.credential, .initial⟩ := by
    obtain ⟨n, hn, rfl⟩ := List.mem_map.mp hx
    exact ⟨n, hn, rfl⟩
  refine ⟨⟨⟨⟨fun x hx => ?_, fun x hx => ?_, fun row hrow => ?_, fun x hx c hcompleted => ?_⟩,
    nofun⟩, fun t => Nat.zero_le _, fun t ht => (nomatch ht)⟩, fun row hrow => ⟨?_, ?_⟩⟩
  · obtain ⟨n, hn, rfl⟩ := hissued hx
    obtain ⟨bytes, hbytes⟩ := hhex n hn
    rw [show n.credential.daemonTokenId = hex bytes from hbytes]
    exact dot_not_mem_hex bytes
  · obtain ⟨n, hn, rfl⟩ := hissued hx
    exact ⟨n, hn, rfl⟩
  · exact ⟨_, List.mem_map.mpr ⟨row, hrow, rfl⟩, rfl, rfl, nofun⟩
  · obtain ⟨n, hn, rfl⟩ := hissued hx
    cases hcompleted
  · intro x replaced hx hcompleted
    obtain ⟨n, hn, rfl⟩ := hissued (Table.findOne_mem hx)
    cases hcompleted
  · intro x hx hcompleted
    obtain ⟨n, hn, rfl⟩ := hissued hx
    cases hcompleted

/-- In every run in which no token id is drawn twice: rotated credentials stay rotated exactly
when no save writes back a credential that was replaced since its row was loaded, and no rotation
writes after a later one has completed. -/
theorem stayRotated_iff_writesInOrder (panelUrl : String) (nodes : Table NodeEntity)
    (h : (nodes.rows.map fun n => n.daemonTokenId).Nodup)
    (hhex : ∀ n ∈ nodes, ∃ bytes, n.daemonTokenId = hex bytes) (ls : List NodesLabel)
    (hfresh : Along (nodesStep panelUrl) DrawsFreshIds (.idle nodes h) ls) :
    Always (nodesStep panelUrl) (fun _ p => StayRotated p) (.idle nodes h) ls ↔
      Along (nodesStep panelUrl) WritesInOrder (.idle nodes h) ls := by
  refine property_iff_along_under (I := fun p => p.Invariant ∧ p.store.InOrder)
    (fun p hp => (stayRotated_iff hp.1.holds.store).mpr hp.2)
    (fun p l p' hp hE hC hstep => ?_) (fun p l p' hp hE hstep hP => ?_) (fun p l hstuck => ?_)
    (invariant_idle h hhex) hfresh
  · exact ⟨invariant_step hp.1 hE hstep, (inOrder_step hp.1 hE hp.2 hstep).mpr hC⟩
  · have hinvariant := invariant_step hp.1 hE hstep
    exact (inOrder_step hp.1 hE hp.2 hstep).mp ((stayRotated_iff hinvariant.holds.store).mp hP)
  · cases l with
    | start task => trivial
    | outside e => exact e.elim
    | turn i reply =>
      have htask : p.tasks[i]? = none := by
        cases htask : p.tasks[i]? with
        | none => rfl
        | some task =>
          simp only [nodesStep, Tasks.step, Tasks.turnOf, htask, Option.map_some] at hstuck
          cases hstuck
      cases reply with
      | failed message => trivial
      | ok =>
        refine ⟨fun node changes hi => ?_, fun id c hi => ?_⟩ <;>
        · rw [htask] at hi
          cases hi

/-! ## A save behind a rotation -/

/-- One node, with columns that do not matter. -/
def oneNode : Table NodeEntity :=
  ⟨[⟨⟨"n", hex [0x0a], "old"⟩, fun _ => .null⟩], by decide⟩

theorem oneNode_hex : ∀ n ∈ oneNode, ∃ bytes, n.daemonTokenId = hex bytes := by
  intro n hn
  rw [List.mem_singleton.mp hn]
  exact ⟨_, rfl⟩

def oneNodeIdle : NodesPool := .idle oneNode (by decide)

/-- The credential is regenerated, and nobody edits the node. -/
def rotationRun : List NodesLabel :=
  [.start (.regenerateToken "n" [0x0b] "new"), .turn 0 .ok, .turn 0 .ok]

theorem rotation_stays :
    Always (nodesStep "http://localhost:3000") (fun _ p => StayRotated p) oneNodeIdle rotationRun ↔
      Along (nodesStep "http://localhost:3000") WritesInOrder oneNodeIdle rotationRun :=
  stayRotated_iff_writesInOrder _ oneNode (by decide) oneNode_hex rotationRun (by decide +kernel)

/-- An edit of the node is under way while its credential is regenerated. -/
def staleRun : List NodesLabel :=
  .start (.update "n" fun _ => none) :: .turn 0 .ok :: rotationRun ++ [.turn 0 .ok, .turn 0 .ok]

/-- The edit brings the old credential back. -/
theorem old_credential_returns :
    ¬ ∀ (panelUrl : String) (nodes : Table NodeEntity)
        (h : (nodes.rows.map fun n => n.daemonTokenId).Nodup) (ls : List NodesLabel),
        (∀ n ∈ nodes, ∃ bytes, n.daemonTokenId = hex bytes) →
        Along (nodesStep panelUrl) DrawsFreshIds (.idle nodes h) ls →
        Always (nodesStep panelUrl) (fun _ p => StayRotated p) (.idle nodes h) ls := by
  intro h
  have halways := h "" oneNode (by decide) staleRun oneNode_hex (by decide +kernel)
  have hreplaced := (halways staleRun (List.prefix_refl _) _ rfl).2 ⟨"n", ⟨hex [0x0b], "new"⟩,
    .completed ⟨hex [0x0a], "old"⟩⟩ (by decide +kernel) ⟨hex [0x0a], "old"⟩ rfl "n"
  exact hreplaced ⟨⟨"n", hex [0x0a], "old"⟩, by decide +kernel, rfl⟩

end Panel
