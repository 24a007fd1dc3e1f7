import Mathlib.Data.List.AList
import NexusPanel.Panel.DaemonCallbacks
import NexusPanel.Panel.HeartbeatDto

/-!
# The status of a node and its heartbeats

A heartbeat is kept in memory, and the row of the node is written only when the node comes online:
when the store knew no fresh heartbeat and the copy of the row that the guard loaded does not say
`connected`. `getHealth` loads a row, looks at the store, and writes `disconnected` when the node
is offline and the copy says `connected`. Between a look and the write that follows from it,
anything may happen.

So the row can be wrong in two ways. A heartbeat that finds the node online, or a copy that says
`connected`, leaves the row as it is, whatever it says by now and whatever version it has. And a
write of `getHealth` may come after a heartbeat that was processed in the meantime.

History variable, which no call reads: for each node the version of the heartbeat that was
processed last, and when.
-/

namespace Panel

open Fallible Transition

inductive NodeConnectionStatus
  | connected
  | disconnected
  | error
deriving DecidableEq, Repr

/-- A row of `nodes`, with the columns that heartbeats are about. -/
structure StatusNode extends DaemonNode where
  connectionStatus : NodeConnectionStatus
  wingsVersion : Option String
deriving DecidableEq, Repr

instance : Keyed String StatusNode := ⟨fun n => n.id⟩

namespace StatusNode

def setConnected (version : String) (n : StatusNode) : StatusNode :=
  { n with connectionStatus := .connected, wingsVersion := some version }

def setDisconnected (n : StatusNode) : StatusNode := { n with connectionStatus := .disconnected }

end StatusNode

/-- A heartbeat as the daemon sends it; `rest` are the properties that are only passed on. -/
structure Heartbeat where
  version : String
  rest : List (String × JsValue)

structure HeartbeatData extends Heartbeat where
  receivedAt : Nat

/-- The map of `NodeHeartbeatStore`. -/
abbrev HeartbeatStore := AList fun _ : String => HeartbeatData

namespace HeartbeatStore

/-- `OFFLINE_THRESHOLD_MS`. -/
def offlineThresholdMs : Nat := 60000

def isOnline (store : HeartbeatStore) (now : Nat) (nodeId : String) : Bool :=
  match store.lookup nodeId with
  | some data => decide (now - data.receivedAt < offlineThresholdMs)
  | none => false

end HeartbeatStore

/-- `processed` is the history variable. Times are milliseconds. -/
structure StatusState where
  nodes : Table StatusNode
  heartbeats : HeartbeatStore
  now : Nat
  processed : AList fun _ : String => String × Nat

namespace StatusState

/-- The nodes as the guard sees them. -/
def daemons (p : StatusState) : Table DaemonNode := p.nodes.map StatusNode.toDaemonNode fun _ => rfl

/-- `nodeRepo.update(id, …)`. -/
def update (p : StatusState) (id : String) (f : StatusNode → StatusNode)
    (hf : ∀ n, (f n).id = n.id := by intro _; rfl) : StatusState :=
  { p with nodes := p.nodes.update (fun n => n.id == id) f hf }

/-- A heartbeat with the version has been processed. -/
def record (p : StatusState) (id version : String) : StatusState :=
  { p with processed := p.processed.insert id (version, p.now) }

end StatusState

/-! ## The requests -/

/-- A heartbeat at its guard, behind it with the node that was loaded, and before the update; a
`getHealth` before its lookup, behind it, and before the update. -/
inductive StatusTask
  | guard (authorization : Option String) (heartbeat : Heartbeat)
  | process (node : StatusNode) (heartbeat : Heartbeat)
  | connect (nodeId version : String)
  | findById (id : String)
  | health (node : StatusNode)
  | disconnect (nodeId : String) (lastHeartbeat : Option HeartbeatData)

inductive StatusAnswer
  | noContent
  | health (nodeId : String) (online : Bool) (lastHeartbeat : Option HeartbeatData)

namespace StatusTask

def go (p : StatusState) (reply : Except HttpException Unit) :
    StatusTask → Except HttpException (StatusState × (StatusTask ⊕ StatusAnswer))
  | .guard authorization heartbeat => do
    reply
    let daemon ← DaemonTokenGuard.canActivate p.daemons authorization
    let node ← orThrow (p.nodes.findOne fun n => n.id == daemon.id)
      (.unauthorized "Invalid daemon token")
    return (p, .inl (.process node heartbeat))
  | .process node heartbeat =>
    let wasOnline := p.heartbeats.isOnline p.now node.id
    let p := { p with heartbeats := p.heartbeats.insert node.id ⟨heartbeat, p.now⟩ }
    if wasOnline = false ∧ node.connectionStatus ≠ .connected then
      .ok (p, .inl (.connect node.id heartbeat.version))
    else .ok (p.record node.id heartbeat.version, .inr .noContent)
  | .connect nodeId version => do
    reply
    return ((p.update nodeId (·.setConnected version)).record nodeId version, .inr .noContent)
  | .findById id => do
    reply
    let node ← orThrow (p.nodes.findOne fun n => n.id == id) (.notFound "Node not found")
    return (p, .inl (.health node))
  | .health node =>
    let heartbeat := p.heartbeats.lookup node.id
    let online := p.heartbeats.isOnline p.now node.id
    if online = false ∧ node.connectionStatus = .connected then
      .ok (p, .inl (.disconnect node.id heartbeat))
    else .ok (p, .inr (.health node.id online heartbeat))
  | .disconnect nodeId heartbeat => do
    reply
    return (p.update nodeId (·.setDisconnected), .inr (.health nodeId false heartbeat))

def starts : StatusTask → Bool
  | .guard _ _ | .findById _ => true
  | .process _ _ | .connect _ _ | .health _ | .disconnect _ _ => false

end StatusTask

/-- Time passes. -/
def StatusState.tick (p : StatusState) (milliseconds : Nat) : Option StatusState :=
  some { p with now := p.now + milliseconds }

def statusSystem : Tasks StatusState StatusTask (Except HttpException Unit)
    (Option (Except HttpException StatusAnswer)) Nat :=
  .ofCalls StatusTask.go StatusTask.starts StatusState.tick

abbrev StatusPool := Pool StatusState StatusTask
abbrev StatusLabel := PoolLabel StatusTask (Except HttpException Unit) Nat

def statusStep : StatusPool → StatusLabel → Option StatusPool := statusSystem.step

/-- The panel has just come up: any rows, no heartbeats, nothing under way. -/
def StatusPool.started (nodes : Table StatusNode) (now : Nat) : StatusPool :=
  ⟨⟨nodes, ∅, now, ∅⟩, []⟩

/-! ## Following the heartbeats -/

/-- The row says that the node is connected, and with which version. -/
def StatusState.Says (p : StatusState) (id version : String) : Prop :=
  ∃ row ∈ p.nodes, row.id = id ∧ row.connectionStatus = .connected ∧ row.wingsVersion = some version

/-- While the last heartbeat of the node was processed no more than a minute ago, the row says
so. -/
def StatusState.TracksAt (p : StatusState) (id : String) : Prop :=
  ∀ version time, p.processed.lookup id = some (version, time) → p.now - time ≤ 60000 →
    p.Says id version

def StatusState.Tracks (p : StatusState) : Prop := ∀ id, p.TracksAt id

/-- The condition on a turn. A heartbeat that finds the node online, or comes with a copy of the
row that says `connected`, finds the row saying what it says; and the update of a `getHealth` comes
when no heartbeat of the node was processed in the last minute. -/
def StatusTask.InStep (p : StatusState) (reply : Except HttpException Unit) : StatusTask → Prop
  | .process node heartbeat =>
    p.heartbeats.isOnline p.now node.id = true ∨ node.connectionStatus = .connected →
      p.Says node.id heartbeat.version
  | .disconnect nodeId _ => reply = .ok () → ∀ version time,
      p.processed.lookup nodeId = some (version, time) → 60000 < p.now - time
  | _ => True

def InStep (p : StatusPool) : StatusLabel → Prop
  | .turn i reply => ∀ task, p.tasks[i]? = some task → task.InStep p.store reply
  | _ => True

/-! ## Updates of rows and of the record -/

namespace StatusState

section Updates

variable {p : StatusState} {id other version : String} {f : StatusNode → StatusNode}

/-- There is a row of the node. -/
def Known (p : StatusState) (id : String) : Prop := ∃ row ∈ p.nodes, row.id = id

theorem Known.update {hf : ∀ n, (f n).id = n.id} (h : p.Known other) :
    (p.update id f hf).Known other := by
  obtain ⟨row, hrow, rfl⟩ := h
  refine ⟨_, (Table.mem_update hf).mpr ⟨row, hrow, rfl⟩, ?_⟩
  split
  · exact hf row
  · rfl

/-- What is updated are the rows of one node. -/
theorem says_update_of_ne {hf : ∀ n, (f n).id = n.id} (hne : other ≠ id) :
    (p.update id f hf).Says other version ↔ p.Says other version := by
  simp only [Says, update]
  constructor
  · rintro ⟨row, hrow, hid, hsays⟩
    obtain ⟨n, hn, rfl⟩ := (Table.mem_update hf).mp hrow
    by_cases h : (n.id == id) = true
    · rw [if_pos h, hf] at hid
      exact absurd (hid.symm.trans (beq_iff_eq.mp h)) hne
    · rw [if_neg h] at hid hsays
      exact ⟨n, hn, hid, hsays⟩
  · rintro ⟨row, hrow, rfl, hsays⟩
    refine ⟨row, (Table.mem_update hf).mpr ⟨row, hrow, ?_⟩, rfl, hsays⟩
    rw [if_neg (by simpa using hne)]

/-- The rows of the node are all as the update makes them. -/
theorem says_update_self {hf : ∀ n, (f n).id = n.id} :
    (p.update id f hf).Says id version ↔ ∃ row ∈ p.nodes, row.id = id ∧
      (f row).connectionStatus = .connected ∧ (f row).wingsVersion = some version := by
  simp only [Says, update]
  constructor
  · rintro ⟨row, hrow, hid, hsays⟩
    obtain ⟨n, hn, rfl⟩ := (Table.mem_update hf).mp hrow
    by_cases h : (n.id == id) = true
    · rw [if_pos h] at hsays
      exact ⟨n, hn, beq_iff_eq.mp h, hsays⟩
    · rw [if_neg h] at hid
      exact absurd (beq_iff_eq.mpr hid) h
  · rintro ⟨row, hrow, rfl, hsays⟩
    refine ⟨f row, (Table.mem_update hf).mpr ⟨row, hrow, ?_⟩, hf row, hsays⟩
    rw [if_pos (beq_self_eq_true _)]

theorem tracksAt_record_self : (p.record id version).TracksAt id ↔ p.Says id version := by
  simp only [TracksAt, record, AList.lookup_insert, Option.some.injEq, Prod.mk.injEq]
  constructor
  · intro h
    exact h version p.now ⟨rfl, rfl⟩ (by omega)
  · rintro h _ _ ⟨rfl, rfl⟩ -
    exact h

theorem tracksAt_record_of_ne (hne : other ≠ id) :
    (p.record id version).TracksAt other ↔ p.TracksAt other := by
  simp only [TracksAt, record, AList.lookup_insert_ne hne]
  rfl

/-- When a heartbeat has been processed, it is only its own node that has to be looked at. -/
theorem tracks_record (h : ∀ other, other ≠ id → p.TracksAt other) :
    (p.record id version).Tracks ↔ p.Says id version := by
  constructor
  · intro htracks
    exact tracksAt_record_self.mp (htracks id)
  · intro hsays other
    by_cases hne : other = id
    · subst hne
      exact tracksAt_record_self.mpr hsays
    · exact (tracksAt_record_of_ne hne).mpr (h other hne)

end Updates

end StatusState

/-! ## One turn -/

namespace StatusTask

section Turns

variable {p p' : StatusState} {reply : Except HttpException Unit} {task : StatusTask}
  {r : StatusTask ⊕ StatusAnswer}

/-- The node of a task that goes on with one is in the table. -/
def Known (p : StatusState) : StatusTask → Prop
  | .process node _ | .health node => p.Known node.id
  | .connect nodeId _ | .disconnect nodeId _ => p.Known nodeId
  | .guard _ _ | .findById _ => True

/-- What a turn that succeeds does: the rows and the record stay as they are, and the next task's
node is known; or a heartbeat that changes no row is over; or one of the two updates is made. -/
theorem go_cases (hknown : task.Known p) (h : task.go p reply = .ok (p', r)) :
    (p'.nodes = p.nodes ∧ p'.processed = p.processed ∧ p'.now = p.now ∧ task.InStep p reply ∧
        ∀ next, r = .inl next → next.Known p) ∨
      (∃ node heartbeat answer, task = .process node heartbeat ∧ r = .inr answer ∧
        (p.heartbeats.isOnline p.now node.id = true ∨ node.connectionStatus = .connected) ∧
        p' = StatusState.record { p with heartbeats := p.heartbeats.insert node.id ⟨heartbeat, p.now⟩ }
          node.id heartbeat.version) ∨
      (∃ nodeId version answer, task = .connect nodeId version ∧ r = .inr answer ∧
        p' = (p.update nodeId (·.setConnected version)).record nodeId version) ∨
      ∃ nodeId lastHeartbeat answer, task = .disconnect nodeId lastHeartbeat ∧ r = .inr answer ∧
        reply = .ok () ∧ p' = p.update nodeId (·.setDisconnected) := by
  cases task with
  | guard authorization heartbeat =>
    simp only [go, bind_eq_ok, orThrow_eq_ok, pure_eq_ok, Prod.mk.injEq] at h
    obtain ⟨-, -, daemon, -, node, hnode, rfl, rfl⟩ := h
    refine .inl ⟨rfl, rfl, rfl, trivial, fun next hnext => ?_⟩
    cases hnext
    exact ⟨node, Table.findOne_mem hnode, rfl⟩
  | process node heartbeat =>
    simp only [go] at h
    split at h
    next hconnects =>
      cases h
      refine .inl ⟨rfl, rfl, rfl, ?_, fun next hnext => ?_⟩
      · rintro (honline | hconnected)
        · rw [hconnects.1] at honline
          cases honline
        · exact absurd hconnected hconnects.2
      · cases hnext
        exact hknown
    next hleaves =>
      cases h
      refine .inr (.inl ⟨node, heartbeat, _, rfl, rfl, ?_, rfl⟩)
      by_contra hnot
      rw [not_or, Bool.not_eq_true] at hnot
      exact hleaves hnot
  | connect nodeId version =>
    simp only [go, bind_eq_ok, pure_eq_ok, Prod.mk.injEq] at h
    obtain ⟨-, -, rfl, rfl⟩ := h
    exact .inr (.inr (.inl ⟨nodeId, version, _, rfl, rfl, rfl⟩))
  | findById id =>
    simp only [go, bind_eq_ok, orThrow_eq_ok, pure_eq_ok, Prod.mk.injEq] at h
    obtain ⟨-, -, node, hnode, rfl, rfl⟩ := h
    refine .inl ⟨rfl, rfl, rfl, trivial, fun next hnext => ?_⟩
    cases hnext
    exact ⟨node, Table.findOne_mem hnode, rfl⟩
  | health node =>
    simp only [go] at h
    split at h
    · cases h
      refine .inl ⟨rfl, rfl, rfl, trivial, fun next hnext => ?_⟩
      cases hnext
      exact hknown
    · cases h
      refine .inl ⟨rfl, rfl, rfl, trivial, fun next hnext => ?_⟩
      cases hnext
  | disconnect nodeId lastHeartbeat =>
    simp only [go, bind_eq_ok, pure_eq_ok, Prod.mk.injEq] at h
    obtain ⟨u, hreply, rfl, rfl⟩ := h
    exact .inr (.inr (.inr ⟨nodeId, lastHeartbeat, _, rfl, rfl, hreply, rfl⟩))

theorem Known.mono (hids : ∀ id, p.Known id → p'.Known id) (h : task.Known p) : task.Known p' := by
  cases task with
  | guard | findById => trivial
  | process node heartbeat => exact hids node.id h
  | health node => exact hids node.id h
  | connect nodeId version => exact hids nodeId h
  | disconnect nodeId lastHeartbeat => exact hids nodeId h

/-- A turn keeps the nodes there are, and knows the node it goes on with. -/
theorem go_known (hknown : task.Known p) (h : task.go p reply = .ok (p', r)) :
    (∀ id, p.Known id → p'.Known id) ∧ ∀ next, r = .inl next → next.Known p' := by
  rcases go_cases hknown h with ⟨hnodes, -, -, -, hnext⟩ | ⟨node, heartbeat, answer, -, rfl, -, rfl⟩ |
    ⟨nodeId, version, answer, -, rfl, rfl⟩ | ⟨nodeId, lastHeartbeat, answer, -, rfl, -, rfl⟩
  · have hids : ∀ id, p.Known id → p'.Known id := by
      intro id hid
      rwa [StatusState.Known, hnodes]
    exact ⟨hids, fun next hr => (hnext next hr).mono hids⟩
  · exact ⟨fun _ hid => hid, fun next hr => by cases hr⟩
  · refine ⟨fun id hid => ?_, fun next hr => by cases hr⟩
    have hupdated : (p.update nodeId (·.setConnected version)).Known id := hid.update
    exact hupdated
  · exact ⟨fun _ hid => hid.update, fun next hr => by cases hr⟩

/-- Where the rows track the heartbeats, a turn that succeeds leaves it so exactly when it meets the
condition. -/
theorem go_tracks_iff (hp : p.Tracks) (hknown : task.Known p)
    (h : task.go p reply = .ok (p', r)) : p'.Tracks ↔ task.InStep p reply := by
  rcases go_cases hknown h with ⟨hnodes, hprocessed, hnow, hin, -⟩ |
    ⟨node, heartbeat, answer, rfl, -, hleaves, rfl⟩ | ⟨nodeId, version, answer, rfl, -, rfl⟩ |
    ⟨nodeId, lastHeartbeat, answer, rfl, -, hreply, rfl⟩
  · refine iff_of_true ?_ hin
    intro id version time hlookup hfresh
    rw [hprocessed] at hlookup
    rw [hnow] at hfresh
    rw [StatusState.Says, hnodes]
    exact hp id version time hlookup hfresh
  · refine (StatusState.tracks_record fun other _ => hp other).trans ?_
    exact ⟨fun hsays _ => hsays, fun hin => hin hleaves⟩
  · refine iff_of_true ((StatusState.tracks_record fun other hne => ?_).mpr ?_) trivial
    · intro v time hlookup hfresh
      exact (StatusState.says_update_of_ne hne).mpr (hp other v time hlookup hfresh)
    · obtain ⟨row, hrow, hid⟩ := hknown
      exact StatusState.says_update_self.mpr ⟨row, hrow, hid, rfl, rfl⟩
  · constructor
    · intro htracks _ version time hlookup
      by_contra hfresh
      obtain ⟨row, -, -, hstatus, -⟩ := StatusState.says_update_self.mp
        (htracks nodeId version time hlookup (Nat.le_of_not_lt hfresh))
      cases hstatus
    · intro hin other version time hlookup hfresh
      by_cases hne : other = nodeId
      · subst hne
        exact absurd (hin hreply version time hlookup) (Nat.not_lt_of_le hfresh)
      · exact (StatusState.says_update_of_ne hne).mpr
          (hp other version time hlookup hfresh)

/-- A turn that throws met the condition. -/
theorem go_error {e : HttpException} (h : task.go p reply = .error e) : task.InStep p reply := by
  cases task with
  | guard | findById | connect | health => trivial
  | process node heartbeat =>
    simp only [go] at h
    split at h <;> cases h
  | disconnect nodeId lastHeartbeat =>
    rintro rfl
    cases h

end Turns

end StatusTask

/-! ## Runs -/

/-- The rows track the heartbeats, and the tasks know their nodes. -/
abbrev InGear (p : StatusPool) : Prop :=
  p.Holds StatusState.Tracks fun store task => task.Known store

theorem StatusState.Tracks.tick {p p' : StatusState} {milliseconds : Nat} (hp : p.Tracks)
    (h : p.tick milliseconds = some p') : p'.Tracks := by
  cases h
  intro id version time hlookup hfresh
  have hearlier : p.now - time ≤ 60000 := by
    have : p.now + milliseconds - time ≤ 60000 := hfresh
    omega
  exact hp id version time hlookup hearlier

/-- What a step does that meets the condition. -/
theorem InGear.step {p p' : StatusPool} {l : StatusLabel} (hp : InGear p) (hin : InStep p l)
    (h : statusStep p l = some p') : InGear p' := by
  cases l with
  | start task =>
    refine hp.start ?_ h
    obtain ⟨hstarts, -⟩ := Tasks.step_start h
    cases task with
    | guard | findById => trivial
    | process | connect | health | disconnect => cases hstarts
  | turn i reply =>
    refine hp.call (fun task hmem htask store r hgo => ?_) h
    obtain ⟨hids, hnext⟩ := StatusTask.go_known (hp.tasks task hmem) hgo
    refine ⟨?_, hnext, fun t ht hknown => hknown.mono hids⟩
    exact (StatusTask.go_tracks_iff hp.store (hp.tasks task hmem) hgo).mpr (hin task htask)
  | outside milliseconds =>
    refine hp.outside (fun store hstore => hp.store.tick hstore) (fun store hstore t _ ht => ?_) h
    cases hstore
    exact ht

/-- What a step needs that keeps the rows in track. -/
theorem InGear.needed {p p' : StatusPool} {l : StatusLabel} (hp : InGear p)
    (h : statusStep p l = some p') (htracks : p'.store.Tracks) : InStep p l := by
  cases l with
  | start task | outside milliseconds => trivial
  | turn i reply =>
    intro task htask
    obtain ⟨task', htask', hcall⟩ := Tasks.step_call h
    cases htask.symm.trans htask'
    have hknown := hp.tasks task (List.mem_of_getElem? htask)
    rcases hcall with ⟨store, r, hgo, rfl⟩ | ⟨e, hgo, -⟩
    · exact (StatusTask.go_tracks_iff hp.store hknown hgo).mp htracks
    · exact StatusTask.go_error hgo

/-- In every run from a panel that has just come up, the rows track the heartbeats in every state
exactly when every step meets the condition. -/
theorem status_tracks_iff (nodes : Table StatusNode) (now : Nat) (labels : List StatusLabel) :
    (∀ done, done <+: labels → ∀ p', run statusStep (.started nodes now) done = some p' →
      p'.store.Tracks) ↔ Along statusStep InStep (.started nodes now) labels := by
  refine property_iff_along (I := InGear) (fun _ hp => hp.store)
    (fun _ _ _ hp hin => hp.step hin) (fun _ _ _ hp => hp.needed) ?_ ⟨?_, ?_⟩
  · intro p l hstuck
    cases l with
    | start task | outside milliseconds => trivial
    | turn i reply =>
      intro task htask
      simp [statusStep, Tasks.step, Tasks.turnOf, htask] at hstuck
  · intro id version time hlookup
    cases hlookup
  · intro task htask
    cases htask

/-! ## A new version, and a late look -/

section Counterexample

def storedNode (status : NodeConnectionStatus) : StatusNode :=
  ⟨⟨"n", "id", "token"⟩, status, some "1.0.0"⟩

/-- A heartbeat from its arrival until it is processed. -/
def heartbeats (version : String) : List StatusLabel :=
  [.start (.guard (some "Bearer id.token") ⟨version, []⟩), .turn 0 (.ok ()), .turn 0 (.ok ())]

/-- The panel comes up again and the daemon has a new version: the row keeps the old one. -/
theorem version_kept :
    ¬ ∀ done, done <+: heartbeats "1.1.0" → ∀ p',
      run statusStep (.started (.single (storedNode .connected)) 0) done = some p' →
        p'.store.Tracks := by
  intro h
  have hsays := h _ List.prefix_rfl _ rfl "n" "1.1.0" 0 rfl (by decide)
  obtain ⟨row, hrow, -, -, hversion⟩ := hsays
  cases List.mem_singleton.mp hrow
  revert hversion
  decide

/-- A health request that found the node offline writes after the heartbeat. -/
example : (run statusStep (.started (.single (storedNode .connected)) 0)
    ([.start (.findById "n"), .turn 0 (.ok ()), .turn 0 (.ok ())] ++ heartbeats "1.0.0" ++
      [.turn 0 (.ok ())])).map (fun p => (p.store.processed.lookup "n",
        p.store.nodes.rows.map StatusNode.connectionStatus)) =
    some (some ("1.0.0", 0), [.disconnected]) := by
  decide +kernel

end Counterexample

end Panel
