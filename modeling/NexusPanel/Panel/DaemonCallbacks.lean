import NexusPanel.Foundation.Text
import NexusPanel.Panel.ServersSystem

/-!
# Callbacks and the node they come from

A daemon that calls the panel presents the credential of its node, and `DaemonTokenGuard`
leaves the node with the request. The heartbeat and the configuration route work on that node.
The install callback does not ask for it: it works on the server that the path names, on
whatever node that is.

Here a callback is a task that comes to the guard first and carries the node it finds. The
other operations of the panel go on beside it.
-/

namespace Panel

open Fallible Transition ServersService

/-- The columns of `nodes` that the guard reads. -/
structure DaemonNode where
  id : String
  daemonTokenId : String
  daemonToken : String
deriving DecidableEq, Repr

instance : Keyed String DaemonNode := ⟨DaemonNode.id⟩

/-- The node of a request: the token id up to the first dot, the token behind it. -/
def DaemonTokenGuard.canActivate (nodes : Table DaemonNode) (authorization : Option String) :
    Except HttpException DaemonNode := do
  let bearerToken ← orThrow (authorization.bind (Text.stripPrefix? "Bearer "))
    (.unauthorized "Missing daemon token")
  let (tokenId, token) ← orThrow (Text.splitFirst? '.' bearerToken)
    (.unauthorized "Invalid daemon token format")
  let node ← orThrow (nodes.findOne fun n => n.daemonTokenId == tokenId)
    (.unauthorized "Invalid daemon token")
  require (token == node.daemonToken) (.unauthorized "Invalid daemon token")
  return node

/-- What a request has to present for the node to be found. -/
theorem authorization_of_canActivate {nodes : Table DaemonNode} {authorization : Option String}
    {node : DaemonNode} (h : DaemonTokenGuard.canActivate nodes authorization = .ok node) :
    node ∈ nodes ∧ ∃ bearerToken, authorization.bind (Text.stripPrefix? "Bearer ") =
      some bearerToken ∧ bearerToken = node.daemonTokenId ++ "." ++ node.daemonToken := by
  simp only [DaemonTokenGuard.canActivate, bind_eq_ok, orThrow_eq_ok, require_eq_ok,
    pure_eq_ok, beq_iff_eq] at h
  obtain ⟨bearerToken, hbearer, ⟨tokenId, token⟩, hsplit, found, hfound, -, htoken, rfl⟩ := h
  have hid := Table.findOne_sat hfound
  rw [beq_iff_eq] at hid
  refine ⟨Table.findOne_mem hfound, bearerToken, hbearer, ?_⟩
  rw [Text.splitFirst?_eq_some hsplit, hid, ← htoken]

/-! ## The callbacks beside the other operations -/

/-- A callback at the guard, a callback the guard has let through with its node, or another
operation. -/
inductive GuardedTask
  | guard (authorization : Option String) (uuid status : String)
  | callback (node : DaemonNode) (task : CallbackTask)
  | panel (task : Task)

structure GuardedState where
  servers : ServersState
  nodes : Table DaemonNode

/-- A turn of an operation of the panel. -/
def ServersTurn.inside {τ : Type} (p : GuardedState) (f : τ → GuardedTask) (u : ServersTurn τ) :
    Turn GuardedState Sent GuardedTask :=
  ⟨{ p with servers := u.store }, u.output, u.next.map f⟩

def GuardedTask.turn (js : Js) (p : GuardedState) (reply : Settled) :
    GuardedTask → Turn GuardedState Sent GuardedTask
  | .guard authorization uuid status =>
    (ServersTurn.read p.servers reply <|
      ServersTurn.returned p.servers (DaemonTokenGuard.canActivate p.nodes authorization)
        fun node => ServersTurn.goOn p.servers (node, CallbackTask.receive uuid status)).inside p
          fun t => .callback t.1 t.2
  | .callback node task => (task.turn p.servers reply).inside p (.callback node)
  | .panel task => (task.turn js p.servers reply).inside p .panel

/-- A callback comes to the guard, and nowhere else. -/
def GuardedTask.starts : GuardedTask → Bool
  | .guard _ _ _ => true
  | .callback _ _ => false
  | .panel (.callback _) => false
  | .panel task => task.starts

/-- From outside come what the panel sees anyway, and edits of the nodes. -/
def GuardedState.outside (p : GuardedState) : Outside ⊕ Table DaemonNode → Option GuardedState
  | .inl event => (p.servers.outside event).map fun servers => { p with servers }
  | .inr nodes => some { p with nodes }

def guardedSystem (js : Js) :
    Tasks GuardedState GuardedTask Settled Sent (Outside ⊕ Table DaemonNode) where
  turn := GuardedTask.turn js
  starts := GuardedTask.starts
  outside := GuardedState.outside

abbrev GuardedPool := Pool GuardedState GuardedTask
abbrev GuardedLabel := PoolLabel GuardedTask Settled (Outside ⊕ Table DaemonNode)

def guardedStep (js : Js) : GuardedPool → GuardedLabel → Option GuardedPool := (guardedSystem js).step

/-! ## Servers of other nodes -/

/-- A turn of a callback leaves the servers of every other node as they are. -/
def SparesOthers (js : Js) (p : GuardedPool) : GuardedLabel → Prop
  | .turn i reply => ∀ node task, p.tasks[i]? = some (.callback node task) →
      ∀ p', guardedStep js p (.turn i reply) = some p' →
        ∀ x ∈ p.store.servers.db.servers, x.nodeId ≠ node.id → x ∈ p'.store.servers.db.servers
  | _ => True

/-- A callback that is about to write has named a server of its node, or one whose columns say
already what it says. -/
def NamesOwn (p : GuardedPool) : GuardedLabel → Prop
  | .turn i .ok => ∀ node server status,
      p.tasks[i]? = some (.callback node (.write server status)) → ∀ row ∈ p.store.servers.db.servers, row.id = server.id →
        row.nodeId = node.id ∨ (installOutcome (status = "success")).set row = row
  | _ => True

/-! ## One turn of a callback -/

section Turns

variable {js : Js} {p p' : GuardedPool} {i : Nat} {reply : Settled} {node : DaemonNode}
  {task : CallbackTask}

/-- What a turn of a callback makes of the database. -/
theorem db_callback (htask : p.tasks[i]? = some (.callback node task))
    (h : guardedStep js p (.turn i reply) = some p') :
    p'.store.servers.db = p.store.servers.db.issue reply (Task.callback task).statement := by
  obtain ⟨t, ht, rfl⟩ := Tasks.step_turn h
  cases htask.symm.trans ht
  exact task.performs.db

/-- What the statement of a callback makes of the servers. -/
theorem mem_servers_write {db : Database} (server : Server) (status : String) {x : Server} :
    x ∈ (db.issue .ok (Task.callback (.write server status)).statement).servers ↔
      ∃ s ∈ db.servers, (if s.id == server.id
        then (installOutcome (status = "success")).set s else s) = x := by
  obtain ⟨db', hexec⟩ := exec_updateServer db server.id (installOutcome (status = "success"))
  have hissue : db.issue .ok (Task.callback (.write server status)).statement = db' := by
    simp only [Database.issue, Task.statement, hexec, Option.getD_some]
  rw [hissue]
  exact mem_servers_updateServer hexec

/-- The guard is the only way to a callback: the node is the one whose credential came with
the request. -/
theorem callback_guarded (h : guardedStep js p (.turn i reply) = some p')
    (hcallback : .callback node task ∈ p'.tasks) :
    (∃ earlier, .callback node earlier ∈ p.tasks) ∨
      ∃ authorization, DaemonTokenGuard.canActivate p.store.nodes authorization = .ok node := by
  obtain ⟨t, ht, rfl⟩ := Tasks.step_turn h
  rcases List.mem_append.mp hcallback with hnext | hold
  · obtain hnext := Option.mem_toList.mp hnext
    cases t with
    | guard authorization uuid status =>
      obtain ⟨next, hgo, heq⟩ := Option.map_eq_some_iff.mp hnext
      cases reply with
      | failed message => cases hgo
      | ok =>
        cases hguard : DaemonTokenGuard.canActivate p.store.nodes authorization with
        | error e =>
          rw [hguard] at hgo
          cases hgo
        | ok found =>
          rw [hguard] at hgo
          cases hgo
          cases heq
          exact .inr ⟨authorization, hguard⟩
    | callback node' earlier =>
      obtain ⟨next, -, heq⟩ := Option.map_eq_some_iff.mp hnext
      cases heq
      exact .inl ⟨earlier, List.mem_of_getElem? ht⟩
    | panel t =>
      obtain ⟨next, -, heq⟩ := Option.map_eq_some_iff.mp hnext
      cases heq
  · exact .inl ⟨task, List.mem_of_mem_eraseIdx hold⟩

/-- A turn leaves the servers of other nodes alone exactly when the callback names one of its
own, or says nothing new. -/
theorem sparesOthers_iff_step (js : Js) (p : GuardedPool) (l : GuardedLabel) :
    SparesOthers js p l ↔ NamesOwn p l := by
  cases l with
  | start task | outside event => exact Iff.rfl
  | turn i reply =>
    cases reply with
    | failed message =>
      refine iff_of_true (fun node task htask p' hstep x hx _ => ?_) trivial
      have hdb : p'.store.servers.db = p.store.servers.db := db_callback htask hstep
      rw [hdb]
      exact hx
    | ok =>
      constructor
      · intro h node server status htask row hrow hid
        refine or_iff_not_imp_left.mpr fun hother => ?_
        obtain ⟨p', hstep⟩ : ∃ p', guardedStep js p (.turn i .ok) = some p' := by
          simp only [guardedStep, Tasks.step, Tasks.turnOf, htask, Option.map_some]
          exact ⟨_, rfl⟩
        have hkept := h node _ htask p' hstep row hrow hother
        rw [db_callback htask hstep] at hkept
        obtain ⟨x, hx, heq⟩ := (mem_servers_write server status).mp hkept
        have hxid : x.id = row.id := by
          rw [← heq]
          split <;> rfl
        rw [Table.eq_of_key hx hrow hxid, if_pos (beq_iff_eq.mpr hid)] at heq
        exact heq
      · intro h node task htask p' hstep x hx hother
        rw [db_callback htask hstep]
        cases task with
        | receive uuid status | load uuid status => exact hx
        | write server status =>
          refine (mem_servers_write server status).mpr ⟨x, hx, ?_⟩
          split
          next hid =>
            rcases h node server status htask x hx (beq_iff_eq.mp hid) with hown | hsame
            · exact absurd hown hother
            · exact hsame
          next => rfl

end Turns

/-- In every run of the panel's operations, callbacks among them: no callback changes a server
of another node exactly when every callback names a server of the node whose credential it
presents, or says what the server's columns say already. -/
theorem sparesOthers_iff_namesOwn (js : Js) (p : GuardedPool) (ls : List GuardedLabel) :
    Along (guardedStep js) (SparesOthers js) p ls ↔ Along (guardedStep js) NamesOwn p ls :=
  along_iff (I := fun _ => True) (fun _ _ _ _ _ => trivial)
    (fun p l _ => sparesOthers_iff_step js p l) trivial

/-! ## A node that reports on the server of another -/

section Counterexample

def otherNode : DaemonNode := ⟨"m", "mid", "mtoken"⟩

/-- The one server is on node `n`; both nodes have a credential. -/
def twoNodes : GuardedPool :=
  ⟨⟨⟨.oneServer none, ["n", "m"], []⟩, ⟨[⟨"n", "nid", "ntoken"⟩, otherNode], by decide⟩⟩, []⟩

/-- A callback on the server of node `n`. -/
def failedCallback (authorization : String) : List GuardedLabel :=
  .start (.guard (some authorization) "u" "failed") :: List.replicate 4 (.turn 0 .ok)

/-- The other node reports that the install failed, and the panel believes it. -/
theorem reported_by_another :
    ¬Along (guardedStep .plain) (SparesOthers .plain) twoNodes
      (failedCallback "Bearer mid.mtoken") := by
  rintro ⟨-, h⟩
  obtain ⟨-, h⟩ := h _ rfl
  obtain ⟨-, h⟩ := h _ rfl
  obtain ⟨-, h⟩ := h _ rfl
  obtain ⟨hwrite, -⟩ := h _ rfl
  have hown := (sparesOthers_iff_step _ _ _).mp hwrite otherNode _ _ rfl _ List.mem_cons_self rfl
  revert hown
  decide

end Counterexample

end Panel
