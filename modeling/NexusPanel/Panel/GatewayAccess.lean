import NexusPanel.Foundation.Transition
import NexusPanel.Panel.Gateway
import NexusPanel.Panel.ServerAccess

/-!
# Access control of the gateway

The gateway in an environment it does not control: the database and the signed tokens may be
replaced by any others between two of its steps. Its own steps are the events of clients, the
two timers, and the return of a promise some handler waits for.

`Authorised` is the rule the REST routes apply, on what a step of the gateway sends: a call
to Wings is made, and a message about a server reaches a socket, only for a user who may use
that server. The gateway never asks, so the rule holds only by the good behaviour of its
clients. `Behaved` says what that takes: whoever binds a socket to a server may use it, and
every server whose room the socket is still in, and nobody who is bound to a server loses it
meanwhile.
-/

namespace Panel

open Transition

/-! ## The gateway and its environment -/

/-- What the gateway reads: the two tables, the signed tokens and the clock. -/
structure Environment where
  users : Table User
  servers : Table Server
  jwt : JwtService
  now : Nat

structure GatewayState where
  env : Environment
  gateway : Gateway
  pending : List Pending

inductive GatewayStep
  | event (event : ClientEvent)
  | poll (poll : Poll)
  | resume (job : Pending) (reply : Reply)
  | environment (env : Environment)

/-- No socket and nothing under way. -/
def GatewayState.initial (env : Environment) : GatewayState := ⟨env, .initial, []⟩

namespace GatewayState

def verify (s : GatewayState) : String → Option JwtPayload := s.env.jwt.verify s.env.now

/-- The id of a new connection is not that of a client still waited for. -/
def freshFor (s : GatewayState) : ClientEvent → Bool
  | .connection client _ _ => s.pending.all fun p => p.client? ≠ some client
  | _ => true

/-- One step, and what it sends. -/
def exec (s : GatewayState) : GatewayStep → Option (GatewayState × List Output)
  | .event event =>
    if s.freshFor event then
      (s.gateway.receive s.verify event).map fun (gateway, out, jobs) =>
        ({ s with gateway, pending := jobs ++ s.pending }, out)
    else none
  | .poll poll =>
    some ({ s with
      pending := (s.gateway.getSubscribedServerUuids poll).map (.findForPoll poll) ++ s.pending },
      [])
  | .resume job reply =>
    if job ∈ s.pending then
      let (out, jobs) := resume s.env.servers job reply
      some ({ s with pending := jobs ++ s.pending.erase job }, out)
    else none
  | .environment env => some ({ s with env }, [])

def step (s : GatewayState) (l : GatewayStep) : Option GatewayState := (s.exec l).map Prod.fst

/-- What the step sends. -/
def outputs (s : GatewayState) (l : GatewayStep) : List Output :=
  match s.exec l with
  | some (_, out) => out
  | none => []

end GatewayState

/-! ## What the gateway may do -/

namespace Environment

def MayAccess (env : Environment) (userId uuid : String) : Prop :=
  Panel.MayAccess env.users env.servers userId uuid

/-- The socket's user may use the server. -/
def Allows (env : Environment) (k : Socket) (uuid : String) : Prop :=
  ∃ userId, k.userId = some userId ∧ env.MayAccess userId uuid

end Environment

/-- The rule for one output, in the state the step is taken from. A message to a room
reaches the sockets in it. -/
def AuthorisedOutput (s : GatewayState) : Output → Prop
  | .sendCommand userId uuid _ | .powerAction userId uuid _ =>
    (∃ server ∈ s.env.servers, server.uuid = uuid) ∧ s.env.MayAccess userId uuid
  | .client client (some uuid) _ =>
    ∀ k ∈ s.gateway.sockets, k.id = client → s.env.Allows k uuid
  | .room uuid _ => ∀ k ∈ s.gateway.sockets, roomOf uuid ∈ k.rooms → s.env.Allows k uuid
  | .client _ none _ => True

/-- Everything the step sends obeys the rule. -/
def Authorised (s : GatewayState) (l : GatewayStep) : Prop :=
  ∀ o ∈ s.outputs l, AuthorisedOutput s o

/-- A handler that waits for the server it will use on the user's behalf. -/
def Waiting (pending : List Pending) (userId uuid : String) : Prop :=
  ∃ client text, .findForCommand client userId uuid text ∈ pending ∨
    .findForPower client userId uuid text ∈ pending

/-- Binding a socket takes a user who may use the server, and every server whose room the
socket is in; a change of the environment takes nothing from users who are bound. -/
def Behaved (s : GatewayState) : GatewayStep → Prop
  | .event (.connection _ cookie server) =>
    ∀ payload, (cookieToken cookie).bind s.verify = some payload →
      ∀ uuid, truthy server = some uuid → s.env.MayAccess payload.sub uuid
  | .event (.auth client token serverUuid) =>
    ∀ payload, token.bind s.verify = some payload →
      ∀ k ∈ s.gateway.sockets, k.id = client →
        ∀ uuid, roomOf uuid ∈ roomOf (printed serverUuid) :: k.rooms →
          s.env.MayAccess payload.sub uuid
  | .environment env =>
    (∀ k ∈ s.gateway.sockets, ∀ uuid, roomOf uuid ∈ k.rooms → s.env.Allows k uuid →
      env.Allows k uuid) ∧
    ∀ userId uuid, Waiting s.pending userId uuid → s.env.MayAccess userId uuid →
      env.MayAccess userId uuid
  | _ => True

/-! ## Rooms and strings -/

theorem roomOf_injective {u v : String} (h : roomOf u = roomOf v) : u = v := by
  have hlist := congrArg String.toList h
  unfold roomOf at hlist
  rw [String.toList_append, String.toList_append, List.append_cancel_left_eq] at hlist
  exact String.toList_inj.mp hlist

theorem truthy_idem {o : Option String} {v : String} (h : truthy o = some v) :
    truthy o = truthy (some v) := by
  rw [truthy_eq_some h]

theorem printed_of_truthy {o : Option String} {v : String} (h : truthy o = some v) :
    printed o = v := by
  rw [truthy_eq_some h]
  rfl

/-! ## The invariant -/

/-- The client a job answers, and the server the answer is about. -/
def Pending.answers : Pending → Option (String × String)
  | .findForCommand client _ uuid _ | .commandSent client uuid _
  | .findForPower client _ uuid _ | .powerSent client uuid _ => some (client, uuid)
  | .findForPoll _ _ | .statusAsked _ _ => none

/-- Whoever is in the room of a server may use it; a bound socket is in its server's room;
and a job stands for a user who may use the server, and answers a socket in its room. -/
structure Bound (s : GatewayState) : Prop where
  rooms : ∀ k ∈ s.gateway.sockets, ∀ uuid, roomOf uuid ∈ k.rooms → s.env.Allows k uuid
  bound : ∀ k ∈ s.gateway.sockets, ∀ uuid, truthy k.serverUuid = some uuid →
    roomOf uuid ∈ k.rooms
  waiting : ∀ userId uuid, Waiting s.pending userId uuid → s.env.MayAccess userId uuid
  answering : ∀ p ∈ s.pending, ∀ client uuid, p.answers = some (client, uuid) →
    ∀ k ∈ s.gateway.sockets, k.id = client → roomOf uuid ∈ k.rooms

namespace Bound

variable {s s' : GatewayState}

theorem initial (env : Environment) : Bound (.initial env) where
  rooms := fun _ h => nomatch h
  bound := fun _ h => nomatch h
  waiting := fun _ _ ⟨_, _, h⟩ => by rcases h with h | h <;> cases h
  answering := fun _ h => nomatch h

/-- A step that changes neither the environment nor the pending jobs, and leaves every
socket's user and rooms alone. -/
theorem of_sockets (hs : Bound s) {g : Gateway}
    (h : ∀ k' ∈ g.sockets, k' ∈ s.gateway.sockets) : Bound { s with gateway := g } where
  rooms := fun k hk => hs.rooms k (h k hk)
  bound := fun k hk => hs.bound k (h k hk)
  waiting := hs.waiting
  answering := fun p hp client uuid hans k hk => hs.answering p hp client uuid hans k (h k hk)

/-- New jobs, each of them on behalf of somebody who may use its server and for a socket in
its room. -/
theorem of_pending (hs : Bound s) {pending : List Pending}
    (hwait : ∀ userId uuid, Waiting pending userId uuid → s.env.MayAccess userId uuid)
    (hans : ∀ p ∈ pending, ∀ client uuid, p.answers = some (client, uuid) →
      ∀ k ∈ s.gateway.sockets, k.id = client → roomOf uuid ∈ k.rooms) :
    Bound { s with pending } :=
  ⟨hs.rooms, hs.bound, hwait, hans⟩

/-- A socket that carries a user who may use its server joins, its id free of old jobs. -/
theorem insert (hs : Bound s) {k : Socket} {sockets : Table Socket}
    {subs : AList fun _ : String => Subscriptions}
    (hins : s.gateway.sockets.insert k = some sockets)
    (hfresh : ∀ p ∈ s.pending, p.client? ≠ some k.id)
    (hrooms : ∀ uuid, roomOf uuid ∈ k.rooms → s.env.Allows k uuid)
    (hbound : ∀ uuid, truthy k.serverUuid = some uuid → roomOf uuid ∈ k.rooms) :
    Bound { s with gateway := ⟨sockets, subs⟩ } := by
  have hmem := (Table.insert_eq_some hins).2
  refine ⟨fun k' hk' => ?_, fun k' hk' => ?_, hs.waiting, fun p hp client uuid hans k' hk' hid => ?_⟩
  · rcases (hmem k').mp hk' with rfl | hk'
    · exact hrooms
    · exact hs.rooms k' hk'
  · rcases (hmem k').mp hk' with rfl | hk'
    · exact hbound
    · exact hs.bound k' hk'
  · rcases (hmem k').mp hk' with rfl | hk'
    · refine absurd ?_ (hfresh p hp)
      rw [hid]
      cases p <;> cases hans <;> rfl
    · exact hs.answering p hp client uuid hans k' hk' hid

/-- The cookie path: nothing joins a room but a socket whose user may use the server. -/
theorem connection (hs : Bound s) {client : String} {cookie server : Option String} {g : Gateway}
    {out : List Output} (hfresh : ∀ p ∈ s.pending, p.client? ≠ some client)
    (hbehaved : Behaved s (.event (.connection client cookie server)))
    (h : s.gateway.handleConnection s.verify client cookie server = some (g, out)) :
    Bound { s with gateway := g } := by
  unfold Gateway.handleConnection at h
  dsimp only at h
  split at h
  next =>
    obtain ⟨sockets, hins, heq⟩ := Option.map_eq_some_iff.mp h
    cases heq
    exact hs.insert hins hfresh (fun _ hr => nomatch hr) (fun _ hu => nomatch hu)
  next payload hverify =>
    split at h
    next =>
      obtain ⟨sockets, hins, heq⟩ := Option.map_eq_some_iff.mp h
      cases heq
      exact hs.insert hins hfresh (fun _ hr => nomatch hr) (fun _ hu => nomatch hu)
    next uuid huuid =>
      obtain ⟨sockets, hins, heq⟩ := Option.map_eq_some_iff.mp h
      cases heq
      refine hs.insert hins hfresh (fun uuid' hr => ?_) (fun uuid' hu => ?_)
      · have hroom := roomOf_injective (List.mem_singleton.mp hr)
        subst hroom
        exact ⟨payload.sub, rfl, hbehaved payload hverify _ huuid⟩
      · rw [← truthy_idem huuid, huuid] at hu
        cases hu
        exact List.mem_singleton_self _

/-- The auth message: the socket keeps its rooms and gets a user who may use all of them. -/
theorem auth (hs : Bound s) {client : String} {token serverUuid : Option String}
    (hbehaved : Behaved s (.event (.auth client token serverUuid))) :
    Bound { s with gateway := (s.gateway.handleAuth s.verify client token serverUuid).1 } := by
  unfold Gateway.handleAuth
  cases hverify : token.bind s.verify with
  | none =>
    refine hs.of_sockets fun k' hk' => ?_
    exact (Table.mem_delete.mp hk').1
  | some payload =>
    refine ⟨fun k' hk' uuid hr => ?_, fun k' hk' uuid hu => ?_, hs.waiting,
      fun p hp c uuid hans k' hk' hid => ?_⟩
    · rcases Gateway.mem_setSocket hk' with ⟨k, hk, rfl, hkid⟩ | hk
      · exact ⟨payload.sub, rfl, hbehaved payload hverify k hk hkid uuid hr⟩
      · exact hs.rooms k' hk uuid hr
    · rcases Gateway.mem_setSocket hk' with ⟨k, hk, rfl, -⟩ | hk
      · rw [show printed serverUuid = uuid from printed_of_truthy hu]
        exact List.mem_cons_self
      · exact hs.bound k' hk uuid hu
    · rcases Gateway.mem_setSocket hk' with ⟨k, hk, rfl, -⟩ | hk
      · exact List.mem_cons_of_mem _ (hs.answering p hp c uuid hans k hk hid)
      · exact hs.answering p hp c uuid hans k' hk hid

/-- A command or a power action is taken up for a bound socket only. -/
theorem entered (hs : Bound s) {k : Socket} (hk : k ∈ s.gateway.sockets) {job : Pending}
    {userId uuid text : String} (huser : truthy k.userId = some userId)
    (huuid : truthy k.serverUuid = some uuid)
    (hjob : job = .findForCommand k.id userId uuid text ∨
      job = .findForPower k.id userId uuid text) :
    Bound { s with pending := [job] ++ s.pending } := by
  have hroom := hs.bound k hk uuid huuid
  obtain ⟨w, hw, hmay⟩ := hs.rooms k hk uuid hroom
  have hwu : w = userId := Option.some.inj (hw.symm.trans (truthy_eq_some huser))
  refine hs.of_pending (fun w' u' hwait => ?_) (fun p hp client u' hans k' hk' hid => ?_)
  · obtain ⟨client, text', hmem⟩ := hwait
    rw [List.singleton_append, List.mem_cons, List.mem_cons] at hmem
    rcases hmem with (heq | hmem) | (heq | hmem)
    · rcases hjob with rfl | rfl <;> cases heq
      exact hwu ▸ hmay
    · exact hs.waiting w' u' ⟨client, text', .inl hmem⟩
    · rcases hjob with rfl | rfl <;> cases heq
      exact hwu ▸ hmay
    · exact hs.waiting w' u' ⟨client, text', .inr hmem⟩
  · rcases List.mem_cons.mp hp with rfl | hp
    · have hsame : client = k.id ∧ u' = uuid := by
        rcases hjob with rfl | rfl <;> cases hans <;> exact ⟨rfl, rfl⟩
      obtain ⟨rfl, rfl⟩ := hsame
      rw [Table.eq_of_key hk' hk hid]
      exact hroom
    · exact hs.answering p hp client u' hans k' hk' hid

/-- The lookup found the server the job waits for, and the job becomes the one that waits for
Wings. -/
theorem resumed (hs : Bound s) {job : Pending} {jobs : List Pending} (hjob : job ∈ s.pending)
    (hwait : ∀ client userId uuid text, .findForCommand client userId uuid text ∉ jobs ∧
      .findForPower client userId uuid text ∉ jobs)
    (hans : ∀ p ∈ jobs, p.answers = none ∨ p.answers = job.answers) :
    Bound { s with pending := jobs ++ s.pending.erase job } := by
  refine hs.of_pending (fun userId uuid hw => ?_) (fun p hp client uuid hpa => ?_)
  · obtain ⟨client, text, hmem⟩ := hw
    obtain ⟨hcommand, hpower⟩ := hwait client userId uuid text
    refine hs.waiting userId uuid ⟨client, text, ?_⟩
    rcases hmem with hmem | hmem
    · exact .inl (List.mem_of_mem_erase ((List.mem_append.mp hmem).resolve_left hcommand))
    · exact .inr (List.mem_of_mem_erase ((List.mem_append.mp hmem).resolve_left hpower))
  · rcases List.mem_append.mp hp with hp | hp
    · rcases hans p hp with hnone | hsame
      · rw [hnone] at hpa
        cases hpa
      · exact hs.answering job hjob client uuid (hsame ▸ hpa)
    · exact hs.answering p (List.mem_of_mem_erase hp) client uuid hpa

/-- What a settled promise leaves behind is never a handler that still looks for its server,
and answers whom the handler answered. -/
theorem resume_jobs (servers : Table Server) (job : Pending) (reply : Reply) :
    (∀ client userId uuid text,
      .findForCommand client userId uuid text ∉ (resume servers job reply).2 ∧
        .findForPower client userId uuid text ∉ (resume servers job reply).2) ∧
    ∀ p ∈ (resume servers job reply).2, p.answers = none ∨ p.answers = job.answers := by
  unfold resume
  cases job <;> cases reply <;> dsimp only <;> try split
  all_goals simp [Pending.answers]

/-- An event of a client keeps the invariant. -/
theorem event (hs : Bound s) {event : ClientEvent} (hbehaved : Behaved s (.event event))
    (h : s.step (.event event) = some s') : Bound s' := by
  simp only [GatewayState.step, GatewayState.exec] at h
  split at h
  next hfresh =>
    obtain ⟨⟨s₁, out⟩, hexec, rfl⟩ := Option.map_eq_some_iff.mp h
    obtain ⟨⟨g, out', jobs⟩, hreceive, heq⟩ := Option.map_eq_some_iff.mp hexec
    cases heq
    cases event with
    | connection client cookie server =>
      obtain ⟨⟨g₁, out₁⟩, hconnection, heq⟩ := Option.map_eq_some_iff.mp hreceive
      cases heq
      refine hs.connection (fun p hp => ?_) hbehaved hconnection
      simpa using List.all_eq_true.mp hfresh p hp
    | disconnect client =>
      obtain ⟨k, hk, heq⟩ := Option.map_eq_some_iff.mp hreceive
      cases heq
      exact hs.of_sockets fun k' hk' => (Table.mem_delete.mp hk').1
    | auth client token serverUuid =>
      obtain ⟨k, hk, heq⟩ := Option.map_eq_some_iff.mp hreceive
      cases heq
      exact hs.auth hbehaved
    | subscribeConsole client =>
      obtain ⟨k, hk, heq⟩ := Option.map_eq_some_iff.mp hreceive
      cases heq
      refine hs.of_sockets fun k' hk' => ?_
      rwa [Gateway.sockets_handleSubscribeConsole] at hk'
    | subscribeStats client =>
      obtain ⟨k, hk, heq⟩ := Option.map_eq_some_iff.mp hreceive
      cases heq
      refine hs.of_sockets fun k' hk' => ?_
      rwa [Gateway.sockets_handleSubscribeStats] at hk'
    | sendCommand client command =>
      obtain ⟨k, hk, heq⟩ := Option.map_eq_some_iff.mp hreceive
      cases heq
      change Bound { s with pending := Gateway.handleSendCommand k command ++ s.pending }
      rcases Gateway.handleSendCommand_cases k command with hjobs | ⟨_, _, huser, huuid, hjobs⟩
      · rw [hjobs]
        exact hs
      · rw [hjobs]
        exact hs.entered (Table.findOne_mem hk) huser huuid (.inl rfl)
    | sendPowerAction client action =>
      obtain ⟨k, hk, heq⟩ := Option.map_eq_some_iff.mp hreceive
      cases heq
      change Bound { s with pending := Gateway.handleSendPowerAction k action ++ s.pending }
      rcases Gateway.handleSendPowerAction_cases k action with
        hjobs | ⟨_, _, huser, huuid, hjobs⟩
      · rw [hjobs]
        exact hs
      · rw [hjobs]
        exact hs.entered (Table.findOne_mem hk) huser huuid (.inr rfl)
  next => cases h

/-- A timer waits for servers on nobody's behalf. -/
theorem poll (hs : Bound s) (poll : Poll) :
    Bound { s with
      pending := (s.gateway.getSubscribedServerUuids poll).map (.findForPoll poll) ++
        s.pending } := by
  refine hs.of_pending (fun userId uuid hw => ?_) (fun p hp client uuid hpa => ?_)
  · obtain ⟨client, text, hmem⟩ := hw
    refine hs.waiting userId uuid ⟨client, text, ?_⟩
    simpa only [List.mem_append, List.mem_map, reduceCtorEq, and_false, exists_false,
      false_or] using hmem
  · rcases List.mem_append.mp hp with hp | hp
    · obtain ⟨u, -, rfl⟩ := List.mem_map.mp hp
      cases hpa
    · exact hs.answering p hp client uuid hpa

/-- A step of a well-behaved run keeps the invariant. -/
theorem step (hs : Bound s) {l : GatewayStep} (hbehaved : Behaved s l)
    (h : s.step l = some s') : Bound s' := by
  cases l with
  | event event => exact hs.event hbehaved h
  | poll p =>
    cases h
    exact hs.poll p
  | resume job reply =>
    simp only [GatewayState.step, GatewayState.exec] at h
    split at h
    next hjob =>
      cases h
      obtain ⟨hwait, hans⟩ := resume_jobs s.env.servers job reply
      exact hs.resumed hjob hwait hans
    next => cases h
  | environment env =>
    cases h
    obtain ⟨hrooms, hwaiting⟩ := hbehaved
    exact ⟨fun k hk uuid hr => hrooms k hk uuid hr (hs.rooms k hk uuid hr), hs.bound,
      fun userId uuid hw => hwaiting userId uuid hw (hs.waiting userId uuid hw), hs.answering⟩

end Bound

/-! ## What is sent -/

/-- A job that waits for its server, resumed while the invariant holds. -/
theorem resume_authorised {s : GatewayState} (hs : Bound s) {job : Pending}
    (hjob : job ∈ s.pending) (reply : Reply) :
    ∀ o ∈ (resume s.env.servers job reply).1, AuthorisedOutput s o := by
  have found {uuid : String} {server : Server}
      (h : (s.env.servers.findOne fun s => s.uuid == uuid) = some server) :
      server ∈ s.env.servers ∧ server.uuid = uuid :=
    ⟨Table.findOne_mem h, by simpa only [beq_iff_eq] using Table.findOne_sat h⟩
  have answer {client uuid : String} (hans : job.answers = some (client, uuid)) :
      ∀ k ∈ s.gateway.sockets, k.id = client → s.env.Allows k uuid := fun k hk hid =>
    hs.rooms k hk uuid (hs.answering job hjob client uuid hans k hk hid)
  intro o ho
  cases job with
  | findForCommand client userId uuid command =>
    cases reply with
    | failed message =>
      rw [List.mem_singleton.mp ho]
      trivial
    | ok status =>
      simp only [resume] at ho
      split at ho
      next server hfound =>
        obtain ⟨hmem, huuid⟩ := found hfound
        rw [List.mem_singleton.mp ho, huuid]
        exact ⟨⟨server, hmem, huuid⟩, hs.waiting userId uuid ⟨client, command, .inl hjob⟩⟩
      next =>
        rw [List.mem_singleton.mp ho]
        trivial
  | commandSent client uuid command =>
    cases reply with
    | failed message =>
      rw [List.mem_singleton.mp ho]
      trivial
    | ok status =>
      rw [List.mem_singleton.mp ho]
      exact answer rfl
  | findForPower client userId uuid action =>
    cases reply with
    | failed message =>
      rw [List.mem_singleton.mp ho]
      trivial
    | ok status =>
      simp only [resume] at ho
      split at ho
      next server hfound =>
        obtain ⟨hmem, huuid⟩ := found hfound
        rw [List.mem_singleton.mp ho, huuid]
        exact ⟨⟨server, hmem, huuid⟩, hs.waiting userId uuid ⟨client, action, .inr hjob⟩⟩
      next =>
        rw [List.mem_singleton.mp ho]
        trivial
  | powerSent client uuid action =>
    cases reply with
    | failed message =>
      rw [List.mem_singleton.mp ho]
      trivial
    | ok status =>
      rw [List.mem_singleton.mp ho]
      exact answer rfl
  | findForPoll poll uuid =>
    cases reply with
    | failed message => cases ho
    | ok status =>
      simp only [resume] at ho
      split at ho <;> cases ho
  | statusAsked poll uuid =>
    cases reply with
    | failed message => cases ho
    | ok status =>
      obtain ⟨message, -, rfl⟩ := List.mem_map.mp ho
      exact fun k hk hr => hs.rooms k hk uuid hr

/-- Events are answered with nothing but how the authentication went. -/
theorem receive_outputs {verify : String → Option JwtPayload} {g g' : Gateway}
    {event : ClientEvent} {out : List Output} {jobs : List Pending}
    (h : g.receive verify event = some (g', out, jobs)) :
    ∀ o ∈ out, ∃ client message, o = .client client none message ∧
      (message = .authSuccess ∨ ∃ text, message = .error text) := by
  intro o ho
  cases event with
  | connection client cookie server =>
    obtain ⟨⟨g₁, out₁⟩, hconnection, heq⟩ := Option.map_eq_some_iff.mp h
    cases heq
    simp only [Gateway.handleConnection] at hconnection
    split at hconnection
    next =>
      obtain ⟨sockets, -, heq⟩ := Option.map_eq_some_iff.mp hconnection
      cases heq
      cases ho
    next =>
      split at hconnection
      next =>
        obtain ⟨sockets, -, heq⟩ := Option.map_eq_some_iff.mp hconnection
        cases heq
        cases ho
      next =>
        obtain ⟨sockets, -, heq⟩ := Option.map_eq_some_iff.mp hconnection
        cases heq
        exact ⟨client, _, List.mem_singleton.mp ho, .inl rfl⟩
  | auth client token serverUuid =>
    obtain ⟨k, -, heq⟩ := Option.map_eq_some_iff.mp h
    cases heq
    split at ho
    · exact ⟨client, _, List.mem_singleton.mp ho, .inl rfl⟩
    · exact ⟨client, _, List.mem_singleton.mp ho, .inr ⟨_, rfl⟩⟩
  | disconnect client | subscribeConsole client | subscribeStats client
  | sendCommand client command | sendPowerAction client action =>
    obtain ⟨k, -, heq⟩ := Option.map_eq_some_iff.mp h
    cases heq
    cases ho

/-- Where the invariant holds, everything a step sends obeys the rule. -/
theorem authorised_of_bound {s : GatewayState} (hs : Bound s) (l : GatewayStep) :
    Authorised s l := by
  intro o ho
  unfold GatewayState.outputs at ho
  cases l with
  | event event =>
    simp only [GatewayState.exec] at ho
    split at ho
    next s' out hexec =>
      split at hexec
      next =>
        obtain ⟨⟨g, out', jobs⟩, hreceive, heq⟩ := Option.map_eq_some_iff.mp hexec
        cases heq
        obtain ⟨client, message, rfl, -⟩ := receive_outputs hreceive o ho
        trivial
      next => cases hexec
    next => cases ho
  | poll poll | environment env => cases ho
  | resume job reply =>
    simp only [GatewayState.exec] at ho
    split at ho
    next s' out hexec =>
      split at hexec
      next hjob =>
        cases hexec
        exact resume_authorised hs hjob reply o ho
      next => cases hexec
    next => cases ho

/-- In a run whose clients bind their sockets only to servers they may use, every command and
power action is forwarded for a user who may use the server, and every message about a server
reaches only sockets of such users. -/
theorem gateway_authorised (env : Environment) (steps : List GatewayStep)
    (h : Along GatewayState.step Behaved (.initial env) steps) :
    Along GatewayState.step Authorised (.initial env) steps :=
  Along.weaken (fun _ _ _ hs hbehaved hstep => hs.step hbehaved hstep)
    (fun _ l hs _ => authorised_of_bound hs l) (Bound.initial env) h

/-! ## Anybody's console -/

section Intruder

/-- One server, of `owner`, and a token signed for the given user. -/
def environmentOf (userId : String) : Environment where
  users := ⟨[.withDefaults "owner" "owner@nexus.local" "owner" "", .withDefaults "guest"
    "guest@nexus.local" "guest" ""], by decide⟩
  servers := ⟨[.withDefaults "1" "s" "s" "server" "owner" "n" "t" "e" "a" 1024 1024 "" ""],
    by decide⟩
  jwt := ⟨[⟨"t", .access userId "" false, 1⟩], fun _ ha _ hb _ => by
    rw [List.mem_singleton.mp ha, List.mem_singleton.mp hb]⟩
  now := 0

/-- A socket bound to the server by its handshake sends a command. -/
def commandRun (userId : String) : List GatewayStep :=
  [.event (.connection "c" (some "nexus_session=t") (some "s")),
   .event (.sendCommand "c" "op me"),
   .resume (.findForCommand "c" userId "s" "op me") (.ok ⟨none, []⟩)]

/-- The owner's run is well behaved, so its command is authorised. -/
theorem gateway_authorised_owner :
    Along GatewayState.step Authorised (.initial (environmentOf "owner")) (commandRun "owner") := by
  refine gateway_authorised _ _ ⟨fun payload hpayload uuid _ => .inr ?_,
    fun s' hs' => ⟨trivial, fun s'' hs'' => ⟨trivial, fun _ _ => trivial⟩⟩⟩
  have hsub : payload.sub = "owner" := by
    have hverify : (cookieToken (some "nexus_session=t")).bind
        (GatewayState.initial (environmentOf "owner")).verify =
          some (.access "owner" "" false) := by decide
    cases hverify.symm.trans hpayload
    rfl
  intro server hserver _
  rw [List.mem_singleton.mp hserver, hsub]
  rfl

/-- Wings is given the command of a user who neither owns the server nor is an administrator. -/
theorem gateway_command_unauthorised :
    ¬ Along GatewayState.step Authorised (.initial (environmentOf "guest"))
      (commandRun "guest") := by
  intro h
  have hlast := ((h.2 _ rfl).2 _ rfl).1
  have hsent := hlast (.sendCommand "guest" "s" "op me") (by decide)
  rcases hsent.2 with ⟨user, huser, hid, hroot⟩ | howned
  · revert user
    decide
  · exact absurd (howned _ List.mem_cons_self rfl) (by decide)

end Intruder

end Panel
