import NexusPanel.Panel.GatewayAccess

/-!
# The room a socket is in, and what it hears there

A socket that authenticates joins the room of the server it names. `handleAuth` does not leave the
room the socket was in before, so a client that switches servers is in both rooms. And what the
timers bring from Wings is sent to the whole room: subscriptions decide which servers are asked,
not who hears the answer.

History variable, which no handler reads: for each connected client the user and the server of its
latest successful authentication, and what it has subscribed to since it connected. A connection
whose cookie verifies and whose query names a server authenticates and subscribes to both.
-/

namespace Panel

open Transition

/-! ## What clients have done -/

structure ClientHistory where
  user : Option String
  server : Option String
  subscribed : Subscriptions
deriving DecidableEq, Repr

abbrev ClientHistories := String → Option ClientHistory

/-- The history of a client from its connection on. -/
def ClientHistory.connected (payload : Option JwtPayload) (server : Option String) :
    ClientHistory :=
  match payload, truthy server with
  | some payload, some uuid => ⟨some payload.sub, some uuid, ⟨true, true⟩⟩
  | some payload, none => ⟨some payload.sub, none, ⟨false, false⟩⟩
  | none, _ => ⟨none, none, ⟨false, false⟩⟩

/-- A client without a user cannot subscribe. -/
def ClientHistory.subscribe (f : Subscriptions → Subscriptions) (h : ClientHistory) :
    ClientHistory :=
  match truthy h.user with
  | some _ => { h with subscribed := f h.subscribed }
  | none => h

/-- The histories after an event. A client that fails to authenticate is disconnected. -/
def ClientHistories.after (verify : String → Option JwtPayload) (histories : ClientHistories) :
    ClientEvent → ClientHistories
  | .connection client cookie server => Function.update histories client
      (some (.connected ((cookieToken cookie).bind verify) server))
  | .disconnect client => Function.update histories client none
  | .auth client token serverUuid => Function.update histories client <|
      match token.bind verify with
      | some payload => (histories client).map fun h =>
          { h with user := some payload.sub, server := some (printed serverUuid) }
      | none => none
  | .subscribeConsole client => Function.update histories client <|
      (histories client).map (.subscribe fun subs => { subs with console := true })
  | .subscribeStats client => Function.update histories client <|
      (histories client).map (.subscribe fun subs => { subs with stats := true })
  | .sendCommand _ _ | .sendPowerAction _ _ => histories

structure RoomsState where
  inner : GatewayState
  histories : ClientHistories

namespace RoomsState

def initial (env : Environment) : RoomsState := ⟨.initial env, fun _ => none⟩

def step (s : RoomsState) (l : GatewayStep) : Option RoomsState :=
  (s.inner.step l).map fun inner =>
    { inner
      histories := match l with
        | .event event => s.histories.after s.inner.verify event
        | _ => s.histories }

/-! ## The room of one server -/

/-- The client has a socket in the room of the server. -/
def InRoom (s : RoomsState) (client uuid : String) : Prop :=
  ∃ k ∈ s.inner.gateway.sockets, k.id = client ∧ roomOf uuid ∈ k.rooms

/-- A client is in the room of a server exactly when it is connected and has authenticated for that
server last. -/
def FollowsOne (s : RoomsState) : Prop :=
  ∀ client uuid, s.InRoom client uuid ↔
    ∃ h, s.histories client = some h ∧ h.server = some uuid

/-- What a step sends reaches the client: it is sent to the client while it is connected, or to a
room the client is in. -/
def Reaches (s : RoomsState) (client : String) : Output → Prop
  | .client receiver _ _ => receiver = client ∧ ∃ k ∈ s.inner.gateway.sockets, k.id = client
  | .room uuid _ => s.InRoom client uuid
  | .sendCommand .. | .powerAction .. => False

end RoomsState

/-- The server a message is about. -/
def Output.about : Output → Option String
  | .client _ server _ => server
  | .room uuid _ => some uuid
  | .sendCommand .. | .powerAction .. => none

/-- The subscription a message is for. -/
def Output.poll : Output → Option Poll
  | .client _ _ (.consoleOutput _) | .room _ (.consoleOutput _) => some .console
  | .client _ _ (.statsUpdate _) | .room _ (.statsUpdate _) => some .stats
  | _ => none

/-- What a step sends about a server reaches only clients that have authenticated for that server
last. -/
def HearsItsServer (s : RoomsState) (l : GatewayStep) : Prop :=
  ∀ o ∈ s.inner.outputs l, ∀ client, s.Reaches client o → ∀ uuid, o.about = some uuid →
    ∃ h, s.histories client = some h ∧ h.server = some uuid

/-- Console lines and statistics reach only clients that have subscribed to them. -/
def HearsItsSubscriptions (s : RoomsState) (l : GatewayStep) : Prop :=
  ∀ o ∈ s.inner.outputs l, ∀ client, s.Reaches client o → ∀ poll, o.poll = some poll →
    ∃ h, s.histories client = some h ∧ Gateway.wants poll h.subscribed = true

/-- A connected client that authenticates once more does so for the same server. -/
def KeepsServer (s : RoomsState) : GatewayStep → Prop
  | .event (.auth client token serverUuid) => (token.bind s.inner.verify).isSome = true →
      (∃ k ∈ s.inner.gateway.sockets, k.id = client) →
      ∀ h, s.histories client = some h → ∀ uuid, h.server = some uuid → uuid = printed serverUuid
  | _ => True

/-- When Wings answers a poll with lines or statistics of a server, all clients that have
authenticated for the server last have subscribed to them; and when a client's command has been
sent, the client, which gets it echoed, has subscribed to the console. -/
def AnswersSubscribers (s : RoomsState) : GatewayStep → Prop
  | .resume (.statusAsked poll uuid) (.ok status) =>
    .statusAsked poll uuid ∈ s.inner.pending → (poll = .console → status.output ≠ []) →
      ∀ client h, s.histories client = some h → h.server = some uuid →
        Gateway.wants poll h.subscribed = true
  | .resume (.commandSent client uuid command) (.ok _) =>
    .commandSent client uuid command ∈ s.inner.pending →
      ∀ h, s.histories client = some h → h.subscribed.console = true
  | _ => True

/-! ## The invariant -/

/-- A socket that agrees with its client's history: it is in one room at most, and bound to no
other server. -/
structure Follows (k : Socket) (h : ClientHistory) : Prop where
  rooms : ∀ uuid, roomOf uuid ∈ k.rooms ↔ h.server = some uuid
  bound : ∀ uuid, truthy k.serverUuid = some uuid → h.server = some uuid

/-- A socket without a server is in no room. -/
theorem Follows.unbound {id : String} {userId user : Option String} {subscribed : Subscriptions} :
    Follows ⟨id, userId, none, []⟩ ⟨user, none, subscribed⟩ where
  rooms := by simp
  bound := by simp [truthy]

structure Following (s : RoomsState) : Prop where
  followed : ∀ k ∈ s.inner.gateway.sockets, ∃ h, s.histories k.id = some h ∧ Follows k h
  connected : ∀ client h, s.histories client = some h →
    ∃ k ∈ s.inner.gateway.sockets, k.id = client
  answering : ∀ p ∈ s.inner.pending, ∀ client uuid, p.answers = some (client, uuid) →
    ∀ h, s.histories client = some h → h.server = some uuid

namespace Gateway

variable {g : Gateway} {client : String} {f : Socket → Socket} {hf : ∀ k, (f k).id = k.id}

theorem mem_setSocket_iff {k' : Socket} :
    k' ∈ (g.setSocket client f hf).sockets ↔
      ∃ k ∈ g.sockets, (if k.id == client then f k else k) = k' :=
  Table.mem_update hf

/-- Changing a socket disconnects nobody. -/
theorem setSocket_connected {k : Socket} (hk : k ∈ g.sockets) :
    ∃ k' ∈ (g.setSocket client f hf).sockets, k'.id = k.id := by
  refine ⟨_, mem_setSocket_iff.mpr ⟨k, hk, rfl⟩, ?_⟩
  split
  · exact hf k
  · rfl

end Gateway

namespace Following

variable {s s' : RoomsState}

theorem initial (env : Environment) : Following (.initial env) where
  followed := fun _ h => by cases h
  connected := fun _ _ h => by cases h
  answering := fun _ h => by cases h

theorem followsOne (hs : Following s) : s.FollowsOne := by
  intro client uuid
  constructor
  · rintro ⟨k, hk, rfl, hroom⟩
    obtain ⟨h, hh, hfollows⟩ := hs.followed k hk
    exact ⟨h, hh, (hfollows.rooms uuid).mp hroom⟩
  · rintro ⟨h, hh, hserver⟩
    obtain ⟨k, hk, rfl⟩ := hs.connected client h hh
    obtain ⟨h', hh', hfollows⟩ := hs.followed k hk
    cases hh.symm.trans hh'
    exact ⟨k, hk, rfl, (hfollows.rooms uuid).mpr hserver⟩

/-- New jobs answer clients that have authenticated for the jobs' servers last. -/
theorem of_pending (hs : Following s) {pending : List Pending}
    (h : ∀ p ∈ pending, ∀ client uuid, p.answers = some (client, uuid) →
      ∀ h, s.histories client = some h → h.server = some uuid) :
    Following { s with inner := { s.inner with pending } } :=
  ⟨hs.followed, hs.connected, h⟩

/-- Only the servers of the histories matter. -/
theorem of_servers (hs : Following s) {g : Gateway} {histories : ClientHistories}
    (hsockets : g.sockets = s.inner.gateway.sockets)
    (hservers : ∀ client, (histories client).map ClientHistory.server =
      (s.histories client).map ClientHistory.server) :
    Following ⟨{ s.inner with gateway := g }, histories⟩ := by
  have back {client : String} {h : ClientHistory} (hh : histories client = some h) :
      ∃ h₀, s.histories client = some h₀ ∧ h₀.server = h.server := by
    have heq := hservers client
    rw [hh] at heq
    exact Option.map_eq_some_iff.mp heq.symm
  refine ⟨fun k hk => ?_, fun client h hh => ?_, fun p hp client uuid hpa h hh => ?_⟩
  · obtain ⟨h₀, hh₀, hfollows⟩ := hs.followed k (hsockets ▸ hk)
    have heq := hservers k.id
    rw [hh₀] at heq
    obtain ⟨h, hh, hserver⟩ := Option.map_eq_some_iff.mp heq
    exact ⟨h, hh, fun uuid => hserver ▸ hfollows.rooms uuid,
      fun uuid hu => hserver ▸ hfollows.bound uuid hu⟩
  · obtain ⟨h₀, hh₀, -⟩ := back hh
    rw [hsockets]
    exact hs.connected client h₀ hh₀
  · obtain ⟨h₀, hh₀, hserver⟩ := back hh
    exact hserver ▸ hs.answering p hp client uuid hpa h₀ hh₀

/-- A client connects, its id free of old jobs. -/
theorem insert (hs : Following s) {k : Socket} {h : ClientHistory} {sockets : Table Socket}
    {subs : AList fun _ : String => Subscriptions}
    (hins : s.inner.gateway.sockets.insert k = some sockets)
    (hfresh : ∀ p ∈ s.inner.pending, p.client? ≠ some k.id) (hk : Follows k h) :
    Following ⟨{ s.inner with gateway := ⟨sockets, subs⟩ },
      Function.update s.histories k.id (some h)⟩ := by
  obtain ⟨hnew, hmem⟩ := Table.insert_eq_some hins
  refine ⟨fun k' hk' => ?_, fun client h' hh' => ?_, fun p hp client uuid hpa h' hh' => ?_⟩
  · rcases (hmem k').mp hk' with rfl | hold
    · exact ⟨h, Function.update_self .., hk⟩
    · obtain ⟨h', hh', hfollows⟩ := hs.followed k' hold
      exact ⟨h', (Function.update_of_ne (hnew k' hold) ..).trans hh', hfollows⟩
  · by_cases hid : client = k.id
    · exact ⟨k, (hmem k).mpr (.inl rfl), hid.symm⟩
    · obtain ⟨k', hk', rfl⟩ := hs.connected client h' ((Function.update_of_ne hid ..).symm.trans hh')
      exact ⟨k', (hmem k').mpr (.inr hk'), rfl⟩
  · have hid : client ≠ k.id := by
      rintro rfl
      refine hfresh p hp ?_
      cases p <;> cases hpa <;> rfl
    exact hs.answering p hp client uuid hpa h' ((Function.update_of_ne hid ..).symm.trans hh')

/-- A client disconnects, or is disconnected. -/
theorem disconnect (hs : Following s) (client : String) :
    Following ⟨{ s.inner with gateway := s.inner.gateway.handleDisconnect client },
      Function.update s.histories client none⟩ := by
  have other {c : String} {h : ClientHistory}
      (hh : Function.update s.histories client none c = some h) :
      c ≠ client ∧ s.histories c = some h := by
    by_cases hid : c = client
    · subst hid
      rw [Function.update_self] at hh
      cases hh
    · rw [Function.update_of_ne hid] at hh
      exact ⟨hid, hh⟩
  refine ⟨fun k hk => ?_, fun c h hh => ?_, fun p hp c uuid hpa h hh => ?_⟩
  · obtain ⟨hk, hid⟩ := Table.mem_delete.mp hk
    obtain ⟨h, hh, hfollows⟩ := hs.followed k hk
    exact ⟨h, (Function.update_of_ne (beq_eq_false_iff_ne.mp hid) ..).trans hh, hfollows⟩
  · obtain ⟨hid, hh⟩ := other hh
    obtain ⟨k, hk, rfl⟩ := hs.connected c h hh
    exact ⟨k, Table.mem_delete.mpr ⟨hk, beq_eq_false_iff_ne.mpr hid⟩, rfl⟩
  · exact hs.answering p hp c uuid hpa h (other hh).2

/-- A client authenticates, once more for the same server if it has a server. -/
theorem authenticated (hs : Following s) {client : String} {serverUuid : Option String}
    {user : String}
    (hkeeps : ∀ h, s.histories client = some h → ∀ uuid, h.server = some uuid →
      uuid = printed serverUuid) :
    Following ⟨{ s.inner with
        gateway := s.inner.gateway.setSocket client fun k => { k with
          userId := some user, serverUuid
          rooms := roomOf (printed serverUuid) :: k.rooms } },
      Function.update s.histories client <| (s.histories client).map fun h =>
        { h with user := some user, server := some (printed serverUuid) }⟩ := by
  have before {c : String} {h : ClientHistory}
      (hh : Function.update s.histories client ((s.histories client).map fun h =>
        { h with user := some user, server := some (printed serverUuid) }) c = some h) :
      ∃ h₀, s.histories c = some h₀ ∧
        h.server = if c = client then some (printed serverUuid) else h₀.server := by
    by_cases hid : c = client
    · subst hid
      rw [Function.update_self] at hh
      obtain ⟨h₀, hh₀, rfl⟩ := Option.map_eq_some_iff.mp hh
      exact ⟨h₀, hh₀, (if_pos rfl).symm⟩
    · rw [Function.update_of_ne hid] at hh
      exact ⟨h, hh, (if_neg hid).symm⟩
  refine ⟨fun k' hk' => ?_, fun c h hh => ?_, fun p hp c uuid hpa h hh => ?_⟩
  · obtain ⟨k, hk, rfl⟩ := Gateway.mem_setSocket_iff.mp hk'
    obtain ⟨h, hh, hfollows⟩ := hs.followed k hk
    by_cases hid : k.id = client
    · subst hid
      rw [if_pos (beq_self_eq_true _)]
      refine ⟨_, (Function.update_self ..).trans (congrArg (Option.map _) hh), fun uuid => ?_,
        fun uuid hu => ?_⟩
      · simp only [List.mem_cons, hfollows.rooms uuid, Option.some.injEq]
        constructor
        · rintro (hroom | hserver)
          · exact (roomOf_injective hroom).symm
          · exact (hkeeps h hh uuid hserver).symm
        · rintro rfl
          exact .inl rfl
      · exact congrArg some (printed_of_truthy hu)
    · rw [if_neg (fun heq => hid (beq_iff_eq.mp heq))]
      exact ⟨h, (Function.update_of_ne hid ..).trans hh, hfollows⟩
  · obtain ⟨h₀, hh₀, -⟩ := before hh
    obtain ⟨k, hk, rfl⟩ := hs.connected c h₀ hh₀
    exact Gateway.setSocket_connected hk
  · obtain ⟨h₀, hh₀, hserver⟩ := before hh
    have hold := hs.answering p hp c uuid hpa h₀ hh₀
    split at hserver
    next hid => exact hserver.trans (congrArg some (hkeeps h₀ (hid ▸ hh₀) uuid hold).symm)
    next => exact hserver.trans hold

/-- A bound socket's client takes up a job about the server it is bound to. -/
theorem entered (hs : Following s) {k : Socket} (hk : k ∈ s.inner.gateway.sockets) {job : Pending}
    {uuid : String} (huuid : truthy k.serverUuid = some uuid)
    (hjob : job.answers = some (k.id, uuid)) :
    Following { s with inner := { s.inner with pending := [job] ++ s.inner.pending } } := by
  refine hs.of_pending fun p hp client uuid' hpa h hh => ?_
  rcases List.mem_cons.mp hp with rfl | hp
  · cases hjob.symm.trans hpa
    obtain ⟨h', hh', hfollows⟩ := hs.followed k hk
    cases hh.symm.trans hh'
    exact hfollows.bound uuid huuid
  · exact hs.answering p hp client uuid' hpa h hh

/-- A client connects: the socket is bound, and in the room, as its history says. -/
theorem connection (hs : Following s) {client : String} {cookie server : Option String}
    {g : Gateway} {out : List Output} (hfresh : ∀ p ∈ s.inner.pending, p.client? ≠ some client)
    (h : s.inner.gateway.handleConnection s.inner.verify client cookie server = some (g, out)) :
    Following ⟨{ s.inner with gateway := g }, Function.update s.histories client
      (some (.connected ((cookieToken cookie).bind s.inner.verify) server))⟩ := by
  unfold Gateway.handleConnection at h
  dsimp only at h
  split at h
  next hnone =>
    obtain ⟨sockets, hins, heq⟩ := Option.map_eq_some_iff.mp h
    cases heq
    rw [hnone]
    exact hs.insert hins hfresh .unbound
  next payload hsome =>
    rw [hsome]
    split at h
    next hquery =>
      obtain ⟨sockets, hins, heq⟩ := Option.map_eq_some_iff.mp h
      cases heq
      simp only [ClientHistory.connected, hquery]
      exact hs.insert hins hfresh .unbound
    next uuid hquery =>
      obtain ⟨sockets, hins, heq⟩ := Option.map_eq_some_iff.mp h
      cases heq
      simp only [ClientHistory.connected, hquery]
      refine hs.insert hins hfresh ⟨fun uuid' => ?_, fun uuid' hu => ?_⟩
      · rw [List.mem_singleton, Option.some.injEq]
        exact ⟨fun hroom => (roomOf_injective hroom).symm, fun heq => congrArg roomOf heq.symm⟩
      · exact hquery.symm.trans ((truthy_idem hquery).trans hu)

end Following

/-- An event that goes through, with what the gateway makes of it. -/
theorem step_event {s s' : RoomsState} {event : ClientEvent}
    (h : s.step (.event event) = some s') :
    s.inner.freshFor event = true ∧ ∃ g out jobs,
      s.inner.gateway.receive s.inner.verify event = some (g, out, jobs) ∧
      s' = ⟨{ s.inner with gateway := g, pending := jobs ++ s.inner.pending },
        s.histories.after s.inner.verify event⟩ := by
  obtain ⟨inner, hinner, rfl⟩ := Option.map_eq_some_iff.mp h
  simp only [GatewayState.step, GatewayState.exec] at hinner
  split at hinner
  next hfresh =>
    obtain ⟨⟨inner', out⟩, hexec, rfl⟩ := Option.map_eq_some_iff.mp hinner
    obtain ⟨⟨g, out', jobs⟩, hreceive, heq⟩ := Option.map_eq_some_iff.mp hexec
    cases heq
    exact ⟨hfresh, _, _, _, hreceive, rfl⟩
  next => cases hinner

/-- Subscribing leaves the servers of the histories alone. -/
theorem server_subscribe (histories : ClientHistories) (client c : String)
    (f : Subscriptions → Subscriptions) :
    (Function.update histories client ((histories client).map (.subscribe f)) c).map
      ClientHistory.server = (histories c).map ClientHistory.server := by
  by_cases hid : c = client
  · subst hid
    rw [Function.update_self, Option.map_map]
    congr 1
    funext h
    simp only [Function.comp_apply, ClientHistory.subscribe]
    split <;> rfl
  · rw [Function.update_of_ne hid]

namespace Following

variable {s s' : RoomsState}

/-- An event of a client that keeps its server keeps the invariant. -/
theorem event (hs : Following s) {event : ClientEvent} (hkeeps : KeepsServer s (.event event))
    (h : s.step (.event event) = some s') : Following s' := by
  obtain ⟨hfresh, g, out, jobs, hreceive, rfl⟩ := step_event h
  cases event with
  | connection client cookie server =>
    obtain ⟨⟨g₁, out₁⟩, hconnection, heq⟩ := Option.map_eq_some_iff.mp hreceive
    cases heq
    refine hs.connection (fun p hp => ?_) hconnection
    simpa using List.all_eq_true.mp hfresh p hp
  | disconnect client =>
    obtain ⟨k, hk, heq⟩ := Option.map_eq_some_iff.mp hreceive
    cases heq
    exact hs.disconnect client
  | auth client token serverUuid =>
    obtain ⟨k, hk, heq⟩ := Option.map_eq_some_iff.mp hreceive
    cases heq
    have hconnected : ∃ k ∈ s.inner.gateway.sockets, k.id = client :=
      ⟨k, Table.findOne_mem hk, by simpa only [beq_iff_eq] using Table.findOne_sat hk⟩
    simp only [KeepsServer] at hkeeps
    simp only [ClientHistories.after]
    cases hverify : token.bind s.inner.verify with
    | none => exact hs.disconnect client
    | some payload =>
      rw [hverify] at hkeeps
      exact hs.authenticated (hkeeps rfl hconnected)
  | subscribeConsole client =>
    obtain ⟨k, hk, heq⟩ := Option.map_eq_some_iff.mp hreceive
    cases heq
    exact hs.of_servers (Gateway.sockets_handleSubscribeConsole ..)
      fun c => server_subscribe s.histories client c _
  | subscribeStats client =>
    obtain ⟨k, hk, heq⟩ := Option.map_eq_some_iff.mp hreceive
    cases heq
    exact hs.of_servers (Gateway.sockets_handleSubscribeStats ..)
      fun c => server_subscribe s.histories client c _
  | sendCommand client command =>
    obtain ⟨k, hk, heq⟩ := Option.map_eq_some_iff.mp hreceive
    cases heq
    change Following { s with inner := { s.inner with
      pending := Gateway.handleSendCommand k command ++ s.inner.pending } }
    rcases Gateway.handleSendCommand_cases k command with hjobs | ⟨_, _, -, huuid, hjobs⟩
    · rw [hjobs]
      exact hs
    · rw [hjobs]
      exact hs.entered (Table.findOne_mem hk) huuid rfl
  | sendPowerAction client action =>
    obtain ⟨k, hk, heq⟩ := Option.map_eq_some_iff.mp hreceive
    cases heq
    change Following { s with inner := { s.inner with
      pending := Gateway.handleSendPowerAction k action ++ s.inner.pending } }
    rcases Gateway.handleSendPowerAction_cases k action with hjobs | ⟨_, _, -, huuid, hjobs⟩
    · rw [hjobs]
      exact hs
    · rw [hjobs]
      exact hs.entered (Table.findOne_mem hk) huuid rfl

/-- A step of a run in which clients keep their servers keeps the invariant. -/
theorem step (hs : Following s) {l : GatewayStep} (hkeeps : KeepsServer s l)
    (h : s.step l = some s') : Following s' := by
  cases l with
  | event event => exact hs.event hkeeps h
  | poll poll =>
    cases h
    refine hs.of_pending fun p hp => ?_
    rcases List.mem_append.mp hp with hp | hp
    · obtain ⟨uuid, -, rfl⟩ := List.mem_map.mp hp
      intro client uuid' hpa
      cases hpa
    · exact hs.answering p hp
  | resume job reply =>
    obtain ⟨inner, hinner, rfl⟩ := Option.map_eq_some_iff.mp h
    simp only [GatewayState.step, GatewayState.exec] at hinner
    split at hinner
    next hjob =>
      cases hinner
      refine hs.of_pending fun p hp client uuid hpa => ?_
      rcases List.mem_append.mp hp with hp | hp
      · rcases (Bound.resume_jobs s.inner.env.servers job reply).2 p hp with hnone | hsame
        · cases hnone.symm.trans hpa
        · exact hs.answering job hjob client uuid (hsame.symm.trans hpa)
      · exact hs.answering p (List.mem_of_mem_erase hp) client uuid hpa
    next => cases hinner
  | environment env =>
    cases h
    exact ⟨hs.followed, hs.connected, hs.answering⟩

/-- A client that switches servers stays in the room it was in, so a step that leaves each client
in one room keeps the servers. -/
theorem needed (hs : Following s) {l : GatewayStep} (h : s.step l = some s')
    (hone : s'.FollowsOne) : KeepsServer s l := by
  cases l with
  | event event =>
    cases event with
    | auth client token serverUuid =>
      intro hsome ⟨k, hk, hid⟩ h₀ hh₀ uuid hserver
      obtain ⟨-, g, out, jobs, hreceive, rfl⟩ := step_event h
      obtain ⟨-, -, heq⟩ := Option.map_eq_some_iff.mp hreceive
      obtain ⟨payload, hverify⟩ := Option.isSome_iff_exists.mp hsome
      obtain ⟨h₁, hh₁, hfollows⟩ := hs.followed k hk
      subst hid
      cases hh₀.symm.trans hh₁
      have hroom : roomOf uuid ∈ k.rooms := (hfollows.rooms uuid).mpr hserver
      simp only [Gateway.handleAuth, hverify] at heq
      cases heq
      obtain ⟨h', hh', hserver'⟩ := (hone k.id uuid).mp
        ⟨_, Gateway.mem_setSocket_iff.mpr ⟨k, hk, rfl⟩, by simp [hroom]⟩
      simp only [ClientHistories.after, hverify, Function.update_self, hh₀, Option.map_some,
        Option.some.injEq] at hh'
      subst hh'
      exact Option.some.inj hserver'.symm
    | _ => trivial
  | _ => trivial

end Following

/-! ## What is heard -/

/-- What a step sends about a server, or to those who have subscribed: the answers to a command
and to a power action, and what a poll brings. -/
theorem output_cases {s : GatewayState} {l : GatewayStep} {o : Output} (ho : o ∈ s.outputs l) :
    (o.about = none ∧ o.poll = none) ∨
    (∃ client uuid command status, l = .resume (.commandSent client uuid command) (.ok status) ∧
      .commandSent client uuid command ∈ s.pending ∧
      o = .client client (some uuid) (.consoleOutput s!"> {command}")) ∨
    (∃ client uuid action, .powerSent client uuid action ∈ s.pending ∧
      o = .client client (some uuid) (.powerState action)) ∨
    ∃ poll uuid status message, l = .resume (.statusAsked poll uuid) (.ok status) ∧
      .statusAsked poll uuid ∈ s.pending ∧ message ∈ pollMessages poll status ∧
      o = .room uuid message := by
  cases l with
  | event event =>
    left
    simp only [GatewayState.outputs, GatewayState.exec] at ho
    split at ho
    next hexec =>
      split at hexec
      · obtain ⟨⟨g, out, jobs⟩, hreceive, heq⟩ := Option.map_eq_some_iff.mp hexec
        cases heq
        obtain ⟨client, message, rfl, rfl | ⟨text, rfl⟩⟩ := receive_outputs hreceive o ho
        · exact ⟨rfl, rfl⟩
        · exact ⟨rfl, rfl⟩
      · cases hexec
    next => cases ho
  | poll _ | environment _ => cases ho
  | resume job reply =>
    by_cases hjob : job ∈ s.pending
    · simp only [GatewayState.outputs, GatewayState.exec, if_pos hjob] at ho
      cases job <;> cases reply <;> simp only [resume] at ho <;> try split at ho
      case commandSent.ok client uuid command status =>
        exact .inr (.inl ⟨_, _, _, _, rfl, hjob, List.mem_singleton.mp ho⟩)
      case powerSent.ok =>
        exact .inr (.inr (.inl ⟨_, _, _, hjob, List.mem_singleton.mp ho⟩))
      case statusAsked.ok =>
        obtain ⟨message, hmessage, rfl⟩ := List.mem_map.mp ho
        exact .inr (.inr (.inr ⟨_, _, _, _, rfl, hjob, hmessage, rfl⟩))
      all_goals first
        | cases ho
          done
        | cases List.mem_singleton.mp ho
          exact .inl ⟨rfl, rfl⟩
    · simp only [GatewayState.outputs, GatewayState.exec, if_neg hjob] at ho
      cases ho

/-- A poll sends a room at least one message that somebody subscribes to, unless it brings no
line. -/
theorem exists_pollMessage {poll : Poll} {status : WingsStatus}
    (h : poll = .console → status.output ≠ []) (uuid : String) :
    ∃ message ∈ pollMessages poll status, (Output.room uuid message).poll = some poll := by
  cases poll with
  | stats => exact ⟨.statsUpdate status, List.mem_cons_self, rfl⟩
  | console =>
    obtain ⟨line, hline⟩ := List.exists_mem_of_ne_nil _ (h rfl)
    exact ⟨.consoleOutput line, List.mem_map_of_mem hline, rfl⟩

/-- A poll sends nothing for the other subscription. -/
theorem poll_of_mem_pollMessages {poll poll' : Poll} {status : WingsStatus} {uuid : String}
    {message : ServerMessage} (hmem : message ∈ pollMessages poll status)
    (hpoll : (Output.room uuid message).poll = some poll') :
    poll' = poll ∧ (poll = .console → status.output ≠ []) := by
  cases poll with
  | stats =>
    refine ⟨?_, fun h => by cases h⟩
    rcases List.mem_cons.mp hmem with rfl | hstate
    · exact (Option.some.inj hpoll).symm
    · obtain ⟨state, -, rfl⟩ := Option.map_eq_some_iff.mp (Option.mem_toList.mp hstate)
      cases hpoll
  | console =>
    obtain ⟨line, hline, rfl⟩ := List.mem_map.mp hmem
    exact ⟨(Option.some.inj hpoll).symm, fun _ => List.ne_nil_of_mem hline⟩

/-- A settled promise sends what its handler sends. -/
theorem outputs_resume {s : GatewayState} {job : Pending} (hjob : job ∈ s.pending)
    (reply : Reply) : s.outputs (.resume job reply) = (resume s.env.servers job reply).1 := by
  simp only [GatewayState.outputs, GatewayState.exec, if_pos hjob]

namespace Following

variable {s : RoomsState}

/-- A client that is answered is connected, and is answered about its server. -/
theorem answered (hs : Following s) {job : Pending} (hjob : job ∈ s.inner.pending)
    {client uuid : String} (hanswers : job.answers = some (client, uuid))
    (hconnected : ∃ k ∈ s.inner.gateway.sockets, k.id = client) :
    ∃ h, s.histories client = some h ∧ h.server = some uuid := by
  obtain ⟨k, hk, rfl⟩ := hconnected
  obtain ⟨h, hh, -⟩ := hs.followed k hk
  exact ⟨h, hh, hs.answering job hjob k.id uuid hanswers h hh⟩

/-- What a step sends about a server is heard by its own clients. -/
theorem hearsItsServer (hs : Following s) (l : GatewayStep) : HearsItsServer s l := by
  intro o ho client hreaches uuid habout
  rcases output_cases ho with ⟨hnone, -⟩ | ⟨c, u, command, status, -, hjob, rfl⟩ |
    ⟨c, u, action, hjob, rfl⟩ | ⟨poll, u, status, message, -, -, -, rfl⟩
  · cases hnone.symm.trans habout
  · obtain ⟨rfl, hconnected⟩ := hreaches
    cases habout
    exact hs.answered hjob rfl hconnected
  · obtain ⟨rfl, hconnected⟩ := hreaches
    cases habout
    exact hs.answered hjob rfl hconnected
  · cases habout
    exact (hs.followsOne client uuid).mp hreaches

/-- A step is heard by those who have subscribed, exactly when Wings answers for nobody else. -/
theorem hearsItsSubscriptions_iff (hs : Following s) (l : GatewayStep) :
    HearsItsSubscriptions s l ↔ AnswersSubscribers s l := by
  constructor
  · intro hears
    cases l with
    | resume job reply =>
      cases job <;> cases reply
      case statusAsked.ok poll uuid status =>
        intro hjob hsome client h hh hserver
        obtain ⟨message, hmessage, hpoll⟩ := exists_pollMessage hsome uuid
        have hsent : .room uuid message ∈ s.inner.outputs (.resume (.statusAsked poll uuid)
            (.ok status)) := by
          rw [outputs_resume hjob]
          exact List.mem_map_of_mem hmessage
        obtain ⟨h', hh', hwants⟩ := hears _ hsent client
          ((hs.followsOne client uuid).mpr ⟨h, hh, hserver⟩) poll hpoll
        cases hh.symm.trans hh'
        exact hwants
      case commandSent.ok client uuid command status =>
        intro hjob h hh
        have hsent : .client client (some uuid) (.consoleOutput s!"> {command}") ∈
            s.inner.outputs (.resume (.commandSent client uuid command) (.ok status)) := by
          rw [outputs_resume hjob]
          exact List.mem_singleton_self _
        obtain ⟨h', hh', hwants⟩ := hears _ hsent client
          ⟨rfl, hs.connected client h hh⟩ .console rfl
        cases hh.symm.trans hh'
        exact hwants
      all_goals trivial
    | _ => trivial
  · intro hanswers o ho client hreaches poll hpoll
    rcases output_cases ho with ⟨-, hnone⟩ | ⟨c, u, command, status, rfl, hjob, rfl⟩ |
      ⟨c, u, action, hjob, rfl⟩ | ⟨poll', u, status, message, rfl, hjob, hmem, rfl⟩
    · cases hnone.symm.trans hpoll
    · obtain ⟨rfl, hconnected⟩ := hreaches
      cases hpoll
      obtain ⟨h, hh, -⟩ := hs.answered hjob rfl hconnected
      exact ⟨h, hh, hanswers hjob h hh⟩
    · cases hpoll
    · obtain ⟨rfl, hsome⟩ := poll_of_mem_pollMessages hmem hpoll
      obtain ⟨h, hh, hserver⟩ := (hs.followsOne client u).mp hreaches
      exact ⟨h, hh, hanswers hjob hsome client h hh hserver⟩

end Following

/-- A stuck step switches no server. -/
theorem keepsServer_of_stuck {s : RoomsState} {l : GatewayStep} (h : s.step l = none) :
    KeepsServer s l := by
  cases l with
  | event event =>
    cases event with
    | auth client token serverUuid =>
      rintro - ⟨k, hk, hid⟩
      have hnone : s.inner.gateway.socket client = none := by
        simpa [RoomsState.step, GatewayState.step, GatewayState.exec, GatewayState.freshFor,
          Gateway.receive] using h
      have hmissed := Table.findOne_eq_none.mp hnone k hk
      rw [hid, beq_self_eq_true] at hmissed
      cases hmissed
    | _ => trivial
  | _ => trivial

/-- In every run a client is in the room of the server it has authenticated for last and in no
other, hears of that server only, and gets console lines and statistics only once it has subscribed
to them, exactly when no client switches servers and Wings never answers for a room with a client
in it that has not subscribed. -/
theorem one_server_iff (env : Environment) (labels : List GatewayStep) :
    ((∀ done, done <+: labels → ∀ s, run RoomsState.step (.initial env) done = some s →
        s.FollowsOne) ∧
      Along RoomsState.step (fun s l => HearsItsServer s l ∧ HearsItsSubscriptions s l)
        (.initial env) labels) ↔
      Along RoomsState.step (fun s l => KeepsServer s l ∧ AnswersSubscribers s l)
        (.initial env) labels := by
  have hrooms : (∀ done, done <+: labels → ∀ s,
      run RoomsState.step (.initial env) done = some s → s.FollowsOne) ↔
      Along RoomsState.step KeepsServer (.initial env) labels :=
    property_iff_along (I := Following) (fun _ hs => hs.followsOne)
      (fun _ _ _ hs hkeeps hstep => hs.step hkeeps hstep)
      (fun _ _ _ hs hstep hone => hs.needed hstep hone)
      (fun _ _ hstuck => keepsServer_of_stuck hstuck) (.initial env)
  have along {C D : RoomsState → GatewayStep → Prop}
      (hCD : ∀ s l, Following s → C s l → D s l)
      (hkeeps : Along RoomsState.step KeepsServer (.initial env) labels)
      (hC : Along RoomsState.step C (.initial env) labels) :
      Along RoomsState.step D (.initial env) labels :=
    (along_and.mpr ⟨hkeeps, hC⟩).weaken (I := Following)
      (fun _ _ _ hs hboth hstep => hs.step hboth.1 hstep)
      (fun s l hs hboth => hCD s l hs hboth.2) (.initial env)
  constructor
  · rintro ⟨hone, hears⟩
    have hkeeps := hrooms.mp hone
    refine along_and.mpr ⟨hkeeps, along (fun s l hs h => ?_) hkeeps hears⟩
    exact (hs.hearsItsSubscriptions_iff l).mp h.2
  · intro h
    obtain ⟨hkeeps, hanswers⟩ := along_and.mp h
    refine ⟨hrooms.mpr hkeeps, along (fun s l hs h => ?_) hkeeps hanswers⟩
    exact ⟨hs.hearsItsServer l, (hs.hearsItsSubscriptions_iff l).mpr h⟩

/-! ## A client that switches servers -/

/-- A client connects, authenticates for a server, and then for another one. -/
def serverSwitch : List GatewayStep :=
  [.event (.connection "c" none none), .event (.auth "c" (some "t") (some "old")),
   .event (.auth "c" (some "t") (some "new"))]

/-- The client is still in the room of the server it has switched away from. -/
theorem stays_in_old_room :
    ¬ ∀ done, done <+: serverSwitch → ∀ s,
      run RoomsState.step (.initial (environmentOf "owner")) done = some s → s.FollowsOne := by
  intro h
  have hrun : ∃ s, run RoomsState.step (.initial (environmentOf "owner")) serverSwitch = some s ∧
      (∃ k ∈ s.inner.gateway.sockets.rows, k.id = "c" ∧ roomOf "old" ∈ k.rooms) ∧
      (s.histories "c").map ClientHistory.server = some (some "new") :=
    ⟨_, rfl, by decide, by decide⟩
  obtain ⟨s, hs, hold, hnew⟩ := hrun
  obtain ⟨history, hhistory, hserver⟩ := (h serverSwitch List.prefix_rfl s hs "c" "old").mp hold
  rw [hhistory, Option.map_some, hserver] at hnew
  exact absurd hnew (by decide)

end Panel
