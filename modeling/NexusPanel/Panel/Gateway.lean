import Mathlib.Data.List.AList
import NexusPanel.Panel.Entities
import NexusPanel.Panel.Jwt

/-!
# The socket.io gateway

`NexusWebSocketGateway`: the connected sockets with the user and the server each of them
carries, the rooms they have joined, and the subscriptions map. A client's event is handled
in one go up to the first `await`; what a handler still has to do after it is a `Pending`
job, so that a handler that waits for the database or for Wings can be overtaken by any
other event.

Nothing in this module asks whether a user may use a server: the source does not.
-/

namespace Panel

structure Subscriptions where
  console : Bool
  stats : Bool
deriving DecidableEq, Repr

/-- An `AuthenticatedSocket` and the rooms it is in. -/
structure Socket where
  id : String
  userId : Option String
  serverUuid : Option String
  rooms : List String
deriving DecidableEq, Repr

instance : Keyed String Socket := ⟨Socket.id⟩

structure Gateway where
  sockets : Table Socket
  clientSubscriptions : AList fun _ : String => Subscriptions

/-- The part of Wings' status the polls look at: the power state, when there is one, and the
lines of `output`. -/
structure WingsStatus where
  state : Option String
  output : List String
deriving DecidableEq, Repr

/-- The messages the gateway sends, by `ServerMessageType`. -/
inductive ServerMessage
  | authSuccess
  | consoleOutput (line : String)
  | statsUpdate (stats : WingsStatus)
  | powerState (state : String)
  | error (message : String)
deriving DecidableEq, Repr

/-- What a handler does to the outside: a message to one client, a message to a room, or a
call to Wings made for a socket's user. `server` records which server a message to a client
is about; it is `none` for the answers to authentication and for errors. -/
inductive Output
  | client (client : String) (server : Option String) (message : ServerMessage)
  | room (server : String) (message : ServerMessage)
  | sendCommand (userId serverUuid command : String)
  | powerAction (userId serverUuid : String) (action : Nat)
deriving DecidableEq, Repr

/-- The two timers. -/
inductive Poll
  | stats
  | console
deriving DecidableEq, Repr

/-- What a handler does once its `await` returns: the lookup of the server, or the answer of
Wings. `userId` is the user the handler was entered for. -/
inductive Pending
  | findForCommand (client userId serverUuid command : String)
  | commandSent (client serverUuid command : String)
  | findForPower (client userId serverUuid action : String)
  | powerSent (client serverUuid action : String)
  | findForPoll (poll : Poll) (serverUuid : String)
  | statusAsked (poll : Poll) (serverUuid : String)
deriving DecidableEq, Repr

/-- The client a job will answer. -/
def Pending.client? : Pending → Option String
  | .findForCommand client _ _ _ | .commandSent client _ _
  | .findForPower client _ _ _ | .powerSent client _ _ => some client
  | .findForPoll _ _ | .statusAsked _ _ => none

/-- The events of a client, with what the handshake or the message carries. -/
inductive ClientEvent
  | connection (client : String) (cookie server : Option String)
  | disconnect (client : String)
  | auth (client : String) (token serverUuid : Option String)
  | subscribeConsole (client : String)
  | subscribeStats (client : String)
  | sendCommand (client command : String)
  | sendPowerAction (client action : String)
deriving DecidableEq, Repr

/-- `` `server:${serverUuid}` ``. -/
def roomOf (serverUuid : String) : String := "server:" ++ serverUuid

/-- A template literal prints an absent value as `undefined`. -/
def printed (serverUuid : Option String) : String := serverUuid.getD "undefined"

/-- The capture of `/nexus_session=([^;]+)/`: the first occurrence of the name that is
followed by at least one character other than a semicolon. -/
def sessionMatch : List Char → Option (List Char)
  | [] => none
  | c :: cs =>
    if "nexus_session=".toList.isPrefixOf (c :: cs) then
      match ((c :: cs).drop "nexus_session=".toList.length).takeWhile (· ≠ ';') with
      | [] => sessionMatch cs
      | value => some value
    else sessionMatch cs

/-- The token in a `Cookie` header. -/
def cookieToken (cookie : Option String) : Option String :=
  (sessionMatch (cookie.getD "").toList).map String.ofList

/-- `WingsService.mapPowerAction`: anything that is not an action starts the server. -/
def mapPowerAction (action : String) : Nat :=
  match action with
  | "start" => 0
  | "stop" => 1
  | "restart" => 2
  | "kill" => 3
  | _ => 0

namespace Gateway

/-- No socket connected. -/
def initial : Gateway := ⟨.empty, ∅⟩

def socket (g : Gateway) (client : String) : Option Socket :=
  g.sockets.findOne fun k => k.id == client

/-- Change one socket; its id stays. -/
def setSocket (g : Gateway) (client : String) (f : Socket → Socket)
    (hf : ∀ k, (f k).id = k.id := by intro _; rfl) : Gateway :=
  { g with sockets := g.sockets.update (fun k => k.id == client) f hf }

/-- `clientSubscriptions.get(client.id)` changed in place when it is there. -/
def setSubs (g : Gateway) (client : String) (f : Subscriptions → Subscriptions) : Gateway :=
  match g.clientSubscriptions.lookup client with
  | some subs =>
    { g with clientSubscriptions := g.clientSubscriptions.insert client (f subs) }
  | none => g

/-- Authenticate from the cookie when it verifies, and bind to the server of the query. -/
def handleConnection (verify : String → Option JwtPayload) (g : Gateway) (client : String)
    (cookie server : Option String) : Option (Gateway × List Output) :=
  let subscribe (g : Gateway) (sockets : Table Socket) (subs : Subscriptions) : Gateway :=
    ⟨sockets, g.clientSubscriptions.insert client subs⟩
  match (cookieToken cookie).bind verify with
  | none =>
    (g.sockets.insert ⟨client, none, none, []⟩).map fun sockets =>
      (subscribe g sockets ⟨false, false⟩, [])
  | some payload =>
    match truthy server with
    | none =>
      (g.sockets.insert ⟨client, some payload.sub, none, []⟩).map fun sockets =>
        (subscribe g sockets ⟨false, false⟩, [])
    | some uuid =>
      (g.sockets.insert ⟨client, some payload.sub, some uuid, [roomOf uuid]⟩).map fun sockets =>
        (subscribe g sockets ⟨true, true⟩, [.client client none .authSuccess])

/-- The socket leaves its rooms and its subscriptions are dropped. -/
def handleDisconnect (g : Gateway) (client : String) : Gateway :=
  { sockets := g.sockets.delete fun k => k.id == client
    clientSubscriptions := g.clientSubscriptions.erase client }

/-- Bind the socket to the user of the token and to the named server. The room it was in
before is not left. A failure disconnects the client. -/
def handleAuth (verify : String → Option JwtPayload) (g : Gateway) (client : String)
    (token serverUuid : Option String) : Gateway × List Output :=
  match token.bind verify with
  | some payload =>
    (g.setSocket client fun k =>
      { k with
        userId := some payload.sub, serverUuid
        rooms := roomOf (printed serverUuid) :: k.rooms },
      [.client client none .authSuccess])
  | none =>
    (g.handleDisconnect client, [.client client none (.error "Authentication failed")])

def handleSubscribeConsole (g : Gateway) (k : Socket) : Gateway :=
  match truthy k.userId with
  | some _ => g.setSubs k.id fun subs => { subs with console := true }
  | none => g

def handleSubscribeStats (g : Gateway) (k : Socket) : Gateway :=
  match truthy k.userId with
  | some _ => g.setSubs k.id fun subs => { subs with stats := true }
  | none => g

/-- The first half of `handleSendCommand`: the two checks. -/
def handleSendCommand (k : Socket) (command : String) : List Pending :=
  match truthy k.userId, truthy k.serverUuid with
  | some userId, some serverUuid => [.findForCommand k.id userId serverUuid command]
  | _, _ => []

/-- The first half of `handleSendPowerAction`. -/
def handleSendPowerAction (k : Socket) (action : String) : List Pending :=
  match truthy k.userId, truthy k.serverUuid with
  | some userId, some serverUuid => [.findForPower k.id userId serverUuid action]
  | _, _ => []

/-- Which subscription a timer looks at. -/
def wants (poll : Poll) (subs : Subscriptions) : Bool :=
  match poll with
  | .stats => subs.stats
  | .console => subs.console

/-- The servers of the sockets that are bound and subscribed, each once. -/
def getSubscribedServerUuids (g : Gateway) (poll : Poll) : List String :=
  (g.sockets.rows.filterMap fun k =>
    match truthy k.serverUuid, g.clientSubscriptions.lookup k.id with
    | some uuid, some subs => if wants poll subs then some uuid else none
    | _, _ => none).dedup

/-- One client event: the gateway after it, what it sends and what it still waits for. -/
def receive (verify : String → Option JwtPayload) (g : Gateway) :
    ClientEvent → Option (Gateway × List Output × List Pending)
  | .connection client cookie server =>
    (g.handleConnection verify client cookie server).map fun (g', out) => (g', out, [])
  | .disconnect client =>
    (g.socket client).map fun _ => (g.handleDisconnect client, [], [])
  | .auth client token serverUuid =>
    (g.socket client).map fun _ =>
      let (g', out) := g.handleAuth verify client token serverUuid
      (g', out, [])
  | .subscribeConsole client =>
    (g.socket client).map fun k => (g.handleSubscribeConsole k, [], [])
  | .subscribeStats client =>
    (g.socket client).map fun k => (g.handleSubscribeStats k, [], [])
  | .sendCommand client command =>
    (g.socket client).map fun k => (g, [], handleSendCommand k command)
  | .sendPowerAction client action =>
    (g.socket client).map fun k => (g, [], handleSendPowerAction k action)

/-- A socket after one of them was changed: the changed one, or one that was there. -/
theorem mem_setSocket {g : Gateway} {client : String} {f : Socket → Socket} {hf} {k' : Socket}
    (h : k' ∈ (g.setSocket client f hf).sockets) :
    (∃ k ∈ g.sockets, k' = f k ∧ k.id = client) ∨ k' ∈ g.sockets := by
  obtain ⟨k, hk, rfl⟩ := (Table.mem_update hf).mp h
  split
  next hid => exact .inl ⟨k, hk, rfl, beq_iff_eq.mp hid⟩
  next => exact .inr hk

theorem sockets_setSubs (g : Gateway) (client : String) (f : Subscriptions → Subscriptions) :
    (g.setSubs client f).sockets = g.sockets := by
  unfold setSubs
  split <;> rfl

theorem sockets_handleSubscribeConsole (g : Gateway) (k : Socket) :
    (g.handleSubscribeConsole k).sockets = g.sockets := by
  unfold handleSubscribeConsole
  split
  · exact sockets_setSubs ..
  · rfl

theorem sockets_handleSubscribeStats (g : Gateway) (k : Socket) :
    (g.handleSubscribeStats k).sockets = g.sockets := by
  unfold handleSubscribeStats
  split
  · exact sockets_setSubs ..
  · rfl

/-- A command is taken up for a bound socket with a user, and for no other. -/
theorem handleSendCommand_cases (k : Socket) (command : String) :
    handleSendCommand k command = [] ∨
      ∃ userId uuid, truthy k.userId = some userId ∧ truthy k.serverUuid = some uuid ∧
        handleSendCommand k command = [.findForCommand k.id userId uuid command] := by
  unfold handleSendCommand
  split
  next huser huuid => exact .inr ⟨_, _, huser, huuid, rfl⟩
  next => exact .inl rfl

theorem handleSendPowerAction_cases (k : Socket) (action : String) :
    handleSendPowerAction k action = [] ∨
      ∃ userId uuid, truthy k.userId = some userId ∧ truthy k.serverUuid = some uuid ∧
        handleSendPowerAction k action = [.findForPower k.id userId uuid action] := by
  unfold handleSendPowerAction
  split
  next huser huuid => exact .inr ⟨_, _, huser, huuid, rfl⟩
  next => exact .inl rfl

end Gateway

/-- What an awaited promise settled with: the lookup and a call to Wings may both fail, and
a status call returns a status. -/
inductive Reply
  | ok (status : WingsStatus)
  | failed (message : String)
deriving DecidableEq, Repr

/-- The messages of one status answer. -/
def pollMessages (poll : Poll) (status : WingsStatus) : List ServerMessage :=
  match poll with
  | .stats => .statsUpdate status :: (status.state.map ServerMessage.powerState).toList
  | .console => status.output.map .consoleOutput

/-- The rest of a handler, once its promise has settled: `findByUuid` is a lookup in
`servers`, and a handler that fails answers its client. -/
def resume (servers : Table Server) (p : Pending) (reply : Reply) :
    List Output × List Pending :=
  let found (uuid : String) : Option Server := servers.findOne fun s => s.uuid == uuid
  match p, reply with
  | .findForCommand client userId uuid command, .ok _ =>
    match found uuid with
    | some server =>
      ([.sendCommand userId server.uuid command], [.commandSent client uuid command])
    | none => ([.client client none (.error "Failed to send command: Server not found")], [])
  | .findForCommand client _ _ _, .failed message
  | .commandSent client _ _, .failed message =>
    ([.client client none (.error s!"Failed to send command: {message}")], [])
  | .commandSent client uuid command, .ok _ =>
    ([.client client (some uuid) (.consoleOutput s!"> {command}")], [])
  | .findForPower client userId uuid action, .ok _ =>
    match found uuid with
    | some server =>
      ([.powerAction userId server.uuid (mapPowerAction action)],
        [.powerSent client uuid action])
    | none =>
      ([.client client none (.error "Failed to send power action: Server not found")], [])
  | .findForPower client _ _ _, .failed message
  | .powerSent client _ _, .failed message =>
    ([.client client none (.error s!"Failed to send power action: {message}")], [])
  | .powerSent client uuid action, .ok _ =>
    ([.client client (some uuid) (.powerState action)], [])
  | .findForPoll poll uuid, .ok _ =>
    match found uuid with
    | some _ => ([], [.statusAsked poll uuid])
    | none => ([], [])
  | .statusAsked poll uuid, .ok status =>
    ((pollMessages poll status).map (.room uuid), [])
  | .findForPoll _ _, .failed _ | .statusAsked _ _, .failed _ => ([], [])

end Panel
