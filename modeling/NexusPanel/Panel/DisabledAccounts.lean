import NexusPanel.Panel.BackupCodes
import NexusPanel.Panel.Gateway
import NexusPanel.Panel.Revocation

/-!
# A disabled account authenticates nobody

Every way to be somebody at the panel: the password login and its second step, a refresh, an
access token on a guarded route or on `/auth/me`, an API key, and a socket that connects or
authenticates. The calls are cut at their `await`s, among all the other calls that read or
write users, so a row that was loaded before an account was disabled may still be saved.

Five of the routes look at `enabled`. `ApiKeyGuard` takes the owner of the key as it comes with
it, and the gateway takes the subject of any token that verifies.

History variables, which no call reads: the accounts that a completed update has disabled, each
with the number of that update, and for every attempt that was let in the user it was let in
as, with the accounts that were disabled from before it began until after it ended.
-/

namespace Panel

open Transition Fallible

/-! ## The calls -/

/-- A row of `api_keys`; `token` is the hash of the whole key. -/
structure ApiKey where
  id : String
  userId : String
  keyStart : String
  token : String
deriving DecidableEq, Repr

instance : Keyed String ApiKey := ⟨ApiKey.id⟩

/-- A user, and the number of the update that has disabled it. -/
abbrev Disabling := String × Nat

structure AccountsState where
  auth : AuthState
  apiKeys : Table ApiKey
  gateway : Gateway
  disabled : List Disabling
  completed : Nat
  admitted : List (String × List String)

/-- The two places where an access token of a REST request is checked. -/
inductive TokenRoute
  | guarded
  | me
deriving DecidableEq

namespace TokenRoute

def token : TokenRoute → Credentials → Except HttpException String
  | guarded, c => orThrow (cookieThenBearerExtractor c) (.unauthorized "Unauthorized")
  | me, c => orThrow (AuthController.meToken c) (.unauthorized "No token provided")

def invalid : TokenRoute → HttpException
  | guarded => .unauthorized "Unauthorized"
  | me => .unauthorized "Invalid or expired token"

def unknown : TokenRoute → HttpException
  | guarded => .unauthorized "Unauthorized"
  | me => .unauthorized "User not found or disabled"

end TokenRoute

/-- The API key of an `Authorization` header, as `ApiKeyGuard` takes it out. -/
def apiKeyToken (authorization : Option String) : Except HttpException String := do
  let token ← orThrow (stripBearer authorization) (.unauthorized "Missing authorization header")
  require (Text.stripPrefix? "ptlc_" token).isSome (.unauthorized "Invalid API key format")
  return token

/-- `token.substring(0, 16)`. -/
def keyStart (token : String) : String := String.ofList (token.toList.take 16)

/-- Where a call stands: a method that works on users, a method that works on sessions, or one
of the routes that only let somebody in. A password login ends as a login with a code does. -/
inductive AccountCall
  | ofUser (task : UserTask)
  | ofSession (task : SessionTask)
  | login (dto : LoginDto) (ip userAgent : String) (fresh : Fresh)
  | loginCompare (user : User) (dto : LoginDto) (ip userAgent : String) (fresh : Fresh)
  | bearer (route : TokenRoute) (credentials : Credentials)
  | validateUser (route : TokenRoute) (userId : String)
  | withApiKey (authorization : Option String)
  | apiKeyFind (token : String)
  | apiKeyCompare (token : String) (apiKey : ApiKey) (owner : Option User)

inductive AccountAnswer
  | user (answer : UserAnswer)
  | session (answer : SessionAnswer)
  | login (result : LoginResult)
  | validated (user : User)
  | apiKey (owner : Option User)

namespace AccountCall

variable (crypto : Crypto)

/-- The turns of the calls, on the database. -/
def go (s : AuthState) (apiKeys : Table ApiKey) (reply : Awaited) :
    AccountCall → Except HttpException (AuthState × (AccountCall ⊕ AccountAnswer))
  | .ofUser task => do
    let (codes, r) ← task.go crypto ⟨s, [], [], []⟩ reply
    return (codes.auth, r.map .ofUser .user)
  | .ofSession task => do
    let (sessions, r) ← task.go ⟨s, [], []⟩ reply
    return (sessions.auth, r.map .ofSession .session)
  | .login dto ip userAgent fresh => do
    reply
    let user ← orThrow (s.users.findOne fun u => u.email == dto.email)
      (.unauthorized "Invalid credentials")
    require user.enabled (.unauthorized "Invalid credentials")
    return (s, .inl (.loginCompare user dto ip userAgent fresh))
  | .loginCompare user dto ip userAgent fresh => do
    reply
    require (crypto.compare dto.password user.password) (.unauthorized "Invalid credentials")
    if user.usesTotp then
      let jwt ← orThrow (s.jwt.sign fresh.token (.twoFactor user.id) (s.now + 300))
        (.internal "signature collision")
      return ({ s with jwt }, .inr (.login (.requiresTwoFactor fresh.token user.summary)))
    else
      return (s, .inl (.ofUser (.loginSign user ⟨"", ip, userAgent, fresh⟩ none)))
  | .bearer route credentials => do
    let token ← route.token credentials
    let payload ← orThrow (s.jwt.verify s.now token) route.invalid
    return (s, .inl (.validateUser route payload.sub))
  | .validateUser route userId => do
    reply
    let user ← orThrow (AuthService.validateUser s userId) route.unknown
    return (s, .inr (.validated user))
  | .withApiKey authorization => do
    let token ← apiKeyToken authorization
    return (s, .inl (.apiKeyFind token))
  | .apiKeyFind token => do
    reply
    let apiKey ← orThrow (apiKeys.findOne fun k => k.keyStart == keyStart token)
      (.unauthorized "Invalid API key")
    return (s, .inl (.apiKeyCompare token apiKey (s.stored apiKey.userId)))
  | .apiKeyCompare token apiKey owner => do
    reply
    require (crypto.compare token apiKey.token) (.unauthorized "Invalid API key")
    return (s, .inr (.apiKey owner))

def starts : AccountCall → Bool
  | .ofUser task => task.starts
  | .ofSession task => task.starts
  | .login _ _ _ _ | .bearer _ _ | .withApiKey _ => true
  | _ => false

/-- The user the attempt is let in as when it answers. A password that was right counts, even
when the second factor is still to come. -/
def letInAs : AccountCall → Option String
  | .ofUser (.loginStamp user _ _) | .ofSession (.refreshSign _ user _ _) => some user.id
  | .loginCompare user _ _ _ _ => some user.id
  | .validateUser _ userId => some userId
  | .apiKeyCompare _ _ owner => owner.map User.id
  | _ => none

/-- What an update is going to make of `enabled`, when it is asked to change it. -/
def sets : AccountCall → Option Bool
  | .ofUser (.update _ _ dto _) => dto.enabled
  | _ => none

/-- The user the update under way is about to have updated. -/
def updates : AccountCall → Option String
  | .ofUser (.updateSave user) => some user.id
  | _ => none

/-- The row the call is about to write back as a whole. -/
def writes : AccountCall → Option User
  | .ofUser (.loginSave user _ _) | .ofUser (.updateSave user) | .ofUser (.setupSave user _)
  | .ofUser (.verifySetupSave user _ _ _) | .ofUser (.disableSave user) => some user
  | _ => none

end AccountCall

/-- A call that has just arrived, or one that is under way: it remembers which accounts were
disabled when it began, and what it sets `enabled` to. -/
inductive AccountTask
  | arrives (call : AccountCall)
  | under (before : List Disabling) (sets : Option Bool) (call : AccountCall)

namespace AccountsState

/-- The accounts that are disabled. -/
def disabledUsers (s : AccountsState) : List String := s.disabled.map Prod.fst

/-- Those of the accounts disabled before that have been disabled ever since. -/
def stillDisabled (s : AccountsState) (before : List Disabling) : List String :=
  (before.filter (· ∈ s.disabled)).map Prod.fst

/-- Nobody remembers that the account was disabled. -/
def forget (s : AccountsState) (id : String) : AccountsState :=
  { s with disabled := s.disabled.filter fun d => d.1 ≠ id }

/-- A completed update of a user. -/
def noteUpdate (s : AccountsState) (updated : Option String) (sets : Option Bool) :
    AccountsState :=
  match updated, sets with
  | some id, some false =>
    { s with disabled := (id, s.completed) :: s.disabled, completed := s.completed + 1 }
  | some id, some true => s.forget id
  | _, _ => s

/-- An attempt that was let in. -/
def letIn (s : AccountsState) (user : Option String) (before : List Disabling) : AccountsState :=
  { s with admitted := (user.map fun id => (id, s.stillDisabled before)).toList ++ s.admitted }

end AccountsState

namespace AccountTask

def go (crypto : Crypto) (s : AccountsState) (reply : Awaited) :
    AccountTask → Except HttpException (AccountsState × (AccountTask ⊕ AccountAnswer))
  | .arrives call => return (s, .inl (.under s.disabled call.sets call))
  | .under before sets call =>
    (AccountCall.go crypto s.auth s.apiKeys reply call).map fun
      | (auth, .inl next) => ({ s with auth }, .inl (.under before sets next))
      | (auth, .inr answer) =>
        (({ s with auth }.noteUpdate call.updates sets).letIn call.letInAs before, .inr answer)

def starts : AccountTask → Bool
  | .arrives call => call.starts
  | .under _ _ _ => false

end AccountTask

/-- The user a client event makes a socket stand for. -/
def ClientEvent.standsFor (verify : String → Option JwtPayload) : ClientEvent → Option String
  | .connection _ cookie _ => ((cookieToken cookie).bind verify).map JwtPayload.sub
  | .auth _ token _ => (token.bind verify).map JwtPayload.sub
  | _ => none

/-- The gateway has a socket that stands for that user then. -/
theorem exists_socket_of_standsFor {verify : String → Option JwtPayload} {g g' : Gateway}
    {event : ClientEvent} {out : List Output} {pending : List Pending} {id : String}
    (h : g.receive verify event = some (g', out, pending))
    (hid : event.standsFor verify = some id) : ∃ k ∈ g'.sockets, k.userId = some id := by
  cases event with
  | connection client cookie server =>
    obtain ⟨payload, hpayload, rfl⟩ := Option.map_eq_some_iff.mp hid
    simp only [Gateway.receive, Gateway.handleConnection, hpayload] at h
    split at h
    · obtain ⟨sockets, hins, heq⟩ := Option.map_eq_some_iff.mp (Option.map_map .. ▸ h)
      cases heq
      exact ⟨_, ((Table.insert_eq_some hins).2 _).mpr (.inl rfl), rfl⟩
    · obtain ⟨sockets, hins, heq⟩ := Option.map_eq_some_iff.mp (Option.map_map .. ▸ h)
      cases heq
      exact ⟨_, ((Table.insert_eq_some hins).2 _).mpr (.inl rfl), rfl⟩
  | auth client token serverUuid =>
    obtain ⟨payload, hpayload, rfl⟩ := Option.map_eq_some_iff.mp hid
    simp only [Gateway.receive, Gateway.handleAuth, hpayload] at h
    obtain ⟨k, hk, heq⟩ := Option.map_eq_some_iff.mp h
    cases heq
    rw [Gateway.socket] at hk
    refine ⟨_, (Table.mem_update).mpr ⟨k, Table.findOne_mem hk, rfl⟩, ?_⟩
    have hclient := Table.findOne_sat hk
    simp only [hclient, if_true]
  | _ => cases hid

/-- What else happens: users come and go, sessions, tokens and API keys change, sockets send
their events, time passes. -/
inductive AccountsOutside
  | register (user : User)
  | delete (userId : String)
  | sessions (sessions : Table Session) (jwt : JwtService)
  | apiKeys (apiKeys : Table ApiKey)
  | socket (event : ClientEvent)
  | tick (seconds : Nat)

/-- A new user is enabled, and is not the one that had its id before. An event of a socket is
handled in one go, so it is an attempt that begins and ends at once. -/
def AccountsState.outside (s : AccountsState) : AccountsOutside → Option AccountsState
  | .register user =>
    (s.auth.users.insert { user with enabled := true }).map fun users =>
      { s with auth.users := users }.forget user.id
  | .delete userId =>
    some { s with
      auth.users := s.auth.users.delete fun u => u.id == userId
      auth.sessions := s.auth.sessions.delete fun x => x.userId == userId
      apiKeys := s.apiKeys.delete fun k => k.userId == userId }
  | .sessions sessions jwt => some { s with auth.sessions := sessions, auth.jwt := jwt }
  | .apiKeys apiKeys => some { s with apiKeys }
  | .socket event =>
    (s.gateway.receive (s.auth.jwt.verify s.auth.now) event).map fun (gateway, _, _) =>
      { s with gateway }.letIn (event.standsFor (s.auth.jwt.verify s.auth.now)) s.disabled
  | .tick seconds => some { s with auth.now := s.auth.now + seconds }

def accountsSystem (crypto : Crypto) : Tasks AccountsState AccountTask Awaited
    (Option (Except HttpException AccountAnswer)) AccountsOutside :=
  .ofCalls (AccountTask.go crypto) AccountTask.starts AccountsState.outside

abbrev AccountsPool := Pool AccountsState AccountTask
abbrev AccountsLabel := PoolLabel AccountTask Awaited AccountsOutside

def accountsStep (crypto : Crypto) : AccountsPool → AccountsLabel → Option AccountsPool :=
  (accountsSystem crypto).step

/-- No call under way, no socket, and no account disabled yet. -/
def AccountsPool.idle (auth : AuthState) (apiKeys : Table ApiKey) : AccountsPool :=
  ⟨⟨auth, apiKeys, .initial, [], 0, []⟩, []⟩

/-- A disabled account stays disabled, and no attempt that began after it was disabled was let
in as its user. -/
structure DisabledForGood (s : AccountsState) : Prop where
  stays : ∀ u ∈ s.auth.users, u.id ∈ s.disabledUsers → u.enabled = false
  refused : ∀ a ∈ s.admitted, a.1 ∉ a.2

/-- A row that is saved does not enable an account again, unless the update was asked to; and
the right API key does not belong to an account that was disabled before the request. -/
structure AccountCall.Spares (crypto : Crypto) (s : AccountsState) (before : List Disabling)
    (sets : Option Bool) (call : AccountCall) : Prop where
  row : ∀ row ∈ call.writes, sets ≠ some true → row.id ∈ s.disabledUsers → row.enabled = false
  owner : ∀ token apiKey owner, call = .apiKeyCompare token apiKey (some owner) →
    crypto.compare token apiKey.token = true → owner.id ∉ s.stillDisabled before

/-- Every call spares the disabled accounts, and the token a socket presents is not that of a
disabled account. -/
def SparesDisabled (crypto : Crypto) (p : AccountsPool) : AccountsLabel → Prop
  | .turn i (.ok ()) => ∀ before sets call, p.tasks[i]? = some (.under before sets call) →
      call.Spares crypto p.store before sets
  | .outside (.socket event) => p.store.outside (.socket event) ≠ none →
      ∀ id ∈ event.standsFor (p.store.auth.jwt.verify p.store.auth.now),
        id ∉ p.store.disabledUsers
  | _ => True

/-! ## Calls that nobody interrupts -/

section Straight

variable (crypto : Crypto) (s : AuthState) (apiKeys : Table ApiKey)

/-- The turns of a call one after the other, when every statement it awaits succeeds. -/
def AccountCall.straight (n : Nat) (call : AccountCall) :
    Except HttpException (AuthState × (AccountCall ⊕ AccountAnswer)) :=
  Transition.straight (fun s t => AccountCall.go crypto s apiKeys (.ok ()) t) n s call

/-- The turns of a password login are `AuthService.login`. -/
theorem login_straight (dto : LoginDto) (ip userAgent : String) (fresh : Fresh) :
    (AccountCall.straight crypto s apiKeys 5 (.login dto ip userAgent fresh)).map Prod.fst =
      (AuthService.login crypto s dto ip userAgent fresh).map Prod.fst := by
  rw [AccountCall.straight]
  cases huser : s.users.findOne fun u => u.email == dto.email with
  | none =>
    rw [straight_error (by simp only [AccountCall.go, ok_bind, huser, orThrow_none]; rfl)]
    simp only [AuthService.login, huser, orThrow_none, error_bind]
    rfl
  | some user =>
    cases henabled : user.enabled with
    | false =>
      rw [straight_error (by
        simp only [AccountCall.go, ok_bind, huser, orThrow_some, henabled, require_false]; rfl)]
      simp only [AuthService.login, huser, orThrow_some, ok_bind, henabled, require_false,
        error_bind]
      rfl
    | true =>
      rw [straight_inl (by
        simp only [AccountCall.go, ok_bind, huser, orThrow_some, henabled, require_true]; rfl)]
      simp only [AuthService.login, huser, orThrow_some, ok_bind, henabled, require_true]
      cases hcompare : crypto.compare dto.password user.password with
      | false =>
        rw [straight_error (by
          simp only [AccountCall.go, ok_bind, hcompare, require_false]; rfl)]
        simp only [require_false, error_bind]
        rfl
      | true =>
        simp only [require_true, ok_bind]
        cases htotp : user.usesTotp with
        | true =>
          cases hjwt : s.jwt.sign fresh.token (.twoFactor user.id) (s.now + 300) with
          | none =>
            rw [straight_error (by
              simp only [AccountCall.go, ok_bind, hcompare, require_true, htotp, hjwt,
                orThrow_none]; rfl)]
            rfl
          | some jwt =>
            rw [straight_inr (by
              simp only [AccountCall.go, ok_bind, hcompare, require_true, htotp, hjwt,
                orThrow_some]; rfl)]
            rfl
        | false =>
          rw [straight_inl (by
            simp only [AccountCall.go, ok_bind, hcompare, require_true, htotp]; rfl)]
          simp only [Bool.false_eq_true, if_false, AuthService.openSession]
          cases hjwt : s.jwt.sign fresh.token (.access user.id user.email user.rootAdmin)
              (s.now + 900) with
          | none =>
            rw [straight_error (by
              simp only [AccountCall.go, UserTask.go, hjwt, orThrow_none]; rfl)]
            rfl
          | some jwt =>
            rw [straight_inl (by
              simp only [AccountCall.go, UserTask.go, hjwt, orThrow_some, ok_bind]; rfl)]
            simp only [orThrow_some, ok_bind]
            cases hins : s.sessions.insert
                { id := fresh.sessionId, userId := user.id, refreshToken := fresh.refreshToken
                  ipAddress := ip, userAgent, lastActiveAt := s.now, revoked := false
                  createdAt := s.now, updatedAt := s.now } with
            | none =>
              rw [straight_error (by
                simp only [AccountCall.go, UserTask.go, ok_bind, hins, orThrow_none]; rfl)]
              rfl
            | some sessions =>
              rw [straight_inl (by
                simp only [AccountCall.go, UserTask.go, ok_bind, hins, orThrow_some]; rfl)]
              rfl

/-- Both places check an access token in the same way. -/
theorem bearer_straight (route : TokenRoute) (credentials : Credentials) :
    (AccountCall.straight crypto s apiKeys 2 (.bearer route credentials)).map Prod.snd = do
      let token ← route.token credentials
      let payload ← orThrow (s.jwt.verify s.now token) route.invalid
      let user ← orThrow (AuthService.validateUser s payload.sub) route.unknown
      return .inr (.validated user) := by
  rw [AccountCall.straight]
  cases htoken : route.token credentials with
  | error e =>
    rw [straight_error (by simp only [AccountCall.go, htoken, error_bind]; rfl)]
    rfl
  | ok token =>
    cases hpayload : s.jwt.verify s.now token with
    | none =>
      rw [straight_error (by
        simp only [AccountCall.go, htoken, ok_bind, hpayload, orThrow_none]; rfl)]
      simp only [ok_bind, hpayload, orThrow_none]
      rfl
    | some payload =>
      rw [straight_inl (by
        simp only [AccountCall.go, htoken, ok_bind, hpayload, orThrow_some]; rfl)]
      simp only [ok_bind, hpayload, orThrow_some]
      cases huser : AuthService.validateUser s payload.sub with
      | none =>
        rw [straight_error (by simp only [AccountCall.go, ok_bind, huser, orThrow_none]; rfl)]
        rfl
      | some user =>
        rw [straight_inr (by simp only [AccountCall.go, ok_bind, huser, orThrow_some]; rfl)]
        rfl

theorem me_straight (credentials : Credentials) :
    (AccountCall.straight crypto s apiKeys 2 (.bearer .me credentials)).map Prod.snd =
      (AuthController.me s credentials).map fun user => .inr (.validated user) := by
  rw [bearer_straight]
  simp only [AuthController.me, TokenRoute.token, TokenRoute.invalid, TokenRoute.unknown]
  cases htoken : AuthController.meToken credentials with
  | none => rfl
  | some token =>
    simp only [orThrow_some, ok_bind]
    cases hpayload : s.jwt.verify s.now token with
    | none => rfl
    | some payload =>
      simp only [orThrow_some, ok_bind]
      cases AuthService.validateUser s payload.sub <;> rfl

/-- The passport strategy leaves of the user what a handler runs as. -/
theorem guarded_straight (credentials : Credentials) :
    JwtStrategy.authenticate s credentials =
      ((AccountCall.straight crypto s apiKeys 2 (.bearer .guarded credentials)).map Prod.snd).bind
        fun
        | .inr (.validated user) => .ok ⟨user.id, user.email, user.rootAdmin⟩
        | _ => .error (.unauthorized "Unauthorized") := by
  rw [bearer_straight]
  simp only [JwtStrategy.authenticate, TokenRoute.token, TokenRoute.invalid, TokenRoute.unknown]
  cases htoken : cookieThenBearerExtractor credentials with
  | none => rfl
  | some token =>
    simp only [orThrow_some, ok_bind]
    cases hpayload : s.jwt.verify s.now token with
    | none => rfl
    | some payload =>
      simp only [orThrow_some, ok_bind, JwtStrategy.validate]
      cases AuthService.validateUser s payload.sub <;> rfl

end Straight

/-! ## One turn of a call -/

/-- What is in the table afterwards was there with the same flag, or is the row that was
written back; and that row is in the table. -/
structure FlagsKept (s : AuthState) (written : Option User) (s' : AuthState) : Prop where
  rows : ∀ u ∈ s'.users, (∃ v ∈ s.users, v.id = u.id ∧ v.enabled = u.enabled) ∨
    ∃ row ∈ written, row.id = u.id ∧ row.enabled = u.enabled
  written : ∀ row ∈ written, ∃ u ∈ s'.users, u.id = row.id ∧ u.enabled = row.enabled

namespace AccountCall

/-- The user whose flag the call has looked at. -/
def checked : AccountCall → Option String
  | .ofUser (.loginCompare user _ _) | .ofUser (.loginSave user _ _)
  | .ofUser (.loginSign user _ _) | .ofUser (.loginSession user _ _)
  | .ofUser (.loginStamp user _ _) => some user.id
  | .ofSession (.refreshSave _ user _ _) | .ofSession (.refreshSign _ user _ _) => some user.id
  | .loginCompare user _ _ _ _ => some user.id
  | _ => none

/-- An update carries what it sets `enabled` to up to the row it saves; no other call sets it. -/
def Sets (sets : Option Bool) : AccountCall → Prop
  | .ofUser (.update _ _ dto _) | .ofUser (.updateEmail _ _ dto _)
  | .ofUser (.updateUsername _ _ dto _) => dto.enabled = sets
  | .ofUser (.updateSave user) => ∀ b, sets = some b → user.enabled = b
  | _ => sets = none

end AccountCall

section Turn

variable {crypto : Crypto} {s s' : AuthState} {apiKeys : Table ApiKey} {reply : Awaited}
  {written : Option User}

theorem FlagsKept.of_rows
    (h : ∀ u ∈ s'.users, ∃ v ∈ s.users, v.id = u.id ∧ v.enabled = u.enabled) :
    FlagsKept s none s' :=
  ⟨fun u hu => .inl (h u hu), fun _ hrow => (nomatch hrow)⟩

theorem FlagsKept.of_eq (h : s'.users = s.users) : FlagsKept s none s' :=
  .of_rows fun u hu => ⟨u, h ▸ hu, rfl, rfl⟩

/-- A save of the row, with other columns of it changed. -/
theorem FlagsKept.save {row saved : User} (h : s'.users = s.users.save saved)
    (hid : saved.id = row.id) (henabled : saved.enabled = row.enabled) :
    FlagsKept s (some row) s' := by
  constructor
  · intro u hu
    rw [h] at hu
    rcases Table.mem_save.mp hu with rfl | ⟨hu, -⟩
    · exact .inr ⟨row, rfl, hid.symm, henabled.symm⟩
    · exact .inl ⟨u, hu, rfl, rfl⟩
  · intro row' hrow'
    cases hrow'
    exact ⟨saved, h ▸ Table.mem_save.mpr (.inl rfl), hid, henabled⟩

theorem UserTask.go_flags {c c' : CodesState} {t : UserTask} {r : UserTask ⊕ UserAnswer}
    (h : t.go crypto c reply = .ok (c', r)) :
    FlagsKept c.auth (AccountCall.ofUser t).writes c'.auth := by
  cases t with
  | login sessionToken attempt =>
    simp only [go, bind_eq_ok, pure_eq_ok, Prod.mk.injEq] at h
    obtain ⟨-, -, -, -, rfl, -⟩ := h
    exact .of_eq rfl
  | loginFind userId attempt =>
    simp only [go, bind_eq_ok, pure_eq_ok, Prod.mk.injEq] at h
    obtain ⟨-, -, -, -, -, -, -, -, rfl, -⟩ := h
    exact .of_eq rfl
  | loginCompare user i attempt | updateEmail route user dto salt
  | updateUsername route user dto salt | update route id dto salt =>
    simp only [go, bind_eq_ok, pure_eq_ok, Prod.mk.injEq] at h
    obtain ⟨-, -, -, -, rfl, -⟩ := h
    exact .of_eq rfl
  | setup userId secret =>
    simp only [go, bind_eq_ok, pure_eq_ok, Prod.mk.injEq] at h
    obtain ⟨-, -, -, -, -, -, rfl, -⟩ := h
    exact .of_eq rfl
  | verifySetup userId code random salt =>
    simp only [go, bind_eq_ok, pure_eq_ok, Prod.mk.injEq] at h
    obtain ⟨-, -, -, -, -, -, -, -, rfl, -⟩ := h
    exact .of_eq rfl
  | disable userId code =>
    simp only [go, bind_eq_ok, pure_eq_ok, Prod.mk.injEq] at h
    obtain ⟨-, -, -, -, -, -, -, -, -, -, rfl, -⟩ := h
    exact .of_eq rfl
  | loginSign user attempt backupCode =>
    simp only [go, bind_eq_ok, pure_eq_ok, Prod.mk.injEq] at h
    obtain ⟨-, -, rfl, -⟩ := h
    exact .of_eq rfl
  | loginSession user attempt backupCode =>
    simp only [go, bind_eq_ok, pure_eq_ok, Prod.mk.injEq] at h
    obtain ⟨-, -, -, -, rfl, -⟩ := h
    exact .of_eq rfl
  | loginStamp user attempt backupCode =>
    simp only [go, bind_eq_ok, pure_eq_ok, Prod.mk.injEq] at h
    obtain ⟨-, -, rfl, -⟩ := h
    refine .of_rows fun u hu => ?_
    obtain ⟨v, hv, rfl⟩ := (Table.mem_update).mp hu
    refine ⟨v, hv, ?_⟩
    split
    next => exact ⟨rfl, rfl⟩
    next => exact ⟨rfl, rfl⟩
  | loginSave user i attempt | updateSave user | setupSave user secret
  | verifySetupSave user secret random salt | disableSave user =>
    simp only [go, bind_eq_ok, pure_eq_ok, Prod.mk.injEq] at h
    obtain ⟨-, -, rfl, -⟩ := h
    exact .save rfl rfl rfl

theorem SessionTask.go_users {c c' : SessionsState} {t : SessionTask}
    {r : SessionTask ⊕ SessionAnswer} (h : t.go c reply = .ok (c', r)) :
    c'.auth.users = c.auth.users := by
  cases t with
  | refresh token accessToken =>
    cases h
    rfl
  | refreshFind token accessToken before | revoke userId sessionId =>
    simp only [go, bind_eq_ok, pure_eq_ok, Prod.mk.injEq] at h
    obtain ⟨-, -, -, -, rfl, -⟩ := h
    rfl
  | refreshUser session accessToken before =>
    simp only [go, bind_eq_ok, pure_eq_ok, Prod.mk.injEq] at h
    obtain ⟨-, -, -, -, -, -, rfl, -⟩ := h
    rfl
  | refreshSave session user accessToken before | refreshSign session user accessToken before
  | revokeSave session =>
    simp only [go, bind_eq_ok, pure_eq_ok, Prod.mk.injEq] at h
    obtain ⟨-, -, rfl, -⟩ := h
    rfl

/-- A login gets past its check with a user that is enabled. -/
theorem UserTask.go_checked {c c' : CodesState} {t t' : UserTask}
    (h : t.go crypto c reply = .ok (c', .inl t')) {id : String}
    (hid : (AccountCall.ofUser t').checked = some id) :
    (AccountCall.ofUser t).checked = some id ∨
      ∃ u ∈ c.auth.users, u.id = id ∧ u.enabled = true := by
  cases t with
  | loginFind userId attempt =>
    simp only [go, bind_eq_ok, orThrow_eq_ok, require_eq_ok, pure_eq_ok, Prod.mk.injEq,
      Sum.inl.injEq] at h
    obtain ⟨-, -, user, huser, -, henabled, secret, -, -, rfl⟩ := h
    refine .inr ⟨user, (stored_eq_some huser).1, ?_, henabled⟩
    split at hid <;> exact Option.some.inj hid
  | loginCompare user i attempt =>
    simp only [go, bind_eq_ok, pure_eq_ok, Prod.mk.injEq, Sum.inl.injEq] at h
    obtain ⟨_, _, _, _, _, rfl⟩ := h
    left
    split at hid <;> exact hid
  | loginSave user i attempt | loginSign user attempt backupCode =>
    simp only [go, bind_eq_ok, pure_eq_ok, Prod.mk.injEq, Sum.inl.injEq] at h
    obtain ⟨_, _, _, rfl⟩ := h
    exact .inl hid
  | loginSession user attempt backupCode =>
    simp only [go, bind_eq_ok, pure_eq_ok, Prod.mk.injEq, Sum.inl.injEq] at h
    obtain ⟨_, _, _, _, _, rfl⟩ := h
    exact .inl hid
  | login sessionToken attempt =>
    simp only [go, bind_eq_ok, pure_eq_ok, Prod.mk.injEq, Sum.inl.injEq] at h
    obtain ⟨_, _, _, _, _, rfl⟩ := h
    cases hid
  | update route id dto salt | updateEmail route user dto salt
  | updateUsername route user dto salt =>
    simp only [go, bind_eq_ok, pure_eq_ok, Prod.mk.injEq, Sum.inl.injEq] at h
    obtain ⟨_, _, _, _, _, rfl⟩ := h
    cases hid
  | setup userId secret =>
    simp only [go, bind_eq_ok, pure_eq_ok, Prod.mk.injEq, Sum.inl.injEq] at h
    obtain ⟨_, _, _, _, _, _, _, rfl⟩ := h
    cases hid
  | verifySetup userId code random salt =>
    simp only [go, bind_eq_ok, pure_eq_ok, Prod.mk.injEq, Sum.inl.injEq] at h
    obtain ⟨_, _, _, _, _, _, _, _, _, rfl⟩ := h
    cases hid
  | disable userId code =>
    simp only [go, bind_eq_ok, pure_eq_ok, Prod.mk.injEq, Sum.inl.injEq] at h
    obtain ⟨_, _, _, _, _, _, _, _, _, _, _, rfl⟩ := h
    cases hid
  | loginStamp user attempt backupCode | updateSave user | setupSave user secret
  | verifySetupSave user secret random salt | disableSave user =>
    simp only [go, bind_eq_ok, pure_eq_ok, Prod.mk.injEq, reduceCtorEq, and_false,
      exists_false] at h

theorem SessionTask.go_checked {c c' : SessionsState} {t t' : SessionTask}
    (h : t.go c reply = .ok (c', .inl t')) {id : String}
    (hid : (AccountCall.ofSession t').checked = some id) :
    (AccountCall.ofSession t).checked = some id ∨
      ∃ u ∈ c.auth.users, u.id = id ∧ u.enabled = true := by
  cases t with
  | refreshUser session accessToken before =>
    simp only [go, bind_eq_ok, orThrow_eq_ok, require_eq_ok, pure_eq_ok, Prod.mk.injEq,
      Sum.inl.injEq] at h
    obtain ⟨-, -, user, huser, -, henabled, -, rfl⟩ := h
    cases hid
    exact .inr ⟨user, Table.findOne_mem huser, rfl, henabled⟩
  | refreshSave session user accessToken before =>
    simp only [go, bind_eq_ok, pure_eq_ok, Prod.mk.injEq, Sum.inl.injEq] at h
    obtain ⟨_, _, _, rfl⟩ := h
    exact .inl hid
  | refresh token accessToken =>
    cases h
    cases hid
  | refreshFind token accessToken before | revoke userId sessionId =>
    simp only [go, bind_eq_ok, pure_eq_ok, Prod.mk.injEq, Sum.inl.injEq] at h
    obtain ⟨_, _, _, _, _, rfl⟩ := h
    cases hid
  | refreshSign session user accessToken before | revokeSave session =>
    simp only [go, bind_eq_ok, pure_eq_ok, Prod.mk.injEq, reduceCtorEq, and_false,
      exists_false] at h

theorem UserTask.go_sets {c c' : CodesState} {t t' : UserTask} {sets : Option Bool}
    (hsets : (AccountCall.ofUser t).Sets sets) (h : t.go crypto c reply = .ok (c', .inl t')) :
    (AccountCall.ofUser t').Sets sets := by
  cases t with
  | update route id dto salt | updateEmail route user dto salt =>
    simp only [go, bind_eq_ok, pure_eq_ok, Prod.mk.injEq, Sum.inl.injEq] at h
    obtain ⟨_, _, _, _, _, rfl⟩ := h
    exact hsets
  | updateUsername route user dto salt =>
    simp only [go, bind_eq_ok, pure_eq_ok, Prod.mk.injEq, Sum.inl.injEq] at h
    obtain ⟨_, _, _, _, _, rfl⟩ := h
    intro b hb
    have hdto : dto.enabled = some b := hsets.trans hb
    simp only [UsersService.assign, hdto, Option.getD_some]
  | loginFind userId attempt =>
    simp only [go, bind_eq_ok, pure_eq_ok, Prod.mk.injEq, Sum.inl.injEq] at h
    obtain ⟨_, _, _, _, _, _, _, _, _, rfl⟩ := h
    split <;> exact hsets
  | loginCompare user i attempt =>
    simp only [go, bind_eq_ok, pure_eq_ok, Prod.mk.injEq, Sum.inl.injEq] at h
    obtain ⟨_, _, _, _, _, rfl⟩ := h
    split <;> exact hsets
  | loginSave user i attempt | loginSign user attempt backupCode =>
    simp only [go, bind_eq_ok, pure_eq_ok, Prod.mk.injEq, Sum.inl.injEq] at h
    obtain ⟨_, _, _, rfl⟩ := h
    exact hsets
  | loginSession user attempt backupCode | login sessionToken attempt =>
    simp only [go, bind_eq_ok, pure_eq_ok, Prod.mk.injEq, Sum.inl.injEq] at h
    obtain ⟨_, _, _, _, _, rfl⟩ := h
    exact hsets
  | setup userId secret =>
    simp only [go, bind_eq_ok, pure_eq_ok, Prod.mk.injEq, Sum.inl.injEq] at h
    obtain ⟨_, _, _, _, _, _, _, rfl⟩ := h
    exact hsets
  | verifySetup userId code random salt =>
    simp only [go, bind_eq_ok, pure_eq_ok, Prod.mk.injEq, Sum.inl.injEq] at h
    obtain ⟨_, _, _, _, _, _, _, _, _, rfl⟩ := h
    exact hsets
  | disable userId code =>
    simp only [go, bind_eq_ok, pure_eq_ok, Prod.mk.injEq, Sum.inl.injEq] at h
    obtain ⟨_, _, _, _, _, _, _, _, _, _, _, rfl⟩ := h
    exact hsets
  | loginStamp user attempt backupCode | updateSave user | setupSave user secret
  | verifySetupSave user secret random salt | disableSave user =>
    simp only [go, bind_eq_ok, pure_eq_ok, Prod.mk.injEq, reduceCtorEq, and_false,
      exists_false] at h

namespace AccountCall

variable {call : AccountCall} {r : AccountCall ⊕ AccountAnswer}

/-- The turn of a method that works on users, as a turn of a call. -/
theorem go_ofUser {t : UserTask} (h : go crypto s apiKeys reply (.ofUser t) = .ok (s', r)) :
    ∃ c r', t.go crypto ⟨s, [], [], []⟩ reply = .ok (c, r') ∧ s' = c.auth ∧
      r = r'.map .ofUser .user := by
  simp only [go, bind_eq_ok, pure_eq_ok, Prod.mk.injEq] at h
  obtain ⟨⟨c, r'⟩, hgo, rfl, rfl⟩ := h
  exact ⟨c, r', hgo, rfl, rfl⟩

theorem go_ofSession {t : SessionTask}
    (h : go crypto s apiKeys reply (.ofSession t) = .ok (s', r)) :
    ∃ c r', t.go ⟨s, [], []⟩ reply = .ok (c, r') ∧ s' = c.auth ∧
      r = r'.map .ofSession .session := by
  simp only [go, bind_eq_ok, pure_eq_ok, Prod.mk.injEq] at h
  obtain ⟨⟨c, r'⟩, hgo, rfl, rfl⟩ := h
  exact ⟨c, r', hgo, rfl, rfl⟩

theorem go_flags (h : call.go crypto s apiKeys reply = .ok (s', r)) :
    FlagsKept s call.writes s' := by
  cases call with
  | ofUser t =>
    obtain ⟨c, r', hgo, rfl, -⟩ := go_ofUser h
    exact UserTask.go_flags hgo
  | ofSession t =>
    obtain ⟨c, r', hgo, rfl, -⟩ := go_ofSession h
    exact .of_eq (SessionTask.go_users hgo)
  | login dto ip userAgent fresh =>
    simp only [go, bind_eq_ok, pure_eq_ok, Prod.mk.injEq] at h
    obtain ⟨-, -, -, -, -, -, rfl, -⟩ := h
    exact .of_eq rfl
  | loginCompare user dto ip userAgent fresh =>
    simp only [go, bind_eq_ok] at h
    obtain ⟨-, -, -, -, h⟩ := h
    split at h
    · simp only [bind_eq_ok, pure_eq_ok, Prod.mk.injEq] at h
      obtain ⟨jwt, -, rfl, -⟩ := h
      exact .of_eq rfl
    · cases h
      exact .of_eq rfl
  | bearer route credentials | validateUser route userId | apiKeyFind token
  | apiKeyCompare token apiKey owner =>
    simp only [go, bind_eq_ok, pure_eq_ok, Prod.mk.injEq] at h
    obtain ⟨-, -, -, -, rfl, -⟩ := h
    exact .of_eq rfl
  | withApiKey authorization =>
    simp only [go, bind_eq_ok, pure_eq_ok, Prod.mk.injEq] at h
    obtain ⟨-, -, rfl, -⟩ := h
    exact .of_eq rfl

/-- A call gets past its check with a user that is enabled. -/
theorem go_checked {next : AccountCall} (h : call.go crypto s apiKeys reply = .ok (s', .inl next))
    {id : String} (hid : next.checked = some id) :
    call.checked = some id ∨ ∃ u ∈ s.users, u.id = id ∧ u.enabled = true := by
  cases call with
  | ofUser t =>
    obtain ⟨c, r', hgo, -, hnext⟩ := go_ofUser h
    cases r' with
    | inr answer => cases hnext
    | inl t' =>
      cases hnext
      exact UserTask.go_checked hgo hid
  | ofSession t =>
    obtain ⟨c, r', hgo, -, hnext⟩ := go_ofSession h
    cases r' with
    | inr answer => cases hnext
    | inl t' =>
      cases hnext
      exact SessionTask.go_checked hgo hid
  | login dto ip userAgent fresh =>
    simp only [go, bind_eq_ok, orThrow_eq_ok, require_eq_ok, pure_eq_ok, Prod.mk.injEq,
      Sum.inl.injEq] at h
    obtain ⟨-, -, user, huser, -, henabled, -, rfl⟩ := h
    cases hid
    exact .inr ⟨user, Table.findOne_mem huser, rfl, henabled⟩
  | loginCompare user dto ip userAgent fresh =>
    simp only [go, bind_eq_ok] at h
    obtain ⟨-, -, -, -, h⟩ := h
    split at h
    · simp only [bind_eq_ok, pure_eq_ok, Prod.mk.injEq, reduceCtorEq, and_false,
        exists_false] at h
    · cases h
      exact .inl hid
  | bearer route credentials | withApiKey authorization | apiKeyFind token =>
    simp only [go, bind_eq_ok, pure_eq_ok, Prod.mk.injEq, Sum.inl.injEq] at h
    obtain ⟨_, _, _, _, _, rfl⟩ := h
    cases hid
  | validateUser route userId | apiKeyCompare token apiKey owner =>
    simp only [go, bind_eq_ok, pure_eq_ok, Prod.mk.injEq, reduceCtorEq, and_false,
      exists_false] at h

/-- An attempt is let in as the user it has looked at, as a user that is enabled, or as the
owner of the right API key. -/
theorem go_letInAs {answer : AccountAnswer}
    (h : call.go crypto s apiKeys reply = .ok (s', .inr answer)) {id : String}
    (hid : call.letInAs = some id) :
    call.checked = some id ∨ (∃ u ∈ s.users, u.id = id ∧ u.enabled = true) ∨
      ∃ token apiKey owner, call = .apiKeyCompare token apiKey (some owner) ∧
        crypto.compare token apiKey.token = true ∧ owner.id = id := by
  cases call with
  | ofUser t =>
    cases t <;> first | exact .inl hid | cases hid
  | ofSession t =>
    cases t <;> first | exact .inl hid | cases hid
  | loginCompare user dto ip userAgent fresh => exact .inl hid
  | validateUser route userId =>
    cases hid
    simp only [go, bind_eq_ok, orThrow_eq_ok] at h
    obtain ⟨-, -, user, huser, -⟩ := h
    have hsat := Table.findOne_sat huser
    simp only [Bool.and_eq_true, beq_iff_eq] at hsat
    exact .inr (.inl ⟨user, Table.findOne_mem huser, hsat⟩)
  | apiKeyCompare token apiKey owner =>
    obtain ⟨owner, rfl, rfl⟩ := Option.map_eq_some_iff.mp hid
    simp only [go, bind_eq_ok, require_eq_ok] at h
    obtain ⟨-, -, -, hcompare, -⟩ := h
    exact .inr (.inr ⟨token, apiKey, owner, rfl, hcompare, rfl⟩)
  | login dto ip userAgent fresh | bearer route credentials | withApiKey authorization
  | apiKeyFind token => cases hid

theorem go_sets {next : AccountCall} {sets : Option Bool} (hsets : call.Sets sets)
    (h : call.go crypto s apiKeys reply = .ok (s', .inl next)) : next.Sets sets := by
  cases call with
  | ofUser t =>
    obtain ⟨c, r', hgo, -, hnext⟩ := go_ofUser h
    cases r' with
    | inr answer => cases hnext
    | inl t' =>
      cases hnext
      exact UserTask.go_sets hsets hgo
  | ofSession t =>
    obtain ⟨c, r', hgo, -, hnext⟩ := go_ofSession h
    cases r' with
    | inr answer => cases hnext
    | inl t' =>
      cases hnext
      exact hsets
  | login dto ip userAgent fresh =>
    simp only [go, bind_eq_ok, pure_eq_ok, Prod.mk.injEq, Sum.inl.injEq] at h
    obtain ⟨_, _, _, _, _, _, _, rfl⟩ := h
    exact hsets
  | loginCompare user dto ip userAgent fresh =>
    simp only [go, bind_eq_ok] at h
    obtain ⟨-, -, -, -, h⟩ := h
    split at h
    · simp only [bind_eq_ok, pure_eq_ok, Prod.mk.injEq, reduceCtorEq, and_false,
        exists_false] at h
    · cases h
      exact hsets
  | bearer route credentials | withApiKey authorization | apiKeyFind token =>
    simp only [go, bind_eq_ok, pure_eq_ok, Prod.mk.injEq, Sum.inl.injEq] at h
    obtain ⟨_, _, _, _, _, rfl⟩ := h
    exact hsets
  | validateUser route userId | apiKeyCompare token apiKey owner =>
    simp only [go, bind_eq_ok, pure_eq_ok, Prod.mk.injEq, reduceCtorEq, and_false,
      exists_false] at h

/-- A call that writes a row back cannot fail for another reason than the database. -/
theorem go_of_writes {row : User} (h : row ∈ call.writes) :
    ∃ s' r, call.go crypto s apiKeys (.ok ()) = .ok (s', r) := by
  cases call with
  | ofUser t => cases t <;> first | exact ⟨_, _, rfl⟩ | cases h
  | _ => cases h

/-- Only an update changes the flag on purpose, and saving is the last it does. -/
theorem sets_of_writes {sets : Option Bool} {row : User} (hsets : call.Sets sets)
    (h : row ∈ call.writes) : sets = none ∨ call = .ofUser (.updateSave row) := by
  cases call with
  | ofUser t =>
    cases t <;> cases h <;> first | exact .inr rfl | exact .inl hsets
  | _ => cases h

theorem writes_of_updates {id : String} (h : call.updates = some id) :
    ∃ row ∈ call.writes, row.id = id := by
  cases call with
  | ofUser t =>
    cases t <;> cases h
    exact ⟨_, rfl, rfl⟩
  | _ => cases h

theorem checked_of_starts (h : call.starts = true) : call.checked = none := by
  cases call with
  | ofUser t => cases t <;> first | rfl | cases h
  | ofSession t => cases t <;> first | rfl | cases h
  | loginCompare user dto ip userAgent fresh => cases h
  | _ => rfl

theorem sets_of_starts (h : call.starts = true) : call.Sets call.sets := by
  cases call with
  | ofUser t => cases t <;> first | rfl | cases h
  | _ => rfl

end AccountCall

end Turn

/-! ## The accounts that are disabled -/

section Accounts

variable {crypto : Crypto} {s s' : AccountsState} {auth : AuthState} {written : Option User}
  {before : List Disabling} {sets : Option Bool} {updated : Option String} {id : String}

theorem mem_stillDisabled :
    id ∈ s.stillDisabled before ↔ ∃ n, (id, n) ∈ before ∧ (id, n) ∈ s.disabled := by
  simp only [AccountsState.stillDisabled, List.mem_map, List.mem_filter, decide_eq_true_eq]
  constructor
  · rintro ⟨⟨id, n⟩, h, rfl⟩
    exact ⟨n, h⟩
  · rintro ⟨n, h⟩
    exact ⟨(id, n), h, rfl⟩

theorem mem_disabledUsers_of_still (h : id ∈ s.stillDisabled before) : id ∈ s.disabledUsers := by
  obtain ⟨n, -, hmem⟩ := mem_stillDisabled.mp h
  exact List.mem_map.mpr ⟨_, hmem, rfl⟩

theorem mem_disabledUsers_forget {other : String} :
    id ∈ (s.forget other).disabledUsers ↔ id ∈ s.disabledUsers ∧ id ≠ other := by
  simp only [AccountsState.forget, AccountsState.disabledUsers, List.mem_map, List.mem_filter,
    decide_eq_true_eq]
  constructor
  · rintro ⟨d, ⟨hd, hne⟩, rfl⟩
    exact ⟨⟨d, hd, rfl⟩, hne⟩
  · rintro ⟨⟨d, hd, rfl⟩, hne⟩
    exact ⟨d, ⟨hd, hne⟩, rfl⟩

/-- Updates are counted, and an account that is found disabled by an old update was so before. -/
structure Onwards (s s' : AccountsState) : Prop where
  completed : s.completed ≤ s'.completed
  disabled : ∀ d ∈ s'.disabled, d.2 < s.completed → d ∈ s.disabled

theorem Onwards.of_subset (hcompleted : s'.completed = s.completed)
    (hdisabled : s'.disabled ⊆ s.disabled) : Onwards s s' :=
  ⟨hcompleted ▸ Nat.le_refl _, fun _ hd _ => hdisabled hd⟩

theorem Onwards.still (h : Onwards s s') (hbefore : ∀ d ∈ before, d.2 < s.completed)
    (hid : id ∈ s'.stillDisabled before) : id ∈ s.stillDisabled before := by
  obtain ⟨n, hmem, hdisabled⟩ := mem_stillDisabled.mp hid
  exact mem_stillDisabled.mpr ⟨n, hmem, h.disabled _ hdisabled (hbefore _ hmem)⟩

theorem Onwards.noteUpdate : Onwards s (({ s with auth }).noteUpdate updated sets) := by
  unfold AccountsState.noteUpdate
  split
  · refine ⟨Nat.le_succ _, fun d hd hlt => ?_⟩
    rcases List.mem_cons.mp hd with rfl | hd
    · exact absurd hlt (Nat.lt_irrefl _)
    · exact hd
  · exact .of_subset rfl (List.filter_subset_self _)
  · exact .of_subset rfl fun _ hd => hd

/-- Who is disabled after an update was so before, unless it is the user of the update. -/
theorem mem_disabledUsers_noteUpdate
    (h : id ∈ (({ s with auth }).noteUpdate updated sets).disabledUsers) :
    id ∈ s.disabledUsers ∧ (updated = some id → sets ≠ some true) ∨
      updated = some id ∧ sets = some false := by
  unfold AccountsState.noteUpdate at h
  split at h
  · rcases List.mem_cons.mp h with rfl | h
    · exact .inr ⟨rfl, rfl⟩
    · exact .inl ⟨h, fun _ heq => (nomatch heq)⟩
  · obtain ⟨h, hne⟩ := mem_disabledUsers_forget.mp h
    exact .inl ⟨h, fun heq => absurd (Option.some.inj heq).symm hne⟩
  next hother =>
    refine .inl ⟨h, fun hupdated htrue => ?_⟩
    exact hother id hupdated htrue

/-- The flags after a turn: the accounts that are disabled now were so before or are the one
that was written, and what was written for one of them says so. -/
theorem stays_of_flags (s' : AccountsState) (h : DisabledForGood s) (hkept : FlagsKept s.auth written auth)
    (hbefore : ∀ id ∈ s'.disabledUsers, id ∈ s.disabledUsers ∨ ∃ row ∈ written, row.id = id)
    (hwritten : ∀ row ∈ written, row.id ∈ s'.disabledUsers → row.enabled = false) :
    ∀ u ∈ auth.users, u.id ∈ s'.disabledUsers → u.enabled = false := by
  intro u hu hid
  by_cases hrow : ∃ row ∈ written, row.id = u.id
  · obtain ⟨row, hrow, heq⟩ := hrow
    obtain ⟨v, hv, hvid, henabled⟩ := hkept.written row hrow
    cases Table.eq_of_key hu hv (heq.symm.trans hvid.symm)
    exact henabled.trans (hwritten row hrow (heq ▸ hid))
  · rcases hkept.rows u hu with ⟨v, hv, hvid, henabled⟩ | ⟨row, hmem, heq, -⟩
    · refine henabled.symm.trans (h.stays v hv ?_)
      rw [hvid]
      exact (hbefore u.id hid).resolve_right hrow
    · exact absurd ⟨row, hmem, heq⟩ hrow

end Accounts

/-! ## The invariant -/

structure AccountsSound (s : AccountsState) : Prop extends DisabledForGood s where
  numbered : ∀ d ∈ s.disabled, d.2 < s.completed

/-- What a call under way relies on: the accounts it remembers were disabled before, it carries
what it sets, and the user it has let past its check was not disabled all the time. -/
def AccountTask.Relies (s : AccountsState) : AccountTask → Prop
  | .arrives call => call.starts = true
  | .under before sets call =>
    (∀ d ∈ before, d.2 < s.completed) ∧ call.Sets sets ∧
      ∀ id, call.checked = some id → id ∉ s.stillDisabled before

section Steps

variable {crypto : Crypto} {s s' : AccountsState} {t : AccountTask} {reply : Awaited}
  {before : List Disabling} {sets : Option Bool} {call : AccountCall}

theorem AccountTask.Relies.onwards (h : t.Relies s) (hon : Onwards s s') : t.Relies s' := by
  cases t with
  | arrives call => exact h
  | under before sets call =>
    obtain ⟨hbefore, hsets, hchecked⟩ := h
    refine ⟨fun d hd => ?_, hsets, fun id hid hmem => ?_⟩
    · exact Nat.lt_of_lt_of_le (hbefore d hd) hon.completed
    · exact hchecked id hid (hon.still hbefore hmem)

/-- A user that is enabled has not been disabled. -/
theorem AccountsSound.not_disabled (h : AccountsSound s) {u : User} (hu : u ∈ s.auth.users)
    (henabled : u.enabled = true) : u.id ∉ s.disabledUsers := by
  intro hmem
  have hdisabled := h.stays u hu hmem
  rw [henabled] at hdisabled
  cases hdisabled

theorem AccountsSound.noteUpdate (h : AccountsSound s) {auth : AuthState}
    {updated : Option String} :
    ∀ d ∈ (({ s with auth }).noteUpdate updated sets).disabled,
      d.2 < (({ s with auth }).noteUpdate updated sets).completed := by
  unfold AccountsState.noteUpdate
  split
  · intro d hd
    rcases List.mem_cons.mp hd with rfl | hd
    · exact Nat.lt_succ_self _
    · exact Nat.lt_succ_of_lt (h.numbered d hd)
  · exact fun d hd => h.numbered d (List.mem_of_mem_filter hd)
  · exact h.numbered

/-- A turn of a call that goes on. -/
theorem AccountsSound.goes (h : AccountsSound s)
    (ht : (AccountTask.under before sets call).Relies s)
    (hspares : call.Spares crypto s before sets) {auth : AuthState} {next : AccountCall}
    (hgo : call.go crypto s.auth s.apiKeys reply = .ok (auth, .inl next)) :
    AccountsSound { s with auth } ∧
      (AccountTask.under before sets next).Relies { s with auth } := by
  obtain ⟨hbefore, hsets, hchecked⟩ := ht
  have hstays := stays_of_flags s h.toDisabledForGood (AccountCall.go_flags hgo)
    (fun id hid => .inl hid) fun row hrow hid => ?_
  · refine ⟨⟨⟨hstays, h.refused⟩, h.numbered⟩, hbefore, AccountCall.go_sets hsets hgo, ?_⟩
    intro id hid hmem
    rcases AccountCall.go_checked hgo hid with hid | ⟨u, hu, rfl, henabled⟩
    · exact hchecked id hid hmem
    · exact h.not_disabled hu henabled (mem_disabledUsers_of_still (s := s) hmem)
  · rcases AccountCall.sets_of_writes hsets hrow with rfl | rfl
    · exact hspares.row row hrow (fun heq => nomatch heq) hid
    · -- an update that saves its row is done
      simp only [AccountCall.go, UserTask.go, bind_eq_ok, pure_eq_ok, Prod.mk.injEq] at hgo
      obtain ⟨-, ⟨-, -, rfl⟩, -, hdone⟩ := hgo
      cases hdone

/-- A turn of a call that answers. -/
theorem AccountsSound.answers (h : AccountsSound s)
    (ht : (AccountTask.under before sets call).Relies s)
    (hspares : call.Spares crypto s before sets) {auth : AuthState} {answer : AccountAnswer}
    (hgo : call.go crypto s.auth s.apiKeys reply = .ok (auth, .inr answer)) :
    AccountsSound ((({ s with auth }).noteUpdate call.updates sets).letIn call.letInAs before) := by
  obtain ⟨hbefore, hsets, hchecked⟩ := ht
  have hstays := stays_of_flags (({ s with auth }).noteUpdate call.updates sets)
    h.toDisabledForGood (AccountCall.go_flags hgo) (fun id hid => ?_) fun row hrow hid => ?_
  · have hauth : (({ s with auth }).noteUpdate call.updates sets).auth = auth := by
      unfold AccountsState.noteUpdate
      split <;> rfl
    have hadmitted : (({ s with auth }).noteUpdate call.updates sets).admitted = s.admitted := by
      unfold AccountsState.noteUpdate
      split <;> rfl
    refine ⟨⟨fun u hu => hstays u (hauth ▸ hu), fun a ha => ?_⟩, h.noteUpdate⟩
    rcases List.mem_append.mp ha with ha | ha
    · obtain ⟨id, hid, rfl⟩ := Option.map_eq_some_iff.mp (Option.mem_toList.mp ha)
      refine fun hmem => ?_
      have hmem : id ∈ s.stillDisabled before := Onwards.noteUpdate.still hbefore hmem
      rcases AccountCall.go_letInAs hgo hid with
        hid | ⟨u, hu, rfl, henabled⟩ | ⟨token, apiKey, owner, rfl, hcompare, rfl⟩
      · exact hchecked id hid hmem
      · exact h.not_disabled hu henabled (mem_disabledUsers_of_still hmem)
      · exact hspares.owner token apiKey owner rfl hcompare hmem
    · rw [hadmitted] at ha
      exact h.refused a ha
  · rcases mem_disabledUsers_noteUpdate hid with ⟨hid, -⟩ | ⟨hupdated, -⟩
    · exact .inl hid
    · exact .inr (AccountCall.writes_of_updates hupdated)
  · rcases mem_disabledUsers_noteUpdate hid with ⟨hold, hnot⟩ | ⟨hupdated, rfl⟩
    · rcases AccountCall.sets_of_writes hsets hrow with rfl | rfl
      · exact hspares.row row hrow (fun heq => nomatch heq) hold
      · exact hspares.row row hrow (hnot rfl) hold
    · obtain ⟨row', hrow', -⟩ := AccountCall.writes_of_updates hupdated
      rcases AccountCall.sets_of_writes hsets hrow with hnone | rfl
      · cases hnone
      · exact hsets false rfl

/-- A call that awaits a statement that fails writes nothing and lets nobody in by an API key. -/
theorem AccountCall.spares_of_error {e : HttpException} {auth : AuthState}
    {r : AccountCall ⊕ AccountAnswer}
    (hgo : call.go crypto s.auth s.apiKeys (.error e) = .ok (auth, r)) :
    call.Spares crypto s before sets := by
  constructor
  · intro row hrow
    cases call with
    | ofUser t => cases t <;> cases hrow <;> cases hgo
    | _ => cases hrow
  · rintro token apiKey owner rfl
    cases hgo

/-- What comes from outside. -/
theorem AccountsSound.outside (h : AccountsSound s) {event : AccountsOutside}
    (hspares : ∀ e, event = .socket e → ∀ id ∈ e.standsFor (s.auth.jwt.verify s.auth.now),
      id ∉ s.disabledUsers)
    (hout : s.outside event = some s') : AccountsSound s' ∧ Onwards s s' := by
  cases event with
  | register user =>
    obtain ⟨users, hins, rfl⟩ := Option.map_eq_some_iff.mp hout
    refine ⟨⟨⟨fun u hu hid => ?_, h.refused⟩, fun d hd => ?_⟩,
      .of_subset rfl (List.filter_subset_self _)⟩
    · obtain ⟨hid, hne⟩ := mem_disabledUsers_forget.mp hid
      rcases ((Table.insert_eq_some hins).2 u).mp hu with rfl | hu
      · exact absurd rfl hne
      · exact h.stays u hu hid
    · exact h.numbered d (List.mem_of_mem_filter hd)
  | delete userId =>
    cases hout
    exact ⟨⟨⟨fun u hu => h.stays u (Table.mem_delete.mp hu).1, h.refused⟩, h.numbered⟩,
      .of_subset rfl fun _ hd => hd⟩
  | sessions sessions jwt | apiKeys apiKeys | tick seconds =>
    cases hout
    exact ⟨⟨⟨h.stays, h.refused⟩, h.numbered⟩, .of_subset rfl fun _ hd => hd⟩
  | socket event =>
    obtain ⟨⟨gateway, out, pending⟩, -, rfl⟩ := Option.map_eq_some_iff.mp hout
    refine ⟨⟨⟨h.stays, fun a ha => ?_⟩, h.numbered⟩, .of_subset rfl fun _ hd => hd⟩
    rcases List.mem_append.mp ha with ha | ha
    · obtain ⟨id, hid, rfl⟩ := Option.map_eq_some_iff.mp (Option.mem_toList.mp ha)
      exact fun hmem => hspares event rfl id hid (mem_disabledUsers_of_still (s := s) hmem)
    · exact h.refused a ha

end Steps

/-! ## Runs -/

def AccountsInvariant (p : AccountsPool) : Prop := p.Holds AccountsSound fun s t => t.Relies s

section Runs

variable {crypto : Crypto} {p p' : AccountsPool} {l : AccountsLabel}

/-- The turn of a call under way, whichever way it ends. -/
theorem AccountsSound.turn {s s' : AccountsState} (h : AccountsSound s) {t : AccountTask}
    (ht : t.Relies s) {reply : Awaited}
    (hspares : ∀ before sets call, t = .under before sets call →
      call.Spares crypto s before sets) {r : AccountTask ⊕ AccountAnswer}
    (hgo : t.go crypto s reply = .ok (s', r)) :
    AccountsSound s' ∧ (∀ t', r = .inl t' → t'.Relies s') ∧ Onwards s s' := by
  cases t with
  | arrives call =>
    cases hgo
    refine ⟨h, fun t' ht' => ?_, .of_subset rfl fun _ hd => hd⟩
    cases ht'
    refine ⟨h.numbered, AccountCall.sets_of_starts ht, fun id hid => ?_⟩
    rw [AccountCall.checked_of_starts ht] at hid
    cases hid
  | under before sets call =>
    have hspares := hspares before sets call rfl
    simp only [AccountTask.go] at hgo
    cases hcall : call.go crypto s.auth s.apiKeys reply with
    | error e =>
      rw [hcall] at hgo
      cases hgo
    | ok result =>
      obtain ⟨auth, next | answer⟩ := result
      · rw [hcall] at hgo
        cases hgo
        obtain ⟨hsound, hrelies⟩ := h.goes ht hspares hcall
        refine ⟨hsound, fun t' ht' => ?_, .of_subset rfl fun _ hd => hd⟩
        cases ht'
        exact hrelies
      · rw [hcall] at hgo
        cases hgo
        have hon : Onwards s (({ s with auth }).noteUpdate call.updates sets) := .noteUpdate
        exact ⟨h.answers ht hspares hcall, fun t' ht' => (nomatch ht'), hon.completed,
          hon.disabled⟩

theorem AccountsInvariant.step (hp : AccountsInvariant p) (hspares : SparesDisabled crypto p l)
    (hstep : accountsStep crypto p l = some p') : AccountsInvariant p' := by
  cases l with
  | start task =>
    refine hp.start ?_ hstep
    obtain ⟨hstarts, -⟩ := Tasks.step_start hstep
    cases task with
    | arrives call => exact hstarts
    | under before sets call => cases hstarts
  | turn i reply =>
    refine hp.call (fun task hmem htask s' r hgo => ?_) hstep
    have hcall : ∀ before sets call, task = .under before sets call →
        call.Spares crypto p.store before sets := by
      rintro before sets call rfl
      cases reply with
      | ok u => exact hspares before sets call htask
      | error e =>
        simp only [AccountTask.go] at hgo
        cases hcall : call.go crypto p.store.auth p.store.apiKeys (.error e) with
        | error e' =>
          rw [hcall] at hgo
          cases hgo
        | ok result => exact AccountCall.spares_of_error hcall
    obtain ⟨hsound, hnext, hon⟩ := hp.store.turn (hp.tasks task hmem) hcall hgo
    exact ⟨hsound, hnext, fun t _ ht => ht.onwards hon⟩
  | outside event =>
    have hsocket : ∀ s', p.store.outside event = some s' → ∀ e, event = .socket e →
        ∀ id ∈ e.standsFor (p.store.auth.jwt.verify p.store.auth.now),
          id ∉ p.store.disabledUsers := by
      rintro s' hout e rfl
      exact hspares (by rw [hout]; exact Option.some_ne_none _)
    exact hp.outside (fun s' hout => (hp.store.outside (hsocket s' hout) hout).1)
      (fun s' hout t _ ht => ht.onwards (hp.store.outside (hsocket s' hout) hout).2) hstep

/-- A call that does not spare the disabled accounts breaks the property. -/
theorem AccountCall.spares_of_good {s s' : AccountsState} {before : List Disabling}
    {sets : Option Bool} {call : AccountCall} {r : AccountTask ⊕ AccountAnswer}
    (hgo : (AccountTask.under before sets call).go crypto s (.ok ()) = .ok (s', r))
    (hgood : DisabledForGood s') : call.Spares crypto s before sets := by
  constructor
  · intro row hrow hsets hid
    obtain ⟨auth, r', hcall⟩ := AccountCall.go_of_writes hrow
    obtain ⟨u, hu, hsame, henabled⟩ := (AccountCall.go_flags hcall).written row hrow
    rw [← henabled]
    rw [← hsame] at hid
    rw [AccountTask.go, hcall] at hgo
    cases r' with
    | inl next =>
      cases hgo
      exact hgood.stays u hu hid
    | inr answer =>
      cases hgo
      revert hgood
      unfold AccountsState.noteUpdate
      split
      · exact fun hgood => hgood.stays u hu (List.mem_cons_of_mem _ hid)
      · exact absurd rfl hsets
      · exact fun hgood => hgood.stays u hu hid
  · rintro token apiKey owner rfl hcompare
    rw [AccountTask.go] at hgo
    simp only [AccountCall.go, ok_bind, hcompare, require_true] at hgo
    cases hgo
    exact hgood.refused (owner.id, s.stillDisabled before) List.mem_cons_self

theorem AccountsInvariant.needed (hstep : accountsStep crypto p l = some p')
    (hgood : DisabledForGood p'.store) : SparesDisabled crypto p l := by
  cases l with
  | start task => trivial
  | turn i reply =>
    cases reply with
    | error e => trivial
    | ok u =>
      intro before sets call htask
      obtain ⟨task, htask', hcall⟩ := Tasks.step_call hstep
      cases htask.symm.trans htask'
      rcases hcall with ⟨s', r, hgo, rfl⟩ | ⟨e, hgo, rfl⟩
      · exact AccountCall.spares_of_good hgo hgood
      · -- a call that throws has neither saved a row nor been given the right key
        constructor
        · intro row hrow
          obtain ⟨auth, r, hcall⟩ : ∃ auth r,
              call.go crypto p.store.auth p.store.apiKeys (.ok ()) = .ok (auth, r) :=
            AccountCall.go_of_writes hrow
          rw [AccountTask.go, hcall] at hgo
          cases hgo
        · rintro token apiKey owner rfl hcompare
          rw [AccountTask.go] at hgo
          simp only [AccountCall.go, ok_bind, hcompare, require_true] at hgo
          cases hgo
  | outside event =>
    cases event with
    | socket event =>
      intro _ id hid hmem
      obtain ⟨s', hout, rfl⟩ := Tasks.step_outside hstep
      obtain ⟨⟨gateway, out, pending⟩, -, rfl⟩ := Option.map_eq_some_iff.mp hout
      have hrefused := hgood.refused (id, p.store.stillDisabled p.store.disabled) ?_
      · obtain ⟨d, hd, rfl⟩ := List.mem_map.mp hmem
        exact hrefused (mem_stillDisabled.mpr ⟨d.2, hd, hd⟩)
      · refine List.mem_append_left _ (Option.mem_toList.mpr ?_)
        rw [Option.mem_def.mp hid]
        rfl
    | _ => trivial

theorem sparesDisabled_of_stuck (h : accountsStep crypto p l = none) :
    SparesDisabled crypto p l := by
  cases l with
  | start task => trivial
  | turn i reply =>
    cases reply with
    | error e => trivial
    | ok u =>
      intro before sets call htask
      rw [accountsStep, Tasks.step, Tasks.turnOf, htask] at h
      cases h
  | outside event =>
    cases event with
    | socket event =>
      intro hout
      exact absurd (Option.map_eq_none_iff.mp h) hout
    | _ => trivial

end Runs

/-- For every database, every run of logins, refreshes, checks of tokens and API keys, socket
events, updates and two-factor methods in any interleaving: disabled accounts stay disabled and
let nobody in, in every state of the run, if and only if every step of it spares them. -/
theorem disabled_for_good_iff (crypto : Crypto) (auth : AuthState) (apiKeys : Table ApiKey)
    (labels : List AccountsLabel) :
    (∀ done, done <+: labels → ∀ p', run (accountsStep crypto) (.idle auth apiKeys) done = some p' →
      DisabledForGood p'.store) ↔
    Along (accountsStep crypto) (SparesDisabled crypto) (.idle auth apiKeys) labels := by
  refine property_iff_along (I := AccountsInvariant) (fun _ h => h.store.toDisabledForGood)
    (fun _ _ _ h hC hs => h.step hC hs) (fun _ _ _ _ hs hP => AccountsInvariant.needed hs hP)
    (fun _ _ hs => sparesDisabled_of_stuck hs) ?_
  refine ⟨⟨⟨fun _ _ h => (nomatch h), fun _ h => (nomatch h)⟩, fun _ h => (nomatch h)⟩, ?_⟩
  exact fun _ h => (nomatch h)

/-! ## A socket with a token issued earlier -/

section Counterexample

/-- Alice has an access token and an API key. -/
def aliceWithToken : AuthState where
  users := .single (.withDefaults "alice" "alice@nexus.local" "alice" "password")
  sessions := .empty
  jwt := .single ⟨"access", .access "alice" "alice@nexus.local" false, 900⟩
  now := 0

def aliceApiKeys : Table ApiKey :=
  ⟨[⟨"key", "alice", "ptlc_0123456789a", "ptlc_0123456789abcdef"⟩], by decide⟩

/-- An administrator disables the account. -/
def disablesAlice : List AccountsLabel :=
  [.start (.arrives (.ofUser (.update .admin "alice"
      ⟨none, none, none, none, none, some false⟩ "salt"))),
    .turn 0 (.ok ()), .turn 0 (.ok ()), .turn 0 (.ok ()), .turn 0 (.ok ()), .turn 0 (.ok ())]

/-- A socket authenticates with the token. -/
def authenticatesSocket : List AccountsLabel :=
  [.outside (.socket (.connection "socket" none none)),
    .outside (.socket (.auth "socket" (some "access") none))]

/-- Alice is disabled, and her token still makes a socket stand for her. -/
theorem disabled_socket :
    ¬ ∀ done, done <+: disablesAlice ++ authenticatesSocket → ∀ p',
      run (accountsStep .plain) (.idle aliceWithToken aliceApiKeys) done = some p' →
        DisabledForGood p'.store := by
  intro h
  have hrefused := (h _ List.prefix_rfl _ rfl).refused ("alice", ["alice"]) List.mem_cons_self
  exact hrefused List.mem_cons_self

/-- Nor does her API key ask whether she is. -/
example : (run (accountsStep .plain) (.idle aliceWithToken aliceApiKeys)
    (disablesAlice ++ [.start (.arrives (.withApiKey (some "Bearer ptlc_0123456789abcdef"))),
      .turn 0 (.ok ()), .turn 0 (.ok ()), .turn 0 (.ok ()), .turn 0 (.ok ())])).map
        (fun p => p.store.admitted) = some [("alice", ["alice"])] := by
  decide +kernel

end Counterexample

end Panel
