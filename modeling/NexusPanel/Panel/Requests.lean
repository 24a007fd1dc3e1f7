import NexusPanel.Foundation.Transition
import NexusPanel.Panel.Auth
import NexusPanel.Panel.Gateway

/-!
# Runs of requests

The panel as a system that takes one request at a time: the public routes of `/auth`, the
routes behind `AuthGuard('jwt')` or `JwtAuthGuard`, `GET /auth/me` with its own check, and
the events of the socket.io gateway. A request that throws leaves the state unchanged.

The state carries a log of the facts later statements are about: who logged in with what,
which token came out, when the second factor was switched on. The log is written by the
steps and read by none of them.
-/

namespace Panel

open Fallible

/-- A fact worth remembering, with the user and the tokens it concerns. `secondFactorLogin`
keeps the user's row, the code and the time the code was checked with. -/
inductive Event
  | passwordLogin (userId accessToken refreshToken : String)
  | secondFactorLogin (user : User) (code : String) (time : Nat)
      (accessToken refreshToken : String)
  | refreshed (userId refreshToken accessToken : String)
  | impersonated (adminId userId accessToken : String)
  | twoFactorEnabled (userId : String)
deriving DecidableEq

/-- The handlers behind the JWT guard. `other` stands for every guarded handler that touches
neither users nor sessions nor tokens. A logout carries the `refreshToken` cookie, which the
handler clears in the browser. -/
inductive Route
  | logout (refreshToken : Option String)
  | setupTwoFactor (secret : String)
  | verifyTwoFactorSetup (code : String) (random salt : Nat → String)
  | disableTwoFactor (code : String)
  | getSessions
  | revokeSession (sessionId : String)
  | updateMe (dto : UpdateProfileDto) (salt : String)
  | createUser (dto : CreateUserDto) (id salt : String)
  | updateUser (id : String) (dto : UpdateUserDto) (salt : String)
  | deleteUser (id : String)
  | impersonate (targetUserId token : String)
  | other (requiresAdmin : Bool)

/-- Whether the route carries `@Roles('admin')`. -/
def Route.requiresAdmin : Route → Bool
  | .createUser .. | .updateUser .. | .deleteUser _ | .impersonate .. => true
  | .other requiresAdmin => requiresAdmin
  | _ => false

inductive Request
  | register (dto : RegisterDto) (id salt : String)
  | login (dto : LoginDto) (ip userAgent : String) (fresh : Fresh)
  | refresh (refreshToken : Option String) (token : String)
  | twoFactorLogin (sessionToken code ip userAgent : String) (fresh : Fresh)
  | me (credentials : Credentials)
  | guarded (credentials : Credentials) (route : Route)
  | socket (event : ClientEvent)
  | tick (seconds : Nat)

structure PanelState where
  auth : AuthState
  gateway : Gateway
  log : List Event

/-- The panel when it first starts, with the given users (a seed, say): no session, no
signed token and no socket. -/
def PanelState.initial (users : Table User) : PanelState :=
  ⟨⟨users, .empty, .fresh, 0⟩, .initial, []⟩

namespace Requests

variable (crypto : Crypto)

/-- The body of a guarded handler, run as `user`. -/
def handle (s : AuthState) (user : CurrentUser) :
    Route → Except HttpException (AuthState × Option Event)
  | .logout _ | .getSessions | .other _ => .ok (s, none)
  | .setupTwoFactor secret => do
    let (s', _) ← AuthService.setupTwoFactor s user.id secret
    return (s', none)
  | .verifyTwoFactorSetup code random salt => do
    let (s', _) ← AuthService.verifyTwoFactorSetup crypto s user.id code random salt
    return (s', some (.twoFactorEnabled user.id))
  | .disableTwoFactor code => do
    let (s', _) ← AuthService.disableTwoFactor crypto s user.id code
    return (s', none)
  | .revokeSession sessionId => do
    let s' ← AuthService.revokeSession s user.id sessionId
    return (s', none)
  | .updateMe dto salt => do
    let (s', _) ← UsersService.update crypto s user.id dto.toUpdate salt
    return (s', none)
  | .createUser dto id salt => do
    let (s', _) ← UsersService.create crypto s dto id salt
    return (s', none)
  | .updateUser id dto salt => do
    let (s', _) ← UsersService.update crypto s id dto salt
    return (s', none)
  | .deleteUser id => do
    let s' ← UsersService.delete s id
    return (s', none)
  | .impersonate targetUserId token => do
    let (s', _) ← AdminService.impersonateUser s user.id targetUserId token
    return (s', some (.impersonated user.id targetUserId token))

/-- What a login that came through leaves in the log. -/
def loginEvent : LoginResult → Option Event
  | .requiresTwoFactor _ _ => none
  | .loggedIn accessToken refreshToken user =>
    some (.passwordLogin user.id accessToken refreshToken)

/-- What a completed second factor leaves in the log, with the row the code was checked
against. -/
def secondFactorEvent (s : AuthState) (code : String) : LoginResult → Option Event
  | .requiresTwoFactor _ _ => none
  | .loggedIn accessToken refreshToken user =>
    (s.users.findOne fun u => u.id == user.id).map fun row =>
      .secondFactorLogin row code s.now accessToken refreshToken

/-- A REST request or a tick of the clock: the new database and the event, if any. -/
def serve (s : AuthState) : Request → Except HttpException (AuthState × Option Event)
  | .register dto id salt => do
    let (s', _) ← AuthService.register crypto s dto id salt
    return (s', none)
  | .login dto ip userAgent fresh => do
    let (s', result) ← AuthService.login crypto s dto ip userAgent fresh
    return (s', loginEvent result)
  | .refresh cookie token => do
    let refreshToken ← orThrow (truthy cookie) (.unauthorized "No refresh token provided")
    let (s', session) ← AuthService.refreshToken s refreshToken token
    return (s', some (.refreshed session.userId refreshToken token))
  | .twoFactorLogin sessionToken code ip userAgent fresh => do
    let (s', result) ←
      AuthService.verifyTwoFactorLogin crypto s sessionToken code ip userAgent fresh
    return (s', secondFactorEvent s code result)
  | .me credentials => do
    let _ ← AuthController.me s credentials
    return (s, none)
  | .guarded credentials route => do
    let user ← JwtStrategy.authenticate s credentials
    require (RolesGuard.canActivate route.requiresAdmin user) (.forbidden "Forbidden resource")
    handle crypto s user route
  | .socket _ => .ok (s, none)
  | .tick seconds => .ok ({ s with now := s.now + seconds }, none)

/-- One request. -/
def step (s : PanelState) (r : Request) : Option PanelState :=
  match r with
  | .socket event =>
    (s.gateway.receive (s.auth.jwt.verify s.auth.now) event).map fun (gateway, _, _) =>
      { s with gateway }
  | r =>
    match serve crypto s.auth r with
    | .ok (auth, event) => some { s with auth, log := event.toList ++ s.log }
    | .error _ => some s

/-- The user a request is admitted as, with the token that was presented for it: a guarded
handler runs, `/auth/me` answers, or a socket is given a `userId`. -/
def admits (s : PanelState) : Request → Option (String × String)
  | .guarded credentials route =>
    match cookieThenBearerExtractor credentials, JwtStrategy.authenticate s.auth credentials with
    | some token, .ok user =>
      if RolesGuard.canActivate route.requiresAdmin user then some (user.id, token) else none
    | _, _ => none
  | .me credentials =>
    match AuthController.meToken credentials, AuthController.me s.auth credentials with
    | some token, .ok user => some (user.id, token)
    | _, _ => none
  | .socket (.connection _ cookie _) =>
    (cookieToken cookie).bind fun token =>
      (s.auth.jwt.verify s.auth.now token).map fun payload => (payload.sub, token)
  | .socket (.auth _ token _) =>
    token.bind fun token =>
      (s.auth.jwt.verify s.auth.now token).map fun payload => (payload.sub, token)
  | _ => none

end Requests

end Panel
