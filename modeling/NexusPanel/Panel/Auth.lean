import NexusPanel.Foundation.Fallible
import NexusPanel.Foundation.Text
import NexusPanel.Panel.Entities
import NexusPanel.Panel.JavaScript
import NexusPanel.Panel.Jwt

/-!
# Authentication

The services that read and write the accounts and sessions of the panel: `AuthService`,
`UsersService`, the impersonation of `AdminService`, the passport strategy and the guards.
A service call takes the database and the values its environment makes (random strings, the
clock, the salt) and returns the new database and its response, or the exception it throws;
a call that throws leaves the database as it was.

`repository.save(entity)` writes the loaded columns back and skips a property that is
`undefined`, so assigning `undefined` to a column keeps the stored value. The audit log is
left out: nothing here reads it.
-/

namespace Panel

open Fallible

/-- The cryptography the services call: `bcrypt.compare`, `bcrypt.hash` with the salt it
draws, and `authenticator.verify` at a time. -/
structure Crypto where
  compare : String → String → Bool
  hash : String → String → String
  totpVerify : String → String → Nat → Bool

/-- Codes are the secrets themselves, and hashing keeps a password as it is. -/
def Crypto.plain : Crypto :=
  ⟨fun c h => c == h, fun _ c => c, fun code secret _ => code == secret⟩

/-- The tables and services authentication works on. -/
structure AuthState where
  users : Table User
  sessions : Table Session
  jwt : JwtService
  now : Nat

/-! ## AuthService -/

/-- The part of a user that a login answers with. -/
structure UserSummary where
  id : String
  email : String
  username : String
  rootAdmin : Bool
  usesTotp : Bool
deriving DecidableEq, Repr

def User.summary (u : User) : UserSummary :=
  ⟨u.id, u.email, u.username, u.rootAdmin, u.usesTotp⟩

structure LoginDto where
  email : String
  password : String

structure RegisterDto where
  email : String
  username : String
  password : String

inductive LoginResult
  | requiresTwoFactor (sessionToken : String) (user : UserSummary)
  | loggedIn (accessToken refreshToken : String) (user : UserSummary)
deriving DecidableEq, Repr

/-- What a login draws: the string `sign` returns, the refresh token and the session id. -/
structure Fresh where
  token : String
  refreshToken : String
  sessionId : String

namespace AuthService

variable (crypto : Crypto)

def register (s : AuthState) (dto : RegisterDto) (id salt : String) :
    Except HttpException (AuthState × User) := do
  require (s.users.findOne fun u => u.email == dto.email || u.username == dto.username).isNone
    (.conflict "Email or username already exists")
  let user : User :=
    { id, email := dto.email, username := dto.username
      password := crypto.hash salt dto.password
      rootAdmin := false, usesTotp := false
      totpSecret := none, pendingTotpSecret := none, backupCodes := none
      enabled := true, avatarUrl := none, lastLogin := none
      createdAt := s.now, updatedAt := s.now }
  let users ← orThrow (s.users.insert user) (.internal "duplicate key")
  return ({ s with users }, user)

/-- The full tokens both ways of logging in end with: an access token of 15 minutes, a new
session and the time of the login. -/
def openSession (s : AuthState) (user : User) (ip userAgent : String) (fresh : Fresh) :
    Except HttpException (AuthState × LoginResult) := do
  let jwt ← orThrow
    (s.jwt.sign fresh.token (.access user.id user.email user.rootAdmin) (s.now + 900))
    (.internal "signature collision")
  let session : Session :=
    { id := fresh.sessionId, userId := user.id, refreshToken := fresh.refreshToken
      ipAddress := ip, userAgent, lastActiveAt := s.now, revoked := false
      createdAt := s.now, updatedAt := s.now }
  let sessions ← orThrow (s.sessions.insert session) (.internal "duplicate key")
  let users := s.users.update (fun u => u.id == user.id)
    fun u => { u with lastLogin := some s.now, updatedAt := s.now }
  return ({ s with users, sessions, jwt },
    .loggedIn fresh.token fresh.refreshToken user.summary)

def login (s : AuthState) (dto : LoginDto) (ip userAgent : String) (fresh : Fresh) :
    Except HttpException (AuthState × LoginResult) := do
  let user ← orThrow (s.users.findOne fun u => u.email == dto.email)
    (.unauthorized "Invalid credentials")
  require user.enabled (.unauthorized "Invalid credentials")
  require (crypto.compare dto.password user.password) (.unauthorized "Invalid credentials")
  if user.usesTotp then
    let jwt ← orThrow (s.jwt.sign fresh.token (.twoFactor user.id) (s.now + 300))
      (.internal "signature collision")
    return ({ s with jwt }, .requiresTwoFactor fresh.token user.summary)
  else
    openSession s user ip userAgent fresh

/-- A new access token for the session that holds the refresh token. -/
def refreshToken (s : AuthState) (token accessToken : String) :
    Except HttpException (AuthState × Session) := do
  let session ← orThrow
    (s.sessions.findOne fun x => x.refreshToken == token && !x.revoked)
    (.unauthorized "Invalid refresh token")
  let user ← orThrow (s.users.findOne fun u => u.id == session.userId)
    (.unauthorized "User not found or disabled")
  require user.enabled (.unauthorized "User not found or disabled")
  let sessions := s.sessions.save { session with lastActiveAt := s.now, updatedAt := s.now }
  let jwt ← orThrow
    (s.jwt.sign accessToken (.access user.id user.email user.rootAdmin) (s.now + 900))
    (.internal "signature collision")
  return ({ s with sessions, jwt }, session)

def setupTwoFactor (s : AuthState) (userId secret : String) :
    Except HttpException (AuthState × String) := do
  let user ← orThrow (s.users.findOne fun u => u.id == userId) (.notFound "User not found")
  require (!user.usesTotp) (.badRequest "Two-factor authentication is already enabled")
  let users := s.users.save { user with pendingTotpSecret := some secret, updatedAt := s.now }
  return ({ s with users }, secret)

/-- Eight codes, each drawn at random. -/
def generateBackupCodes (random : Nat → String) : List String := (List.range 8).map random

/-- `pendingTotpSecret = undefined` leaves the pending secret in the row. -/
def verifyTwoFactorSetup (s : AuthState) (userId code : String) (random salt : Nat → String) :
    Except HttpException (AuthState × List String) := do
  let user ← orThrow (s.users.findOne fun u => u.id == userId) (.notFound "User not found")
  let pending ← orThrow (truthy user.pendingTotpSecret)
    (.badRequest "Two-factor setup not initiated")
  require (crypto.totpVerify code pending s.now) (.badRequest "Invalid verification code")
  let plaintextBackupCodes := generateBackupCodes random
  let hashedBackupCodes := plaintextBackupCodes.mapIdx fun i c => crypto.hash (salt i) c
  let users := s.users.save
    { user with
      totpSecret := some pending, usesTotp := true
      backupCodes := some hashedBackupCodes, updatedAt := s.now }
  return ({ s with users }, plaintextBackupCodes)

/-- `totpSecret = undefined` and `backupCodes = undefined` leave both in the row. -/
def disableTwoFactor (s : AuthState) (userId code : String) :
    Except HttpException (AuthState × String) := do
  let user ← orThrow (s.users.findOne fun u => u.id == userId) (.notFound "User not found")
  require user.usesTotp (.badRequest "Two-factor authentication is not enabled")
  let secret ← orThrow (truthy user.totpSecret)
    (.badRequest "Two-factor authentication is not enabled")
  require (crypto.totpVerify code secret s.now) (.badRequest "Invalid verification code")
  let users := s.users.save { user with usesTotp := false, updatedAt := s.now }
  return ({ s with users }, "Two-factor authentication disabled successfully")

/-- The loop over the backup codes: the codes left after the first one that matches is
spliced out, or `none` when no code matches. -/
def consumeBackupCode (code : String) : List String → Option (List String)
  | [] => none
  | h :: hs =>
    if crypto.compare code h then some hs
    else (consumeBackupCode code hs).map (h :: ·)

/-- The user table after the second factor was accepted: unchanged for a TOTP code, without
the consumed code for a backup code. -/
def checkSecondFactor (s : AuthState) (user : User) (secret code : String) :
    Except HttpException (Table User) :=
  if crypto.totpVerify code secret s.now then .ok s.users
  else
    match consumeBackupCode crypto code (user.backupCodes.getD []) with
    | some codes =>
      .ok (s.users.save { user with backupCodes := some codes, updatedAt := s.now })
    | none => .error (.unauthorized "Invalid two-factor code")

def verifyTwoFactorLogin (s : AuthState) (sessionToken code ip userAgent : String)
    (fresh : Fresh) : Except HttpException (AuthState × LoginResult) := do
  let payload ← orThrow (s.jwt.verify s.now sessionToken)
    (.unauthorized "Invalid or expired session token")
  require (payload.purpose == some "two-factor") (.unauthorized "Invalid session token")
  let user ← orThrow (s.users.findOne fun u => u.id == payload.sub)
    (.unauthorized "User not found or disabled")
  require user.enabled (.unauthorized "User not found or disabled")
  let secret ← orThrow (truthy user.totpSecret)
    (.badRequest "Two-factor authentication is not configured")
  let users ← checkSecondFactor crypto s user secret code
  openSession { s with users } user ip userAgent fresh

/-- The sessions of a user, most recently active first. -/
def getUserSessions (s : AuthState) (userId : String) : List Session :=
  (s.sessions.find fun x => x.userId == userId && !x.revoked).mergeSort
    fun x y => y.lastActiveAt ≤ x.lastActiveAt

def revokeSession (s : AuthState) (userId sessionId : String) :
    Except HttpException AuthState := do
  let session ← orThrow (s.sessions.findOne fun x => x.id == sessionId && x.userId == userId)
    (.notFound "Session not found")
  return { s with sessions := s.sessions.save { session with revoked := true, updatedAt := s.now } }

def validateUser (s : AuthState) (userId : String) : Option User :=
  s.users.findOne fun u => u.id == userId && u.enabled

end AuthService

/-! ## UsersService and AdminService -/

structure CreateUserDto where
  email : String
  username : String
  password : String
  rootAdmin : Option Bool

/-- The union of `UpdateUserDto` and `UpdateProfileDto`: the first has no `avatarUrl`, the
second neither `rootAdmin` nor `enabled`. -/
structure UpdateUserDto where
  email : Option String
  username : Option String
  password : Option String
  avatarUrl : Option String
  rootAdmin : Option Bool
  enabled : Option Bool

/-- `UpdateProfileDto`: what a user may change about itself. -/
structure UpdateProfileDto where
  email : Option String
  username : Option String
  password : Option String
  avatarUrl : Option String

def UpdateProfileDto.toUpdate (dto : UpdateProfileDto) : UpdateUserDto :=
  ⟨dto.email, dto.username, dto.password, dto.avatarUrl, none, none⟩

namespace UsersService

variable (crypto : Crypto)

def create (s : AuthState) (dto : CreateUserDto) (id salt : String) :
    Except HttpException (AuthState × User) := do
  require (s.users.findOne fun u => u.email == dto.email || u.username == dto.username).isNone
    (.conflict "Email or username already exists")
  let user : User :=
    { id, email := dto.email, username := dto.username
      password := crypto.hash salt dto.password
      rootAdmin := dto.rootAdmin.getD false, usesTotp := false
      totpSecret := none, pendingTotpSecret := none, backupCodes := none
      enabled := true, avatarUrl := none, lastLogin := none
      createdAt := s.now, updatedAt := s.now }
  let users ← orThrow (s.users.insert user) (.internal "duplicate key")
  return ({ s with users }, user)

/-- `dto.email && dto.email !== user.email` followed by a lookup of the new value. -/
def conflicts (s : AuthState) (column : User → String) (wanted : Option String) (user : User) :
    Bool :=
  match truthy wanted with
  | some v => v != column user && (s.users.findOne fun u => column u == v).isSome
  | none => false

/-- `Object.assign(user, dto)` with the password hashed. -/
def assign (dto : UpdateUserDto) (salt : String) (user : User) (now : Nat) : User :=
  { user with
    email := dto.email.getD user.email
    username := dto.username.getD user.username
    password := match dto.password with
      | some "" => ""
      | some p => crypto.hash salt p
      | none => user.password
    avatarUrl := dto.avatarUrl.orElse fun _ => user.avatarUrl
    rootAdmin := dto.rootAdmin.getD user.rootAdmin
    enabled := dto.enabled.getD user.enabled
    updatedAt := now }

def update (s : AuthState) (id : String) (dto : UpdateUserDto) (salt : String) :
    Except HttpException (AuthState × User) := do
  let user ← orThrow (s.users.findOne fun u => u.id == id) (.notFound "User not found")
  require (!conflicts s User.email dto.email user) (.conflict "Email already in use")
  require (!conflicts s User.username dto.username user) (.conflict "Username already in use")
  let saved := assign crypto dto salt user s.now
  return ({ s with users := s.users.save saved }, saved)

/-- The sessions of a removed user go with it (`onDelete: 'CASCADE'`). -/
def delete (s : AuthState) (id : String) : Except HttpException AuthState := do
  let user ← orThrow (s.users.findOne fun u => u.id == id) (.notFound "User not found")
  return { s with
    users := s.users.delete fun u => u.id == user.id
    sessions := s.sessions.delete fun x => x.userId == user.id }

end UsersService

namespace AdminService

/-- An access token of one hour for the target, marked with the admin who asked for it. -/
def impersonateUser (s : AuthState) (adminId targetUserId accessToken : String) :
    Except HttpException (AuthState × String) := do
  let target ← orThrow (s.users.findOne fun u => u.id == targetUserId)
    (.notFound "User not found")
  let jwt ← orThrow
    (s.jwt.sign accessToken
      (.impersonation target.id target.email target.rootAdmin adminId) (s.now + 3600))
    (.internal "signature collision")
  return ({ s with jwt }, accessToken)

end AdminService

/-! ## Credentials of a request -/

/-- The parts of a REST request that carry a token: the parsed `nexus_session` cookie and
the `Authorization` header. -/
structure Credentials where
  cookie : Option String
  authorization : Option String

/-- `ExtractJwt.fromAuthHeaderAsBearerToken()`: `/(\S+)\s+(\S+)/` with the scheme compared
without case. -/
def fromAuthHeaderAsBearerToken (authorization : Option String) : Option String :=
  match authorization.map fun text => Text.wordsBy isJsSpace text.toList with
  | some (scheme :: value :: _) =>
    if scheme.map Char.toLower == "bearer".toList then some (String.ofList value) else none
  | _ => none

def cookieThenBearerExtractor (c : Credentials) : Option String :=
  match truthy c.cookie with
  | some token => some token
  | none => fromAuthHeaderAsBearerToken c.authorization

/-- `authHeader.startsWith('Bearer ')` and `authHeader.slice(7)`. -/
def stripBearer (authorization : Option String) : Option String :=
  authorization.bind (Text.stripPrefix? "Bearer ")

/-- The user a guarded route runs as. -/
structure CurrentUser where
  id : String
  email : String
  rootAdmin : Bool
deriving DecidableEq, Repr

namespace JwtStrategy

def validate (s : AuthState) (payload : JwtPayload) : Except HttpException CurrentUser := do
  let user ← orThrow (AuthService.validateUser s payload.sub) (.unauthorized "Unauthorized")
  return ⟨user.id, user.email, user.rootAdmin⟩

/-- `AuthGuard('jwt')`: extract, verify, validate. -/
def authenticate (s : AuthState) (c : Credentials) : Except HttpException CurrentUser := do
  let token ← orThrow (cookieThenBearerExtractor c) (.unauthorized "Unauthorized")
  let payload ← orThrow (s.jwt.verify s.now token) (.unauthorized "Unauthorized")
  validate s payload

end JwtStrategy

/-- `RolesGuard.canActivate` for a route that requires, or does not require, the admin role. -/
def RolesGuard.canActivate (requiresAdmin : Bool) (user : CurrentUser) : Bool :=
  !requiresAdmin || user.rootAdmin

namespace AuthController

/-- The token `GET /auth/me` reads: the cookie, else the bearer header. -/
def meToken (c : Credentials) : Option String :=
  match truthy c.cookie with
  | some token => some token
  | none => truthy (stripBearer c.authorization)

def me (s : AuthState) (c : Credentials) : Except HttpException User := do
  let token ← orThrow (meToken c) (.unauthorized "No token provided")
  let payload ← orThrow (s.jwt.verify s.now token) (.unauthorized "Invalid or expired token")
  orThrow (AuthService.validateUser s payload.sub) (.unauthorized "User not found or disabled")

end AuthController

end Panel
