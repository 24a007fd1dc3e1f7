import NexusPanel.Foundation.Json
import NexusPanel.Foundation.Transition
import NexusPanel.Panel.Auth

/-!
# Who may change privileges

REST requests as they arrive: an endpoint, credentials and a body of any properties. Nest runs
the guards the endpoint declares, then the `ValidationPipe` over the class of its body, then
the handler. Whether a request can touch `rootAdmin` or `enabled` is decided by the three
together: by the role an endpoint asks for, by the properties its class declares, and by what
its handler copies into the row.

Of the other controllers, none writes users; they are one endpoint here. What the handlers ask
of other tables comes with the request.
-/

namespace Panel

open Transition Fallible

/-! ## The validation pipe -/

/-- What a decorator of `class-validator` asks of a property. -/
inductive Rule
  | isEmail
  | isString
  | isNotEmpty
  | minLength (n : Nat)
  | isBoolean
deriving DecidableEq, Repr

/-- A declared property; `@IsOptional()` lets it be absent or `null`. -/
structure Property where
  name : String
  optional : Bool
  rules : List Rule
deriving DecidableEq, Repr

/-- The classes of `auth/dto` and `users/dto`. -/
inductive DtoClass
  | loginDto
  | registerDto
  | twoFactorVerifyDto
  | twoFactorLoginDto
  | createUserDto
  | updateUserDto
  | updateProfileDto
deriving DecidableEq, Repr

def DtoClass.properties : DtoClass → List Property
  | loginDto =>
    [⟨"email", false, [.isEmail]⟩, ⟨"password", false, [.isString, .isNotEmpty]⟩,
      ⟨"twoFactorCode", true, [.isString]⟩]
  | registerDto =>
    [⟨"email", false, [.isEmail]⟩, ⟨"username", false, [.isString, .isNotEmpty, .minLength 3]⟩,
      ⟨"password", false, [.isString, .minLength 8]⟩]
  | twoFactorVerifyDto => [⟨"code", false, [.isString, .isNotEmpty]⟩]
  | twoFactorLoginDto =>
    [⟨"sessionToken", false, [.isString, .isNotEmpty]⟩, ⟨"code", false, [.isString, .isNotEmpty]⟩]
  | createUserDto =>
    [⟨"email", false, [.isEmail]⟩, ⟨"username", false, [.isString, .isNotEmpty, .minLength 3]⟩,
      ⟨"password", false, [.isString, .minLength 8]⟩, ⟨"rootAdmin", true, [.isBoolean]⟩]
  | updateUserDto =>
    [⟨"email", true, [.isEmail]⟩, ⟨"username", true, [.isString, .minLength 3]⟩,
      ⟨"password", true, [.isString, .minLength 8]⟩, ⟨"rootAdmin", true, [.isBoolean]⟩,
      ⟨"enabled", true, [.isBoolean]⟩]
  | updateProfileDto =>
    [⟨"email", true, [.isEmail]⟩, ⟨"username", true, [.isString, .minLength 3]⟩,
      ⟨"password", true, [.isString, .minLength 8]⟩, ⟨"avatarUrl", true, [.isString]⟩]

/-- The properties of a parsed body. -/
abbrev Body := List (String × Json.Value)

namespace Body

def string (body : Body) (name : String) : Option String :=
  match body.lookup name with
  | some (.str text) => some text
  | _ => none

def bool (body : Body) (name : String) : Option Bool :=
  match body.lookup name with
  | some (.bool b) => some b
  | _ => none

def isNull (body : Body) (name : String) : Bool :=
  match body.lookup name with
  | some .null => true
  | _ => false

/-- A property that the pipe has found to be there. -/
def required (body : Body) (name : String) : String := (body.string name).getD ""

end Body

namespace Rule

/-- `isEmail` is the pattern of the library. -/
def holds (isEmail : String → Bool) : Rule → Option Json.Value → Bool
  | .isEmail, some (.str text) => isEmail text
  | .isString, some (.str _) => true
  | .isNotEmpty, some (.str text) => text != ""
  | .isNotEmpty, some .null | .isNotEmpty, none => false
  | .isNotEmpty, some _ => true
  | .minLength n, some (.str text) => decide (n ≤ text.length)
  | .isBoolean, some (.bool _) => true
  | _, _ => false

def message (name : String) : Rule → String
  | .isEmail => s!"{name} must be an email"
  | .isString => s!"{name} must be a string"
  | .isNotEmpty => s!"{name} should not be empty"
  | .minLength n => s!"{name} must be longer than or equal to {n} characters"
  | .isBoolean => s!"{name} must be a boolean value"

end Rule

namespace ValidationPipe

variable (isEmail : String → Bool)

def propertyErrors (body : Body) (p : Property) : List String :=
  if p.optional && (body.isNull p.name || (body.lookup p.name).isNone) then []
  else (p.rules.filter fun rule => !rule.holds isEmail (body.lookup p.name)).map
    (Rule.message p.name)

/-- `whitelist` with `forbidNonWhitelisted`: a property that is not declared is an error. -/
def undeclared (dto : DtoClass) (body : Body) : List String :=
  (body.filter fun entry => !dto.properties.any fun p => p.name == entry.1).map
    fun entry => s!"property {entry.1} should not exist"

/-- The body as the handler gets it. The messages are a list in the response. -/
def transform (dto : DtoClass) (body : Body) : Except HttpException Body :=
  match undeclared dto body ++ dto.properties.flatMap (propertyErrors isEmail body) with
  | [] => .ok body
  | errors => .error (.badRequest (", ".intercalate errors))

variable {isEmail}

/-- Every property of a body that passes is declared. -/
theorem declared_of_transform {dto : DtoClass} {body body' : Body}
    (h : transform isEmail dto body = .ok body') :
    body' = body ∧ ∀ entry ∈ body, ∃ p ∈ dto.properties, p.name = entry.1 := by
  unfold transform at h
  split at h
  next herrors =>
    cases h
    obtain ⟨hundeclared, -⟩ := List.append_eq_nil_iff.mp herrors
    refine ⟨rfl, fun entry hentry => ?_⟩
    have hnone := List.filter_eq_nil_iff.mp (List.map_eq_nil_iff.mp hundeclared) entry hentry
    simpa using hnone
  next => cases h

/-- A property the class does not declare is absent. -/
theorem lookup_of_transform {dto : DtoClass} {body body' : Body}
    (h : transform isEmail dto body = .ok body') {name : String}
    (hname : ∀ p ∈ dto.properties, p.name ≠ name) : body'.lookup name = none := by
  obtain ⟨rfl, hdeclared⟩ := declared_of_transform h
  refine List.lookup_eq_none_iff.mpr fun entry hentry => ?_
  obtain ⟨p, hp, heq⟩ := hdeclared entry hentry
  rw [bne_iff_ne, ← heq]
  exact (hname p hp).symm

end ValidationPipe

/-! ## The administrator's own handlers -/

namespace AdminUsers

variable (crypto : Crypto)

def create (s : AuthState) (dto : CreateUserDto) (id salt : String) :
    Except HttpException (AuthState × User) := do
  require (s.users.findOne fun u => u.email == dto.email || u.username == dto.username).isNone
    (.badRequest "Email or username already exists")
  let user : User :=
    { id, email := dto.email, username := dto.username
      password := crypto.hash salt dto.password
      rootAdmin := dto.rootAdmin.getD false, usesTotp := false
      totpSecret := none, pendingTotpSecret := none, backupCodes := none
      enabled := true, avatarUrl := none, lastLogin := none
      createdAt := s.now, updatedAt := s.now }
  let users ← orThrow (s.users.insert user) (.internal "duplicate key")
  return ({ s with users }, user)

def update (s : AuthState) (id : String) (dto : UpdateUserDto) (salt : String) :
    Except HttpException (AuthState × User) := do
  let user ← orThrow (s.users.findOne fun u => u.id == id) (.badRequest "User not found")
  require (!UsersService.conflicts s User.email dto.email user)
    (.badRequest "Email already in use")
  require (!UsersService.conflicts s User.username dto.username user)
    (.badRequest "Username already in use")
  let saved := UsersService.assign crypto dto salt user s.now
  return ({ s with users := s.users.save saved }, saved)

/-- `serverCount` is the number of servers the user owns. -/
def delete (s : AuthState) (id : String) (serverCount : Nat) :
    Except HttpException AuthState := do
  let user ← orThrow (s.users.findOne fun u => u.id == id) (.badRequest "User not found")
  require (serverCount == 0) (.badRequest
    s!"Cannot delete user: {serverCount} server(s) are still owned by this user")
  return { s with
    users := s.users.delete fun u => u.id == user.id
    sessions := s.sessions.delete fun x => x.userId == user.id }

end AdminUsers

/-! ## Endpoints -/

/-- The handlers of `AuthController` without a guard. `other` stands for every other handler
without a guard. -/
inductive OpenEndpoint
  | register
  | login
  | refresh
  | verifyTwoFactorLogin
  | me
  | other
deriving DecidableEq, Repr

/-- The handlers behind `AuthGuard('jwt')` or `JwtAuthGuard`: of `AuthController`,
`UsersController`, `AdminUsersController` and `AdminController`. `other` stands for every other
guarded handler. -/
inductive GuardedEndpoint
  | logout
  | setupTwoFactor
  | verifyTwoFactor
  | disableTwoFactor
  | getSessions
  | revokeSession (id : String)
  | getMe
  | updateMe
  | findAll
  | findById (id : String)
  | create
  | update (id : String)
  | delete (id : String)
  | adminFindAll
  | adminFindById (id : String)
  | adminCreate
  | adminUpdate (id : String)
  | adminDelete (id : String)
  | getDashboard
  | impersonate (userId : String)
  | other (requiresAdmin : Bool)
deriving DecidableEq, Repr

/-- `reflector.getAllAndOverride('roles', [handler, class])`: `@Roles('admin')` on the handler,
or on the class as `AdminUsersController` and `AdminController` have it. -/
def GuardedEndpoint.roles : GuardedEndpoint → Bool
  | .findAll | .findById _ | .create | .update _ | .delete _ => true
  | .adminFindAll | .adminFindById _ | .adminCreate | .adminUpdate _ | .adminDelete _ => true
  | .getDashboard | .impersonate _ => true
  | .other requiresAdmin => requiresAdmin
  | _ => false

inductive Endpoint
  | open (endpoint : OpenEndpoint)
  | guarded (endpoint : GuardedEndpoint)
deriving DecidableEq, Repr

/-- The class of the `@Body()` parameter, when the handler has one. -/
def OpenEndpoint.dto : OpenEndpoint → Option DtoClass
  | .register => some .registerDto
  | .login => some .loginDto
  | .verifyTwoFactorLogin => some .twoFactorLoginDto
  | _ => none

def GuardedEndpoint.dto : GuardedEndpoint → Option DtoClass
  | .verifyTwoFactor | .disableTwoFactor => some .twoFactorVerifyDto
  | .updateMe => some .updateProfileDto
  | .create | .adminCreate => some .createUserDto
  | .update _ | .adminUpdate _ => some .updateUserDto
  | _ => none

/-- What a handler draws at random, and what it hears from tables that are not modelled here:
how many servers a user owns, and whether the database refuses to delete the user for the sake
of a row that would stay behind. -/
structure Drawn where
  id : String
  salt : String
  secret : String
  fresh : Fresh
  codes : Nat → String
  codeSalts : Nat → String
  serverCount : Nat
  pinned : Bool

structure HttpRequest where
  endpoint : Endpoint
  credentials : Credentials
  refreshToken : Option String
  body : Body
  ip : String
  userAgent : String
  drawn : Drawn
  elapsed : Nat

namespace Body

def registerDto (body : Body) : RegisterDto :=
  ⟨body.required "email", body.required "username", body.required "password"⟩

def loginDto (body : Body) : LoginDto := ⟨body.required "email", body.required "password"⟩

def createUserDto (body : Body) : CreateUserDto :=
  ⟨body.required "email", body.required "username", body.required "password",
    body.bool "rootAdmin"⟩

/-- `Object.assign(user, dto)` copies whatever the body has, whichever class it came through. -/
def updateUserDto (body : Body) : UpdateUserDto :=
  ⟨body.string "email", body.string "username", body.string "password", body.string "avatarUrl",
    body.bool "rootAdmin", body.bool "enabled"⟩

/-- A `null` in one of the columns that take none. -/
def nullInRow (body : Body) : Bool :=
  ["email", "username", "password", "rootAdmin", "enabled"].any body.isNull

end Body

/-- The row an update has saved, when the database takes it; a `null` clears the avatar. -/
def savedWith (body : Body) : AuthState × User → Except HttpException AuthState
  | (s, saved) => do
    require (!body.nullInRow) (.internal "null value violates not-null constraint")
    if body.isNull "avatarUrl" then
      return { s with users := s.users.save { saved with avatarUrl := none } }
    else
      return s

/-- A deletion, when the database does not refuse it. -/
def deletedUnless (pinned : Bool) (s : AuthState) : Except HttpException AuthState := do
  require (!pinned) (.internal "violates foreign key constraint")
  return s

namespace Endpoints

variable (crypto : Crypto) (isEmail : String → Bool)

def handleOpen (s : AuthState) (r : HttpRequest) (body : Body) :
    OpenEndpoint → Except HttpException AuthState
  | .register => do
    let (s', _) ← AuthService.register crypto s body.registerDto r.drawn.id r.drawn.salt
    return s'
  | .login => do
    let (s', _) ← AuthService.login crypto s body.loginDto r.ip r.userAgent r.drawn.fresh
    return s'
  | .refresh => do
    let token ← orThrow (truthy r.refreshToken) (.unauthorized "No refresh token provided")
    let (s', _) ← AuthService.refreshToken s token r.drawn.fresh.token
    return s'
  | .verifyTwoFactorLogin => do
    let (s', _) ← AuthService.verifyTwoFactorLogin crypto s (body.required "sessionToken")
      (body.required "code") r.ip r.userAgent r.drawn.fresh
    return s'
  | .me => do
    let _ ← AuthController.me s r.credentials
    return s
  | .other => .ok s

def handleGuarded (s : AuthState) (r : HttpRequest) (user : CurrentUser) (body : Body) :
    GuardedEndpoint → Except HttpException AuthState
  | .setupTwoFactor => do
    let (s', _) ← AuthService.setupTwoFactor s user.id r.drawn.secret
    return s'
  | .verifyTwoFactor => do
    let (s', _) ← AuthService.verifyTwoFactorSetup crypto s user.id (body.required "code")
      r.drawn.codes r.drawn.codeSalts
    return s'
  | .disableTwoFactor => do
    let (s', _) ← AuthService.disableTwoFactor crypto s user.id (body.required "code")
    return s'
  | .revokeSession id => AuthService.revokeSession s user.id id
  | .updateMe =>
    UsersService.update crypto s user.id body.updateUserDto r.drawn.salt >>= savedWith body
  | .create =>
    UsersService.create crypto s body.createUserDto r.drawn.id r.drawn.salt >>= savedWith body
  | .update id =>
    UsersService.update crypto s id body.updateUserDto r.drawn.salt >>= savedWith body
  | .delete id => UsersService.delete s id >>= deletedUnless r.drawn.pinned
  | .adminCreate =>
    AdminUsers.create crypto s body.createUserDto r.drawn.id r.drawn.salt >>=
      savedWith body
  | .adminUpdate id =>
    AdminUsers.update crypto s id body.updateUserDto r.drawn.salt >>= savedWith body
  | .adminDelete id =>
    AdminUsers.delete s id r.drawn.serverCount >>= deletedUnless r.drawn.pinned
  | .impersonate userId => do
    let (s', _) ← AdminService.impersonateUser s user.id userId r.drawn.fresh.token
    return s'
  | .logout | .getSessions | .getMe | .findAll | .findById _ | .adminFindAll | .adminFindById _
  | .getDashboard | .other _ => .ok s

/-- The pipe runs when the handler has a body. -/
def pipe (dto : Option DtoClass) (body : Body) : Except HttpException Body :=
  match dto with
  | some dto => ValidationPipe.transform isEmail dto body
  | none => .ok body

/-- Guards, then the pipe, then the handler. -/
def serve (s : AuthState) (r : HttpRequest) : Except HttpException AuthState :=
  match r.endpoint with
  | .open endpoint => do
    let body ← pipe isEmail endpoint.dto r.body
    handleOpen crypto s r body endpoint
  | .guarded endpoint => do
    let user ← JwtStrategy.authenticate s r.credentials
    require (RolesGuard.canActivate endpoint.roles user) (.forbidden "Forbidden resource")
    let body ← pipe isEmail endpoint.dto r.body
    handleGuarded crypto s r user body endpoint

/-- The database when the request arrives. -/
def arrival (s : AuthState) (r : HttpRequest) : AuthState := { s with now := s.now + r.elapsed }

/-- One completed request; one that throws changes nothing. -/
def step (s : AuthState) (r : HttpRequest) : Option AuthState :=
  match serve crypto isEmail (arrival s r) r with
  | .ok s' => some s'
  | .error _ => some (arrival s r)

end Endpoints

/-- The caller of the request is a root admin at that moment. -/
def byRootAdmin (s : AuthState) (r : HttpRequest) : Bool :=
  match JwtStrategy.authenticate (Endpoints.arrival s r) r.credentials with
  | .ok user => user.rootAdmin
  | .error _ => false

/-- The same users are root admins, and no user that was there has its flag changed. -/
structure SamePrivileges (s s' : AuthState) : Prop where
  admins : ∀ id, (∃ u ∈ s'.users, u.id = id ∧ u.rootAdmin = true) ↔
    ∃ u ∈ s.users, u.id = id ∧ u.rootAdmin = true
  enabled : ∀ u ∈ s.users, ∃ u' ∈ s'.users, u'.id = u.id ∧ u'.enabled = u.enabled

/-! ## Writes that leave the flags alone -/

/-- Every row is still there with its flags, and no root admin has come. -/
structure FlagsStay (users users' : Table User) : Prop where
  kept : ∀ u ∈ users, ∃ u' ∈ users',
    u'.id = u.id ∧ u'.rootAdmin = u.rootAdmin ∧ u'.enabled = u.enabled
  admins : ∀ u' ∈ users', u'.rootAdmin = true → ∃ u ∈ users, u.id = u'.id ∧ u.rootAdmin = true

section Flags

variable {users users' users'' : Table User} {row saved : User}

theorem FlagsStay.refl : FlagsStay users users :=
  ⟨fun u hu => ⟨u, hu, rfl, rfl, rfl⟩, fun u hu hadmin => ⟨u, hu, rfl, hadmin⟩⟩

theorem FlagsStay.trans (h : FlagsStay users users') (h' : FlagsStay users' users'') :
    FlagsStay users users'' := by
  constructor
  · intro u hu
    obtain ⟨v, hv, hid, hadmin, henabled⟩ := h.kept u hu
    obtain ⟨w, hw, hid', hadmin', henabled'⟩ := h'.kept v hv
    exact ⟨w, hw, hid'.trans hid, hadmin'.trans hadmin, henabled'.trans henabled⟩
  · intro w hw hadmin
    obtain ⟨v, hv, hid, hadmin⟩ := h'.admins w hw hadmin
    obtain ⟨u, hu, hid', hadmin⟩ := h.admins v hv hadmin
    exact ⟨u, hu, hid'.trans hid, hadmin⟩

/-- A row is written back with other columns changed. -/
theorem FlagsStay.save (hrow : row ∈ users) (hid : saved.id = row.id)
    (hadmin : saved.rootAdmin = row.rootAdmin) (henabled : saved.enabled = row.enabled) :
    FlagsStay users (users.save saved) := by
  constructor
  · intro u hu
    by_cases hsame : u.id = saved.id
    · cases Table.eq_of_key hu hrow (hsame.trans hid)
      exact ⟨saved, Table.mem_save.mpr (.inl rfl), hid, hadmin, henabled⟩
    · exact ⟨u, Table.mem_save.mpr (.inr ⟨hu, hsame⟩), rfl, rfl, rfl⟩
  · intro u hu hroot
    rcases Table.mem_save.mp hu with rfl | ⟨hu, -⟩
    · exact ⟨row, hrow, hid.symm, hadmin.symm.trans hroot⟩
    · exact ⟨u, hu, rfl, hroot⟩

/-- A new user is no root admin. -/
theorem FlagsStay.insert (h : users.insert row = some users') (hrow : row.rootAdmin = false) :
    FlagsStay users users' := by
  have hmem := (Table.insert_eq_some h).2
  constructor
  · intro u hu
    exact ⟨u, (hmem u).mpr (.inr hu), rfl, rfl, rfl⟩
  · intro u hu hroot
    rcases (hmem u).mp hu with rfl | hu
    · rw [hrow] at hroot
      cases hroot
    · exact ⟨u, hu, rfl, hroot⟩

/-- The time of a login. -/
theorem FlagsStay.update {p : User → Bool} {f : User → User}
    (hf : ∀ u, Keyed.key (f u) = Keyed.key u)
    (h : ∀ u, (f u).id = u.id ∧ (f u).rootAdmin = u.rootAdmin ∧ (f u).enabled = u.enabled) :
    FlagsStay users (users.update p f hf) := by
  have hrow : ∀ u : User, (if p u then f u else u).id = u.id ∧
      (if p u then f u else u).rootAdmin = u.rootAdmin ∧
      (if p u then f u else u).enabled = u.enabled := by
    intro u
    split
    · exact h u
    · exact ⟨rfl, rfl, rfl⟩
  constructor
  · exact fun u hu => ⟨_, (Table.mem_update hf).mpr ⟨u, hu, rfl⟩, hrow u⟩
  · intro u' hu' hroot
    obtain ⟨u, hu, rfl⟩ := (Table.mem_update hf).mp hu'
    exact ⟨u, hu, (hrow u).1.symm, (hrow u).2.1.symm.trans hroot⟩

theorem FlagsStay.samePrivileges {s s' : AuthState} (h : FlagsStay s.users s'.users) :
    SamePrivileges s s' := by
  constructor
  · intro id
    constructor
    · rintro ⟨u', hu', rfl, hroot⟩
      exact h.admins u' hu' hroot
    · rintro ⟨u, hu, rfl, hroot⟩
      obtain ⟨u', hu', hid, hadmin, -⟩ := h.kept u hu
      exact ⟨u', hu', hid, hadmin.trans hroot⟩
  · intro u hu
    obtain ⟨u', hu', hid, -, henabled⟩ := h.kept u hu
    exact ⟨u', hu', hid, henabled⟩

theorem SamePrivileges.refl {s : AuthState} : SamePrivileges s s :=
  FlagsStay.samePrivileges .refl

theorem SamePrivileges.trans {s s' s'' : AuthState} (h : SamePrivileges s s')
    (h' : SamePrivileges s' s'') : SamePrivileges s s'' := by
  refine ⟨fun id => (h'.admins id).trans (h.admins id), fun u hu => ?_⟩
  obtain ⟨v, hv, hid, henabled⟩ := h.enabled u hu
  obtain ⟨w, hw, hid', henabled'⟩ := h'.enabled v hv
  exact ⟨w, hw, hid'.trans hid, henabled'.trans henabled⟩

end Flags

/-! ## The handlers -/

section Handlers

variable {crypto : Crypto} {s s' : AuthState}

namespace AuthService

theorem register_flags {dto : RegisterDto} {id salt : String} {user : User}
    (h : register crypto s dto id salt = .ok (s', user)) : FlagsStay s.users s'.users := by
  simp only [register, bind_eq_ok, orThrow_eq_ok, pure_eq_ok, Prod.mk.injEq] at h
  obtain ⟨-, -, users, hins, rfl, -⟩ := h
  exact .insert hins rfl

theorem openSession_flags {user : User} {ip userAgent : String} {fresh : Fresh}
    {result : LoginResult} (h : openSession s user ip userAgent fresh = .ok (s', result)) :
    FlagsStay s.users s'.users := by
  simp only [openSession, bind_eq_ok, pure_eq_ok, Prod.mk.injEq] at h
  obtain ⟨-, -, -, -, rfl, -⟩ := h
  refine FlagsStay.update ?_ fun _ => ⟨rfl, rfl, rfl⟩
  exact fun _ => rfl

theorem login_flags {dto : LoginDto} {ip userAgent : String} {fresh : Fresh}
    {result : LoginResult} (h : login crypto s dto ip userAgent fresh = .ok (s', result)) :
    FlagsStay s.users s'.users := by
  simp only [login, bind_eq_ok] at h
  obtain ⟨user, -, -, -, -, -, h⟩ := h
  split at h
  · simp only [bind_eq_ok, pure_eq_ok, Prod.mk.injEq] at h
    obtain ⟨-, -, rfl, -⟩ := h
    exact .refl
  · exact openSession_flags h

theorem refreshToken_flags {token accessToken : String} {session : Session}
    (h : refreshToken s token accessToken = .ok (s', session)) : FlagsStay s.users s'.users := by
  simp only [refreshToken, bind_eq_ok, pure_eq_ok, Prod.mk.injEq] at h
  obtain ⟨-, -, -, -, -, -, -, -, rfl, -⟩ := h
  exact .refl

theorem setupTwoFactor_flags {userId secret answer : String}
    (h : setupTwoFactor s userId secret = .ok (s', answer)) : FlagsStay s.users s'.users := by
  simp only [setupTwoFactor, bind_eq_ok, orThrow_eq_ok, pure_eq_ok, Prod.mk.injEq] at h
  obtain ⟨user, huser, -, -, rfl, -⟩ := h
  exact .save (Table.findOne_mem huser) rfl rfl rfl

theorem verifyTwoFactorSetup_flags {userId code : String} {random salt : Nat → String}
    {codes : List String}
    (h : verifyTwoFactorSetup crypto s userId code random salt = .ok (s', codes)) :
    FlagsStay s.users s'.users := by
  simp only [verifyTwoFactorSetup, bind_eq_ok, orThrow_eq_ok, pure_eq_ok, Prod.mk.injEq] at h
  obtain ⟨user, huser, -, -, -, -, rfl, -⟩ := h
  exact .save (Table.findOne_mem huser) rfl rfl rfl

theorem disableTwoFactor_flags {userId code answer : String}
    (h : disableTwoFactor crypto s userId code = .ok (s', answer)) :
    FlagsStay s.users s'.users := by
  simp only [disableTwoFactor, bind_eq_ok, orThrow_eq_ok, pure_eq_ok, Prod.mk.injEq] at h
  obtain ⟨user, huser, -, -, -, -, -, -, rfl, -⟩ := h
  exact .save (Table.findOne_mem huser) rfl rfl rfl

theorem checkSecondFactor_flags {user : User} {secret code : String} {users : Table User}
    (huser : user ∈ s.users) (h : checkSecondFactor crypto s user secret code = .ok users) :
    FlagsStay s.users users := by
  unfold checkSecondFactor at h
  split at h
  · cases h
    exact .refl
  · split at h
    · cases h
      exact .save huser rfl rfl rfl
    · cases h

theorem verifyTwoFactorLogin_flags {sessionToken code ip userAgent : String} {fresh : Fresh}
    {result : LoginResult}
    (h : verifyTwoFactorLogin crypto s sessionToken code ip userAgent fresh = .ok (s', result)) :
    FlagsStay s.users s'.users := by
  simp only [verifyTwoFactorLogin, bind_eq_ok, orThrow_eq_ok] at h
  obtain ⟨payload, -, -, -, user, huser, -, -, secret, -, users, hcheck, h⟩ := h
  exact (checkSecondFactor_flags (Table.findOne_mem huser) hcheck).trans (openSession_flags h)

theorem revokeSession_flags {userId sessionId : String}
    (h : revokeSession s userId sessionId = .ok s') : FlagsStay s.users s'.users := by
  simp only [revokeSession, bind_eq_ok, pure_eq_ok] at h
  obtain ⟨-, -, rfl⟩ := h
  exact .refl

end AuthService

/-- An update that sets neither flag. -/
theorem UsersService.update_flags {id : String} {dto : UpdateUserDto} {salt : String} {user : User}
    (hadmin : dto.rootAdmin = none) (henabled : dto.enabled = none)
    (h : update crypto s id dto salt = .ok (s', user)) :
    FlagsStay s.users s'.users ∧ user ∈ s'.users := by
  simp only [update, bind_eq_ok, orThrow_eq_ok, pure_eq_ok, Prod.mk.injEq] at h
  obtain ⟨row, hrow, -, -, -, -, rfl, rfl⟩ := h
  refine ⟨.save (Table.findOne_mem hrow) rfl ?_ ?_, Table.mem_save.mpr (.inl rfl)⟩
  · simp only [assign, hadmin, Option.getD_none]
  · simp only [assign, henabled, Option.getD_none]

theorem savedWith_flags {body : Body} {user : User} (huser : user ∈ s.users)
    (h : savedWith body (s, user) = .ok s') : FlagsStay s.users s'.users := by
  simp only [savedWith, bind_eq_ok] at h
  obtain ⟨-, -, h⟩ := h
  split at h
  · cases h
    exact .save huser rfl rfl rfl
  · cases h
    exact .refl

end Handlers

namespace Endpoints

section Step

variable {crypto : Crypto} {isEmail : String → Bool} {s s' : AuthState} {r : HttpRequest}
  {body : Body}

/-- The flags are not among the properties of a profile update. -/
theorem updateUserDto_of_profile (h : pipe isEmail (some .updateProfileDto) r.body = .ok body) :
    body.updateUserDto.rootAdmin = none ∧ body.updateUserDto.enabled = none := by
  have hadmin : body.lookup "rootAdmin" = none :=
    ValidationPipe.lookup_of_transform h (by decide)
  have henabled : body.lookup "enabled" = none :=
    ValidationPipe.lookup_of_transform h (by decide)
  simp only [Body.updateUserDto, Body.bool, hadmin, henabled, and_self]

theorem handleOpen_flags {endpoint : OpenEndpoint}
    (h : handleOpen crypto s r body endpoint = .ok s') : FlagsStay s.users s'.users := by
  cases endpoint with
  | register =>
    simp only [handleOpen, bind_eq_ok, pure_eq_ok] at h
    obtain ⟨⟨s₁, user⟩, hcall, rfl⟩ := h
    exact AuthService.register_flags hcall
  | login =>
    simp only [handleOpen, bind_eq_ok, pure_eq_ok] at h
    obtain ⟨⟨s₁, result⟩, hcall, rfl⟩ := h
    exact AuthService.login_flags hcall
  | refresh =>
    simp only [handleOpen, bind_eq_ok, pure_eq_ok] at h
    obtain ⟨token, -, ⟨s₁, session⟩, hcall, rfl⟩ := h
    exact AuthService.refreshToken_flags hcall
  | verifyTwoFactorLogin =>
    simp only [handleOpen, bind_eq_ok, pure_eq_ok] at h
    obtain ⟨⟨s₁, result⟩, hcall, rfl⟩ := h
    exact AuthService.verifyTwoFactorLogin_flags hcall
  | me =>
    simp only [handleOpen, bind_eq_ok, pure_eq_ok] at h
    obtain ⟨-, -, rfl⟩ := h
    exact .refl
  | other =>
    cases h
    exact .refl

/-- The handlers that ask for no role, on a body that has passed the pipe. -/
theorem handleGuarded_flags {endpoint : GuardedEndpoint} {user : CurrentUser}
    (hroles : endpoint.roles = false) (hpipe : pipe isEmail endpoint.dto r.body = .ok body)
    (h : handleGuarded crypto s r user body endpoint = .ok s') :
    FlagsStay s.users s'.users := by
  cases endpoint with
  | setupTwoFactor =>
    simp only [handleGuarded, bind_eq_ok, pure_eq_ok] at h
    obtain ⟨⟨s₁, answer⟩, hcall, rfl⟩ := h
    exact AuthService.setupTwoFactor_flags hcall
  | verifyTwoFactor =>
    simp only [handleGuarded, bind_eq_ok, pure_eq_ok] at h
    obtain ⟨⟨s₁, codes⟩, hcall, rfl⟩ := h
    exact AuthService.verifyTwoFactorSetup_flags hcall
  | disableTwoFactor =>
    simp only [handleGuarded, bind_eq_ok, pure_eq_ok] at h
    obtain ⟨⟨s₁, answer⟩, hcall, rfl⟩ := h
    exact AuthService.disableTwoFactor_flags hcall
  | revokeSession id => exact AuthService.revokeSession_flags h
  | updateMe =>
    simp only [handleGuarded, bind_eq_ok] at h
    obtain ⟨⟨s₁, saved⟩, hcall, h⟩ := h
    obtain ⟨hadmin, henabled⟩ := updateUserDto_of_profile hpipe
    obtain ⟨hflags, hmem⟩ := UsersService.update_flags hadmin henabled hcall
    exact hflags.trans (savedWith_flags hmem h)
  | logout | getSessions | getMe | other requiresAdmin =>
    cases h
    exact .refl
  | _ => cases hroles

/-- A request of anybody else leaves the privileges as they are. -/
theorem step_samePrivileges (hcaller : byRootAdmin s r = false)
    (h : step crypto isEmail s r = some s') : SamePrivileges s s' := by
  unfold step at h
  split at h
  next s₁ hserve =>
    cases h
    refine FlagsStay.samePrivileges ?_
    show FlagsStay (arrival s r).users s'.users
    unfold serve at hserve
    split at hserve
    next endpoint _ =>
      simp only [bind_eq_ok] at hserve
      obtain ⟨body, -, hserve⟩ := hserve
      exact handleOpen_flags hserve
    next endpoint _ =>
      simp only [bind_eq_ok, require_eq_ok] at hserve
      obtain ⟨user, huser, -, hcan, body, hpipe, hserve⟩ := hserve
      cases hroles : endpoint.roles with
      | false => exact handleGuarded_flags hroles hpipe hserve
      | true =>
        -- a caller that gets through to a handler with a role is a root admin
        rw [RolesGuard.canActivate, hroles] at hcan
        simp only [byRootAdmin, huser] at hcaller
        rw [hcaller] at hcan
        cases hcan
  next =>
    cases h
    exact FlagsStay.samePrivileges .refl

/-- A sequence of such requests. -/
theorem run_samePrivileges {requests : List HttpRequest}
    (hcallers : Along (step crypto isEmail) (fun s r => byRootAdmin s r = false) s requests)
    (h : run (step crypto isEmail) s requests = some s') : SamePrivileges s s' := by
  induction requests generalizing s with
  | nil =>
    cases h
    exact .refl
  | cons r requests ih =>
    obtain ⟨s₁, hstep, hrest⟩ := run_cons_eq_some.mp h
    exact (step_samePrivileges hcallers.1 hstep).trans (ih (hcallers.2 s₁ hstep) hrest)

end Step

end Endpoints

/-- For every database and every sequence of completed requests: each request that changes who
is a root admin, or the flag of a user that was there, is made by a root admin; and when no
request is, the privileges at the end are those at the beginning. -/
theorem privileges_changed_by_rootAdmins (crypto : Crypto) (isEmail : String → Bool)
    (s : AuthState) (requests : List HttpRequest) :
    Along (Endpoints.step crypto isEmail)
      (fun s r => ∀ s', Endpoints.step crypto isEmail s r = some s' → ¬ SamePrivileges s s' →
        byRootAdmin s r = true) s requests ∧
    (Along (Endpoints.step crypto isEmail) (fun s r => byRootAdmin s r = false) s requests →
      ∀ s', run (Endpoints.step crypto isEmail) s requests = some s' → SamePrivileges s s') := by
  refine ⟨along_of_forall fun r _ s s' hstep hchanged => ?_, fun hcallers s' hrun => ?_⟩
  · cases hcaller : byRootAdmin s r with
    | true => rfl
    | false => exact absurd (Endpoints.step_samePrivileges hcaller hstep) hchanged
  · exact Endpoints.run_samePrivileges hcallers hrun

section Example

/-- Alice is logged in, and so is an administrator. -/
def aliceAmongAdmins : AuthState where
  users := ⟨[.withDefaults "alice" "alice@nexus.local" "alice" "password",
    { User.withDefaults "admin" "admin@nexus.local" "admin" "changeme" with rootAdmin := true }],
    by decide⟩
  sessions := .empty
  jwt := .single ⟨"access", .access "alice" "alice@nexus.local" false, 900⟩
  now := 0

/-- A request with Alice's token. -/
def requestOfAlice (endpoint : Endpoint) (body : Body) : HttpRequest where
  endpoint := endpoint
  credentials := ⟨some "access", none⟩
  refreshToken := none
  body := body
  ip := "127.0.0.1"
  userAgent := "browser"
  drawn := ⟨"id", "salt", "secret", ⟨"token", "refresh", "session"⟩, toString, toString, 0, false⟩
  elapsed := 1

/-- She asks to be an administrator in her profile, tries the administrator's own routes, and
changes her name. -/
def attemptsOfAlice : List HttpRequest :=
  [requestOfAlice (.guarded .updateMe) [("rootAdmin", .bool true)],
    requestOfAlice (.guarded (.adminUpdate "alice")) [("rootAdmin", .bool true)],
    requestOfAlice (.guarded (.delete "admin")) [],
    requestOfAlice (.guarded .updateMe) [("username", .str "alicia")]]

theorem privileges_changed_by_rootAdmins_alice :
    ∃ s', run (Endpoints.step .plain fun _ => true) aliceAmongAdmins attemptsOfAlice = some s' ∧
      SamePrivileges aliceAmongAdmins s' :=
  ⟨_, rfl, (privileges_changed_by_rootAdmins .plain (fun _ => true) aliceAmongAdmins
    attemptsOfAlice).2 (by decide +kernel) _ rfl⟩

end Example

end Panel
