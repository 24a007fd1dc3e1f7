import NexusPanel.Panel.Requests

/-!
# Two-factor authentication and the provenance of tokens

Four places accept a token: the passport strategy behind the guards, `GET /auth/me`, the
cookie path of the gateway and its `auth` message. None of them looks at the `purpose` of
the payload, and the token that `login` issues between the two factors is signed with the
same key as an access token. So the password alone is enough to be admitted.

That is the only hole. `Descends` says which tokens may stand for a user with two factors:
those of a completed second factor, those of a session opened before the second factor was
switched on, those of an impersonation, and those obtained with the refresh token of such a
session. Over every run, the tokens users with two factors are admitted with all descend in
this way if and only if none of them is the token between the factors.

The proof follows every signed token back to the log: `Effect` is the one inversion of all
requests, `Inv` what the log says about the database, and every request keeps it.
-/

namespace Panel

open Fallible Transition

/-! ## Sessions and their second factor -/

/-- A TOTP code of the user, or one of the backup codes stored for it. -/
def VerifiedFactor (crypto : Crypto) (user : User) (code : String) (time : Nat) : Prop :=
  (∃ secret, user.totpSecret = some secret ∧ crypto.totpVerify code secret time = true) ∨
  ∃ codes, user.backupCodes = some codes ∧ ∃ h ∈ codes, crypto.compare code h = true

/-- The session with these tokens was opened by a second factor that was verified, or by a
password before the second factor was switched on. The log has its newest entry first. -/
def OpenedRightly (crypto : Crypto) (log : List Event)
    (userId accessToken refreshToken : String) : Prop :=
  [.twoFactorEnabled userId, .passwordLogin userId accessToken refreshToken].Sublist log ∨
  ∃ user code time, .secondFactorLogin user code time accessToken refreshToken ∈ log ∧
    user.id = userId ∧ VerifiedFactor crypto user code time

/-- The access tokens that may stand for a user with two factors. -/
inductive Descends (crypto : Crypto) (log : List Event) (userId : String) : String → Prop
  | login {accessToken refreshToken : String} :
      OpenedRightly crypto log userId accessToken refreshToken →
      Descends crypto log userId accessToken
  | refresh {first refreshToken accessToken : String} :
      OpenedRightly crypto log userId first refreshToken →
      .refreshed userId refreshToken accessToken ∈ log →
      Descends crypto log userId accessToken
  | impersonation {adminId accessToken : String} :
      .impersonated adminId userId accessToken ∈ log →
      Descends crypto log userId accessToken

/-- The user has two factors switched on. -/
def UsesTotp (s : PanelState) (userId : String) : Prop :=
  ∃ user ∈ s.auth.users, user.id = userId ∧ user.usesTotp = true

/-- Whoever is admitted as a user with two factors presents a token that descends from
them. -/
def TwoFactorHeld (crypto : Crypto) (s : PanelState) (r : Request) : Prop :=
  ∀ userId token, Requests.admits s r = some (userId, token) → UsesTotp s userId →
    Descends crypto s.log userId token

/-- The token presented for a user with two factors is not the one `login` issues between
the factors. -/
def NoChallengePresented (s : PanelState) (r : Request) : Prop :=
  ∀ userId token, Requests.admits s r = some (userId, token) → UsesTotp s userId →
    ∀ payload, s.auth.jwt.verify s.auth.now token = some payload →
      payload.purpose ≠ some "two-factor"

/-! ## What one request does -/

/-- The user and the access token an event brought into the world. -/
def Event.mints : Event → Option (String × String)
  | .passwordLogin userId accessToken _ => some (userId, accessToken)
  | .secondFactorLogin user _ _ accessToken _ => some (user.id, accessToken)
  | .refreshed userId _ accessToken => some (userId, accessToken)
  | .impersonated _ userId accessToken => some (userId, accessToken)
  | .twoFactorEnabled _ => none

/-- The user and the refresh token of the session an event opened. -/
def Event.opens : Event → Option (String × String)
  | .passwordLogin userId _ refreshToken => some (userId, refreshToken)
  | .secondFactorLogin user _ _ _ refreshToken => some (user.id, refreshToken)
  | _ => none

/-- The token is signed and is not a token between the factors. -/
def AccessIssued (s : AuthState) (token : String) : Prop :=
  ∃ t ∈ s.jwt.issued, t.token = token ∧ t.payload.purpose = none

/-- Nobody with this id has two factors. -/
def NoTotp (s : AuthState) (userId : String) : Prop :=
  ∀ user ∈ s.users, user.id = userId → user.usesTotp = false

/-- What an event says about the database before and after it. -/
def Event.Sound (crypto : Crypto) (s s' : AuthState) : Event → Prop
  | .passwordLogin userId accessToken _ => NoTotp s' userId ∧ AccessIssued s' accessToken
  | .secondFactorLogin user code time accessToken _ =>
    VerifiedFactor crypto user code time ∧ AccessIssued s' accessToken
  | .refreshed userId refreshToken accessToken =>
    (∃ x ∈ s.sessions, x.userId = userId ∧ x.refreshToken = refreshToken) ∧
      AccessIssued s' accessToken
  | .impersonated _ _ accessToken => AccessIssued s' accessToken
  | .twoFactorEnabled _ => True

/-- Users keep their ids and nobody gains a second factor without an event. -/
def UsersFrom (s s' : AuthState) (event : Option Event) : Prop :=
  ∀ user ∈ s'.users, user.usesTotp = true →
    (∃ old ∈ s.users, old.id = user.id ∧ old.usesTotp = true) ∨
      event = some (.twoFactorEnabled user.id)

/-- Sessions keep their user and refresh token and none is opened without an event. -/
def SessionsFrom (s s' : AuthState) (event : Option Event) : Prop :=
  ∀ x ∈ s'.sessions, (∃ old ∈ s.sessions, old.userId = x.userId ∧
      old.refreshToken = x.refreshToken) ∨
    ∃ e ∈ event, e.opens = some (x.userId, x.refreshToken)

/-- What a request can do to the database, and how its event accounts for it. -/
structure Effect (crypto : Crypto) (s s' : AuthState) (event : Option Event) : Prop where
  users : UsersFrom s s' event
  sessions : SessionsFrom s s' event
  issued : ∀ t ∈ s'.jwt.issued, t ∈ s.jwt.issued ∨ t.payload.purpose = some "two-factor" ∨
    ∃ e ∈ event, e.mints = some (t.payload.sub, t.token)
  kept : ∀ t ∈ s.jwt.issued, t ∈ s'.jwt.issued
  sound : ∀ e ∈ event, e.Sound crypto s s'

section Effects

variable {crypto : Crypto} {s s' : AuthState}

theorem UsersFrom.refl (event : Option Event) (h : s'.users = s.users) :
    UsersFrom s s' event := by
  intro user hu htotp
  rw [h] at hu
  exact .inl ⟨user, hu, rfl, htotp⟩

theorem SessionsFrom.refl (event : Option Event) (h : s'.sessions = s.sessions) :
    SessionsFrom s s' event := by
  intro x hx
  rw [h] at hx
  exact .inl ⟨x, hx, rfl, rfl⟩

/-- A row saved over the row of the same user, without switching two factors on. -/
theorem UsersFrom.save {user saved : User} {event : Option Event} (hmem : user ∈ s.users)
    (h : s'.users = s.users.save saved) (hid : saved.id = user.id)
    (htotp : saved.usesTotp = true → user.usesTotp = true) : UsersFrom s s' event := by
  intro u hu hut
  rw [h, Table.mem_save] at hu
  rcases hu with rfl | ⟨hu, -⟩
  · exact .inl ⟨user, hmem, hid.symm, htotp hut⟩
  · exact .inl ⟨u, hu, rfl, hut⟩

theorem UsersFrom.insert {new : User} {event : Option Event} (hnew : new.usesTotp = false)
    (h : s.users.insert new = some s'.users) : UsersFrom s s' event := by
  intro u hu hut
  rcases ((Table.insert_eq_some h).2 u).mp hu with rfl | hu
  · rw [hnew] at hut
    cases hut
  · exact .inl ⟨u, hu, rfl, hut⟩

/-- A request that signs nothing. -/
theorem Effect.unsigned {event : Option Event} (husers : UsersFrom s s' event)
    (hsessions : SessionsFrom s s' event) (hjwt : s'.jwt = s.jwt)
    (hsound : ∀ e ∈ event, e.Sound crypto s s') : Effect crypto s s' event where
  users := husers
  sessions := hsessions
  issued := by
    intro t ht
    rw [hjwt] at ht
    exact .inl ht
  kept := by
    intro t ht
    rw [hjwt]
    exact ht
  sound := hsound

/-- A request that signs one token. -/
theorem Effect.signed {event : Option Event} {token : String} {payload : JwtPayload}
    {exp : Nat} (hsign : s.jwt.sign token payload exp = some s'.jwt)
    (husers : UsersFrom s s' event) (hsessions : SessionsFrom s s' event)
    (hnew : payload.purpose = some "two-factor" ∨
      ∃ e ∈ event, e.mints = some (payload.sub, token))
    (hsound : ∀ e ∈ event, e.Sound crypto s s') : Effect crypto s s' event where
  users := husers
  sessions := hsessions
  issued := by
    intro t ht
    rcases (JwtService.sign_eq_some hsign t).mp ht with rfl | ht
    · exact .inr hnew
    · exact .inl ht
  kept := fun t ht => (JwtService.sign_eq_some hsign t).mpr (.inr ht)
  sound := hsound

theorem accessIssued_of_sign {token : String} {payload : JwtPayload} {exp : Nat}
    (hsign : s.jwt.sign token payload exp = some s'.jwt) (hp : payload.purpose = none) :
    AccessIssued s' token :=
  ⟨_, (JwtService.sign_eq_some hsign _).mpr (.inl rfl), rfl, hp⟩

theorem register_effect {dto : RegisterDto} {id salt : String} {u : User}
    (h : AuthService.register crypto s dto id salt = .ok (s', u)) : Effect crypto s s' none := by
  simp only [AuthService.register, bind_eq_ok, orThrow_eq_ok, require_eq_ok, pure_eq_ok,
    Prod.mk.injEq] at h
  obtain ⟨-, -, users, hins, rfl, -⟩ := h
  exact .unsigned (.insert rfl hins) (.refl _ rfl) rfl (fun e he => by cases he)

theorem create_effect {dto : CreateUserDto} {id salt : String} {u : User}
    (h : UsersService.create crypto s dto id salt = .ok (s', u)) : Effect crypto s s' none := by
  simp only [UsersService.create, bind_eq_ok, orThrow_eq_ok, require_eq_ok, pure_eq_ok,
    Prod.mk.injEq] at h
  obtain ⟨-, -, users, hins, rfl, -⟩ := h
  exact .unsigned (.insert rfl hins) (.refl _ rfl) rfl (fun e he => by cases he)

theorem update_effect {id salt : String} {dto : UpdateUserDto} {u : User}
    (h : UsersService.update crypto s id dto salt = .ok (s', u)) : Effect crypto s s' none := by
  simp only [UsersService.update, bind_eq_ok, orThrow_eq_ok, require_eq_ok, pure_eq_ok,
    Prod.mk.injEq] at h
  obtain ⟨user, huser, -, -, -, -, rfl, -⟩ := h
  exact .unsigned (.save (Table.findOne_mem huser) rfl rfl fun h => h) (.refl _ rfl) rfl
    (fun e he => by cases he)

theorem delete_effect {id : String} (h : UsersService.delete s id = .ok s') :
    Effect crypto s s' none := by
  simp only [UsersService.delete, bind_eq_ok, orThrow_eq_ok, pure_eq_ok] at h
  obtain ⟨user, -, rfl⟩ := h
  refine .unsigned ?_ ?_ rfl (fun e he => by cases he)
  · intro u hu hut
    exact .inl ⟨u, (Table.mem_delete.mp hu).1, rfl, hut⟩
  · intro x hx
    exact .inl ⟨x, (Table.mem_delete.mp hx).1, rfl, rfl⟩

theorem setupTwoFactor_effect {userId secret r : String}
    (h : AuthService.setupTwoFactor s userId secret = .ok (s', r)) :
    Effect crypto s s' none := by
  simp only [AuthService.setupTwoFactor, bind_eq_ok, orThrow_eq_ok, require_eq_ok, pure_eq_ok,
    Prod.mk.injEq] at h
  obtain ⟨user, huser, -, -, rfl, -⟩ := h
  exact .unsigned (.save (Table.findOne_mem huser) rfl rfl fun h => h) (.refl _ rfl) rfl
    (fun e he => by cases he)

theorem verifyTwoFactorSetup_effect {userId code : String} {random salt : Nat → String}
    {codes : List String}
    (h : AuthService.verifyTwoFactorSetup crypto s userId code random salt = .ok (s', codes)) :
    Effect crypto s s' (some (.twoFactorEnabled userId)) := by
  simp only [AuthService.verifyTwoFactorSetup, bind_eq_ok, orThrow_eq_ok, require_eq_ok,
    pure_eq_ok, Prod.mk.injEq] at h
  obtain ⟨user, huser, pending, -, -, -, rfl, -⟩ := h
  refine .unsigned ?_ (.refl _ rfl) rfl (fun e he => by cases he; trivial)
  intro u hu hut
  rcases Table.mem_save.mp hu with rfl | ⟨hu, -⟩
  · have hid := Table.findOne_sat huser
    rw [beq_iff_eq] at hid
    exact .inr (by rw [hid])
  · exact .inl ⟨u, hu, rfl, hut⟩

theorem disableTwoFactor_effect {userId code r : String}
    (h : AuthService.disableTwoFactor crypto s userId code = .ok (s', r)) :
    Effect crypto s s' none := by
  simp only [AuthService.disableTwoFactor, bind_eq_ok, orThrow_eq_ok, require_eq_ok, pure_eq_ok,
    Prod.mk.injEq] at h
  obtain ⟨user, huser, -, htotp, -, -, -, -, rfl, -⟩ := h
  exact .unsigned (.save (Table.findOne_mem huser) rfl rfl fun _ => htotp) (.refl _ rfl) rfl
    (fun e he => by cases he)

theorem revokeSession_effect {userId sessionId : String}
    (h : AuthService.revokeSession s userId sessionId = .ok s') : Effect crypto s s' none := by
  simp only [AuthService.revokeSession, bind_eq_ok, orThrow_eq_ok, pure_eq_ok] at h
  obtain ⟨session, hsession, rfl⟩ := h
  refine .unsigned (.refl _ rfl) ?_ rfl (fun e he => by cases he)
  intro x hx
  rcases Table.mem_save.mp hx with rfl | ⟨hx, -⟩
  · exact .inl ⟨session, Table.findOne_mem hsession, rfl, rfl⟩
  · exact .inl ⟨x, hx, rfl, rfl⟩

theorem impersonateUser_effect {adminId targetUserId token r : String}
    (h : AdminService.impersonateUser s adminId targetUserId token = .ok (s', r)) :
    Effect crypto s s' (some (.impersonated adminId targetUserId token)) := by
  simp only [AdminService.impersonateUser, bind_eq_ok, orThrow_eq_ok, pure_eq_ok,
    Prod.mk.injEq] at h
  obtain ⟨target, htarget, jwt, hsign, rfl, -⟩ := h
  have hid := Table.findOne_sat htarget
  rw [beq_iff_eq] at hid
  refine .signed hsign (.refl _ rfl) (.refl _ rfl) (.inr ⟨_, rfl, ?_⟩) ?_
  · rw [← hid]
    rfl
  · intro e he
    cases he
    exact accessIssued_of_sign hsign rfl

theorem refreshToken_effect {token accessToken : String} {session : Session}
    (h : AuthService.refreshToken s token accessToken = .ok (s', session)) :
    Effect crypto s s' (some (.refreshed session.userId token accessToken)) := by
  simp only [AuthService.refreshToken, bind_eq_ok, orThrow_eq_ok, require_eq_ok, pure_eq_ok,
    Prod.mk.injEq] at h
  obtain ⟨session, hsession, user, huser, -, -, jwt, hsign, rfl, rfl⟩ := h
  have hid := Table.findOne_sat huser
  rw [beq_iff_eq] at hid
  have hmem := Table.findOne_mem hsession
  have htoken := Table.findOne_sat hsession
  simp only [Bool.and_eq_true, beq_iff_eq] at htoken
  refine .signed hsign (.refl _ rfl) ?_ (.inr ⟨_, rfl, ?_⟩) ?_
  · intro x hx
    rcases Table.mem_save.mp hx with rfl | ⟨hx, -⟩
    · exact .inl ⟨session, hmem, rfl, rfl⟩
    · exact .inl ⟨x, hx, rfl, rfl⟩
  · rw [← hid]
    rfl
  · intro e he
    cases he
    exact ⟨⟨session, hmem, rfl, htoken.1⟩, accessIssued_of_sign hsign rfl⟩

/-- Opening a session: one session and one access token for the user, and nothing else but
the time of the login in the user's row. -/
theorem openSession_spec {user : User} {ip userAgent : String} {fresh : Fresh}
    {result : LoginResult}
    (h : AuthService.openSession s user ip userAgent fresh = .ok (s', result)) :
    result = .loggedIn fresh.token fresh.refreshToken user.summary ∧
    (∃ payload, payload.sub = user.id ∧ payload.purpose = none ∧
      s.jwt.sign fresh.token payload (s.now + 900) = some s'.jwt) ∧
    (∀ u ∈ s'.users, ∃ old ∈ s.users, old.id = u.id ∧ old.usesTotp = u.usesTotp) ∧
    ∀ x ∈ s'.sessions,
      x.userId = user.id ∧ x.refreshToken = fresh.refreshToken ∨ x ∈ s.sessions := by
  simp only [AuthService.openSession, bind_eq_ok, orThrow_eq_ok, pure_eq_ok,
    Prod.mk.injEq] at h
  obtain ⟨jwt, hsign, sessions, hins, rfl, rfl⟩ := h
  refine ⟨rfl, ⟨_, rfl, rfl, hsign⟩, ?_, ?_⟩
  · intro u hu
    obtain ⟨old, hold, rfl⟩ := (Table.mem_update).mp hu
    refine ⟨old, hold, ?_⟩
    split <;> exact ⟨rfl, rfl⟩
  · intro x hx
    rcases ((Table.insert_eq_some hins).2 x).mp hx with rfl | hx
    · exact .inl ⟨rfl, rfl⟩
    · exact .inr hx

theorem login_effect {dto : LoginDto} {ip userAgent : String} {fresh : Fresh}
    {result : LoginResult}
    (h : AuthService.login crypto s dto ip userAgent fresh = .ok (s', result)) :
    Effect crypto s s' (Requests.loginEvent result) := by
  simp only [AuthService.login, bind_eq_ok, orThrow_eq_ok, require_eq_ok] at h
  obtain ⟨user, huser, -, -, -, -, h⟩ := h
  have hmem := Table.findOne_mem huser
  split at h
  next =>
    simp only [bind_eq_ok, orThrow_eq_ok, pure_eq_ok, Prod.mk.injEq] at h
    obtain ⟨jwt, hsign, rfl, rfl⟩ := h
    exact .signed hsign (.refl _ rfl) (.refl _ rfl) (.inl rfl) (fun e he => by cases he)
  next htotp =>
    obtain ⟨rfl, ⟨payload, hsub, hpurpose, hsign⟩, husers, hsessions⟩ := openSession_spec h
    refine .signed hsign ?_ ?_ (.inr ⟨_, rfl, ?_⟩) ?_
    · intro u hu hut
      obtain ⟨old, hold, hid, hsame⟩ := husers u hu
      exact .inl ⟨old, hold, hid, by rw [hsame, hut]⟩
    · intro x hx
      rcases hsessions x hx with ⟨huid, hrefresh⟩ | hx
      · exact .inr ⟨_, rfl, by rw [huid, hrefresh]; rfl⟩
      · exact .inl ⟨x, hx, rfl, rfl⟩
    · rw [hsub]
      rfl
    · intro e he
      cases he
      refine ⟨?_, accessIssued_of_sign hsign hpurpose⟩
      intro u hu huid
      obtain ⟨old, hold, hid, hsame⟩ := husers u hu
      have holduser : old = user := Table.eq_of_key hold hmem (hid.trans huid)
      rw [← hsame, holduser, Bool.eq_false_iff]
      exact htotp

theorem consumeBackupCode_matches {code : String} {codes rest : List String}
    (h : AuthService.consumeBackupCode crypto code codes = some rest) :
    ∃ c ∈ codes, crypto.compare code c = true := by
  induction codes generalizing rest with
  | nil => cases h
  | cons c cs ih =>
    unfold AuthService.consumeBackupCode at h
    split at h
    next hc => exact ⟨c, List.mem_cons_self, hc⟩
    next =>
      obtain ⟨rest', hrest, -⟩ := Option.map_eq_some_iff.mp h
      obtain ⟨d, hd, hmatch⟩ := ih hrest
      exact ⟨d, List.mem_cons_of_mem _ hd, hmatch⟩

/-- A second factor that is accepted was verified, and accepting it leaves every user's id
and `usesTotp` as they were. -/
theorem checkSecondFactor_spec {user : User} {secret code : String} {users : Table User}
    (hmem : user ∈ s.users) (hsecret : user.totpSecret = some secret)
    (h : AuthService.checkSecondFactor crypto s user secret code = .ok users) :
    VerifiedFactor crypto user code s.now ∧
    ∀ u ∈ users, ∃ old ∈ s.users, old.id = u.id ∧ old.usesTotp = u.usesTotp := by
  unfold AuthService.checkSecondFactor at h
  split at h
  next htotp =>
    cases h
    exact ⟨.inl ⟨secret, hsecret, htotp⟩, fun u hu => ⟨u, hu, rfl, rfl⟩⟩
  next =>
    split at h
    next codes hcodes =>
      cases h
      obtain ⟨c, hc, hmatch⟩ := consumeBackupCode_matches hcodes
      refine ⟨?_, ?_⟩
      · cases hb : user.backupCodes with
        | none => simp [hb] at hc
        | some stored =>
          rw [hb] at hc
          exact .inr ⟨stored, hb, c, hc, hmatch⟩
      · intro u hu
        rcases Table.mem_save.mp hu with rfl | ⟨hu, -⟩
        · exact ⟨user, hmem, rfl, rfl⟩
        · exact ⟨u, hu, rfl, rfl⟩
    next => cases h

theorem verifyTwoFactorLogin_effect {sessionToken code ip userAgent : String} {fresh : Fresh}
    {result : LoginResult}
    (h : AuthService.verifyTwoFactorLogin crypto s sessionToken code ip userAgent fresh
      = .ok (s', result)) :
    Effect crypto s s' (Requests.secondFactorEvent s code result) := by
  simp only [AuthService.verifyTwoFactorLogin, bind_eq_ok, orThrow_eq_ok, require_eq_ok] at h
  obtain ⟨payload, -, -, -, user, huser, -, -, secret, hsecret, users, hcheck, h⟩ := h
  have hmem := Table.findOne_mem huser
  obtain ⟨hverified, hchecked⟩ := checkSecondFactor_spec hmem (truthy_eq_some hsecret) hcheck
  obtain ⟨rfl, ⟨payload', hsub, hpurpose, hsign⟩, husers, hsessions⟩ := openSession_spec h
  have hrow : (s.users.findOne fun u => u.id == user.summary.id) = some user :=
    Table.findOne_eq_some hmem (beq_iff_eq.mpr rfl) fun u _ hu => beq_iff_eq.mp hu
  rw [Requests.secondFactorEvent, hrow]
  refine .signed (s := s) hsign ?_ ?_ (.inr ⟨_, rfl, ?_⟩) ?_
  · intro u hu hut
    obtain ⟨mid, hmid, hid, hsame⟩ := husers u hu
    obtain ⟨old, hold, hid', hsame'⟩ := hchecked mid hmid
    exact .inl ⟨old, hold, hid'.trans hid, by rw [hsame', hsame, hut]⟩
  · intro x hx
    rcases hsessions x hx with ⟨huid, hrefresh⟩ | hx
    · exact .inr ⟨_, rfl, by rw [huid, hrefresh]; rfl⟩
    · exact .inl ⟨x, hx, rfl, rfl⟩
  · rw [hsub]
    rfl
  · intro e he
    cases he
    exact ⟨hverified, accessIssued_of_sign hsign hpurpose⟩

/-- Every guarded handler has an effect its event accounts for. -/
theorem handle_effect {user : CurrentUser} {route : Route} {event : Option Event}
    (h : Requests.handle crypto s user route = .ok (s', event)) : Effect crypto s s' event := by
  have hidle : Effect crypto s s none :=
    .unsigned (.refl _ rfl) (.refl _ rfl) rfl (fun e he => nomatch he)
  cases route with
  | logout _ | getSessions | other _ =>
    cases h
    exact hidle
  | setupTwoFactor secret =>
    simp only [Requests.handle, bind_eq_ok, pure_eq_ok, Prod.mk.injEq] at h
    obtain ⟨⟨_, _⟩, h, rfl, rfl⟩ := h
    exact setupTwoFactor_effect h
  | verifyTwoFactorSetup code random salt =>
    simp only [Requests.handle, bind_eq_ok, pure_eq_ok, Prod.mk.injEq] at h
    obtain ⟨⟨_, _⟩, h, rfl, rfl⟩ := h
    exact verifyTwoFactorSetup_effect h
  | disableTwoFactor code =>
    simp only [Requests.handle, bind_eq_ok, pure_eq_ok, Prod.mk.injEq] at h
    obtain ⟨⟨_, _⟩, h, rfl, rfl⟩ := h
    exact disableTwoFactor_effect h
  | revokeSession sessionId =>
    simp only [Requests.handle, bind_eq_ok, pure_eq_ok, Prod.mk.injEq] at h
    obtain ⟨_, h, rfl, rfl⟩ := h
    exact revokeSession_effect h
  | updateMe dto salt =>
    simp only [Requests.handle, bind_eq_ok, pure_eq_ok, Prod.mk.injEq] at h
    obtain ⟨⟨_, _⟩, h, rfl, rfl⟩ := h
    exact update_effect h
  | createUser dto id salt =>
    simp only [Requests.handle, bind_eq_ok, pure_eq_ok, Prod.mk.injEq] at h
    obtain ⟨⟨_, _⟩, h, rfl, rfl⟩ := h
    exact create_effect h
  | updateUser id dto salt =>
    simp only [Requests.handle, bind_eq_ok, pure_eq_ok, Prod.mk.injEq] at h
    obtain ⟨⟨_, _⟩, h, rfl, rfl⟩ := h
    exact update_effect h
  | deleteUser id =>
    simp only [Requests.handle, bind_eq_ok, pure_eq_ok, Prod.mk.injEq] at h
    obtain ⟨_, h, rfl, rfl⟩ := h
    exact delete_effect h
  | impersonate targetUserId token =>
    simp only [Requests.handle, bind_eq_ok, pure_eq_ok, Prod.mk.injEq] at h
    obtain ⟨⟨_, _⟩, h, rfl, rfl⟩ := h
    exact impersonateUser_effect h

/-- Every request that is served has an effect its event accounts for. -/
theorem serve_effect {r : Request} {event : Option Event}
    (h : Requests.serve crypto s r = .ok (s', event)) : Effect crypto s s' event := by
  have hidle : Effect crypto s s none :=
    .unsigned (.refl _ rfl) (.refl _ rfl) rfl (fun e he => nomatch he)
  cases r with
  | register dto id salt =>
    simp only [Requests.serve, bind_eq_ok, pure_eq_ok, Prod.mk.injEq] at h
    obtain ⟨⟨_, _⟩, h, rfl, rfl⟩ := h
    exact register_effect h
  | login dto ip userAgent fresh =>
    simp only [Requests.serve, bind_eq_ok, pure_eq_ok, Prod.mk.injEq] at h
    obtain ⟨⟨_, _⟩, h, rfl, rfl⟩ := h
    exact login_effect h
  | refresh cookie token =>
    simp only [Requests.serve, bind_eq_ok, orThrow_eq_ok, pure_eq_ok, Prod.mk.injEq] at h
    obtain ⟨_, -, ⟨_, _⟩, h, rfl, rfl⟩ := h
    exact refreshToken_effect h
  | twoFactorLogin sessionToken code ip userAgent fresh =>
    simp only [Requests.serve, bind_eq_ok, pure_eq_ok, Prod.mk.injEq] at h
    obtain ⟨⟨_, _⟩, h, rfl, rfl⟩ := h
    exact verifyTwoFactorLogin_effect h
  | me credentials =>
    simp only [Requests.serve, bind_eq_ok, pure_eq_ok, Prod.mk.injEq] at h
    obtain ⟨_, -, rfl, rfl⟩ := h
    exact hidle
  | guarded credentials route =>
    simp only [Requests.serve, bind_eq_ok, require_eq_ok] at h
    obtain ⟨user, -, -, -, h⟩ := h
    exact handle_effect h
  | socket event =>
    cases h
    exact hidle
  | tick seconds =>
    cases h
    exact .unsigned (.refl _ rfl) (.refl _ rfl) rfl (fun e he => nomatch he)

end Effects

/-! ## What the log says about the database -/

/-- The invariant: every signed token and every stored session is accounted for in the log,
and a password login of a user who has two factors by now precedes the event that switched
them on. -/
structure Provenance (crypto : Crypto) (s : PanelState) : Prop where
  password : ∀ userId accessToken refreshToken,
    .passwordLogin userId accessToken refreshToken ∈ s.log → NoTotp s.auth userId ∨
      [.twoFactorEnabled userId, .passwordLogin userId accessToken refreshToken].Sublist s.log
  sessions : ∀ x ∈ s.auth.sessions, ∃ e ∈ s.log, e.opens = some (x.userId, x.refreshToken)
  issued : ∀ t ∈ s.auth.jwt.issued, t.payload.purpose = some "two-factor" ∨
    ∃ e ∈ s.log, e.mints = some (t.payload.sub, t.token)
  minted : ∀ e ∈ s.log, ∀ userId token, e.mints = some (userId, token) →
    AccessIssued s.auth token
  verified : ∀ user code time accessToken refreshToken,
    .secondFactorLogin user code time accessToken refreshToken ∈ s.log →
      VerifiedFactor crypto user code time
  refreshed : ∀ userId refreshToken accessToken,
    .refreshed userId refreshToken accessToken ∈ s.log →
      ∃ e ∈ s.log, e.opens = some (userId, refreshToken)

namespace Provenance

variable {crypto : Crypto} {s : PanelState}

theorem initial (users : Table User) : Provenance crypto (.initial users) where
  password := fun _ _ _ h => nomatch h
  sessions := fun _ h => nomatch h
  issued := fun _ h => nomatch h
  minted := fun _ h => nomatch h
  verified := fun _ _ _ _ _ h => nomatch h
  refreshed := fun _ _ _ h => nomatch h

theorem mem_log {event : Option Event} {log : List Event} {e : Event} :
    e ∈ event.toList ++ log ↔ e ∈ event ∨ e ∈ log := by
  rw [List.mem_append, Option.mem_toList, Option.mem_def]

/-- The log grows at its front, so what precedes what stays. -/
theorem sublist_log {event : Option Event} {log l : List Event} (h : l.Sublist log) :
    l.Sublist (event.toList ++ log) :=
  h.trans (List.sublist_append_right _ _)

theorem sound_mints {s s' : AuthState} {e : Event} (h : e.Sound crypto s s')
    {userId token : String} (hm : e.mints = some (userId, token)) : AccessIssued s' token := by
  cases e with
  | passwordLogin | secondFactorLogin | refreshed =>
    cases hm
    exact h.2
  | impersonated =>
    cases hm
    exact h
  | twoFactorEnabled => cases hm

/-- The step lemma: an effect keeps every entry of the log accounted for. -/
theorem effect (hs : Provenance crypto s) {auth : AuthState} {event : Option Event}
    (he : Effect crypto s.auth auth event) :
    Provenance crypto { s with auth, log := event.toList ++ s.log } where
  password := by
    intro userId accessToken refreshToken hmem
    rcases mem_log.mp hmem with hnew | hold
    · exact .inl (he.sound _ hnew).1
    · rcases hs.password _ _ _ hold with hno | hsub
      · by_cases hev : event = some (.twoFactorEnabled userId)
        · subst hev
          exact .inr (.cons_cons _ (List.singleton_sublist.mpr hold))
        · refine .inl fun user hu hid => ?_
          rw [Bool.eq_false_iff]
          intro htotp
          rcases he.users user hu htotp with ⟨old, hold, hid', hut⟩ | hev'
          · rw [hno old hold (hid'.trans hid)] at hut
            cases hut
          · exact hev (hid ▸ hev')
      · exact .inr (sublist_log hsub)
  sessions := by
    intro x hx
    rcases he.sessions x hx with ⟨old, hold, huser, htoken⟩ | ⟨e, hev, hopens⟩
    · obtain ⟨e, hmem, hopens⟩ := hs.sessions old hold
      exact ⟨e, mem_log.mpr (.inr hmem), by rw [hopens, huser, htoken]⟩
    · exact ⟨e, mem_log.mpr (.inl hev), hopens⟩
  issued := by
    intro t ht
    rcases he.issued t ht with hold | hpurpose | ⟨e, hev, hmints⟩
    · rcases hs.issued t hold with hpurpose | ⟨e, hmem, hmints⟩
      · exact .inl hpurpose
      · exact .inr ⟨e, mem_log.mpr (.inr hmem), hmints⟩
    · exact .inl hpurpose
    · exact .inr ⟨e, mem_log.mpr (.inl hev), hmints⟩
  minted := by
    intro e hmem userId token hmints
    rcases mem_log.mp hmem with hnew | hold
    · exact sound_mints (he.sound e hnew) hmints
    · obtain ⟨t, ht, htoken, hpurpose⟩ := hs.minted e hold userId token hmints
      exact ⟨t, he.kept t ht, htoken, hpurpose⟩
  verified := by
    intro user code time accessToken refreshToken hmem
    rcases mem_log.mp hmem with hnew | hold
    · exact (he.sound _ hnew).1
    · exact hs.verified _ _ _ _ _ hold
  refreshed := by
    intro userId refreshToken accessToken hmem
    rcases mem_log.mp hmem with hnew | hold
    · obtain ⟨⟨x, hx, huser, htoken⟩, -⟩ := he.sound _ hnew
      obtain ⟨e, he', hopens⟩ := hs.sessions x hx
      exact ⟨e, mem_log.mpr (.inr he'), by rw [hopens, huser, htoken]⟩
    · obtain ⟨e, he', hopens⟩ := hs.refreshed _ _ _ hold
      exact ⟨e, mem_log.mpr (.inr he'), hopens⟩

/-- The gateway writes neither the database nor the log. -/
theorem gateway (hs : Provenance crypto s) (gateway : Gateway) :
    Provenance crypto { s with gateway } :=
  ⟨hs.password, hs.sessions, hs.issued, hs.minted, hs.verified, hs.refreshed⟩

/-- Every request keeps the invariant. -/
theorem step {s' : PanelState} {r : Request} (hs : Provenance crypto s)
    (h : Requests.step crypto s r = some s') : Provenance crypto s' := by
  unfold Requests.step at h
  split at h
  next event =>
    obtain ⟨⟨g, _, _⟩, -, rfl⟩ := Option.map_eq_some_iff.mp h
    exact hs.gateway g
  next =>
    split at h
    next auth event hserve =>
      cases h
      exact hs.effect (serve_effect hserve)
    next =>
      cases h
      exact hs

/-- A session that is opened for a user with two factors was opened rightly. -/
theorem openedRightly (hs : Provenance crypto s) {userId refreshToken : String} {e : Event}
    (hmem : e ∈ s.log) (hopens : e.opens = some (userId, refreshToken))
    (htotp : UsesTotp s userId) :
    ∃ accessToken, OpenedRightly crypto s.log userId accessToken refreshToken := by
  cases e with
  | passwordLogin uid accessToken token =>
    cases hopens
    refine ⟨accessToken, .inl ?_⟩
    rcases hs.password _ _ _ hmem with hno | hsub
    · obtain ⟨user, hu, hid, hut⟩ := htotp
      rw [hno user hu hid] at hut
      cases hut
    · exact hsub
  | secondFactorLogin user code time accessToken token =>
    cases hopens
    exact ⟨accessToken, .inr ⟨user, code, time, hmem, rfl, hs.verified _ _ _ _ _ hmem⟩⟩
  | refreshed | impersonated | twoFactorEnabled => cases hopens

/-- A signed token of a user with two factors descends rightly, unless it is the token
between the factors. -/
theorem descends (hs : Provenance crypto s) {t : IssuedToken} (ht : t ∈ s.auth.jwt.issued)
    (hpurpose : t.payload.purpose ≠ some "two-factor") (htotp : UsesTotp s t.payload.sub) :
    Descends crypto s.log t.payload.sub t.token := by
  rcases hs.issued t ht with h | ⟨e, hmem, hmints⟩
  · exact absurd h hpurpose
  · cases e with
    | passwordLogin uid accessToken refreshToken =>
      cases hmints
      rcases hs.password _ _ _ hmem with hno | hsub
      · obtain ⟨user, hu, hid, hut⟩ := htotp
        rw [hno user hu hid] at hut
        cases hut
      · exact .login (.inl hsub)
    | secondFactorLogin user code time accessToken refreshToken =>
      simp only [Event.mints, Option.some.injEq, Prod.mk.injEq] at hmints
      obtain ⟨hid, rfl⟩ := hmints
      exact .login (.inr ⟨user, code, time, hmem, hid, hs.verified _ _ _ _ _ hmem⟩)
    | refreshed uid refreshToken accessToken =>
      cases hmints
      obtain ⟨e', hmem', hopens⟩ := hs.refreshed _ _ _ hmem
      obtain ⟨first, hopened⟩ := hs.openedRightly hmem' hopens htotp
      exact .refresh hopened hmem
    | impersonated adminId uid accessToken =>
      cases hmints
      exact .impersonation hmem
    | twoFactorEnabled => cases hmints

/-- A token that descends rightly is not the token between the factors. -/
theorem purpose_of_descends (hs : Provenance crypto s) {userId token : String}
    (hd : Descends crypto s.log userId token) : AccessIssued s.auth token := by
  have hlogin : ∀ {refreshToken}, OpenedRightly crypto s.log userId token refreshToken →
      AccessIssued s.auth token := by
    intro refreshToken h
    rcases h with hsub | ⟨user, code, time, hmem, hid, -⟩
    · have hmem : Event.passwordLogin userId token refreshToken ∈ s.log :=
        hsub.subset (List.mem_cons_of_mem _ List.mem_cons_self)
      exact hs.minted _ hmem userId token rfl
    · exact hs.minted _ hmem userId token (by rw [← hid]; rfl)
  cases hd with
  | login h => exact hlogin h
  | refresh _ hmem => exact hs.minted _ hmem userId token rfl
  | impersonation hmem => exact hs.minted _ hmem userId token rfl

end Provenance

/-! ## What being admitted means -/

/-- A socket carries a user only if it did before the event, or if the event was admitted as
that user. -/
theorem socket_admitted {s : PanelState} {event : ClientEvent} {g : Gateway}
    {out : List Output} {jobs : List Pending}
    (h : s.gateway.receive (s.auth.jwt.verify s.auth.now) event = some (g, out, jobs))
    {k' : Socket} (hk' : k' ∈ g.sockets) {userId : String} (huser : k'.userId = some userId) :
    (∃ k ∈ s.gateway.sockets, k.id = k'.id ∧ k.userId = some userId) ∨
      ∃ token, Requests.admits s (.socket event) = some (userId, token) := by
  have hkept : k' ∈ s.gateway.sockets →
      (∃ k ∈ s.gateway.sockets, k.id = k'.id ∧ k.userId = some userId) ∨
        ∃ token, Requests.admits s (.socket event) = some (userId, token) :=
    fun hk => .inl ⟨k', hk, rfl, huser⟩
  cases event with
  | connection client cookie server =>
    obtain ⟨⟨g', out'⟩, hconn, heq⟩ := Option.map_eq_some_iff.mp h
    cases heq
    unfold Gateway.handleConnection at hconn
    dsimp only at hconn
    split at hconn
    next hverify =>
      obtain ⟨sockets, hins, heq⟩ := Option.map_eq_some_iff.mp hconn
      cases heq
      rcases ((Table.insert_eq_some hins).2 k').mp hk' with rfl | hk
      · cases huser
      · exact hkept hk
    next payload hverify =>
      have hadmit : ∃ token, Requests.admits s (.socket (.connection client cookie server)) =
          some (payload.sub, token) := by
        obtain ⟨token, htoken, hpayload⟩ := Option.bind_eq_some_iff.mp hverify
        exact ⟨token, by simp only [Requests.admits, htoken, Option.bind_some, hpayload,
          Option.map_some]⟩
      split at hconn <;>
      · obtain ⟨sockets, hins, heq⟩ := Option.map_eq_some_iff.mp hconn
        cases heq
        rcases ((Table.insert_eq_some hins).2 k').mp hk' with rfl | hk
        · cases huser
          exact .inr hadmit
        · exact hkept hk
  | disconnect client =>
    obtain ⟨k, -, heq⟩ := Option.map_eq_some_iff.mp h
    cases heq
    exact hkept (Table.mem_delete.mp hk').1
  | auth client token serverUuid =>
    obtain ⟨k, -, heq⟩ := Option.map_eq_some_iff.mp h
    cases heq
    split at hk'
    next payload hverify =>
      rcases Gateway.mem_setSocket hk' with ⟨k, hk, rfl, -⟩ | hk
      · cases huser
        obtain ⟨tok, htok, hpayload⟩ := Option.bind_eq_some_iff.mp hverify
        exact .inr ⟨tok, by simp only [Requests.admits, htok, Option.bind_some, hpayload,
          Option.map_some]⟩
      · exact hkept hk
    next => exact hkept (Table.mem_delete.mp hk').1
  | subscribeConsole client =>
    obtain ⟨k, -, heq⟩ := Option.map_eq_some_iff.mp h
    cases heq
    unfold Gateway.handleSubscribeConsole at hk'
    split at hk'
    · exact hkept (Gateway.sockets_setSubs .. ▸ hk')
    · exact hkept hk'
  | subscribeStats client =>
    obtain ⟨k, -, heq⟩ := Option.map_eq_some_iff.mp h
    cases heq
    unfold Gateway.handleSubscribeStats at hk'
    split at hk'
    · exact hkept (Gateway.sockets_setSubs .. ▸ hk')
    · exact hkept hk'
  | sendCommand client command =>
    obtain ⟨k, -, heq⟩ := Option.map_eq_some_iff.mp h
    cases heq
    exact hkept hk'
  | sendPowerAction client action =>
    obtain ⟨k, -, heq⟩ := Option.map_eq_some_iff.mp h
    cases heq
    exact hkept hk'

/-- A REST request is served beyond its guards only if it was admitted. -/
theorem served_admitted {crypto : Crypto} {s : PanelState} {credentials : Credentials}
    {route : Route} {result : AuthState × Option Event}
    (h : Requests.serve crypto s.auth (.guarded credentials route) = .ok result) :
    ∃ user token, Requests.admits s (.guarded credentials route) = some (user.id, token) ∧
      Requests.handle crypto s.auth user route = .ok result := by
  simp only [Requests.serve, bind_eq_ok, require_eq_ok] at h
  obtain ⟨user, hauth, -, hrole, h⟩ := h
  have hextract := hauth
  simp only [JwtStrategy.authenticate, bind_eq_ok, orThrow_eq_ok] at hextract
  obtain ⟨token, htoken, -⟩ := hextract
  refine ⟨user, token, ?_, h⟩
  simp only [Requests.admits, htoken, hauth, hrole, if_true]

/-! ## The two laws agree on every run -/

section Runs

variable {crypto : Crypto} {s : PanelState}

theorem validate_spec {a : AuthState} {payload : JwtPayload} {user : CurrentUser}
    (h : JwtStrategy.validate a payload = .ok user) : user.id = payload.sub := by
  simp only [JwtStrategy.validate, bind_eq_ok, orThrow_eq_ok, pure_eq_ok] at h
  obtain ⟨row, hrow, rfl⟩ := h
  have hsat := Table.findOne_sat hrow
  simp only [Bool.and_eq_true, beq_iff_eq] at hsat
  exact hsat.1

/-- Whoever is admitted is the subject of the token it presents. -/
theorem admits_spec {r : Request} {userId token : String}
    (h : Requests.admits s r = some (userId, token)) :
    ∃ payload, s.auth.jwt.verify s.auth.now token = some payload ∧ payload.sub = userId := by
  unfold Requests.admits at h
  split at h
  next credentials route =>
    split at h
    next tok user hextract hauth =>
      split at h
      next =>
        cases h
        simp only [JwtStrategy.authenticate, bind_eq_ok, orThrow_eq_ok] at hauth
        obtain ⟨tok', htok', payload, hverify, hvalidate⟩ := hauth
        cases hextract.symm.trans htok'
        exact ⟨payload, hverify, (validate_spec hvalidate).symm⟩
      next => cases h
    next => cases h
  next credentials =>
    split at h
    next tok user hextract hme =>
      cases h
      simp only [AuthController.me, bind_eq_ok, orThrow_eq_ok] at hme
      obtain ⟨tok', htok', payload, hverify, hvalidate⟩ := hme
      cases hextract.symm.trans htok'
      have hsat := Table.findOne_sat hvalidate
      simp only [Bool.and_eq_true, beq_iff_eq] at hsat
      exact ⟨payload, hverify, hsat.1.symm⟩
    next => cases h
  next client cookie server =>
    obtain ⟨tok, -, h⟩ := Option.bind_eq_some_iff.mp h
    obtain ⟨payload, hverify, heq⟩ := Option.map_eq_some_iff.mp h
    cases heq
    exact ⟨payload, hverify, rfl⟩
  next client token' serverUuid =>
    obtain ⟨tok, -, h⟩ := Option.bind_eq_some_iff.mp h
    obtain ⟨payload, hverify, heq⟩ := Option.map_eq_some_iff.mp h
    cases heq
    exact ⟨payload, hverify, rfl⟩
  next => cases h

/-- One request is admitted rightly exactly when it does not present the token between the
factors. -/
theorem twoFactorHeld_iff (hs : Provenance crypto s) (r : Request) :
    TwoFactorHeld crypto s r ↔ NoChallengePresented s r := by
  constructor
  · intro h userId token hadmits htotp payload hverify hpurpose
    obtain ⟨t, ht, htoken, htnone⟩ := hs.purpose_of_descends (h userId token hadmits htotp)
    obtain ⟨a, ha, hatoken, rfl, -⟩ := JwtService.verify_eq_some.mp hverify
    rw [s.auth.jwt.functional a ha t ht (hatoken.trans htoken.symm), htnone] at hpurpose
    cases hpurpose
  · intro h userId token hadmits htotp
    obtain ⟨payload, hverify, rfl⟩ := admits_spec hadmits
    have hpurpose := h _ token hadmits htotp payload hverify
    obtain ⟨a, ha, rfl, rfl, -⟩ := JwtService.verify_eq_some.mp hverify
    exact hs.descends ha hpurpose htotp

/-- Over every run of the panel, whatever users it starts with: everyone admitted as a user
with two factors presents a token that descends from a verified second factor, from a
session opened before it was switched on or from an impersonation, if and only if nobody
is admitted with the token that `login` issues between the factors. -/
theorem twoFactor_run_iff (crypto : Crypto) (users : Table User) (requests : List Request) :
    Along (Requests.step crypto) (TwoFactorHeld crypto) (.initial users) requests ↔
      Along (Requests.step crypto) NoChallengePresented (.initial users) requests :=
  along_iff (I := Provenance crypto) (fun _ _ _ hs h => hs.step h)
    (fun _ r hs => twoFactorHeld_iff hs r) (Provenance.initial users)

end Runs

/-! ## The password alone is enough -/

section Challenge

/-- A user with two factors whose stored password is its own hash. -/
def twoFactorUser : User :=
  { id := "u", email := "u@nexus.local", username := "user", password := "secret"
    rootAdmin := true, usesTotp := true, totpSecret := some "totp", pendingTotpSecret := none
    backupCodes := some [], enabled := true, avatarUrl := none, lastLogin := none
    createdAt := 0, updatedAt := 0 }

/-- Cryptography for the run below: passwords are stored as they are and no second factor
verifies. -/
def plainCrypto : Crypto := ⟨fun plain stored => plain == stored, fun _ plain => plain,
  fun _ _ _ => false⟩

/-- The password step, and then `GET /auth/me` with the token it answered. -/
def skipTwoFactor : List Request :=
  [.login ⟨"u@nexus.local", "secret"⟩ "127.0.0.1" "curl" ⟨"t", "r", "s"⟩,
   .me ⟨none, some "Bearer t"⟩]

/-- The user is admitted although no second factor was ever verified. -/
theorem twoFactor_skipped :
    ¬ Along (Requests.step plainCrypto) (TwoFactorHeld plainCrypto)
      (.initial ⟨[twoFactorUser], by decide⟩) skipTwoFactor := by
  intro h
  have hme := (h.2 _ rfl).1
  have hd := hme "u" "t" (by decide) ⟨twoFactorUser, by decide, rfl, rfl⟩
  cases hd with
  | login hopened =>
    rcases hopened with hsub | ⟨_, _, _, hmem, -⟩
    · exact nomatch hsub
    · exact nomatch hmem
  | refresh _ hmem => exact nomatch hmem
  | impersonation hmem => exact nomatch hmem

end Challenge

end Panel
