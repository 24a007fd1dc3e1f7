import NexusPanel.Panel.Requests

/-!
# Logging out

`POST /auth/logout` clears two cookies in the browser. The session of the refresh token it is
sent stays in the table as it is: `AuthService.logout`, which would revoke it, is called by
nobody. So whoever still has the refresh token gets access tokens for it, and the session is
listed, unless it had been revoked by other means before.

Revoked sessions stay revoked from one request to the next, and no login opens a session with
an id or a refresh token that was drawn before; so what is over when a logout comes in is over
for good, and the converse is seen in the state right after the logout.
-/

namespace Panel

open Fallible Transition

/-! ## Sessions that are over -/

/-- The session gives no access token any more and is not listed. -/
structure SessionOver (s : AuthState) (x : Session) : Prop where
  refused : ∀ accessToken r, AuthService.refreshToken s x.refreshToken accessToken ≠ .ok r
  unlisted : ∀ y ∈ AuthService.getUserSessions s x.userId, y.id ≠ x.id

/-- A logout that is admitted, with the refresh token it carries. -/
def completesLogout (s : PanelState) : Request → Option String
  | .guarded credentials (.logout refreshToken) =>
    match JwtStrategy.authenticate s.auth credentials with
    | .ok _ => truthy refreshToken
    | .error _ => none
  | _ => none

/-- After a logout that carried its refresh token a session is over, whatever comes later. -/
def LogoutEnds (crypto : Crypto) (s : PanelState) (rs : List Request) : Prop :=
  ∀ before logout later, before ++ logout :: later <+: rs →
    ∀ s₁, run (Requests.step crypto) s before = some s₁ →
    ∀ x ∈ s₁.auth.sessions, completesLogout s₁ logout = some x.refreshToken →
    ∀ s₂, run (Requests.step crypto) s₁ (logout :: later) = some s₂ → SessionOver s₂.auth x

/-- The sessions a logout carries the refresh token of have been revoked by other means. -/
def RevokedBefore (s : PanelState) (r : Request) : Prop :=
  ∀ x ∈ s.auth.sessions, completesLogout s r = some x.refreshToken → x.revoked = true

/-- The session id and the refresh token a request draws. -/
def Request.draws : Request → Option (String × String)
  | .login _ _ _ fresh | .twoFactorLogin _ _ _ _ fresh => some (fresh.sessionId, fresh.refreshToken)
  | _ => none

/-- No id and no refresh token is drawn twice. -/
def DrawnOnce (rs : List Request) : Prop :=
  ((rs.filterMap Request.draws).map Prod.fst).Nodup ∧
    ((rs.filterMap Request.draws).map Prod.snd).Nodup

/-! ## What a request does to the sessions -/

/-- A session that was there keeps its id, its user and its refresh token, and stays revoked;
a new one has what the request drew. -/
def SessionsKept (s s' : AuthState) (drawn : Option (String × String)) : Prop :=
  ∀ x ∈ s'.sessions,
    (∃ old ∈ s.sessions, old.id = x.id ∧ old.userId = x.userId ∧
      old.refreshToken = x.refreshToken ∧ (old.revoked = true → x.revoked = true)) ∨
    drawn = some (x.id, x.refreshToken)

section Sessions

variable {crypto : Crypto} {s s' : AuthState} {drawn : Option (String × String)}

theorem SessionsKept.refl (h : s'.sessions = s.sessions) : SessionsKept s s' drawn := by
  intro x hx
  rw [h] at hx
  exact .inl ⟨x, hx, rfl, rfl, rfl, fun h => h⟩

theorem openSession_sessions {user : User} {ip userAgent : String} {fresh : Fresh}
    {result : LoginResult}
    (h : AuthService.openSession s user ip userAgent fresh = .ok (s', result)) :
    SessionsKept s s' (some (fresh.sessionId, fresh.refreshToken)) := by
  simp only [AuthService.openSession, bind_eq_ok, orThrow_eq_ok, pure_eq_ok, Prod.mk.injEq] at h
  obtain ⟨jwt, -, sessions, hins, rfl, -⟩ := h
  intro x hx
  rcases ((Table.insert_eq_some hins).2 x).mp hx with rfl | hx
  · exact .inr rfl
  · exact .inl ⟨x, hx, rfl, rfl, rfl, fun h => h⟩

theorem login_sessions {dto : LoginDto} {ip userAgent : String} {fresh : Fresh}
    {result : LoginResult}
    (h : AuthService.login crypto s dto ip userAgent fresh = .ok (s', result)) :
    SessionsKept s s' (some (fresh.sessionId, fresh.refreshToken)) := by
  simp only [AuthService.login, bind_eq_ok, orThrow_eq_ok, require_eq_ok] at h
  obtain ⟨user, -, -, -, -, -, h⟩ := h
  split at h
  next =>
    simp only [bind_eq_ok, orThrow_eq_ok, pure_eq_ok, Prod.mk.injEq] at h
    obtain ⟨jwt, -, rfl, -⟩ := h
    exact .refl rfl
  next => exact openSession_sessions h

theorem verifyTwoFactorLogin_sessions {sessionToken code ip userAgent : String} {fresh : Fresh}
    {result : LoginResult}
    (h : AuthService.verifyTwoFactorLogin crypto s sessionToken code ip userAgent fresh =
      .ok (s', result)) :
    SessionsKept s s' (some (fresh.sessionId, fresh.refreshToken)) := by
  simp only [AuthService.verifyTwoFactorLogin, bind_eq_ok, orThrow_eq_ok, require_eq_ok] at h
  obtain ⟨payload, -, -, -, user, -, -, -, secret, -, users, -, h⟩ := h
  exact openSession_sessions (s := { s with users }) h

theorem refreshToken_sessions {token accessToken : String} {session : Session}
    (h : AuthService.refreshToken s token accessToken = .ok (s', session)) :
    SessionsKept s s' none := by
  simp only [AuthService.refreshToken, bind_eq_ok, orThrow_eq_ok, require_eq_ok, pure_eq_ok,
    Prod.mk.injEq] at h
  obtain ⟨session, hsession, user, -, -, -, jwt, -, rfl, -⟩ := h
  intro x hx
  rcases Table.mem_save.mp hx with rfl | ⟨hx, -⟩
  · exact .inl ⟨session, Table.findOne_mem hsession, rfl, rfl, rfl, fun h => h⟩
  · exact .inl ⟨x, hx, rfl, rfl, rfl, fun h => h⟩

theorem revokeSession_sessions {userId sessionId : String}
    (h : AuthService.revokeSession s userId sessionId = .ok s') : SessionsKept s s' none := by
  simp only [AuthService.revokeSession, bind_eq_ok, orThrow_eq_ok, pure_eq_ok] at h
  obtain ⟨session, hsession, rfl⟩ := h
  intro x hx
  rcases Table.mem_save.mp hx with rfl | ⟨hx, -⟩
  · exact .inl ⟨session, Table.findOne_mem hsession, rfl, rfl, rfl, fun _ => rfl⟩
  · exact .inl ⟨x, hx, rfl, rfl, rfl, fun h => h⟩

/-- The other handlers leave the sessions alone, but for those of a user who is removed. -/
theorem handle_sessions {user : CurrentUser} {route : Route} {event : Option Event}
    (h : Requests.handle crypto s user route = .ok (s', event)) : SessionsKept s s' none := by
  cases route with
  | logout _ | getSessions | other _ =>
    cases h
    exact .refl rfl
  | setupTwoFactor secret =>
    simp only [Requests.handle, AuthService.setupTwoFactor, bind_eq_ok, orThrow_eq_ok,
      require_eq_ok, pure_eq_ok, Prod.mk.injEq] at h
    obtain ⟨⟨t, -⟩, ⟨u, -, -, -, rfl, -⟩, rfl, -⟩ := h
    exact .refl rfl
  | verifyTwoFactorSetup code random salt =>
    simp only [Requests.handle, AuthService.verifyTwoFactorSetup, bind_eq_ok, orThrow_eq_ok,
      require_eq_ok, pure_eq_ok, Prod.mk.injEq] at h
    obtain ⟨⟨t, -⟩, ⟨u, -, -, -, -, -, rfl, -⟩, rfl, -⟩ := h
    exact .refl rfl
  | disableTwoFactor code =>
    simp only [Requests.handle, AuthService.disableTwoFactor, bind_eq_ok, orThrow_eq_ok,
      require_eq_ok, pure_eq_ok, Prod.mk.injEq] at h
    obtain ⟨⟨t, -⟩, ⟨u, -, -, -, -, -, -, -, rfl, -⟩, rfl, -⟩ := h
    exact .refl rfl
  | revokeSession sessionId =>
    simp only [Requests.handle, bind_eq_ok, pure_eq_ok, Prod.mk.injEq] at h
    obtain ⟨t, ht, rfl, -⟩ := h
    exact revokeSession_sessions ht
  | updateMe dto salt =>
    simp only [Requests.handle, UsersService.update, bind_eq_ok, orThrow_eq_ok, require_eq_ok,
      pure_eq_ok, Prod.mk.injEq] at h
    obtain ⟨⟨t, -⟩, ⟨u, -, -, -, -, -, rfl, -⟩, rfl, -⟩ := h
    exact .refl rfl
  | createUser dto id salt =>
    simp only [Requests.handle, UsersService.create, bind_eq_ok, orThrow_eq_ok, require_eq_ok,
      pure_eq_ok, Prod.mk.injEq] at h
    obtain ⟨⟨t, -⟩, ⟨-, -, users, -, rfl, -⟩, rfl, -⟩ := h
    exact .refl rfl
  | updateUser id dto salt =>
    simp only [Requests.handle, UsersService.update, bind_eq_ok, orThrow_eq_ok, require_eq_ok,
      pure_eq_ok, Prod.mk.injEq] at h
    obtain ⟨⟨t, -⟩, ⟨u, -, -, -, -, -, rfl, -⟩, rfl, -⟩ := h
    exact .refl rfl
  | deleteUser id =>
    simp only [Requests.handle, UsersService.delete, bind_eq_ok, orThrow_eq_ok, pure_eq_ok,
      Prod.mk.injEq] at h
    obtain ⟨t, ⟨u, -, rfl⟩, rfl, -⟩ := h
    intro x hx
    exact .inl ⟨x, (Table.mem_delete.mp hx).1, rfl, rfl, rfl, fun h => h⟩
  | impersonate targetUserId token =>
    simp only [Requests.handle, AdminService.impersonateUser, bind_eq_ok, orThrow_eq_ok,
      pure_eq_ok, Prod.mk.injEq] at h
    obtain ⟨⟨t, -⟩, ⟨target, -, jwt, -, rfl, -⟩, rfl, -⟩ := h
    exact .refl rfl

theorem serve_sessions {r : Request} {event : Option Event}
    (h : Requests.serve crypto s r = .ok (s', event)) : SessionsKept s s' r.draws := by
  cases r with
  | register dto id salt =>
    simp only [Requests.serve, AuthService.register, bind_eq_ok, orThrow_eq_ok, require_eq_ok,
      pure_eq_ok, Prod.mk.injEq] at h
    obtain ⟨⟨t, -⟩, ⟨-, -, users, -, rfl, -⟩, rfl, -⟩ := h
    exact .refl rfl
  | login dto ip userAgent fresh =>
    simp only [Requests.serve, bind_eq_ok, pure_eq_ok, Prod.mk.injEq] at h
    obtain ⟨⟨t, result⟩, ht, rfl, -⟩ := h
    exact login_sessions ht
  | refresh cookie token =>
    simp only [Requests.serve, bind_eq_ok, orThrow_eq_ok, pure_eq_ok, Prod.mk.injEq] at h
    obtain ⟨refreshToken, -, ⟨t, session⟩, ht, rfl, -⟩ := h
    exact refreshToken_sessions ht
  | twoFactorLogin sessionToken code ip userAgent fresh =>
    simp only [Requests.serve, bind_eq_ok, pure_eq_ok, Prod.mk.injEq] at h
    obtain ⟨⟨t, result⟩, ht, rfl, -⟩ := h
    exact verifyTwoFactorLogin_sessions ht
  | me credentials =>
    simp only [Requests.serve, bind_eq_ok, pure_eq_ok, Prod.mk.injEq] at h
    obtain ⟨u, -, rfl, -⟩ := h
    exact .refl rfl
  | guarded credentials route =>
    simp only [Requests.serve, bind_eq_ok, require_eq_ok] at h
    obtain ⟨user, -, -, -, h⟩ := h
    exact handle_sessions h
  | socket event | tick seconds =>
    cases h
    exact .refl rfl

end Sessions

/-! ## Runs -/

section Runs

variable {crypto : Crypto} {s s' : PanelState} {r : Request} {x : Session} {users : Table User}

theorem step_sessions (h : Requests.step crypto s r = some s') :
    SessionsKept s.auth s'.auth r.draws := by
  unfold Requests.step at h
  split at h
  next event =>
    obtain ⟨out, -, rfl⟩ := Option.map_eq_some_iff.mp h
    exact .refl rfl
  next =>
    split at h
    next auth event hserve =>
      cases h
      exact serve_sessions hserve
    next =>
      cases h
      exact .refl rfl

/-- Every session was opened by a request that drew its id and its refresh token. -/
theorem drawn_of_run {rs : List Request} (hrun : run (Requests.step crypto) s rs = some s')
    (hx : x ∈ s'.auth.sessions) :
    (∃ old ∈ s.auth.sessions, old.id = x.id ∧ old.refreshToken = x.refreshToken) ∨
      (x.id, x.refreshToken) ∈ rs.filterMap Request.draws := by
  induction rs generalizing s with
  | nil =>
    cases hrun
    exact .inl ⟨x, hx, rfl, rfl⟩
  | cons r rs ih =>
    obtain ⟨s₁, hstep, hrest⟩ := run_cons_eq_some.mp hrun
    rcases ih hrest with ⟨old, hold, hid, htoken⟩ | hdrawn
    · rcases step_sessions hstep old hold with ⟨older, holder, hid', -, htoken', -⟩ | hdrew
      · exact .inl ⟨older, holder, hid'.trans hid, htoken'.trans htoken⟩
      · refine .inr (List.mem_filterMap.mpr ⟨r, List.mem_cons_self, ?_⟩)
        rw [hdrew, hid, htoken]
    · obtain ⟨r', hr', hdrew⟩ := List.mem_filterMap.mp hdrawn
      exact .inr (List.mem_filterMap.mpr ⟨r', List.mem_cons_of_mem _ hr', hdrew⟩)

/-- The sessions with the id or the refresh token are revoked. -/
def Revoked (x : Session) (s : PanelState) : Prop :=
  ∀ y ∈ s.auth.sessions, y.id = x.id ∨ y.refreshToken = x.refreshToken → y.revoked = true

/-- The request draws neither the id nor the refresh token. -/
def DrawsOther (x : Session) (r : Request) : Prop :=
  ∀ d ∈ r.draws, d.1 ≠ x.id ∧ d.2 ≠ x.refreshToken

theorem Revoked.step (h : Revoked x s) (hdraws : DrawsOther x r)
    (hstep : Requests.step crypto s r = some s') : Revoked x s' := by
  intro y hy hmatch
  rcases step_sessions hstep y hy with ⟨old, hold, hid, -, htoken, hrevoked⟩ | hdrew
  · exact hrevoked (h old hold (by rwa [hid, htoken]))
  · obtain ⟨hid, htoken⟩ := hdraws _ hdrew
    rcases hmatch with hmatch | hmatch
    · exact absurd hmatch hid
    · exact absurd hmatch htoken

/-- What is revoked stays revoked. -/
theorem Revoked.run {rs : List Request} (h : Revoked x s) (hdraws : ∀ r ∈ rs, DrawsOther x r)
    (hrun : run (Requests.step crypto) s rs = some s') : Revoked x s' := by
  induction rs generalizing s with
  | nil =>
    cases hrun
    exact h
  | cons r rs ih =>
    obtain ⟨s₁, hstep, hrest⟩ := run_cons_eq_some.mp hrun
    exact ih (h.step (hdraws r List.mem_cons_self) hstep)
      (fun r hr => hdraws r (List.mem_cons_of_mem _ hr)) hrest

theorem Revoked.sessionOver (h : Revoked x s) : SessionOver s.auth x := by
  constructor
  · intro accessToken r hr
    simp only [AuthService.refreshToken, bind_eq_ok, orThrow_eq_ok] at hr
    obtain ⟨session, hsession, -⟩ := hr
    have hsat := Table.findOne_sat hsession
    simp only [Bool.and_eq_true, beq_iff_eq, Bool.not_eq_true'] at hsat
    have hrevoked := h session (Table.findOne_mem hsession) (.inr hsat.1)
    rw [hsat.2] at hrevoked
    cases hrevoked
  · intro y hy hid
    obtain ⟨hmem, hsat⟩ := Table.mem_find.mp (List.mem_mergeSort.mp hy)
    simp only [Bool.and_eq_true, beq_iff_eq, Bool.not_eq_true'] at hsat
    have hrevoked := h y hmem (.inl hid)
    rw [hsat.2] at hrevoked
    cases hrevoked

/-- What later requests draw is not what an earlier one drew. -/
theorem DrawnOnce.drawsOther {before later : List Request} (h : DrawnOnce (before ++ later))
    (hdrawn : (x.id, x.refreshToken) ∈ before.filterMap Request.draws) :
    ∀ r ∈ later, DrawsOther x r := by
  obtain ⟨hids, htokens⟩ := h
  rw [List.filterMap_append, List.map_append] at hids htokens
  intro r hr d hd
  have hmem : d ∈ later.filterMap Request.draws := List.mem_filterMap.mpr ⟨r, hr, hd⟩
  constructor
  · intro heq
    exact List.disjoint_of_nodup_append hids (List.mem_map_of_mem hdrawn)
      (List.mem_map.mpr ⟨d, hmem, heq⟩)
  · intro heq
    exact List.disjoint_of_nodup_append htokens (List.mem_map_of_mem hdrawn)
      (List.mem_map.mpr ⟨d, hmem, heq⟩)

theorem DrawnOnce.of_prefix {rs qs : List Request} (h : DrawnOnce rs) (hqs : qs <+: rs) :
    DrawnOnce qs := by
  obtain ⟨rest, rfl⟩ := hqs
  obtain ⟨hids, htokens⟩ := h
  rw [List.filterMap_append, List.map_append] at hids htokens
  exact ⟨hids.of_append_left, htokens.of_append_left⟩

/-- An admitted logout is a request of its own, which changes nothing. -/
theorem step_of_completesLogout {t : String} (h : completesLogout s r = some t) :
    Requests.step crypto s r = some s := by
  unfold completesLogout at h
  split at h
  next credentials refreshToken =>
    split at h
    next user hauth =>
      have hserve : Requests.serve crypto s.auth (.guarded credentials (.logout refreshToken)) =
          .ok (s.auth, none) := by
        simp only [Requests.serve, bind_eq_ok, require_eq_ok]
        exact ⟨user, hauth, (), rfl, rfl⟩
      unfold Requests.step
      dsimp only
      rw [hserve]
      rfl
    next => cases h
  next => cases h

/-- For every initial table of users and every run of requests in which no session id and no
refresh token is drawn twice: every logout ends the session of the refresh token it carries,
for good, if and only if that session had been revoked before the logout came in. -/
theorem logoutEnds_iff {rs : List Request} (hdrawn : DrawnOnce rs) :
    LogoutEnds crypto (.initial users) rs ↔
      Along (Requests.step crypto) RevokedBefore (.initial users) rs := by
  rw [along_iff_forall]
  constructor
  · intro h before logout later heq s₁ hrun x hx hlogout
    have hprefix : before ++ logout :: [] <+: rs := ⟨later, by rw [heq, List.append_assoc]; rfl⟩
    have hstep : Transition.run (Requests.step crypto) s₁ [logout] = some s₁ :=
      run_cons_eq_some.mpr ⟨s₁, step_of_completesLogout hlogout, rfl⟩
    have hover := h before logout [] hprefix s₁ hrun x hx hlogout s₁ hstep
    by_contra hrevoked
    refine hover.unlisted x (List.mem_mergeSort.mpr (Table.mem_find.mpr ⟨hx, ?_⟩)) rfl
    simpa using hrevoked
  · intro h before logout later hprefix s₁ hrun x hx hlogout s₂ hrest
    obtain ⟨rest, heq⟩ := hprefix
    have hrevoked : Revoked x s₁ := by
      intro y hy hmatch
      refine h before logout (later ++ rest) ?_ s₁ hrun y hy ?_
      · rw [← heq, List.append_assoc]
        rfl
      · rcases hmatch with hid | htoken
        · rw [Table.eq_of_key hy hx hid, hlogout]
        · rw [htoken, hlogout]
    have hx' : (x.id, x.refreshToken) ∈ before.filterMap Request.draws := by
      rcases drawn_of_run hrun hx with ⟨old, hold, -⟩ | hdrew
      · exact absurd hold (Table.not_mem_empty _)
      · exact hdrew
    have hothers := (hdrawn.of_prefix ⟨rest, heq⟩).drawsOther hx'
    exact (hrevoked.run hothers hrest).sessionOver

end Runs

/-! ## A refresh after a logout -/

section Counterexample

def aliceLogin (token refreshToken sessionId : String) : Request :=
  .login ⟨"alice@nexus.local", "password"⟩ "127.0.0.1" "browser" ⟨token, refreshToken, sessionId⟩

def aliceLogout : Request := .guarded ⟨some "access", none⟩ (.logout (some "refresh"))

def alice : Table User :=
  ⟨[.withDefaults "alice" "alice@nexus.local" "alice" "password"], by decide⟩

/-- Alice logs in and revokes her session before she logs out: it is over. -/
theorem logoutEnds_revoked :
    LogoutEnds .plain (.initial alice)
      [aliceLogin "access" "refresh" "session",
        .guarded ⟨some "access", none⟩ (.revokeSession "session"), aliceLogout] := by
  refine (logoutEnds_iff ⟨by decide, by decide⟩).mpr
    ⟨?_, fun s₁ h₁ => ⟨?_, fun s₂ h₂ => ⟨?_, fun _ _ => trivial⟩⟩⟩
  · intro x hx
    cases hx
  · intro x _ hlogout
    cases hlogout
  · cases h₁
    cases h₂
    intro x hx _
    cases List.mem_singleton.mp hx
    rfl

/-- Alice logs in and out; her refresh token still gives an access token. -/
theorem refresh_after_logout :
    ¬LogoutEnds .plain (.initial alice) [aliceLogin "access" "refresh" "session", aliceLogout] := by
  intro h
  have hover := h [aliceLogin "access" "refresh" "session"] aliceLogout [] List.prefix_rfl _ rfl
    _ (.head _) rfl _ rfl
  exact hover.refused "second" _ rfl

end Counterexample

end Panel
