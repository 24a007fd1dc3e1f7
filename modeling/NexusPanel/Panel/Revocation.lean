import NexusPanel.Foundation.Pool
import NexusPanel.Panel.Auth

/-!
# Revocation is permanent

`refreshToken` and `revokeSession` both read a session, await, and save the whole row they
read. Here the two are cut at their `await`s, so that any number of calls may be under way on
one table of sessions. A refresh that has read a session before it was revoked writes the flag
back as it read it, and the session is live again.

Two history variables, which no call reads: the sessions a `revokeSession` has completed for,
and the sessions an access token was returned for, each with those that had been revoked when
the call began.
-/

namespace Panel

open Transition Fallible

/-! ## The calls -/

structure SessionsState where
  auth : AuthState
  revoked : List String
  returned : List (String × List String)

/-- Where a call stands. A refresh remembers which sessions had been revoked when it began. -/
inductive SessionTask
  | refresh (token accessToken : String)
  | refreshFind (token accessToken : String) (before : List String)
  | refreshUser (session : Session) (accessToken : String) (before : List String)
  | refreshSave (session : Session) (user : User) (accessToken : String) (before : List String)
  | refreshSign (session : Session) (user : User) (accessToken : String) (before : List String)
  | revoke (userId sessionId : String)
  | revokeSave (session : Session)
deriving DecidableEq

inductive SessionAnswer
  | accessToken (token : String)
  | revoked
deriving DecidableEq

namespace SessionTask

/-- `repository.save(session)`: every loaded column is written back. -/
def save (s : SessionsState) (session : Session) : SessionsState :=
  { s with auth.sessions := s.auth.sessions.save { session with updatedAt := s.auth.now } }

def go (s : SessionsState) (reply : Awaited) :
    SessionTask → Except HttpException (SessionsState × (SessionTask ⊕ SessionAnswer))
  | .refresh token accessToken => return (s, .inl (.refreshFind token accessToken s.revoked))
  | .refreshFind token accessToken before => do
    reply
    let session ← orThrow
      (s.auth.sessions.findOne fun x => x.refreshToken == token && !x.revoked)
      (.unauthorized "Invalid refresh token")
    return (s, .inl (.refreshUser session accessToken before))
  | .refreshUser session accessToken before => do
    reply
    let user ← orThrow (s.auth.users.findOne fun u => u.id == session.userId)
      (.unauthorized "User not found or disabled")
    require user.enabled (.unauthorized "User not found or disabled")
    return (s,
      .inl (.refreshSave { session with lastActiveAt := s.auth.now } user accessToken before))
  | .refreshSave session user accessToken before => do
    reply
    return (save s session, .inl (.refreshSign session user accessToken before))
  | .refreshSign session user accessToken before => do
    let jwt ← orThrow
      (s.auth.jwt.sign accessToken (.access user.id user.email user.rootAdmin)
        (s.auth.now + 900))
      (.internal "signature collision")
    return ({ s with auth.jwt := jwt, returned := (session.id, before) :: s.returned },
      .inr (.accessToken accessToken))
  | .revoke userId sessionId => do
    reply
    let session ← orThrow
      (s.auth.sessions.findOne fun x => x.id == sessionId && x.userId == userId)
      (.notFound "Session not found")
    return (s, .inl (.revokeSave { session with revoked := true }))
  | .revokeSave session => do
    reply
    return ({ save s session with revoked := session.id :: s.revoked }, .inr .revoked)

def starts : SessionTask → Bool
  | .refresh _ _ | .revoke _ _ => true
  | _ => false

end SessionTask

/-- What else happens: a login opens a session, the users change, time passes. -/
inductive SessionsOutside
  | login (session : Session)
  | users (users : Table User)
  | tick (seconds : Nat)

def SessionsState.outside (s : SessionsState) : SessionsOutside → Option SessionsState
  | .login session =>
    (s.auth.sessions.insert { session with revoked := false }).map fun sessions =>
      { s with auth.sessions := sessions }
  | .users users => some { s with auth.users := users }
  | .tick seconds => some { s with auth.now := s.auth.now + seconds }

def sessionSystem : Tasks SessionsState SessionTask Awaited
    (Option (Except HttpException SessionAnswer)) SessionsOutside :=
  .ofCalls SessionTask.go SessionTask.starts SessionsState.outside

abbrev SessionsPool := Pool SessionsState SessionTask
abbrev SessionsLabel := PoolLabel SessionTask Awaited SessionsOutside

def sessionStep : SessionsPool → SessionsLabel → Option SessionsPool := sessionSystem.step

/-- No call under way, and none before. -/
def SessionsPool.idle (auth : AuthState) : SessionsPool := ⟨⟨auth, [], []⟩, []⟩

/-- A revoked session stays revoked, and no `refreshToken` call that began after its revocation
returned an access token for it. -/
structure RevocationPermanent (s : SessionsState) : Prop where
  stays : ∀ x ∈ s.auth.sessions, x.id ∈ s.revoked → x.revoked = true
  refused : ∀ r ∈ s.returned, r.1 ∉ r.2

/-- A refresh that saves a session finds its flag in the table as it has loaded it. -/
def SavesFlagAsStored (p : SessionsPool) : SessionsLabel → Prop
  | .turn i (.ok ()) => ∀ x user accessToken before,
      p.tasks[i]? = some (.refreshSave x user accessToken before) →
        ∀ y ∈ p.store.auth.sessions, y.id = x.id → y.revoked = x.revoked
  | _ => True

/-! ## Calls that nobody interrupts -/

section Straight

variable (s : SessionsState)

/-- The turns of a call one after the other are the call of `AuthService`. -/
theorem refresh_straight (token accessToken : String) :
    (straight (fun s t => SessionTask.go s (.ok ()) t) 5 s (.refresh token accessToken)).map
        (fun r => r.1.auth) =
      (AuthService.refreshToken s.auth token accessToken).map Prod.fst := by
  have hbegin : SessionTask.go s (.ok ()) (.refresh token accessToken) =
      .ok (s, .inl (.refreshFind token accessToken s.revoked)) := rfl
  rw [straight_inl hbegin]
  cases hsession : s.auth.sessions.findOne fun x => x.refreshToken == token && !x.revoked with
  | none =>
    rw [straight_error (by simp only [SessionTask.go, ok_bind, hsession, orThrow_none]; rfl)]
    simp only [AuthService.refreshToken, hsession, orThrow_none, error_bind]
    rfl
  | some session =>
    rw [straight_inl (by simp only [SessionTask.go, ok_bind, hsession, orThrow_some]; rfl)]
    cases huser : s.auth.users.findOne fun u => u.id == session.userId with
    | none =>
      rw [straight_error (by simp only [SessionTask.go, ok_bind, huser, orThrow_none]; rfl)]
      simp only [AuthService.refreshToken, hsession, orThrow_some, ok_bind, huser, orThrow_none,
        error_bind]
      rfl
    | some user =>
      cases henabled : user.enabled with
      | false =>
        rw [straight_error (by
          simp only [SessionTask.go, ok_bind, huser, orThrow_some, henabled, require_false]; rfl)]
        simp only [AuthService.refreshToken, hsession, orThrow_some, ok_bind, huser, henabled,
          require_false, error_bind]
        rfl
      | true =>
        rw [straight_inl (by
            simp only [SessionTask.go, ok_bind, huser, orThrow_some, henabled, require_true]; rfl),
          straight_inl (by simp only [SessionTask.go, ok_bind]; rfl)]
        simp only [AuthService.refreshToken, hsession, orThrow_some, ok_bind, huser, henabled,
          require_true]
        cases hjwt : s.auth.jwt.sign accessToken (.access user.id user.email user.rootAdmin)
            (s.auth.now + 900) with
        | none =>
          rw [straight_error (by
            simp only [SessionTask.go, SessionTask.save, hjwt, orThrow_none]; rfl)]
          rfl
        | some jwt =>
          rw [straight_inr (by
            simp only [SessionTask.go, SessionTask.save, hjwt, orThrow_some, ok_bind]; rfl)]
          rfl

theorem revoke_straight (userId sessionId : String) :
    (straight (fun s t => SessionTask.go s (.ok ()) t) 2 s (.revoke userId sessionId)).map
        (fun r => r.1.auth) =
      AuthService.revokeSession s.auth userId sessionId := by
  cases hsession : s.auth.sessions.findOne fun x => x.id == sessionId && x.userId == userId with
  | none =>
    rw [straight_error (by simp only [SessionTask.go, ok_bind, hsession, orThrow_none]; rfl)]
    simp only [AuthService.revokeSession, hsession, orThrow_none, error_bind]
    rfl
  | some session =>
    rw [straight_inl (by simp only [SessionTask.go, ok_bind, hsession, orThrow_some]; rfl),
      straight_inr (by simp only [SessionTask.go, ok_bind]; rfl)]
    simp only [AuthService.revokeSession, hsession, orThrow_some, ok_bind]
    rfl

end Straight

/-! ## The invariant -/

/-- What a call under way relies on: a session it is about to write back is not revoked in its
copy, and if it is in the table then because a revocation has completed meanwhile. -/
def SessionTask.Relies (s : SessionsState) : SessionTask → Prop
  | .refreshFind _ _ before => before ⊆ s.revoked
  | .refreshUser x _ before | .refreshSave x _ _ before =>
    x.id ∉ before ∧ x.revoked = false ∧
      ∀ y ∈ s.auth.sessions, y.id = x.id → y.revoked = true → x.id ∈ s.revoked
  | .refreshSign x _ _ before => x.id ∉ before
  | .revokeSave x => x.revoked = true
  | .refresh _ _ | .revoke _ _ => True

/-- Flags are set by revocations only, and what has been revoked is not forgotten. -/
structure RevocationsGrow (s s' : SessionsState) : Prop where
  revoked : s.revoked ⊆ s'.revoked
  flags : ∀ y ∈ s'.auth.sessions, y.revoked = true →
    y ∈ s.auth.sessions ∨ y.id ∈ s'.revoked

structure RevocationSound (s : SessionsState) : Prop extends RevocationPermanent s where
  present : ∀ id ∈ s.revoked, ∃ x ∈ s.auth.sessions, x.id = id

section Steps

variable {s s' : SessionsState} {t : SessionTask} {x : Session}

theorem RevocationsGrow.refl : RevocationsGrow s s :=
  ⟨fun _ h => h, fun _ hy _ => .inl hy⟩

theorem SessionTask.Relies.grow (h : t.Relies s) (hgrow : RevocationsGrow s s') :
    t.Relies s' := by
  cases t with
  | refreshFind token accessToken before => exact fun id hid => hgrow.revoked (h hid)
  | refreshUser x accessToken before | refreshSave x user accessToken before =>
    obtain ⟨hbefore, hlive, hrow⟩ := h
    refine ⟨hbefore, hlive, fun y hy hid hrevoked => ?_⟩
    rcases hgrow.flags y hy hrevoked with hold | hnew
    · exact hgrow.revoked (hrow y hold hid hrevoked)
    · rw [← hid]
      exact hnew
  | refreshSign x user accessToken before => exact h
  | revokeSave x => exact h
  | refresh token accessToken => trivial
  | revoke userId sessionId => trivial

theorem mem_sessions_save {y : Session} (hy : y ∈ (SessionTask.save s x).auth.sessions) :
    y = { x with updatedAt := s.auth.now } ∨ y ∈ s.auth.sessions ∧ y.id ≠ x.id :=
  Table.mem_save.mp hy

theorem saved_mem : { x with updatedAt := s.auth.now } ∈ (SessionTask.save s x).auth.sessions :=
  Table.mem_save.mpr (.inl rfl)

/-- The save of a refresh. -/
theorem RevocationSound.save (h : RevocationSound s) (hlive : x.revoked = false)
    (hstored : ∀ y ∈ s.auth.sessions, y.id = x.id → y.revoked = x.revoked) :
    RevocationSound (SessionTask.save s x) := by
  have hnever : x.id ∉ s.revoked := by
    intro hmem
    obtain ⟨y, hy, hid⟩ := h.present x.id hmem
    have hrevoked := h.stays y hy (hid ▸ hmem)
    rw [hstored y hy hid, hlive] at hrevoked
    cases hrevoked
  refine ⟨⟨fun y hy hmem => ?_, h.refused⟩, fun id hid => ?_⟩
  · rcases mem_sessions_save hy with rfl | ⟨hy, -⟩
    · exact absurd hmem hnever
    · exact h.stays y hy hmem
  · obtain ⟨y, hy, rfl⟩ := h.present id hid
    refine ⟨y, Table.mem_save.mpr (.inr ⟨hy, fun heq => hnever ?_⟩), rfl⟩
    have heq : y.id = x.id := heq
    rw [← heq]
    exact hid

theorem RevocationsGrow.save (hlive : x.revoked = false) :
    RevocationsGrow s (SessionTask.save s x) := by
  refine ⟨fun _ h => h, fun y hy hrevoked => ?_⟩
  rcases mem_sessions_save hy with rfl | ⟨hy, -⟩
  · rw [hlive] at hrevoked
    cases hrevoked
  · exact .inl hy

/-- The save of a revocation, which completes it. -/
theorem RevocationSound.revoke (h : RevocationSound s) (hrevoked : x.revoked = true) :
    RevocationSound { SessionTask.save s x with revoked := x.id :: s.revoked } := by
  refine ⟨⟨fun y hy hmem => ?_, h.refused⟩, fun id hid => ?_⟩
  · rcases mem_sessions_save hy with rfl | ⟨hy, hne⟩
    · exact hrevoked
    · exact h.stays y hy ((List.mem_cons.mp hmem).resolve_left hne)
  · by_cases heq : id = x.id
    · exact ⟨_, saved_mem, heq.symm⟩
    · obtain ⟨y, hy, rfl⟩ := h.present id ((List.mem_cons.mp hid).resolve_left heq)
      exact ⟨y, Table.mem_save.mpr (.inr ⟨hy, heq⟩), rfl⟩

theorem RevocationsGrow.revoke :
    RevocationsGrow s { SessionTask.save s x with revoked := x.id :: s.revoked } := by
  refine ⟨fun _ h => List.mem_cons_of_mem _ h, fun y hy _ => ?_⟩
  rcases mem_sessions_save hy with rfl | ⟨hy, -⟩
  · exact .inr List.mem_cons_self
  · exact .inl hy

/-- One turn, when a refresh that saves finds the flag as it has loaded it. -/
theorem SessionTask.go_sound (h : RevocationSound s) (ht : t.Relies s) {reply : Awaited}
    {r : SessionTask ⊕ SessionAnswer} (hgo : t.go s reply = .ok (s', r))
    (hstored : ∀ x user accessToken before, t = .refreshSave x user accessToken before →
      ∀ y ∈ s.auth.sessions, y.id = x.id → y.revoked = x.revoked) :
    RevocationSound s' ∧ (∀ t', r = .inl t' → t'.Relies s') ∧ RevocationsGrow s s' := by
  cases t with
  | refresh token accessToken =>
    cases hgo
    refine ⟨h, fun t' ht' => ?_, .refl⟩
    cases ht'
    exact fun _ hid => hid
  | refreshFind token accessToken before =>
    simp only [go, bind_eq_ok, orThrow_eq_ok, pure_eq_ok, Prod.mk.injEq] at hgo
    obtain ⟨-, -, session, hsession, rfl, rfl⟩ := hgo
    have hsat := Table.findOne_sat hsession
    simp only [Bool.and_eq_true, Bool.not_eq_true'] at hsat
    have hmem := Table.findOne_mem hsession
    refine ⟨h, fun t' ht' => ?_, .refl⟩
    cases ht'
    refine ⟨fun hbefore => ?_, hsat.2, fun y hy hid hrevoked => ?_⟩
    · have hrevoked := h.stays session hmem (ht hbefore)
      rw [hsat.2] at hrevoked
      cases hrevoked
    · rw [Table.eq_of_key hy hmem hid, hsat.2] at hrevoked
      cases hrevoked
  | refreshUser session accessToken before =>
    simp only [go, bind_eq_ok, orThrow_eq_ok, require_eq_ok, pure_eq_ok, Prod.mk.injEq] at hgo
    obtain ⟨-, -, user, -, -, -, rfl, rfl⟩ := hgo
    refine ⟨h, fun t' ht' => ?_, .refl⟩
    cases ht'
    exact ht
  | refreshSave session user accessToken before =>
    simp only [go, bind_eq_ok, pure_eq_ok, Prod.mk.injEq] at hgo
    obtain ⟨-, -, rfl, rfl⟩ := hgo
    refine ⟨h.save ht.2.1 (hstored _ _ _ _ rfl), fun t' ht' => ?_, .save ht.2.1⟩
    cases ht'
    exact ht.1
  | refreshSign session user accessToken before =>
    simp only [go, bind_eq_ok, orThrow_eq_ok, pure_eq_ok, Prod.mk.injEq] at hgo
    obtain ⟨jwt, -, rfl, rfl⟩ := hgo
    refine ⟨⟨⟨h.stays, fun entry hentry => ?_⟩, h.present⟩, fun t' ht' => (by cases ht'),
      ⟨fun _ hid => hid, fun y hy _ => .inl hy⟩⟩
    rcases List.mem_cons.mp hentry with rfl | hentry
    · exact ht
    · exact h.refused entry hentry
  | revoke userId sessionId =>
    simp only [go, bind_eq_ok, orThrow_eq_ok, pure_eq_ok, Prod.mk.injEq] at hgo
    obtain ⟨-, -, session, -, rfl, rfl⟩ := hgo
    refine ⟨h, fun t' ht' => ?_, .refl⟩
    cases ht'
    rfl
  | revokeSave session =>
    simp only [go, bind_eq_ok, pure_eq_ok, Prod.mk.injEq] at hgo
    obtain ⟨-, -, rfl, rfl⟩ := hgo
    exact ⟨h.revoke ht, fun t' ht' => (by cases ht'), .revoke⟩

/-- What comes from outside revokes nothing and brings no revoked session. -/
theorem RevocationSound.outside (h : RevocationSound s) {event : SessionsOutside}
    (hout : s.outside event = some s') : RevocationSound s' ∧ RevocationsGrow s s' := by
  cases event with
  | login session =>
    obtain ⟨sessions, hins, rfl⟩ := Option.map_eq_some_iff.mp hout
    obtain ⟨hfresh, hmem⟩ := Table.insert_eq_some hins
    refine ⟨⟨⟨fun y hy hid => ?_, h.refused⟩, fun id hid => ?_⟩,
      ⟨fun _ hid => hid, fun y hy hrevoked => ?_⟩⟩
    · rcases (hmem y).mp hy with rfl | hy
      · obtain ⟨x, hx, hsame⟩ := h.present _ hid
        exact absurd hsame (hfresh x hx)
      · exact h.stays y hy hid
    · obtain ⟨x, hx, hsame⟩ := h.present id hid
      exact ⟨x, (hmem x).mpr (.inr hx), hsame⟩
    · rcases (hmem y).mp hy with rfl | hy
      · cases hrevoked
      · exact .inl hy
  | users users =>
    cases hout
    exact ⟨⟨⟨h.stays, h.refused⟩, h.present⟩, fun _ hid => hid, fun y hy _ => .inl hy⟩
  | tick seconds =>
    cases hout
    exact ⟨⟨⟨h.stays, h.refused⟩, h.present⟩, fun _ hid => hid, fun y hy _ => .inl hy⟩

end Steps

/-! ## Runs -/

/-- The table is sound, and every call under way has what it relies on. -/
def RevocationInvariant (p : SessionsPool) : Prop :=
  p.Holds RevocationSound fun s t => t.Relies s

theorem RevocationInvariant.step {p p' : SessionsPool} {l : SessionsLabel}
    (hp : RevocationInvariant p) (hstored : SavesFlagAsStored p l)
    (hstep : sessionStep p l = some p') : RevocationInvariant p' := by
  cases l with
  | start task =>
    refine hp.start ?_ hstep
    obtain ⟨hstarts, -⟩ := Tasks.step_start hstep
    cases task <;> trivial
  | turn i reply =>
    refine hp.call (fun task hmem htask s' r hgo => ?_) hstep
    have hflag : ∀ x user accessToken before, task = .refreshSave x user accessToken before →
        ∀ y ∈ p.store.auth.sessions, y.id = x.id → y.revoked = x.revoked := by
      rintro x user accessToken before rfl
      cases reply with
      | ok u => exact hstored x user accessToken before htask
      | error e => cases hgo
    obtain ⟨hsound, hnext, hgrow⟩ := task.go_sound hp.store (hp.tasks task hmem) hgo hflag
    exact ⟨hsound, hnext, fun t _ ht => ht.grow hgrow⟩
  | outside event =>
    exact hp.outside (fun s' hs' => (hp.store.outside hs').1)
      (fun s' hs' t _ ht => ht.grow (hp.store.outside hs').2) hstep

/-- A save that does not find the flag as it was loaded lifts a revocation. -/
theorem RevocationInvariant.needed {p p' : SessionsPool} {l : SessionsLabel}
    (hp : RevocationInvariant p) (hstep : sessionStep p l = some p')
    (hpermanent : RevocationPermanent p'.store) : SavesFlagAsStored p l := by
  cases l with
  | start task => trivial
  | outside event => trivial
  | turn i reply =>
    cases reply with
    | error e => trivial
    | ok u =>
      intro x user accessToken before htask y hy hid
      obtain ⟨-, hlive, hrow⟩ := hp.tasks _ (List.mem_of_getElem? htask)
      rw [hlive]
      by_contra hrevoked
      have hmem := hrow y hy hid (Bool.not_eq_false _ ▸ hrevoked)
      obtain ⟨task, htask', hcall⟩ := Tasks.step_call hstep
      cases htask.symm.trans htask'
      rcases hcall with ⟨s', r, hgo, rfl⟩ | ⟨e, hgo, -⟩
      · cases hgo
        have hstays := hpermanent.stays _ saved_mem hmem
        rw [hlive] at hstays
        cases hstays
      · cases hgo

theorem savesFlagAsStored_of_stuck {p : SessionsPool} {l : SessionsLabel}
    (h : sessionStep p l = none) : SavesFlagAsStored p l := by
  cases l with
  | start task => trivial
  | outside event => trivial
  | turn i reply =>
    cases reply with
    | error e => trivial
    | ok u =>
      intro x user accessToken before htask
      rw [sessionStep, Tasks.step, Tasks.turnOf, htask] at h
      cases h

/-- For every table of sessions and every run of `refreshToken` and `revokeSession` calls in any
interleaving: revocations are permanent in every state of the run if and only if every refresh
that saves a session finds its flag as it has loaded it. -/
theorem revocation_permanent_iff (auth : AuthState) (labels : List SessionsLabel) :
    (∀ done, done <+: labels → ∀ p', run sessionStep (.idle auth) done = some p' →
      RevocationPermanent p'.store) ↔
    Along sessionStep SavesFlagAsStored (.idle auth) labels := by
  refine property_iff_along (I := RevocationInvariant)
    (fun _ h => h.store.toRevocationPermanent) (fun _ _ _ h hC hs => h.step hC hs)
    (fun _ _ _ h hs hP => h.needed hs hP) (fun _ _ hs => savesFlagAsStored_of_stuck hs) ?_
  refine ⟨⟨⟨fun _ _ h => (nomatch h), fun _ h => (nomatch h)⟩, fun _ h => (nomatch h)⟩, ?_⟩
  exact fun _ h => (nomatch h)

/-! ## A refresh that has read the session before it was revoked -/

section Counterexample

/-- A refresh loads Alice's session and her row, she revokes the session, and the refresh saves
what it has loaded. -/
def lostRevocation : List SessionsLabel :=
  [.start (.refresh "refresh" "access"), .turn 0 (.ok ()), .turn 0 (.ok ()), .turn 0 (.ok ()),
    .start (.revoke "alice" "session"), .turn 0 (.ok ()), .turn 0 (.ok ()), .turn 0 (.ok ())]

def aliceSignedIn : AuthState where
  users := .single (.withDefaults "alice" "alice@nexus.local" "alice" "password")
  sessions := .single ⟨"session", "alice", "refresh", "127.0.0.1", "browser", 0, false, 0, 0⟩
  jwt := .fresh
  now := 0

theorem revocation_lost :
    ¬ ∀ done, done <+: lostRevocation → ∀ p', run sessionStep (.idle aliceSignedIn) done = some p' →
      RevocationPermanent p'.store := by
  intro h
  have hstays := (h lostRevocation List.prefix_rfl _ rfl).stays _ List.mem_cons_self
    List.mem_cons_self
  cases hstays

end Counterexample

end Panel
