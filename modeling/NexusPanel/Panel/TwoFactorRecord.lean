import NexusPanel.Foundation.Transition
import NexusPanel.Panel.Auth

/-!
# The two-factor columns of a user

Setting up, verifying and disabling the second factor and logging in with it work on four
columns of a row: `usesTotp`, `totpSecret`, `backupCodes` and `pendingTotpSecret`. They are
meant to move together. Two of the methods clear a column by assigning `undefined` to it, and
`save` skips what is undefined: verifying a setup leaves the pending secret in the row, and
disabling leaves the secret and the codes.

A run keeps the record in order exactly as long as neither of the two goes through. A setup
that stays pending can be verified again and again.
-/

namespace Panel

open Fallible Transition

/-! ## Runs -/

/-- The four methods, and the clock. -/
inductive TwoFactorCall
  | setupTwoFactor (userId secret : String)
  | verifyTwoFactorSetup (userId code : String) (random salt : Nat → String)
  | disableTwoFactor (userId code : String)
  | verifyTwoFactorLogin (sessionToken code ip userAgent : String) (fresh : Fresh)
  | tick (seconds : Nat)

/-- The tables, and the users with a setup that has not been verified yet. -/
structure TwoFactorState where
  auth : AuthState
  awaiting : List String

/-- One call: a call that throws changes nothing. -/
def TwoFactorState.step (crypto : Crypto) (s : TwoFactorState) :
    TwoFactorCall → Option TwoFactorState
  | .setupTwoFactor userId secret =>
    match AuthService.setupTwoFactor s.auth userId secret with
    | .ok (auth, _) => some ⟨auth, userId :: s.awaiting⟩
    | .error _ => some s
  | .verifyTwoFactorSetup userId code random salt =>
    match AuthService.verifyTwoFactorSetup crypto s.auth userId code random salt with
    | .ok (auth, _) => some ⟨auth, s.awaiting.filter (· ≠ userId)⟩
    | .error _ => some s
  | .disableTwoFactor userId code =>
    match AuthService.disableTwoFactor crypto s.auth userId code with
    | .ok (auth, _) => some { s with auth }
    | .error _ => some s
  | .verifyTwoFactorLogin sessionToken code ip userAgent fresh =>
    match AuthService.verifyTwoFactorLogin crypto s.auth sessionToken code ip userAgent fresh with
    | .ok (auth, _) => some { s with auth }
    | .error _ => some s
  | .tick seconds => some { s with auth := { s.auth with now := s.auth.now + seconds } }

/-! ## Sound records -/

/-- A row whose columns agree; a pending secret is there for a setup under way only. -/
structure User.RecordSound (awaiting : List String) (u : User) : Prop where
  secret : u.usesTotp = true ↔ u.totpSecret ≠ none
  codes : u.backupCodes ≠ none → u.usesTotp = true
  pending : u.pendingTotpSecret ≠ none → u.id ∈ awaiting

def TwoFactorState.RecordSound (s : TwoFactorState) : Prop :=
  ∀ u ∈ s.auth.users, u.RecordSound s.awaiting

/-- A verification that succeeds finds its setup under way. -/
def VerifiesSetup (crypto : Crypto) (s : TwoFactorState) : TwoFactorCall → Prop
  | .verifyTwoFactorSetup userId code random salt =>
    (∃ r, AuthService.verifyTwoFactorSetup crypto s.auth userId code random salt = .ok r) →
      userId ∈ s.awaiting
  | _ => True

/-- A secret of the user that the code is right for. -/
def CodeAccepted (crypto : Crypto) (s : AuthState) (userId code : String)
    (secret : User → Option String) : Prop :=
  ∃ u ∈ s.users, u.id = userId ∧
    ∃ v, truthy (secret u) = some v ∧ crypto.totpVerify code v s.now = true

/-- No setup is verified with a right code, and no second factor is disabled with one. -/
def NoCodeAccepted (crypto : Crypto) (s : TwoFactorState) : TwoFactorCall → Prop
  | .verifyTwoFactorSetup userId code _ _ =>
    ¬CodeAccepted crypto s.auth userId code User.pendingTotpSecret
  | .disableTwoFactor userId code =>
    ¬CodeAccepted crypto s.auth userId code fun u => if u.usesTotp then u.totpSecret else none
  | _ => True

/-! ## What a call does to the rows -/

section Calls

variable {crypto : Crypto} {s : AuthState} {userId code secret : String}

theorem setupTwoFactor_rows {s' : AuthState} {r : String}
    (h : AuthService.setupTwoFactor s userId secret = .ok (s', r)) :
    ∃ u ∈ s.users, u.id = userId ∧
      s'.users = s.users.save { u with pendingTotpSecret := some secret, updatedAt := s.now } := by
  simp only [AuthService.setupTwoFactor, bind_eq_ok, orThrow_eq_ok, require_eq_ok, pure_eq_ok,
    Prod.mk.injEq] at h
  obtain ⟨u, hu, -, -, rfl, -⟩ := h
  have hid := Table.findOne_sat hu
  rw [beq_iff_eq] at hid
  exact ⟨u, Table.findOne_mem hu, hid, rfl⟩

/-- The user the methods look up is the one with the id. -/
theorem findOne_userId {u : User} (hu : u ∈ s.users) (hid : u.id = userId) :
    (s.users.findOne fun u => u.id == userId) = some u := by
  refine Table.findOne_eq_some hu (beq_iff_eq.mpr hid) fun v _ hv => ?_
  exact (beq_iff_eq.mp hv).trans hid.symm

/-- A verification goes through exactly for a right code, and leaves the pending secret. -/
theorem verifyTwoFactorSetup_rows {random salt : Nat → String} {s' : AuthState}
    {codes : List String}
    (h : AuthService.verifyTwoFactorSetup crypto s userId code random salt = .ok (s', codes)) :
    CodeAccepted crypto s userId code User.pendingTotpSecret ∧
      ∃ u ∈ s'.users, u.id = userId ∧ u.pendingTotpSecret ≠ none := by
  simp only [AuthService.verifyTwoFactorSetup, bind_eq_ok, orThrow_eq_ok, require_eq_ok,
    pure_eq_ok, Prod.mk.injEq] at h
  obtain ⟨u, hu, pending, hpending, -, hcode, rfl, -⟩ := h
  have hid := Table.findOne_sat hu
  rw [beq_iff_eq] at hid
  refine ⟨⟨u, Table.findOne_mem hu, hid, pending, hpending, hcode⟩, _,
    Table.mem_save.mpr (.inl rfl), hid, ?_⟩
  rw [truthy_eq_some hpending]
  exact Option.some_ne_none _

theorem verifyTwoFactorSetup_ok
    (h : CodeAccepted crypto s userId code User.pendingTotpSecret) (random salt : Nat → String) :
    ∃ r, AuthService.verifyTwoFactorSetup crypto s userId code random salt = .ok r := by
  obtain ⟨u, hu, hid, v, hv, hcode⟩ := h
  simp only [AuthService.verifyTwoFactorSetup, bind_eq_ok, orThrow_eq_ok, require_eq_ok,
    pure_eq_ok]
  exact ⟨_, u, findOne_userId hu hid, v, hv, (), hcode, rfl⟩

/-- Disabling leaves the secret. -/
theorem disableTwoFactor_rows {s' : AuthState} {r : String}
    (h : AuthService.disableTwoFactor crypto s userId code = .ok (s', r)) :
    CodeAccepted crypto s userId code (fun u => if u.usesTotp then u.totpSecret else none) ∧
      ∃ u ∈ s'.users, u.usesTotp = false ∧ u.totpSecret ≠ none := by
  simp only [AuthService.disableTwoFactor, bind_eq_ok, orThrow_eq_ok, require_eq_ok, pure_eq_ok,
    Prod.mk.injEq] at h
  obtain ⟨u, hu, -, htotp, secret, hsecret, -, hcode, rfl, -⟩ := h
  have hid := Table.findOne_sat hu
  rw [beq_iff_eq] at hid
  refine ⟨⟨u, Table.findOne_mem hu, hid, secret, ?_, hcode⟩, _,
    Table.mem_save.mpr (.inl rfl), rfl, ?_⟩
  · dsimp only
    rw [if_pos htotp, hsecret]
  · rw [truthy_eq_some hsecret]
    exact Option.some_ne_none _

theorem disableTwoFactor_ok
    (h : CodeAccepted crypto s userId code fun u => if u.usesTotp then u.totpSecret else none) :
    ∃ r, AuthService.disableTwoFactor crypto s userId code = .ok r := by
  obtain ⟨u, hu, hid, v, hv, hcode⟩ := h
  dsimp only at hv
  by_cases htotp : u.usesTotp = true
  · rw [if_pos htotp] at hv
    simp only [AuthService.disableTwoFactor, bind_eq_ok, orThrow_eq_ok, require_eq_ok,
      pure_eq_ok]
    exact ⟨_, u, findOne_userId hu hid, (), htotp, v, hv, (), hcode, rfl⟩
  · rw [if_neg htotp] at hv
    cases hv

/-- What a login leaves alone in a row, and the codes it may only take from. -/
def SameRecord (old u : User) : Prop :=
  u.id = old.id ∧ u.usesTotp = old.usesTotp ∧ u.totpSecret = old.totpSecret ∧
    u.pendingTotpSecret = old.pendingTotpSecret ∧ (u.backupCodes ≠ none → old.backupCodes ≠ none)

theorem checkSecondFactor_rows {user : User} (hmem : user ∈ s.users) {users : Table User}
    (h : AuthService.checkSecondFactor crypto s user secret code = .ok users) :
    ∀ u ∈ users, ∃ old ∈ s.users, SameRecord old u := by
  intro u hu
  unfold AuthService.checkSecondFactor at h
  split at h
  next =>
    cases h
    exact ⟨u, hu, rfl, rfl, rfl, rfl, id⟩
  next =>
    split at h
    next codes hcodes =>
      cases h
      rcases Table.mem_save.mp hu with rfl | ⟨hu, -⟩
      · refine ⟨user, hmem, rfl, rfl, rfl, rfl, fun _ hnone => ?_⟩
        rw [hnone] at hcodes
        cases hcodes
      · exact ⟨u, hu, rfl, rfl, rfl, rfl, id⟩
    next => cases h

/-- A login changes the codes of a row that had codes, and times. -/
theorem verifyTwoFactorLogin_rows {sessionToken ip userAgent : String} {fresh : Fresh}
    {s' : AuthState} {result : LoginResult}
    (h : AuthService.verifyTwoFactorLogin crypto s sessionToken code ip userAgent fresh =
      .ok (s', result)) :
    ∀ u ∈ s'.users, ∃ old ∈ s.users, SameRecord old u := by
  simp only [AuthService.verifyTwoFactorLogin, bind_eq_ok, orThrow_eq_ok, require_eq_ok] at h
  obtain ⟨payload, -, -, -, user, huser, -, -, secret, -, users, hcheck, h⟩ := h
  simp only [AuthService.openSession, bind_eq_ok, orThrow_eq_ok, pure_eq_ok, Prod.mk.injEq] at h
  obtain ⟨jwt, -, sessions, -, rfl, -⟩ := h
  intro u hu
  obtain ⟨mid, hmid, rfl⟩ := (Table.mem_update).mp hu
  obtain ⟨old, hold, hsame⟩ := checkSecondFactor_rows (Table.findOne_mem huser) hcheck mid hmid
  refine ⟨old, hold, ?_⟩
  split <;> exact hsame

end Calls

/-! ## Runs that keep the record -/

section Runs

variable {crypto : Crypto} {s s' : TwoFactorState} {call : TwoFactorCall}

/-- A sound record stays sound under a step exactly when no right code goes through. -/
theorem recordSound_step (hs : s.RecordSound) (hstep : s.step crypto call = some s') :
    s'.RecordSound ↔ NoCodeAccepted crypto s call := by
  cases call with
  | setupTwoFactor userId secret =>
    refine ⟨fun _ => trivial, fun _ => ?_⟩
    simp only [TwoFactorState.step] at hstep
    split at hstep
    next auth r h =>
      cases hstep
      obtain ⟨u, hu, hid, hrows⟩ := setupTwoFactor_rows h
      intro v hv
      dsimp only at hv
      rw [hrows] at hv
      rcases Table.mem_save.mp hv with rfl | ⟨hv, -⟩
      · exact ⟨(hs u hu).secret, (hs u hu).codes, fun _ => by rw [← hid]; exact .head _⟩
      · exact ⟨(hs v hv).secret, (hs v hv).codes, fun h => .tail _ ((hs v hv).pending h)⟩
    next =>
      cases hstep
      exact hs
  | verifyTwoFactorSetup userId code random salt =>
    simp only [TwoFactorState.step] at hstep
    split at hstep
    next auth codes h =>
      cases hstep
      obtain ⟨haccepted, u, hu, hid, hpending⟩ := verifyTwoFactorSetup_rows h
      refine ⟨fun hsound => ?_, fun hno => absurd haccepted hno⟩
      have hmem := (hsound u hu).pending hpending
      simp [hid] at hmem
    next e h =>
      cases hstep
      refine ⟨fun _ haccepted => ?_, fun _ => hs⟩
      obtain ⟨r, hr⟩ := verifyTwoFactorSetup_ok haccepted random salt
      rw [h] at hr
      cases hr
  | disableTwoFactor userId code =>
    simp only [TwoFactorState.step] at hstep
    split at hstep
    next auth r h =>
      cases hstep
      obtain ⟨haccepted, u, hu, htotp, hsecret⟩ := disableTwoFactor_rows h
      refine ⟨fun hsound => ?_, fun hno => absurd haccepted hno⟩
      have hset := (hsound u hu).secret.mpr hsecret
      rw [htotp] at hset
      cases hset
    next e h =>
      cases hstep
      refine ⟨fun _ haccepted => ?_, fun _ => hs⟩
      obtain ⟨r, hr⟩ := disableTwoFactor_ok haccepted
      rw [h] at hr
      cases hr
  | verifyTwoFactorLogin sessionToken code ip userAgent fresh =>
    refine ⟨fun _ => trivial, fun _ => ?_⟩
    simp only [TwoFactorState.step] at hstep
    split at hstep
    next auth result h =>
      cases hstep
      intro u hu
      obtain ⟨old, hold, hid, htotp, hsecret, hpending, hcodes⟩ := verifyTwoFactorLogin_rows h u hu
      obtain ⟨hsecret', hcodes', hpending'⟩ := hs old hold
      refine ⟨?_, fun h => ?_, fun h => ?_⟩
      · rw [htotp, hsecret]
        exact hsecret'
      · rw [htotp]
        exact hcodes' (hcodes h)
      · rw [hid]
        rw [hpending] at h
        exact hpending' h
    next =>
      cases hstep
      exact hs
  | tick seconds =>
    cases hstep
    exact ⟨fun _ => trivial, fun _ => hs⟩

/-- In a sound record a verification that succeeds finds its setup under way. -/
theorem VerifiesSetup.of_recordSound (hs : s.RecordSound) : VerifiesSetup crypto s call := by
  cases call with
  | verifyTwoFactorSetup userId code random salt =>
    rintro ⟨r, hr⟩
    obtain ⟨⟨u, hu, hid, v, hv, -⟩, -⟩ := verifyTwoFactorSetup_rows hr
    rw [← hid]
    refine (hs u hu).pending ?_
    rw [truthy_eq_some hv]
    exact Option.some_ne_none _
  | setupTwoFactor | disableTwoFactor | verifyTwoFactorLogin | tick => trivial

/-- For every state with a sound record and every run of the four methods: the record is sound
in every state, and every verification that succeeds finds its setup under way, if and only
if no setup is verified, and no second factor disabled, with a right code. -/
theorem twoFactorRecord_iff (hs : s.RecordSound) (calls : List TwoFactorCall) :
    ((∀ ks, ks <+: calls → ∀ s', run (TwoFactorState.step crypto) s ks = some s' →
        s'.RecordSound) ∧
      Along (TwoFactorState.step crypto) (VerifiesSetup crypto) s calls) ↔
      Along (TwoFactorState.step crypto) (NoCodeAccepted crypto) s calls := by
  have hiff : (∀ ks, ks <+: calls → ∀ s', run (TwoFactorState.step crypto) s ks = some s' →
      s'.RecordSound) ↔ Along (TwoFactorState.step crypto) (NoCodeAccepted crypto) s calls :=
    always_iff_along (fun s call s' hs hstep => recordSound_step hs hstep)
      (fun s call hstuck => ?_) hs
  · refine ⟨fun h => hiff.mp h.1, fun h => ⟨hiff.mpr h, ?_⟩⟩
    exact Along.weaken (fun s call s' hs hno hstep => (recordSound_step hs hstep).mpr hno)
      (fun s call hs _ => VerifiesSetup.of_recordSound hs) hs h
  · cases call with
    | tick seconds => cases hstuck
    | setupTwoFactor | verifyTwoFactorSetup | disableTwoFactor | verifyTwoFactorLogin =>
      simp only [TwoFactorState.step] at hstuck
      split at hstuck <;> cases hstuck

end Runs

/-! ## A user who switches the second factor on and off -/

section Counterexample

def oneUser : TwoFactorState where
  auth :=
    { users := ⟨[.withDefaults "u" "user@nexus.local" "user" "password"], by decide⟩
      sessions := .empty, jwt := .fresh, now := 0 }
  awaiting := []

theorem oneUser_sound : oneUser.RecordSound := by
  intro u hu
  cases List.mem_singleton.mp hu
  exact ⟨by decide, by decide, by decide⟩

/-- Setting up the second factor, and not verifying it, is in order. -/
theorem twoFactorRecord_setup :
    (∀ ks, ks <+: [TwoFactorCall.setupTwoFactor "u" "secret"] → ∀ s',
        run (TwoFactorState.step .plain) oneUser ks = some s' → s'.RecordSound) ∧
      Along (TwoFactorState.step .plain) (VerifiesSetup .plain) oneUser
        [.setupTwoFactor "u" "secret"] :=
  (twoFactorRecord_iff oneUser_sound _).mpr ⟨trivial, fun _ _ => trivial⟩

/-- A setup that was verified is still pending, so it can be verified again. -/
theorem setup_stays_pending :
    ∃ s', run (TwoFactorState.step .plain) oneUser
        [.setupTwoFactor "u" "secret",
          .verifyTwoFactorSetup "u" "secret" (fun _ => "code") fun _ => "salt"] = some s' ∧
      ¬s'.RecordSound ∧
      ¬VerifiesSetup .plain s'
        (.verifyTwoFactorSetup "u" "secret" (fun _ => "code") fun _ => "salt") := by
  refine ⟨_, rfl, fun h => ?_, fun h => ?_⟩
  · have hmem := (h _ (.head _)).pending (by decide)
    revert hmem
    decide
  · have hmem := h ⟨_, rfl⟩
    revert hmem
    decide

end Counterexample

end Panel
