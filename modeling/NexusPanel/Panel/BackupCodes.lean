import NexusPanel.Foundation.Pool
import NexusPanel.Panel.Auth

/-!
# A backup code grants one login

Every method that changes a user loads the row, awaits, and saves the whole row it has loaded.
Here these methods are cut at their `await`s: the second step of a login with its loop of
`bcrypt.compare` calls, the two-factor methods, and the two routes that update a user. A login
takes the code it has found out of the list it has loaded, so two logins that have loaded the
same list both find it there, and a row loaded before a code was spent puts the code back when
it is saved.

The history variables say which codes a setup has issued to whom, which a login has taken out
of a list, and which a completed login was let in with. No method reads them.
-/

namespace Panel

open Transition Fallible

/-! ## The methods -/

/-- A code of a user. -/
abbrev UserCode := String × String

structure CodesState where
  auth : AuthState
  issued : List UserCode
  spent : List UserCode
  logins : List UserCode

/-- What a caller of `verifyTwoFactorLogin` sends and what the call draws. -/
structure LoginAttempt where
  code : String
  ip : String
  userAgent : String
  fresh : Fresh

/-- `UsersService.update`, and the administrator's copy of it with its own exceptions. -/
inductive UpdateRoute
  | service
  | admin
deriving DecidableEq

namespace UpdateRoute

def notFound : UpdateRoute → HttpException
  | service => .notFound "User not found"
  | admin => .badRequest "User not found"

def conflict (message : String) : UpdateRoute → HttpException
  | service => .conflict message
  | admin => .badRequest message

end UpdateRoute

/-- Where a call stands. A login that was let in by a backup code remembers it. -/
inductive UserTask
  | login (sessionToken : String) (attempt : LoginAttempt)
  | loginFind (userId : String) (attempt : LoginAttempt)
  | loginCompare (user : User) (i : Nat) (attempt : LoginAttempt)
  | loginSave (user : User) (i : Nat) (attempt : LoginAttempt)
  | loginSign (user : User) (attempt : LoginAttempt) (backupCode : Option String)
  | loginSession (user : User) (attempt : LoginAttempt) (backupCode : Option String)
  | loginStamp (user : User) (attempt : LoginAttempt) (backupCode : Option String)
  | update (route : UpdateRoute) (id : String) (dto : UpdateUserDto) (salt : String)
  | updateEmail (route : UpdateRoute) (user : User) (dto : UpdateUserDto) (salt : String)
  | updateUsername (route : UpdateRoute) (user : User) (dto : UpdateUserDto) (salt : String)
  | updateSave (user : User)
  | setup (userId secret : String)
  | setupSave (user : User) (secret : String)
  | verifySetup (userId code : String) (random salt : Nat → String)
  | verifySetupSave (user : User) (secret : String) (random salt : Nat → String)
  | disable (userId code : String)
  | disableSave (user : User)

inductive UserAnswer
  | login (result : LoginResult)
  | user (user : User)
  | secret (secret : String)
  | backupCodes (codes : List String)
  | message (message : String)

/-- The row of the user as it is now. -/
def AuthState.stored (s : AuthState) (id : String) : Option User := s.users.findOne fun u => u.id == id

namespace UserTask

/-- `repository.save(user)`. -/
def save (s : CodesState) (user : User) : CodesState :=
  { s with auth.users := s.auth.users.save { user with updatedAt := s.auth.now } }

/-- The codes of the row a call has loaded. -/
def codes (user : User) : List String := user.backupCodes.getD []

/-- `backupCodes.splice(i, 1)`. -/
def splice (user : User) (i : Nat) : User :=
  { user with backupCodes := some ((codes user).eraseIdx i) }

/-- What `verifyTwoFactorSetup` saves; an `undefined` column keeps what the row has. -/
def verified (crypto : Crypto) (s : AuthState) (user : User) (secret : String)
    (random salt : Nat → String) : User :=
  { user with
    totpSecret := some secret
    pendingTotpSecret := (s.stored user.id).bind User.pendingTotpSecret
    usesTotp := true
    backupCodes := some ((AuthService.generateBackupCodes random).mapIdx
      fun i c => crypto.hash (salt i) c) }

/-- What `disableTwoFactor` saves. -/
def disabled (s : AuthState) (user : User) : User :=
  { user with
    totpSecret := (s.stored user.id).bind User.totpSecret
    usesTotp := false
    backupCodes := (s.stored user.id).bind User.backupCodes }

def go (crypto : Crypto) (s : CodesState) (reply : Awaited) :
    UserTask → Except HttpException (CodesState × (UserTask ⊕ UserAnswer))
  | .login sessionToken attempt => do
    let payload ← orThrow (s.auth.jwt.verify s.auth.now sessionToken)
      (.unauthorized "Invalid or expired session token")
    require (payload.purpose == some "two-factor") (.unauthorized "Invalid session token")
    return (s, .inl (.loginFind payload.sub attempt))
  | .loginFind userId attempt => do
    reply
    let user ← orThrow (s.auth.stored userId) (.unauthorized "User not found or disabled")
    require user.enabled (.unauthorized "User not found or disabled")
    let secret ← orThrow (truthy user.totpSecret)
      (.badRequest "Two-factor authentication is not configured")
    return (s, .inl (if crypto.totpVerify attempt.code secret s.auth.now
      then .loginSign user attempt none else .loginCompare user 0 attempt))
  | .loginCompare user i attempt => do
    reply
    let hash ← orThrow (codes user)[i]? (.unauthorized "Invalid two-factor code")
    return (s, .inl (if crypto.compare attempt.code hash
      then .loginSave user i attempt else .loginCompare user (i + 1) attempt))
  | .loginSave user i attempt => do
    reply
    return ({ save s (splice user i) with spent := (user.id, attempt.code) :: s.spent },
      .inl (.loginSign (splice user i) attempt (some attempt.code)))
  | .loginSign user attempt backupCode => do
    let jwt ← orThrow
      (s.auth.jwt.sign attempt.fresh.token (.access user.id user.email user.rootAdmin)
        (s.auth.now + 900))
      (.internal "signature collision")
    return ({ s with auth.jwt := jwt }, .inl (.loginSession user attempt backupCode))
  | .loginSession user attempt backupCode => do
    reply
    let session : Session :=
      { id := attempt.fresh.sessionId, userId := user.id
        refreshToken := attempt.fresh.refreshToken, ipAddress := attempt.ip
        userAgent := attempt.userAgent, lastActiveAt := s.auth.now, revoked := false
        createdAt := s.auth.now, updatedAt := s.auth.now }
    let sessions ← orThrow (s.auth.sessions.insert session) (.internal "duplicate key")
    return ({ s with auth.sessions := sessions }, .inl (.loginStamp user attempt backupCode))
  | .loginStamp user attempt backupCode => do
    reply
    let users := s.auth.users.update (fun u => u.id == user.id)
      fun u => { u with lastLogin := some s.auth.now, updatedAt := s.auth.now }
    return ({ s with
        auth.users := users
        logins := backupCode.toList.map (fun code => (user.id, code)) ++ s.logins },
      .inr (.login (.loggedIn attempt.fresh.token attempt.fresh.refreshToken user.summary)))
  | .update route id dto salt => do
    reply
    let user ← orThrow (s.auth.stored id) route.notFound
    return (s, .inl (.updateEmail route user dto salt))
  | .updateEmail route user dto salt => do
    reply
    require (!UsersService.conflicts s.auth User.email dto.email user)
      (route.conflict "Email already in use")
    return (s, .inl (.updateUsername route user dto salt))
  | .updateUsername route user dto salt => do
    reply
    require (!UsersService.conflicts s.auth User.username dto.username user)
      (route.conflict "Username already in use")
    return (s, .inl (.updateSave (UsersService.assign crypto dto salt user s.auth.now)))
  | .updateSave user => do
    reply
    return (save s user, .inr (.user user))
  | .setup userId secret => do
    reply
    let user ← orThrow (s.auth.stored userId) (.notFound "User not found")
    require (!user.usesTotp) (.badRequest "Two-factor authentication is already enabled")
    return (s, .inl (.setupSave user secret))
  | .setupSave user secret => do
    reply
    return (save s { user with pendingTotpSecret := some secret }, .inr (.secret secret))
  | .verifySetup userId code random salt => do
    reply
    let user ← orThrow (s.auth.stored userId) (.notFound "User not found")
    let pending ← orThrow (truthy user.pendingTotpSecret)
      (.badRequest "Two-factor setup not initiated")
    require (crypto.totpVerify code pending s.auth.now) (.badRequest "Invalid verification code")
    return (s, .inl (.verifySetupSave user pending random salt))
  | .verifySetupSave user secret random salt => do
    reply
    let issued := (AuthService.generateBackupCodes random).map fun code => (user.id, code)
    return ({ save s (verified crypto s.auth user secret random salt) with
        issued := issued ++ s.issued },
      .inr (.backupCodes (AuthService.generateBackupCodes random)))
  | .disable userId code => do
    reply
    let user ← orThrow (s.auth.stored userId) (.notFound "User not found")
    require user.usesTotp (.badRequest "Two-factor authentication is not enabled")
    let secret ← orThrow (truthy user.totpSecret)
      (.badRequest "Two-factor authentication is not enabled")
    require (crypto.totpVerify code secret s.auth.now) (.badRequest "Invalid verification code")
    return (s, .inl (.disableSave user))
  | .disableSave user => do
    reply
    return (save s (disabled s.auth user),
      .inr (.message "Two-factor authentication disabled successfully"))

def starts : UserTask → Bool
  | .login _ _ | .update _ _ _ _ | .setup _ _ | .verifySetup _ _ _ _ | .disable _ _ => true
  | _ => false

/-- The row the call is about to write back with the codes it has loaded, or with one of them
taken out. -/
def writesBack : UserTask → Option User
  | .loginSave user _ _ | .updateSave user | .setupSave user _ => some user
  | _ => none

/-- The codes the call is about to issue. -/
def issues : UserTask → List UserCode
  | .verifySetupSave user _ random _ =>
    (AuthService.generateBackupCodes random).map fun code => (user.id, code)
  | _ => []

/-- The code that has let in the login under way. -/
def letInBy : UserTask → Option UserCode
  | .loginSign user _ backupCode | .loginSession user _ backupCode
  | .loginStamp user _ backupCode => backupCode.map fun code => (user.id, code)
  | _ => none

end UserTask

/-- What else happens: users come and go, sessions and tokens change, time passes. -/
inductive CodesOutside
  | register (user : User)
  | delete (userId : String)
  | sessions (sessions : Table Session) (jwt : JwtService)
  | tick (seconds : Nat)

/-- A new user has no codes. -/
def CodesState.outside (s : CodesState) : CodesOutside → Option CodesState
  | .register user =>
    (s.auth.users.insert { user with backupCodes := none }).map fun users =>
      { s with auth.users := users }
  | .delete userId => some { s with auth.users := s.auth.users.delete fun u => u.id == userId }
  | .sessions sessions jwt => some { s with auth.sessions := sessions, auth.jwt := jwt }
  | .tick seconds => some { s with auth.now := s.auth.now + seconds }

def codesSystem (crypto : Crypto) : Tasks CodesState UserTask Awaited
    (Option (Except HttpException UserAnswer)) CodesOutside :=
  .ofCalls (UserTask.go crypto) UserTask.starts CodesState.outside

abbrev CodesPool := Pool CodesState UserTask
abbrev CodesLabel := PoolLabel UserTask Awaited CodesOutside

def codesStep (crypto : Crypto) : CodesPool → CodesLabel → Option CodesPool :=
  (codesSystem crypto).step

/-- No call under way, and no code issued yet. -/
def CodesPool.idle (auth : AuthState) : CodesPool := ⟨⟨auth, [], [], []⟩, []⟩

/-- No code has let in two logins that completed, and one that was spent is in no list. -/
structure CodesSingleUse (crypto : Crypto) (s : CodesState) : Prop where
  once : s.logins.Nodup
  gone : ∀ spent ∈ s.spent, ∀ u ∈ s.auth.users, u.id = spent.1 →
    ∀ hash ∈ UserTask.codes u, crypto.compare spent.2 hash = false

/-- A call that writes codes back finds them in the row as it has loaded them. -/
def SavesCodesAsStored (p : CodesPool) : CodesLabel → Prop
  | .turn i (.ok ()) => ∀ task ∈ p.tasks[i]?, ∀ user ∈ task.writesBack,
      ∃ row ∈ p.store.auth.users, row.id = user.id ∧ row.backupCodes = user.backupCodes
  | _ => True

/-- The codes a call issues are drawn at random: they differ from each other, and from those
the user was issued before. -/
def IssuesFreshCodes (p : CodesPool) : CodesLabel → Prop
  | .turn i (.ok ()) => ∀ task ∈ p.tasks[i]?,
      task.issues.Nodup ∧ ∀ code ∈ task.issues, code ∉ p.store.issued
  | _ => True

instance (p : CodesPool) : ∀ l, Decidable (SavesCodesAsStored p l)
  | .turn _ (.ok ()) => inferInstanceAs (Decidable (∀ _ ∈ _, _))
  | .turn _ (.error _) | .start _ | .outside _ => isTrue trivial

instance (p : CodesPool) : ∀ l, Decidable (IssuesFreshCodes p l)
  | .turn _ (.ok ()) => inferInstanceAs (Decidable (∀ _ ∈ _, _))
  | .turn _ (.error _) | .start _ | .outside _ => isTrue trivial

/-! ## Lists of codes -/

/-- Every code a list of hashes accepts was issued to the user and has not been spent, and no
code is accepted by two of them. -/
structure CodeList (crypto : Crypto) (s : CodesState) (id : String) (hashes : List String) :
    Prop where
  live : ∀ hash ∈ hashes, ∀ code, crypto.compare code hash = true →
    (id, code) ∈ s.issued ∧ (id, code) ∉ s.spent
  distinct : hashes.Pairwise fun a b =>
    ∀ code, ¬(crypto.compare code a = true ∧ crypto.compare code b = true)

structure CodesSound (crypto : Crypto) (s : CodesState) : Prop where
  lists : ∀ u ∈ s.auth.users, CodeList crypto s u.id (UserTask.codes u)
  once : s.spent.Nodup
  issued : s.spent ⊆ s.issued

/-- A login about to take a code out has found it in the list it has loaded. -/
def UserTask.Relies (crypto : Crypto) : UserTask → Prop
  | .loginSave user i attempt =>
    ∃ hash, (codes user)[i]? = some hash ∧ crypto.compare attempt.code hash = true
  | _ => True

section Lists

variable {crypto : Crypto} {s s' : CodesState} {id : String} {hashes : List String} {u user : User}

theorem CodeList.nil : CodeList crypto s id [] := ⟨fun _ h => (nomatch h), .nil⟩

/-- Spending a code of another user, and issuing codes, is nothing to a list. -/
theorem CodeList.mono (h : CodeList crypto s id hashes) (hissued : s.issued ⊆ s'.issued)
    (hspent : ∀ code, (id, code) ∈ s'.spent → (id, code) ∈ s.spent) :
    CodeList crypto s' id hashes := by
  refine ⟨fun hash hmem code hcompare => ?_, h.distinct⟩
  obtain ⟨hlive, hunspent⟩ := h.live hash hmem code hcompare
  exact ⟨hissued hlive, fun hmem => hunspent (hspent code hmem)⟩

/-- Once a code is taken out and spent, the rest of the list is as good as before. -/
theorem CodeList.spend (h : CodeList crypto s id hashes) {i : Nat} {hash code : String}
    (hi : hashes[i]? = some hash) (hcompare : crypto.compare code hash = true)
    (hissued : s'.issued = s.issued) (hspent : s'.spent = (id, code) :: s.spent) :
    CodeList crypto s' id (hashes.eraseIdx i) := by
  obtain ⟨hlt, rfl⟩ := List.getElem?_eq_some_iff.mp hi
  have hperm := List.getElem_cons_eraseIdx_perm hlt
  have hsym : ∀ {a b : String},
      (∀ c, ¬(crypto.compare c a = true ∧ crypto.compare c b = true)) →
        ∀ c, ¬(crypto.compare c b = true ∧ crypto.compare c a = true) :=
    fun hab c ⟨hb, ha⟩ => hab c ⟨ha, hb⟩
  obtain ⟨hothers, hrest⟩ := List.pairwise_cons.mp ((hperm.pairwise_iff hsym).mpr h.distinct)
  refine ⟨fun other hmem c hc => ?_, hrest⟩
  obtain ⟨hlive, hunspent⟩ := h.live other (List.mem_of_mem_eraseIdx hmem) c hc
  rw [hissued, hspent]
  refine ⟨hlive, fun hmem' => ?_⟩
  rcases List.mem_cons.mp hmem' with heq | hold
  · cases heq
    exact hothers other hmem _ ⟨hcompare, hc⟩
  · exact hunspent hold

/-- Newly issued codes, hashed. -/
theorem CodeList.issue {codes : List String} {salt : Nat → String}
    (hcrypto : ∀ c salt c', crypto.compare c (crypto.hash salt c') = true → c = c')
    (hnodup : codes.Nodup) (hissued : ∀ c ∈ codes, (id, c) ∈ s.issued)
    (hunspent : ∀ c ∈ codes, (id, c) ∉ s.spent) :
    CodeList crypto s id (codes.mapIdx fun i c => crypto.hash (salt i) c) := by
  constructor
  · intro hash hmem code hcompare
    obtain ⟨i, hi, rfl⟩ := List.mem_mapIdx.mp hmem
    rw [hcrypto _ _ _ hcompare]
    exact ⟨hissued _ (List.getElem_mem hi), hunspent _ (List.getElem_mem hi)⟩
  · rw [List.pairwise_iff_getElem]
    intro i j hi hj hij code hboth
    rw [List.getElem_mapIdx, List.getElem_mapIdx] at hboth
    have hsame := (hcrypto _ _ _ hboth.1).symm.trans (hcrypto _ _ _ hboth.2)
    exact absurd (hnodup.getElem_inj_iff.mp hsame) (Nat.ne_of_lt hij)

theorem mem_users_save (hu : u ∈ (UserTask.save s user).auth.users) :
    u = { user with updatedAt := s.auth.now } ∨ u ∈ s.auth.users ∧ u.id ≠ user.id :=
  Table.mem_save.mp hu

theorem stored_eq_some (h : s.auth.stored id = some u) : u ∈ s.auth.users ∧ u.id = id := by
  have hid := Table.findOne_sat h
  rw [beq_iff_eq] at hid
  exact ⟨Table.findOne_mem h, hid⟩

/-- Rows without codes, or with the codes of a row that was there. -/
theorem CodesSound.of_rows (h : CodesSound crypto s) (hissued : s'.issued = s.issued)
    (hspent : s'.spent = s.spent)
    (hrows : ∀ u ∈ s'.auth.users, u.backupCodes = none ∨
      ∃ v ∈ s.auth.users, v.id = u.id ∧ v.backupCodes = u.backupCodes) :
    CodesSound crypto s' := by
  refine ⟨fun u hu => ?_, hspent ▸ h.once, by rw [hspent, hissued]; exact h.issued⟩
  rcases hrows u hu with hnone | ⟨v, hv, hid, hcodes⟩
  · rw [UserTask.codes, hnone]
    exact .nil
  · have hlist := h.lists v hv
    rw [UserTask.codes, hid, hcodes] at hlist
    exact hlist.mono (by rw [hissued]; exact fun _ h => h) (by rw [hspent]; exact fun _ h => h)

/-- A save that writes codes which are in the row already. -/
theorem CodesSound.save (h : CodesSound crypto s)
    (hcodes : user.backupCodes = none ∨
      ∃ row ∈ s.auth.users, row.id = user.id ∧ row.backupCodes = user.backupCodes) :
    CodesSound crypto (UserTask.save s user) := by
  refine h.of_rows rfl rfl fun u hu => ?_
  rcases mem_users_save hu with rfl | ⟨hu, -⟩
  · exact hcodes
  · exact .inr ⟨u, hu, rfl, rfl⟩

end Lists

/-! ## One turn -/

section Turn

variable {crypto : Crypto} {s s' : CodesState} {t : UserTask} {reply : Awaited}
  {r : UserTask ⊕ UserAnswer}

/-- The row that a disabled second factor leaves has the codes it had. -/
theorem backupCodes_disabled (user : User) :
    (UserTask.disabled s.auth user).backupCodes = none ∨ ∃ row ∈ s.auth.users,
      row.id = user.id ∧ row.backupCodes = (UserTask.disabled s.auth user).backupCodes := by
  cases hrow : s.auth.stored user.id with
  | none =>
    left
    simp only [UserTask.disabled, hrow, Option.bind_none]
  | some row =>
    right
    obtain ⟨hmem, hid⟩ := stored_eq_some hrow
    refine ⟨row, hmem, hid, ?_⟩
    simp only [UserTask.disabled, hrow, Option.bind_some]

theorem CodesSound.loginSave (h : CodesSound crypto s) {user : User} {i : Nat}
    {attempt : LoginAttempt} (ht : (UserTask.loginSave user i attempt).Relies crypto)
    (hstored : ∃ row ∈ s.auth.users, row.id = user.id ∧ row.backupCodes = user.backupCodes) :
    CodesSound crypto { UserTask.save s (UserTask.splice user i) with
      spent := (user.id, attempt.code) :: s.spent } := by
  obtain ⟨row, hrow, hid, hcodes⟩ := hstored
  obtain ⟨hash, hi, hcompare⟩ := ht
  have hlist : CodeList crypto s user.id (UserTask.codes user) := by
    have hlist := h.lists row hrow
    rwa [UserTask.codes, hid, hcodes] at hlist
  obtain ⟨hlive, hunspent⟩ := hlist.live hash (List.mem_of_getElem? hi) _ hcompare
  refine ⟨fun u hu => ?_, List.nodup_cons.mpr ⟨hunspent, h.once⟩,
    List.cons_subset.mpr ⟨hlive, h.issued⟩⟩
  rcases mem_users_save hu with rfl | ⟨hu, hne⟩
  · exact hlist.spend hi hcompare rfl rfl
  · refine (h.lists u hu).mono (fun _ h => h) fun code hmem => ?_
    rcases List.mem_cons.mp hmem with heq | hold
    · exact absurd (congrArg Prod.fst heq) hne
    · exact hold

theorem CodesSound.verifySetupSave (h : CodesSound crypto s) {user : User} {secret : String}
    {random salt : Nat → String}
    (hcrypto : ∀ c salt c', crypto.compare c (crypto.hash salt c') = true → c = c')
    (hnodup : (UserTask.verifySetupSave user secret random salt).issues.Nodup)
    (hfresh : ∀ code ∈ (UserTask.verifySetupSave user secret random salt).issues,
      code ∉ s.issued) :
    CodesSound crypto { UserTask.save s (UserTask.verified crypto s.auth user secret random salt)
      with
      issued := (UserTask.verifySetupSave user secret random salt).issues ++ s.issued } := by
  refine ⟨fun u hu => ?_, h.once, fun code hcode => List.mem_append_right _ (h.issued hcode)⟩
  rcases mem_users_save hu with rfl | ⟨hu, -⟩
  · refine CodeList.issue hcrypto (List.Nodup.of_map _ hnodup) (fun c hc => ?_) fun c hc => ?_
    · exact List.mem_append_left _ (List.mem_map_of_mem hc)
    · exact fun hspent => hfresh _ (List.mem_map_of_mem hc) (h.issued hspent)
  · exact (h.lists u hu).mono (fun _ h => List.mem_append_right _ h) fun _ h => h

/-- One turn, when codes are written back as they are stored and issued codes are fresh. -/
theorem UserTask.go_sound
    (hcrypto : ∀ c salt c', crypto.compare c (crypto.hash salt c') = true → c = c')
    (h : CodesSound crypto s) (ht : t.Relies crypto) (hgo : t.go crypto s reply = .ok (s', r))
    (hstored : ∀ user, t.writesBack = some user →
      ∃ row ∈ s.auth.users, row.id = user.id ∧ row.backupCodes = user.backupCodes)
    (hfresh : t.issues.Nodup ∧ ∀ code ∈ t.issues, code ∉ s.issued) :
    CodesSound crypto s' ∧ ∀ t', r = .inl t' → t'.Relies crypto := by
  cases t with
  | login sessionToken attempt =>
    simp only [go, bind_eq_ok, orThrow_eq_ok, require_eq_ok, pure_eq_ok, Prod.mk.injEq] at hgo
    obtain ⟨payload, -, -, -, rfl, rfl⟩ := hgo
    exact ⟨h, fun t' ht' => by cases ht'; trivial⟩
  | loginFind userId attempt =>
    simp only [go, bind_eq_ok, orThrow_eq_ok, require_eq_ok, pure_eq_ok, Prod.mk.injEq] at hgo
    obtain ⟨-, -, user, -, -, -, secret, -, rfl, rfl⟩ := hgo
    refine ⟨h, fun t' ht' => ?_⟩
    cases ht'
    split <;> trivial
  | loginCompare user i attempt =>
    simp only [go, bind_eq_ok, orThrow_eq_ok, pure_eq_ok, Prod.mk.injEq] at hgo
    obtain ⟨-, -, hash, hi, rfl, rfl⟩ := hgo
    refine ⟨h, fun t' ht' => ?_⟩
    cases ht'
    split
    next hcompare => exact ⟨hash, hi, hcompare⟩
    next => trivial
  | loginSave user i attempt =>
    simp only [go, bind_eq_ok, pure_eq_ok, Prod.mk.injEq] at hgo
    obtain ⟨-, -, rfl, rfl⟩ := hgo
    exact ⟨h.loginSave ht (hstored user rfl), fun t' ht' => by cases ht'; trivial⟩
  | loginSign user attempt backupCode =>
    simp only [go, bind_eq_ok, orThrow_eq_ok, pure_eq_ok, Prod.mk.injEq] at hgo
    obtain ⟨jwt, -, rfl, rfl⟩ := hgo
    exact ⟨h.of_rows rfl rfl fun u hu => .inr ⟨u, hu, rfl, rfl⟩, fun t' ht' => by cases ht'; trivial⟩
  | loginSession user attempt backupCode =>
    simp only [go, bind_eq_ok, orThrow_eq_ok, pure_eq_ok, Prod.mk.injEq] at hgo
    obtain ⟨-, -, sessions, -, rfl, rfl⟩ := hgo
    exact ⟨h.of_rows rfl rfl fun u hu => .inr ⟨u, hu, rfl, rfl⟩, fun t' ht' => by cases ht'; trivial⟩
  | loginStamp user attempt backupCode =>
    simp only [go, bind_eq_ok, pure_eq_ok, Prod.mk.injEq] at hgo
    obtain ⟨-, -, rfl, rfl⟩ := hgo
    refine ⟨h.of_rows rfl rfl fun u hu => ?_, fun t' ht' => (by cases ht')⟩
    obtain ⟨v, hv, rfl⟩ := (Table.mem_update).mp hu
    refine .inr ⟨v, hv, ?_⟩
    split <;> exact ⟨rfl, rfl⟩
  | update route id dto salt =>
    simp only [go, bind_eq_ok, orThrow_eq_ok, pure_eq_ok, Prod.mk.injEq] at hgo
    obtain ⟨-, -, user, -, rfl, rfl⟩ := hgo
    exact ⟨h, fun t' ht' => by cases ht'; trivial⟩
  | updateEmail route user dto salt | updateUsername route user dto salt =>
    simp only [go, bind_eq_ok, require_eq_ok, pure_eq_ok, Prod.mk.injEq] at hgo
    obtain ⟨-, -, -, -, rfl, rfl⟩ := hgo
    exact ⟨h, fun t' ht' => by cases ht'; trivial⟩
  | updateSave user =>
    simp only [go, bind_eq_ok, pure_eq_ok, Prod.mk.injEq] at hgo
    obtain ⟨-, -, rfl, rfl⟩ := hgo
    exact ⟨h.save (.inr (hstored user rfl)), fun t' ht' => (by cases ht')⟩
  | setup userId secret =>
    simp only [go, bind_eq_ok, orThrow_eq_ok, require_eq_ok, pure_eq_ok, Prod.mk.injEq] at hgo
    obtain ⟨-, -, user, -, -, -, rfl, rfl⟩ := hgo
    exact ⟨h, fun t' ht' => by cases ht'; trivial⟩
  | setupSave user secret =>
    simp only [go, bind_eq_ok, pure_eq_ok, Prod.mk.injEq] at hgo
    obtain ⟨-, -, rfl, rfl⟩ := hgo
    exact ⟨h.save (.inr (hstored user rfl)), fun t' ht' => (by cases ht')⟩
  | verifySetup userId code random salt =>
    simp only [go, bind_eq_ok, orThrow_eq_ok, require_eq_ok, pure_eq_ok, Prod.mk.injEq] at hgo
    obtain ⟨-, -, user, -, pending, -, -, -, rfl, rfl⟩ := hgo
    exact ⟨h, fun t' ht' => by cases ht'; trivial⟩
  | verifySetupSave user secret random salt =>
    simp only [go, bind_eq_ok, pure_eq_ok, Prod.mk.injEq] at hgo
    obtain ⟨-, -, rfl, rfl⟩ := hgo
    exact ⟨h.verifySetupSave hcrypto hfresh.1 hfresh.2, fun t' ht' => (by cases ht')⟩
  | disable userId code =>
    simp only [go, bind_eq_ok, orThrow_eq_ok, require_eq_ok, pure_eq_ok, Prod.mk.injEq] at hgo
    obtain ⟨-, -, user, -, -, -, secret, -, -, -, rfl, rfl⟩ := hgo
    exact ⟨h, fun t' ht' => by cases ht'; trivial⟩
  | disableSave user =>
    simp only [go, bind_eq_ok, pure_eq_ok, Prod.mk.injEq] at hgo
    obtain ⟨-, -, rfl, rfl⟩ := hgo
    exact ⟨h.save (backupCodes_disabled user), fun t' ht' => (by cases ht')⟩

/-- A login counts as let in by a code from the turn that spends it to the one that completes
it. -/
theorem UserTask.go_letInBy (hgo : t.go crypto s reply = .ok (s', r)) (code : UserCode) :
    s'.logins.count code + r.getLeft?.toList.countP (fun t' => t'.letInBy == some code) +
        s.spent.count code ≤
      s.logins.count code + (if t.letInBy == some code then 1 else 0) + s'.spent.count code := by
  cases t with
  | login sessionToken attempt =>
    simp only [go, bind_eq_ok, orThrow_eq_ok, require_eq_ok, pure_eq_ok, Prod.mk.injEq] at hgo
    obtain ⟨payload, -, -, -, rfl, rfl⟩ := hgo
    simp [letInBy]
  | loginFind userId attempt =>
    simp only [go, bind_eq_ok, orThrow_eq_ok, require_eq_ok, pure_eq_ok, Prod.mk.injEq] at hgo
    obtain ⟨-, -, user, -, -, -, secret, -, rfl, rfl⟩ := hgo
    split <;> simp [letInBy]
  | loginCompare user i attempt =>
    simp only [go, bind_eq_ok, orThrow_eq_ok, pure_eq_ok, Prod.mk.injEq] at hgo
    obtain ⟨-, -, hash, hi, rfl, rfl⟩ := hgo
    split <;> simp [letInBy]
  | loginSave user i attempt =>
    simp only [go, bind_eq_ok, pure_eq_ok, Prod.mk.injEq] at hgo
    obtain ⟨-, -, rfl, rfl⟩ := hgo
    simp only [letInBy, save, splice, Sum.getLeft?_inl, Option.toList_some, List.countP_singleton,
      List.count_cons, Option.map_some, Option.some_beq_some]
    simp
    omega
  | loginSign user attempt backupCode =>
    simp only [go, bind_eq_ok, orThrow_eq_ok, pure_eq_ok, Prod.mk.injEq] at hgo
    obtain ⟨jwt, -, rfl, rfl⟩ := hgo
    simp [letInBy]
  | loginSession user attempt backupCode =>
    simp only [go, bind_eq_ok, orThrow_eq_ok, pure_eq_ok, Prod.mk.injEq] at hgo
    obtain ⟨-, -, sessions, -, rfl, rfl⟩ := hgo
    simp [letInBy]
  | loginStamp user attempt backupCode =>
    simp only [go, bind_eq_ok, pure_eq_ok, Prod.mk.injEq] at hgo
    obtain ⟨-, -, rfl, rfl⟩ := hgo
    cases backupCode <;> simp [letInBy, List.count_cons]
  | update route id dto salt =>
    simp only [go, bind_eq_ok, orThrow_eq_ok, pure_eq_ok, Prod.mk.injEq] at hgo
    obtain ⟨-, -, user, -, rfl, rfl⟩ := hgo
    simp [letInBy]
  | updateEmail route user dto salt | updateUsername route user dto salt =>
    simp only [go, bind_eq_ok, require_eq_ok, pure_eq_ok, Prod.mk.injEq] at hgo
    obtain ⟨-, -, -, -, rfl, rfl⟩ := hgo
    simp [letInBy]
  | setup userId secret =>
    simp only [go, bind_eq_ok, orThrow_eq_ok, require_eq_ok, pure_eq_ok, Prod.mk.injEq] at hgo
    obtain ⟨-, -, user, -, -, -, rfl, rfl⟩ := hgo
    simp [letInBy]
  | verifySetup userId code random salt =>
    simp only [go, bind_eq_ok, orThrow_eq_ok, require_eq_ok, pure_eq_ok, Prod.mk.injEq] at hgo
    obtain ⟨-, -, user, -, pending, -, -, -, rfl, rfl⟩ := hgo
    simp [letInBy]
  | disable userId code =>
    simp only [go, bind_eq_ok, orThrow_eq_ok, require_eq_ok, pure_eq_ok, Prod.mk.injEq] at hgo
    obtain ⟨-, -, user, -, -, -, secret, -, -, -, rfl, rfl⟩ := hgo
    simp [letInBy]
  | updateSave user | setupSave user secret | verifySetupSave user secret random salt
  | disableSave user =>
    simp only [go, bind_eq_ok, pure_eq_ok, Prod.mk.injEq] at hgo
    obtain ⟨-, -, rfl, rfl⟩ := hgo
    simp [letInBy, save]

end Turn

/-! ## Runs -/

/-- The lists are sound, every call has what it relies on, and each spending of a code has let
in one login at most, under way or completed. -/
structure CodesInvariant (crypto : Crypto) (p : CodesPool) : Prop where
  holds : p.Holds (CodesSound crypto) fun _ t => t.Relies crypto
  counts : ∀ code, p.store.logins.count code + p.count (fun t => t.letInBy == some code) ≤
    p.store.spent.count code

section Runs

variable {crypto : Crypto} {p p' : CodesPool} {l : CodesLabel}

theorem UserTask.letInBy_of_starts {t : UserTask} (h : t.starts = true) : t.letInBy = none := by
  cases t <;> first | rfl | cases h

theorem UserTask.relies_of_starts {t : UserTask} (h : t.starts = true) : t.Relies crypto := by
  cases t <;> trivial

theorem CodesSound.outside {s s' : CodesState} (h : CodesSound crypto s) {event : CodesOutside}
    (hout : s.outside event = some s') :
    CodesSound crypto s' ∧ s'.logins = s.logins ∧ s'.spent = s.spent := by
  cases event with
  | register user =>
    obtain ⟨users, hins, rfl⟩ := Option.map_eq_some_iff.mp hout
    refine ⟨h.of_rows rfl rfl fun u hu => ?_, rfl, rfl⟩
    rcases ((Table.insert_eq_some hins).2 u).mp hu with rfl | hu
    · exact .inl rfl
    · exact .inr ⟨u, hu, rfl, rfl⟩
  | delete userId =>
    cases hout
    exact ⟨h.of_rows rfl rfl fun u hu => .inr ⟨u, (Table.mem_delete.mp hu).1, rfl, rfl⟩, rfl, rfl⟩
  | sessions sessions jwt =>
    cases hout
    exact ⟨h.of_rows rfl rfl fun u hu => .inr ⟨u, hu, rfl, rfl⟩, rfl, rfl⟩
  | tick seconds =>
    cases hout
    exact ⟨h.of_rows rfl rfl fun u hu => .inr ⟨u, hu, rfl, rfl⟩, rfl, rfl⟩

/-- What a step may assume of the task that takes a turn. -/
theorem turn_assumptions {i : Nat} {reply : Awaited} {task : UserTask} {s' : CodesState}
    {r : UserTask ⊕ UserAnswer} (htask : p.tasks[i]? = some task)
    (hstored : SavesCodesAsStored p (.turn i reply)) (hfresh : IssuesFreshCodes p (.turn i reply))
    (hgo : task.go crypto p.store reply = .ok (s', r)) :
    (∀ user, task.writesBack = some user →
      ∃ row ∈ p.store.auth.users, row.id = user.id ∧ row.backupCodes = user.backupCodes) ∧
    task.issues.Nodup ∧ ∀ code ∈ task.issues, code ∉ p.store.issued := by
  cases reply with
  | ok u => exact ⟨hstored task htask, hfresh task htask⟩
  | error e =>
    -- a call that awaits a statement that fails writes and issues nothing
    constructor
    · intro user hwrites
      cases task <;> cases hwrites <;> cases hgo
    · cases task
      case verifySetupSave => cases hgo
      all_goals exact ⟨.nil, fun _ h => (nomatch h)⟩

theorem CodesInvariant.step
    (hcrypto : ∀ c salt c', crypto.compare c (crypto.hash salt c') = true → c = c')
    (hp : CodesInvariant crypto p) (hstored : SavesCodesAsStored p l)
    (hfresh : IssuesFreshCodes p l) (hstep : codesStep crypto p l = some p') :
    CodesInvariant crypto p' := by
  cases l with
  | start task =>
    obtain ⟨hstarts, -⟩ := Tasks.step_start hstep
    refine ⟨hp.holds.start (UserTask.relies_of_starts hstarts) hstep, fun code => ?_⟩
    have hcount := Pool.count_start (q := fun t : UserTask => t.letInBy == some code) hstep
    rw [UserTask.letInBy_of_starts hstarts] at hcount
    obtain ⟨-, rfl⟩ := Tasks.step_start hstep
    rw [hcount]
    exact hp.counts code
  | turn i reply =>
    constructor
    · refine hp.holds.call (fun task hmem htask s' r hgo => ?_) hstep
      obtain ⟨hrow, hissues⟩ := turn_assumptions htask hstored hfresh hgo
      obtain ⟨hsound, hnext⟩ :=
        task.go_sound hcrypto hp.holds.store (hp.holds.tasks task hmem) hgo hrow hissues
      exact ⟨hsound, hnext, fun t _ ht => ht⟩
    · intro code
      obtain ⟨task, htask, hcall⟩ := Tasks.step_call hstep
      have hcount := Pool.count_turn (q := fun t : UserTask => t.letInBy == some code) htask hstep
      have hold := hp.counts code
      rcases hcall with ⟨s', r, hgo, rfl⟩ | ⟨e, hgo, rfl⟩
      · have hmoves := UserTask.go_letInBy hgo code
        simp only [codesSystem, Tasks.ofCalls, hgo] at hcount
        have hnext : (Turn.ofExcept p.store (.ok (s', r)) :
            Turn CodesState (Option (Except HttpException UserAnswer)) UserTask).next =
              r.getLeft? := by
          cases r <;> rfl
        rw [hnext] at hcount
        dsimp only at hcount ⊢
        omega
      · simp only [codesSystem, Tasks.ofCalls, hgo, Turn.ofExcept, Option.toList_none,
          List.countP_nil] at hcount
        dsimp only at hcount ⊢
        omega
  | outside event =>
    have hcount : ∀ code, p'.count (fun t : UserTask => t.letInBy == some code) = _ :=
      fun code => Pool.count_outside hstep
    obtain ⟨store, hout, rfl⟩ := Tasks.step_outside hstep
    obtain ⟨hsound, hlogins, hspent⟩ := hp.holds.store.outside hout
    refine ⟨⟨hsound, hp.holds.tasks⟩, fun code => ?_⟩
    rw [hcount]
    dsimp only
    rw [hlogins, hspent]
    exact hp.counts code

theorem CodesInvariant.singleUse (hp : CodesInvariant crypto p) :
    CodesSingleUse crypto p.store := by
  constructor
  · refine List.nodup_iff_count_le_one.mpr fun code => ?_
    have hcount := hp.counts code
    have honce := List.nodup_iff_count_le_one.mp hp.holds.store.once code
    omega
  · intro spent hspent u hu hid hash hmem
    by_contra hcompare
    have hlive := (hp.holds.store.lists u hu).live hash hmem spent.2
      (by simpa using hcompare)
    rw [hid] at hlive
    exact hlive.2 hspent

end Runs

/-- In every run of logins, two-factor methods and updates in which codes are drawn fresh:
if every call that writes codes back finds them in the row as it has loaded them, then in every
state of the run no code has let in two logins and none that was spent is in a list. -/
theorem backupCodes_singleUse {crypto : Crypto} {auth : AuthState} {labels : List CodesLabel}
    (hcrypto : ∀ c salt c', crypto.compare c (crypto.hash salt c') = true ↔ c = c')
    (hnone : ∀ u ∈ auth.users, u.backupCodes = none)
    (hfresh : Along (codesStep crypto) IssuesFreshCodes (.idle auth) labels)
    (hstored : Along (codesStep crypto) SavesCodesAsStored (.idle auth) labels) :
    ∀ done, done <+: labels → ∀ p', run (codesStep crypto) (.idle auth) done = some p' →
      CodesSingleUse crypto p'.store := by
  rintro done ⟨rest, rfl⟩ p' hrun
  have hboth := (along_append.mp (along_and.mpr ⟨hstored, hfresh⟩)).1
  have hinv : CodesInvariant crypto (.idle auth) := by
    refine ⟨⟨⟨fun u hu => ?_, .nil, fun _ h => (nomatch h)⟩, fun _ h => (nomatch h)⟩,
      fun code => Nat.le_refl _⟩
    rw [UserTask.codes, hnone u hu]
    exact .nil
  refine (run_invariant (I := CodesInvariant crypto) (fun p l p' hp hC hstep => ?_) hinv hboth
    hrun).singleUse
  exact hp.step (fun c salt c' => (hcrypto c salt c').mp) hC.1 hC.2 hstep

/-! ## Two logins with one code -/

section Counterexample

/-- Alice has begun a setup and passed the first step of a login. -/
def aliceInSetup : AuthState where
  users := ⟨[{ User.withDefaults "alice" "alice@nexus.local" "alice" "password" with
    pendingTotpSecret := some "secret" }], by decide⟩
  sessions := .empty
  jwt := ⟨[⟨"step", .twoFactor "alice", 300⟩], by simp⟩
  now := 0

/-- She verifies the setup and gets the codes "0" to "7". -/
def verifiesSetup : List CodesLabel :=
  [.start (.verifySetup "alice" "secret" toString toString), .turn 0 (.ok ()), .turn 0 (.ok ())]

/-- A login with the first code, up to where it has found it in the list it has loaded. -/
def findsCode (token : String) : List CodesLabel :=
  [.start (.login "step" ⟨"0", "127.0.0.1", "browser", ⟨token, token, token⟩⟩),
    .turn 0 (.ok ()), .turn 0 (.ok ()), .turn 0 (.ok ())]

/-- The rest of it. -/
def spendsCode : List CodesLabel :=
  [.turn 0 (.ok ()), .turn 0 (.ok ()), .turn 0 (.ok ()), .turn 0 (.ok ())]

theorem backupCodes_singleUse_login :
    Always (codesStep .plain) (fun _ p' => CodesSingleUse .plain p'.store) (.idle aliceInSetup)
      (verifiesSetup ++ findsCode "a" ++ spendsCode) := by
  refine backupCodes_singleUse (fun _ _ _ => beq_iff_eq) (fun u hu => ?_) (by decide) (by decide)
  cases List.mem_singleton.mp hu
  rfl

/-- Two logins load the list before either saves it: the codes are fresh, and one of them lets
both in. -/
theorem backupCode_spent_twice :
    Along (codesStep .plain) IssuesFreshCodes (.idle aliceInSetup)
      (verifiesSetup ++ findsCode "a" ++ findsCode "b" ++ spendsCode ++ spendsCode) ∧
    ¬ ∀ done, done <+: verifiesSetup ++ findsCode "a" ++ findsCode "b" ++ spendsCode ++ spendsCode →
      ∀ p', run (codesStep .plain) (.idle aliceInSetup) done = some p' →
        CodesSingleUse .plain p'.store := by
  refine ⟨by decide, fun h => ?_⟩
  have honce := (h _ List.prefix_rfl _ rfl).once
  revert honce
  decide

end Counterexample

end Panel
