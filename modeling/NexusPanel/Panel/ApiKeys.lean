import NexusPanel.Panel.DisabledAccounts
import NexusPanel.Panel.NodeCredentials

/-!
# API keys and their owners

`create` draws a key, stores its hash with the first sixteen characters, and shows the key once.
`ApiKeyGuard` takes those characters of the presented token, loads one row that has them, and
compares the hash. It never looks at the addresses the key is for, nor at whether its owner is
enabled. And two keys may begin alike: then the row that is loaded need not be the token's.

History variable, which no call reads: the keys that were created and not deleted, as their owners
were shown them.
-/

namespace Panel

open Transition Fallible

/-! ## Keys -/

/-- A row of `api_keys` with the addresses the key may be used from. -/
structure ApiKeyEntity extends ApiKey where
  allowedIps : List String
deriving DecidableEq, Repr

instance : Keyed String ApiKeyEntity := ⟨fun k => k.id⟩

/-- A key as `create` returned it, with what it was asked for. -/
structure IssuedKey where
  id : String
  userId : String
  plainTextToken : String
  allowedIps : List String
deriving DecidableEq, Repr

structure ApiKeysState where
  users : Table User
  apiKeys : Table ApiKeyEntity
  issued : List IssuedKey

namespace ApiKeysService

/-- `` `ptlc_${crypto.randomBytes(24).toString('hex').substring(0, 43)}` ``. -/
def plainToken (randomBytes : Vector UInt8 24) : String :=
  "ptlc_" ++ String.ofList ((hex randomBytes.toList).toList.take 43)

/-- The key that is stored for an issued one. -/
def entity (crypto : Crypto) (salt : String) (key : IssuedKey) : ApiKeyEntity where
  id := key.id
  userId := key.userId
  keyStart := keyStart key.plainTextToken
  token := crypto.hash salt key.plainTextToken
  allowedIps := key.allowedIps

/-- `create`. The owner has to exist, and the database draws an id that is not taken. -/
def create (crypto : Crypto) (s : ApiKeysState) (userId : String)
    (allowedIps : Option (List String)) (randomBytes : Vector UInt8 24) (salt id : String) :
    Option ApiKeysState := do
  let key : IssuedKey := ⟨id, userId, plainToken randomBytes, allowedIps.getD []⟩
  let _ ← s.users.findOne fun u => u.id == userId
  let apiKeys ← s.apiKeys.insert (entity crypto salt key)
  return { s with apiKeys, issued := key :: s.issued }

/-- `delete`: only the owner's own key. -/
def delete (s : ApiKeysState) (id userId : String) : Except HttpException ApiKeysState := do
  let apiKey ← orThrow (s.apiKeys.findOne fun k => k.id == id && k.userId == userId)
    (.notFound "API key not found")
  return { s with
    apiKeys := s.apiKeys.delete fun k => k.id == apiKey.id
    issued := s.issued.filter fun key => key.id != apiKey.id }

end ApiKeysService

/-! ## The guard -/

/-- A `findOne` without an order: one of the rows that match, when there are some. -/
structure FindOne (α : Type) where
  pick : List α → Option α
  mem : ∀ {rows row}, pick rows = some row → row ∈ rows
  isSome : ∀ {rows}, rows ≠ [] → (pick rows).isSome = true

/-- The first of them. -/
def FindOne.first {α : Type} : FindOne α where
  pick := List.head?
  mem := List.mem_of_mem_head?
  isSome h := by simpa using h

structure KeyRequest where
  authorization : Option String
  ip : String
deriving DecidableEq, Repr

/-- The row that `findByKeyStart` returns. -/
def findByKeyStart (findOne : FindOne ApiKeyEntity) (s : ApiKeysState) (token : String) :
    Option ApiKeyEntity :=
  findOne.pick (s.apiKeys.find fun k => k.keyStart == keyStart token)

/-- `ApiKeyGuard.canActivate`; the result is `request.user`. -/
def ApiKeyGuard.canActivate (crypto : Crypto) (findOne : FindOne ApiKeyEntity) (s : ApiKeysState)
    (request : KeyRequest) : Except HttpException (Option User) := do
  let token ← apiKeyToken request.authorization
  let apiKey ← orThrow (findByKeyStart findOne s token) (.unauthorized "Invalid API key")
  require (crypto.compare token apiKey.token) (.unauthorized "Invalid API key")
  return s.users.findOne fun u => u.id == apiKey.userId

/-- The guard is the three turns it has among the other calls, when the first row is found. -/
theorem withApiKey_straight (crypto : Crypto) (s : ApiKeysState) (auth : AuthState)
    (husers : auth.users = s.users) (authorization : Option String) (ip : String) :
    (AccountCall.straight crypto auth (s.apiKeys.map ApiKeyEntity.toApiKey fun _ => rfl) 3
      (.withApiKey authorization)).map Prod.snd =
    (ApiKeyGuard.canActivate crypto .first s ⟨authorization, ip⟩).map fun owner =>
      .inr (.apiKey owner) := by
  rw [AccountCall.straight]
  unfold ApiKeyGuard.canActivate
  cases htoken : apiKeyToken authorization with
  | error e =>
    rw [straight_error (by simp only [AccountCall.go, htoken, error_bind]; rfl)]
    rfl
  | ok token =>
    have hfirst : ((s.apiKeys.map ApiKeyEntity.toApiKey fun _ => rfl).findOne fun k =>
        k.keyStart == keyStart token) =
          (findByKeyStart .first s token).map ApiKeyEntity.toApiKey := by
      simp only [Table.findOne, Table.map, findByKeyStart, FindOne.first, Table.find,
        List.find?_map, List.head?_filter]
      rfl
    rw [straight_inl (by simp only [AccountCall.go, htoken, ok_bind]; rfl)]
    simp only [ok_bind]
    cases hfound : findByKeyStart .first s token with
    | none =>
      rw [hfound] at hfirst
      rw [straight_error (by
        simp only [AccountCall.go, ok_bind, hfirst, Option.map_none, orThrow_none, error_bind]
        rfl)]
      rfl
    | some row =>
      rw [hfound] at hfirst
      rw [straight_inl (by
        simp only [AccountCall.go, ok_bind, hfirst, Option.map_some, orThrow_some]
        rfl)]
      cases hcompare : crypto.compare token row.token with
      | false =>
        rw [straight_error (by simp only [AccountCall.go, hcompare, ok_bind]; rfl)]
        simp only [orThrow_some, ok_bind, hcompare]
        rfl
      | true =>
        rw [straight_inr (by simp only [AccountCall.go, hcompare, ok_bind]; rfl)]
        simp only [orThrow_some, ok_bind, hcompare, AuthState.stored, husers]
        rfl

/-! ## Runs -/

/-- A key is created or deleted, or users are created, edited and deleted. -/
inductive KeysLabel
  | create (userId : String) (allowedIps : Option (List String)) (randomBytes : Vector UInt8 24)
      (salt id : String)
  | delete (id userId : String)
  | users (users : Table User)

/-- The keys of users that are gone go with them. -/
def ApiKeysState.cascade (s : ApiKeysState) (users : Table User) : ApiKeysState where
  users := users
  apiKeys := s.apiKeys.delete fun k => (users.findOne fun u => u.id == k.userId).isNone
  issued := s.issued.filter fun key => (users.findOne fun u => u.id == key.userId).isSome

def keysStep (crypto : Crypto) (s : ApiKeysState) : KeysLabel → Option ApiKeysState
  | .create userId allowedIps randomBytes salt id =>
    ApiKeysService.create crypto s userId allowedIps randomBytes salt id
  | .delete id userId => (ApiKeysService.delete s id userId).toOption
  | .users users => some (s.cascade users)

/-- No keys yet. -/
def ApiKeysState.initial (users : Table User) : ApiKeysState := ⟨users, .empty, []⟩

/-! ## Legitimate requests -/

/-- The request presents a key that was issued and not deleted, its owner `user` is enabled, and
the address is one the key may be used from. -/
def Legitimate (s : ApiKeysState) (request : KeyRequest) (user : User) : Prop :=
  ∃ key ∈ s.issued, stripBearer request.authorization = some key.plainTextToken ∧
    user ∈ s.users ∧ user.id = key.userId ∧ user.enabled = true ∧
      (key.allowedIps ≠ [] → request.ip ∈ key.allowedIps)

/-- The guard lets exactly the legitimate requests through, as the owner. -/
def AuthenticatesOwner (crypto : Crypto) (findOne : FindOne ApiKeyEntity) (s : ApiKeysState)
    (request : KeyRequest) : Prop :=
  ∀ owner, ApiKeyGuard.canActivate crypto findOne s request = .ok owner ↔
    ∃ user, owner = some user ∧ Legitimate s request user

/-- `bcrypt`: a hash is accepted with the text it was made from, and with no other. -/
def Crypto.Compares (crypto : Crypto) : Prop :=
  ∀ text salt plain, crypto.compare text (crypto.hash salt plain) = true ↔ text = plain

/-- The owner of the row is enabled, and the address is one it allows. -/
def ApiKeyEntity.Usable (s : ApiKeysState) (ip : String) (row : ApiKeyEntity) : Prop :=
  (∃ user ∈ s.users, user.id = row.userId ∧ user.enabled = true) ∧
    (row.allowedIps ≠ [] → ip ∈ row.allowedIps)

/-- The row that is found decides as all of them would: if it is the token's, then a key of its
owner with that token may be used, and whoever may use a key with that token is its owner. -/
def FoundDecides (crypto : Crypto) (findOne : FindOne ApiKeyEntity) (s : ApiKeysState)
    (request : KeyRequest) : Prop :=
  ∀ token row, apiKeyToken request.authorization = .ok token →
    findByKeyStart findOne s token = some row →
      (crypto.compare token row.token = true → ∃ row' ∈ s.apiKeys, row'.userId = row.userId ∧
        crypto.compare token row'.token = true ∧ row'.Usable s request.ip) ∧
      ∀ row' ∈ s.apiKeys, crypto.compare token row'.token = true → row'.Usable s request.ip →
        crypto.compare token row.token = true ∧ row'.userId = row.userId

/-! ## What is on record -/

/-- A row is the one of an issued key. -/
def IsRowOf (crypto : Crypto) (key : IssuedKey) (row : ApiKeyEntity) : Prop :=
  ∃ salt, row = ApiKeysService.entity crypto salt key

/-- The rows are those of the issued keys, the issued keys begin as keys do, and their owners are
there. -/
structure OnRecord (crypto : Crypto) (s : ApiKeysState) : Prop where
  row : ∀ key ∈ s.issued, ∃ row ∈ s.apiKeys, IsRowOf crypto key row
  issued : ∀ row ∈ s.apiKeys, ∃ key ∈ s.issued, IsRowOf crypto key row
  format : ∀ key ∈ s.issued, ∃ digits, key.plainTextToken = "ptlc_" ++ digits
  owner : ∀ row ∈ s.apiKeys, ∃ user ∈ s.users, user.id = row.userId

section Record

variable {crypto : Crypto} {s s' : ApiKeysState}

theorem onRecord_initial (users : Table User) : OnRecord crypto (.initial users) where
  row := by simp [ApiKeysState.initial]
  issued := by simp [ApiKeysState.initial]
  format := by simp [ApiKeysState.initial]
  owner := by simp [ApiKeysState.initial]

theorem OnRecord.create {userId : String} {allowedIps : Option (List String)}
    {randomBytes : Vector UInt8 24} {salt id : String} (hs : OnRecord crypto s)
    (h : ApiKeysService.create crypto s userId allowedIps randomBytes salt id = some s') :
    OnRecord crypto s' := by
  simp only [ApiKeysService.create, Option.bind_eq_bind, Option.bind_eq_some_iff] at h
  obtain ⟨user, huser, apiKeys, hinsert, h⟩ := h
  cases h
  obtain ⟨-, hrows⟩ := Table.insert_eq_some hinsert
  refine ⟨?_, ?_, ?_, ?_⟩
  · intro key hkey
    rcases List.mem_cons.mp hkey with rfl | hkey
    · exact ⟨_, (hrows _).mpr (.inl rfl), salt, rfl⟩
    · obtain ⟨row, hrow, hof⟩ := hs.row key hkey
      exact ⟨row, (hrows _).mpr (.inr hrow), hof⟩
  · intro row hrow
    rcases (hrows row).mp hrow with rfl | hrow
    · exact ⟨_, List.mem_cons_self, salt, rfl⟩
    · obtain ⟨key, hkey, hof⟩ := hs.issued row hrow
      exact ⟨key, List.mem_cons_of_mem _ hkey, hof⟩
  · intro key hkey
    rcases List.mem_cons.mp hkey with rfl | hkey
    · exact ⟨_, rfl⟩
    · exact hs.format key hkey
  · intro row hrow
    rcases (hrows row).mp hrow with rfl | hrow
    · have hid : user.id = userId := by simpa using Table.findOne_sat huser
      exact ⟨user, Table.findOne_mem huser, hid⟩
    · exact hs.owner row hrow

/-- Keys go together with their rows. -/
theorem OnRecord.keep {users : Table User} {gone : ApiKeyEntity → Bool} {kept : IssuedKey → Bool}
    (hs : OnRecord crypto s)
    (hgone : ∀ key row, IsRowOf crypto key row → (kept key = true ↔ gone row = false))
    (howner : ∀ row ∈ s.apiKeys, gone row = false → ∃ user ∈ users, user.id = row.userId) :
    OnRecord crypto ⟨users, s.apiKeys.delete gone, s.issued.filter kept⟩ where
  row key hkey := by
    obtain ⟨hmem, hkept⟩ := List.mem_filter.mp hkey
    obtain ⟨row, hrow, hof⟩ := hs.row key hmem
    exact ⟨row, Table.mem_delete.mpr ⟨hrow, (hgone key row hof).mp hkept⟩, hof⟩
  issued row hrow := by
    obtain ⟨hmem, hleft⟩ := Table.mem_delete.mp hrow
    obtain ⟨key, hkey, hof⟩ := hs.issued row hmem
    exact ⟨key, List.mem_filter.mpr ⟨hkey, (hgone key row hof).mpr hleft⟩, hof⟩
  format key hkey := hs.format key (List.mem_of_mem_filter hkey)
  owner row hrow := by
    obtain ⟨hmem, hleft⟩ := Table.mem_delete.mp hrow
    exact howner row hmem hleft

theorem OnRecord.delete {id userId : String} (hs : OnRecord crypto s)
    (h : ApiKeysService.delete s id userId = .ok s') : OnRecord crypto s' := by
  simp only [ApiKeysService.delete, bind_eq_ok, orThrow_eq_ok, pure_eq_ok] at h
  obtain ⟨apiKey, -, rfl⟩ := h
  refine hs.keep ?_ fun row hrow _ => hs.owner row hrow
  rintro key row ⟨salt, rfl⟩
  simp [ApiKeysService.entity]

theorem OnRecord.cascade (hs : OnRecord crypto s) (users : Table User) :
    OnRecord crypto (s.cascade users) := by
  refine hs.keep ?_ fun row _ hleft => ?_
  · rintro key row ⟨salt, rfl⟩
    simp [ApiKeysService.entity]
  · obtain ⟨user, huser⟩ := Option.isSome_iff_exists.mp (by simpa using hleft)
    exact ⟨user, Table.findOne_mem huser, by simpa using Table.findOne_sat huser⟩

theorem OnRecord.step {l : KeysLabel} (hs : OnRecord crypto s)
    (h : keysStep crypto s l = some s') : OnRecord crypto s' := by
  cases l with
  | create userId allowedIps randomBytes salt id => exact hs.create h
  | delete id userId =>
    simp only [keysStep] at h
    cases hdelete : ApiKeysService.delete s id userId with
    | error e =>
      rw [hdelete] at h
      cases h
    | ok t =>
      rw [hdelete] at h
      cases h
      exact hs.delete hdelete
  | users users =>
    cases h
    exact hs.cascade users

/-- In every state of a run, the rows are those of the issued keys. -/
theorem onRecord_run {users : Table User} {labels : List KeysLabel}
    (hrun : run (keysStep crypto) (.initial users) labels = some s) : OnRecord crypto s :=
  run_preserves (fun _ _ _ hs => hs.step) (onRecord_initial users) hrun

end Record

/-! ## The guard and the record -/

section Guard

variable {crypto : Crypto} {findOne : FindOne ApiKeyEntity} {s : ApiKeysState}
  {request : KeyRequest} {token : String} {row : ApiKeyEntity} {user : User}

theorem apiKeyToken_ok {authorization : Option String} : apiKeyToken authorization = .ok token ↔
    stripBearer authorization = some token ∧ ∃ digits, token = "ptlc_" ++ digits := by
  simp only [apiKeyToken, bind_eq_ok, orThrow_eq_ok, require_eq_ok, pure_eq_ok]
  constructor
  · rintro ⟨_, hstrip, _, hformat, rfl⟩
    obtain ⟨digits, hdigits⟩ := Option.isSome_iff_exists.mp hformat
    exact ⟨hstrip, digits, Text.stripPrefix?_eq_some.mp hdigits⟩
  · rintro ⟨hstrip, digits, hdigits⟩
    exact ⟨token, hstrip, (), by rw [Text.stripPrefix?_eq_some.mpr hdigits]; rfl, rfl⟩

/-- The comparison tells whether the row is that of a key. -/
theorem IsRowOf.compare {key : IssuedKey} (hof : IsRowOf crypto key row)
    (hcompares : crypto.Compares) : crypto.compare token row.token = true ↔
      token = key.plainTextToken := by
  obtain ⟨salt, rfl⟩ := hof
  exact hcompares token salt key.plainTextToken

/-- A legitimate request, in terms of the rows. -/
theorem OnRecord.legitimate (hs : OnRecord crypto s) (hcompares : crypto.Compares)
    (htoken : stripBearer request.authorization = some token) : Legitimate s request user ↔
      ∃ row ∈ s.apiKeys, crypto.compare token row.token = true ∧ user ∈ s.users ∧
        user.id = row.userId ∧ user.enabled = true ∧
          (row.allowedIps ≠ [] → request.ip ∈ row.allowedIps) := by
  constructor
  · rintro ⟨key, hkey, hpresented, huser, hid, henabled, hip⟩
    obtain ⟨row, hrow, hof⟩ := hs.row key hkey
    have hsame := htoken.symm.trans hpresented
    refine ⟨row, hrow, (hof.compare hcompares).mpr (Option.some.inj hsame), huser, ?_⟩
    obtain ⟨salt, rfl⟩ := hof
    exact ⟨hid, henabled, hip⟩
  · rintro ⟨row, hrow, hcompare, huser, hid, henabled, hip⟩
    obtain ⟨key, hkey, hof⟩ := hs.issued row hrow
    have hplain := (hof.compare hcompares).mp hcompare
    refine ⟨key, hkey, htoken.trans (congrArg some hplain), huser, ?_⟩
    obtain ⟨salt, rfl⟩ := hof
    exact ⟨hid, henabled, hip⟩

/-- A token that is not even looked up is nobody's. -/
theorem OnRecord.legitimate_format (hs : OnRecord crypto s) (h : Legitimate s request user) :
    ∃ token, apiKeyToken request.authorization = .ok token := by
  obtain ⟨key, hkey, hpresented, -⟩ := h
  exact ⟨_, apiKeyToken_ok.mpr ⟨hpresented, hs.format key hkey⟩⟩

/-- Every row of a token is among those that `findByKeyStart` may return. -/
theorem OnRecord.mem_find (hs : OnRecord crypto s) (hcompares : crypto.Compares)
    (hrow : row ∈ s.apiKeys) (hcompare : crypto.compare token row.token = true) :
    row ∈ s.apiKeys.find fun k => k.keyStart == keyStart token := by
  obtain ⟨key, -, hof⟩ := hs.issued row hrow
  have hplain := (hof.compare hcompares).mp hcompare
  obtain ⟨salt, rfl⟩ := hof
  exact Table.mem_find.mpr ⟨hrow, by simp [ApiKeysService.entity, hplain]⟩

/-- The guard, once a row is found. -/
theorem canActivate_found (htoken : apiKeyToken request.authorization = .ok token)
    (hfound : findByKeyStart findOne s token = some row) (owner : Option User) :
    ApiKeyGuard.canActivate crypto findOne s request = .ok owner ↔
      crypto.compare token row.token = true ∧
        (s.users.findOne fun u => u.id == row.userId) = owner := by
  simp only [ApiKeyGuard.canActivate, htoken, bind_eq_ok, orThrow_eq_ok, require_eq_ok, pure_eq_ok]
  constructor
  · rintro ⟨_, htoken', _, hfound', _, hcompare, howner⟩
    cases htoken'
    cases hfound.symm.trans hfound'
    exact ⟨hcompare, howner⟩
  · rintro ⟨hcompare, howner⟩
    exact ⟨token, rfl, row, hfound, (), hcompare, howner⟩

/-- The owner of a row, as the guard loads it. -/
theorem OnRecord.findOne_owner (hs : OnRecord crypto s) (hrow : row ∈ s.apiKeys) :
    ∃ user, (s.users.findOne fun u => u.id == row.userId) = some user ∧ user ∈ s.users ∧
      user.id = row.userId := by
  obtain ⟨user, huser, hid⟩ := hs.owner row hrow
  refine ⟨user, Table.findOne_eq_some huser (by simpa using hid) fun u _ hu => ?_, huser, hid⟩
  exact (beq_iff_eq.mp hu).trans hid.symm

/-- Where no row is found, nobody is let through, and nobody would have to be. -/
theorem OnRecord.unfound (hs : OnRecord crypto s) (hcompares : crypto.Compares)
    (htoken : apiKeyToken request.authorization = .ok token)
    (hfound : findByKeyStart findOne s token = none) :
    AuthenticatesOwner crypto findOne s request := by
  intro owner
  refine iff_of_false ?_ ?_
  · intro h
    simp only [ApiKeyGuard.canActivate, htoken, bind_eq_ok, orThrow_eq_ok] at h
    obtain ⟨_, htoken', _, hfound', -⟩ := h
    cases htoken'
    cases hfound.symm.trans hfound'
  · rintro ⟨user, -, h⟩
    obtain ⟨row, hrow, hcompare, -⟩ :=
      (hs.legitimate hcompares (apiKeyToken_ok.mp htoken).1).mp h
    have hmem := hs.mem_find hcompares hrow hcompare
    have hsome := findOne.isSome (List.ne_nil_of_mem hmem)
    rw [findByKeyStart] at hfound
    rw [hfound] at hsome
    cases hsome

/-- Where a row is found, it has to decide as all of them would. -/
theorem OnRecord.found (hs : OnRecord crypto s) (hcompares : crypto.Compares)
    (htoken : apiKeyToken request.authorization = .ok token)
    (hfound : findByKeyStart findOne s token = some row) :
    AuthenticatesOwner crypto findOne s request ↔ FoundDecides crypto findOne s request := by
  have hrow : row ∈ s.apiKeys := (Table.mem_find.mp (findOne.mem hfound)).1
  obtain ⟨user, huser, hmem, hid⟩ := hs.findOne_owner hrow
  have hlegitimate := fun u =>
    @OnRecord.legitimate crypto s request token u hs hcompares (apiKeyToken_ok.mp htoken).1
  constructor
  · intro h token' row' htoken' hfound'
    cases htoken.symm.trans htoken'
    cases hfound.symm.trans hfound'
    refine ⟨fun hcompare => ?_, fun row' hrow' hcompare' husable => ?_⟩
    · obtain ⟨u, hu, hlegit⟩ := (h (some user)).mp
        ((canActivate_found htoken hfound _).mpr ⟨hcompare, huser⟩)
      cases hu
      obtain ⟨row', hrow', hcompare', -, hid', henabled, hip⟩ := (hlegitimate user).mp hlegit
      exact ⟨row', hrow', hid'.symm.trans hid, hcompare', ⟨user, hmem, hid', henabled⟩, hip⟩
    · obtain ⟨⟨u, hu, hid', henabled⟩, hip⟩ := husable
      have hlegit := (hlegitimate u).mpr ⟨row', hrow', hcompare', hu, hid', henabled, hip⟩
      obtain ⟨hcompare, howner⟩ :=
        (canActivate_found htoken hfound _).mp ((h (some u)).mpr ⟨u, rfl, hlegit⟩)
      cases huser.symm.trans howner
      exact ⟨hcompare, hid'.symm.trans hid⟩
  · intro h owner
    obtain ⟨hfirst, hsecond⟩ := h token row htoken hfound
    rw [canActivate_found htoken hfound, huser]
    constructor
    · rintro ⟨hcompare, rfl⟩
      obtain ⟨row', hrow', hid', hcompare', ⟨u, hu, hu', henabled⟩, hip⟩ := hfirst hcompare
      have heq : u = user := Table.eq_of_key hu hmem (hu'.trans (hid'.trans hid.symm))
      subst heq
      exact ⟨u, rfl, (hlegitimate u).mpr ⟨row', hrow', hcompare', hu, hu', henabled, hip⟩⟩
    · rintro ⟨u, rfl, hlegit⟩
      obtain ⟨row', hrow', hcompare', hu, hu', henabled, hip⟩ := (hlegitimate u).mp hlegit
      obtain ⟨hcompare, hid'⟩ := hsecond row' hrow' hcompare' ⟨⟨u, hu, hu', henabled⟩, hip⟩
      have heq : user = u := Table.eq_of_key hmem hu (hid.trans (hid'.symm.trans hu'.symm))
      exact ⟨hcompare, congrArg some heq⟩

end Guard

/-! ## When the guard authenticates owners -/

/-- In every state of every run, the guard lets exactly the legitimate requests through exactly when
the row it finds decides as all of them would. -/
theorem authenticates_owner_iff (crypto : Crypto) (hcompares : crypto.Compares)
    (findOne : FindOne ApiKeyEntity) (users : Table User) (labels : List KeysLabel)
    (s : ApiKeysState) (hrun : run (keysStep crypto) (.initial users) labels = some s)
    (request : KeyRequest) :
    AuthenticatesOwner crypto findOne s request ↔ FoundDecides crypto findOne s request := by
  have hs := onRecord_run hrun
  cases htoken : apiKeyToken request.authorization with
  | error e =>
    refine iff_of_true ?_ ?_
    · intro owner
      refine iff_of_false ?_ ?_
      · simp [ApiKeyGuard.canActivate, htoken]
      · rintro ⟨user, -, h⟩
        obtain ⟨token, hok⟩ := hs.legitimate_format h
        cases htoken.symm.trans hok
    · intro token row hok
      cases htoken.symm.trans hok
  | ok token =>
    cases hfound : findByKeyStart findOne s token with
    | some row => exact hs.found hcompares htoken hfound
    | none =>
      refine iff_of_true (hs.unfound hcompares htoken hfound) ?_
      intro token' row htoken' hfound'
      cases htoken.symm.trans htoken'
      cases hfound.symm.trans hfound'

/-! ## A key used from elsewhere -/

section Counterexample

def keyOwner : User := .withDefaults "alice" "alice@nexus.local" "alice" "password"

/-- Alice creates a key for one address. -/
def createsKey : List KeysLabel :=
  [.create "alice" (some ["10.0.0.1"]) (.replicate 24 0) "salt" "key"]

/-- A request with her key. -/
def usesKey (ip : String) : KeyRequest :=
  ⟨some ("Bearer " ++ ApiKeysService.plainToken (.replicate 24 0)), ip⟩

theorem compares_plain : Crypto.plain.Compares := fun text salt plain => by simp [Crypto.plain]

theorem used_from_its_address :
    ∃ s, run (keysStep .plain) (.initial (.single keyOwner)) createsKey = some s ∧
      (AuthenticatesOwner .plain .first s (usesKey "10.0.0.1") ↔
        FoundDecides .plain .first s (usesKey "10.0.0.1")) :=
  ⟨_, rfl, authenticates_owner_iff .plain compares_plain .first (.single keyOwner) createsKey _
    rfl (usesKey "10.0.0.1")⟩

/-- The key is accepted from any address. -/
theorem used_from_elsewhere :
    ∃ s, run (keysStep .plain) (.initial (.single keyOwner)) createsKey = some s ∧
      ¬ AuthenticatesOwner .plain .first s (usesKey "10.0.0.2") := by
  have haccepted : (run (keysStep .plain) (.initial (.single keyOwner)) createsKey).map (fun s =>
      (s.issued.map IssuedKey.allowedIps,
        ApiKeyGuard.canActivate .plain .first s (usesKey "10.0.0.2"))) =
      some ([["10.0.0.1"]], .ok (some keyOwner)) := by decide +kernel
  obtain ⟨s, hrun, hs⟩ := Option.map_eq_some_iff.mp haccepted
  refine ⟨s, hrun, fun h => ?_⟩
  obtain ⟨user, -, key, hkey, -, -, -, -, hip⟩ := (h (some keyOwner)).mp (congrArg Prod.snd hs)
  have hlist := List.mem_map_of_mem (f := IssuedKey.allowedIps) hkey
  have hissued : s.issued.map IssuedKey.allowedIps = [["10.0.0.1"]] := congrArg Prod.fst hs
  rw [hissued, List.mem_singleton] at hlist
  rw [hlist] at hip
  exact absurd (hip (by simp)) (by decide)

/-- Of two keys that begin alike, one is refused. -/
example : (run (keysStep .plain) (.initial (.single keyOwner))
    (createsKey ++ [.create "alice" none (Vector.set (.replicate 24 0) 20 1) "salt" "second"])).map
      (fun s => ApiKeyGuard.canActivate .plain .first s (usesKey "10.0.0.1")) =
    some (.error (.unauthorized "Invalid API key")) := by
  decide +kernel

end Counterexample

end Panel
