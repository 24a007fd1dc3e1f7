import NexusPanel.Wings.Authentication

/-!
# The two credential checks

`auth_middleware` and `ws_handler` both take the token alone or behind the id and a dot, and
each has its own parser for it. What they accept is written down once for each of them
(`accepts_bearer`, `accepts_token`); comparing the two is then a matter of the configuration.

They differ in two ways. The middleware does not look at the id when none is configured, the
other check does. And a header is read as visible ASCII, a query parameter is any text.
-/

namespace Wings

/-- The middleware lets `Bearer` and the credential through. -/
def AcceptsBearer (config : Config) (credential : String) : Prop :=
  authMiddleware config (some ("Bearer " ++ credential)) = .ok ()

/-- The WebSocket route lets the credential through. -/
def AcceptsToken (config : Config) (credential : String) : Prop :=
  wsAuth config credential = .ok ()

/-- What the panel sends: `${daemonTokenId}.${daemonToken}`. -/
def panelCredential (tokenId token : String) : String := tokenId ++ "." ++ token

/-- A text that `HeaderValue::to_str` reads. -/
def Visible (text : String) : Prop :=
  ∀ c ∈ text.toList, c = '\t' ∨ (32 ≤ c.toNat ∧ c.toNat < 127)

def DotFree (text : String) : Prop := '.' ∉ text.toList

/-! ## One language of credentials -/

/-- Both checks accept the same credentials, the panel's form among them when the id has no dot;
with an id, and a token without a dot, they accept the token and the panel's form only. -/
structure SameLanguage (config : Config) : Prop where
  agree : ∀ credential, AcceptsBearer config credential ↔ AcceptsToken config credential
  panelForm : DotFree config.tokenId →
    AcceptsBearer config (panelCredential config.tokenId config.token) ∧
      AcceptsToken config (panelCredential config.tokenId config.token)
  nothingElse : config.tokenId ≠ "" → DotFree config.token → ∀ credential,
    AcceptsBearer config credential ∨ AcceptsToken config credential →
      credential = config.token ∨ credential = panelCredential config.tokenId config.token

/-- An id is configured, and the forms that can be accepted are readable in a header. -/
structure IdConfigured (config : Config) : Prop where
  id : config.tokenId ≠ ""
  plain : DotFree config.token → Visible config.token
  dotted : DotFree config.tokenId → Visible (panelCredential config.tokenId config.token)

/-! ## What each check accepts -/

section Checks

variable {config : Config} {credential : String}

theorem visible_append {a b : String} : Visible (a ++ b) ↔ Visible a ∧ Visible b := by
  simp only [Visible, String.toList_append, List.forall_mem_append]

theorem visible_iff_all {text : String} : Visible text ↔
    (text.toList.all fun c => decide (c = '\t' ∨ (32 ≤ c.toNat ∧ c.toNat < 127))) = true := by
  simp only [Visible, List.all_eq_true, decide_eq_true_eq]

theorem headerToStr_of_visible {value : String} (h : Visible value) :
    headerToStr value = some value := by
  unfold headerToStr
  rw [if_pos (visible_iff_all.mp h)]

theorem headerToStr_of_not_visible {value : String} (h : ¬ Visible value) :
    headerToStr value = none := by
  unfold headerToStr
  rw [if_neg (fun hall => h (visible_iff_all.mpr hall))]

theorem visible_bearer : Visible "Bearer " := visible_iff_all.mpr (by decide)

/-- A credential that cannot be read in a header is refused. -/
theorem visible_of_acceptsBearer (h : AcceptsBearer config credential) : Visible credential := by
  by_contra hnot
  have hvalue : ¬ Visible ("Bearer " ++ credential) := fun hboth => hnot (visible_append.mp hboth).2
  rw [AcceptsBearer, authMiddleware, Option.bind_some, headerToStr_of_not_visible hvalue] at h
  cases h

theorem bearer_of_visible (h : Visible credential) :
    ((some ("Bearer " ++ credential)).bind headerToStr).bind (Text.stripPrefix? "Bearer ") =
      some credential := by
  rw [Option.bind_some, headerToStr_of_visible (visible_append.mpr ⟨visible_bearer, h⟩),
    Option.bind_some]
  exact Text.stripPrefix?_eq_some.mpr rfl

/-- The two parts of a credential at its first dot. -/
theorem credential_cases (credential : String) :
    (DotFree credential ∧ Text.splitFirst? '.' credential = none) ∨
      ∃ tid tok, DotFree tid ∧ credential = tid ++ "." ++ tok ∧
        Text.splitFirst? '.' credential = some (tid, tok) := by
  cases h : Text.splitFirst? '.' credential with
  | none => exact .inl ⟨Text.splitFirst?_eq_none.mp h, rfl⟩
  | some parts =>
    obtain ⟨tid, tok⟩ := parts
    exact .inr ⟨tid, tok, Text.not_mem_of_splitFirst? h, Text.splitFirst?_eq_some h, rfl⟩

theorem not_dotFree (a b : String) : ¬ DotFree (a ++ "." ++ b) := by
  simp [DotFree, String.toList_append]

/-- Where the first part has no dot, the parts are known. -/
theorem parts_inj {a b c d : String} (ha : DotFree a) (hc : DotFree c)
    (h : a ++ "." ++ b = c ++ "." ++ d) : a = c ∧ b = d := by
  have hsplit : Text.splitFirst? '.' (a ++ String.ofList ['.'] ++ b) = some (a, b) :=
    Text.splitFirst?_append ha
  have hsplit' : Text.splitFirst? '.' (c ++ String.ofList ['.'] ++ d) = some (c, d) :=
    Text.splitFirst?_append hc
  have heq : a ++ String.ofList ['.'] ++ b = c ++ String.ofList ['.'] ++ d := h
  rw [heq, hsplit'] at hsplit
  cases hsplit
  exact ⟨rfl, rfl⟩

/-- The middleware accepts the token, and the token behind a first part that is the id, or
anything when there is no id. -/
theorem acceptsBearer_iff : AcceptsBearer config credential ↔ Visible credential ∧
    ((DotFree credential ∧ credential = config.token) ∨
      ∃ tid, DotFree tid ∧ (config.tokenId = "" ∨ tid = config.tokenId) ∧
        credential = tid ++ "." ++ config.token) := by
  by_cases hvisible : Visible credential
  · rw [and_iff_right hvisible, AcceptsBearer, authMiddleware, bearer_of_visible hvisible]
    rcases credential_cases credential with ⟨hfree, hsplit⟩ | ⟨tid, tok, htid, rfl, hsplit⟩
    · simp only [hsplit]
      constructor
      · intro h
        by_cases heq : credential = config.token
        · exact .inl ⟨hfree, heq⟩
        · rw [if_pos heq] at h
          cases h
      · rintro (⟨-, heq⟩ | ⟨tid, -, -, rfl⟩)
        · rw [if_neg (not_not.mpr heq)]
        · exact absurd hfree (not_dotFree _ _)
    · simp only [hsplit]
      constructor
      · intro h
        split at h
        next => cases h
        next hid =>
          split at h
          next => cases h
          next htok =>
            refine .inr ⟨tid, htid, ?_, by rw [not_not.mp htok]⟩
            by_cases hempty : config.tokenId = ""
            · exact .inl hempty
            · exact .inr (by_contra fun hne => hid ⟨hempty, hne⟩)
      · rintro (⟨hfree, -⟩ | ⟨tid', htid', hid, heq⟩)
        · exact absurd hfree (not_dotFree _ _)
        · obtain ⟨rfl, rfl⟩ := parts_inj htid htid' heq
          rw [if_neg, if_neg (not_not.mpr rfl)]
          rintro ⟨hne, hne'⟩
          rcases hid with hempty | hsame
          · exact hne hempty
          · exact hne' hsame
  · constructor
    · intro h
      exact absurd (visible_of_acceptsBearer h) hvisible
    · exact fun h => absurd h.1 hvisible

/-- The WebSocket route accepts the token, and the token behind the id. -/
theorem acceptsToken_iff : AcceptsToken config credential ↔
    (DotFree credential ∧ credential = config.token) ∨
      DotFree config.tokenId ∧ credential = panelCredential config.tokenId config.token := by
  rw [AcceptsToken, wsAuth, panelCredential]
  rcases credential_cases credential with ⟨hfree, hsplit⟩ | ⟨tid, tok, htid, rfl, hsplit⟩
  · rw [hsplit]
    constructor
    · intro h
      by_cases heq : credential = config.token
      · exact .inl ⟨hfree, heq⟩
      · rw [if_neg heq] at h
        cases h
    · rintro (⟨-, heq⟩ | ⟨-, rfl⟩)
      · rw [if_pos heq]
      · exact absurd hfree (not_dotFree _ _)
  · rw [hsplit]
    constructor
    · intro h
      dsimp only at h
      split at h
      next heq =>
        obtain ⟨rfl, rfl⟩ := heq
        exact .inr ⟨htid, rfl⟩
      next => cases h
    · rintro (⟨hfree, -⟩ | ⟨hid, heq⟩)
      · exact absurd hfree (not_dotFree _ _)
      · exact if_pos (parts_inj htid hid heq)

end Checks

/-! ## The same language -/

/-- For every configured id and token: the two checks accept the same credentials, the panel's
form among them, and nothing but the two forms, if and only if an id is configured and what can
be accepted is readable in a header. -/
theorem same_language_iff (config : Config) : SameLanguage config ↔ IdConfigured config := by
  constructor
  · intro h
    have hvisible : ∀ credential, AcceptsToken config credential → Visible credential :=
      fun credential haccepts => visible_of_acceptsBearer ((h.agree credential).mpr haccepts)
    refine ⟨fun hempty => ?_, fun hfree => ?_, fun hfree => ?_⟩
    · -- Without an id the middleware takes any first part, and the other check an empty one.
      have hdot : AcceptsToken config (panelCredential config.tokenId config.token) := by
        rw [acceptsToken_iff, hempty]
        exact .inr ⟨List.not_mem_nil, rfl⟩
      have htoken : Visible ("x" ++ "." ++ config.token) := by
        refine visible_append.mpr ⟨?_, (visible_append.mp (hvisible _ hdot)).2⟩
        exact visible_iff_all.mpr (by decide)
      have hany : AcceptsBearer config ("x" ++ "." ++ config.token) :=
        acceptsBearer_iff.mpr ⟨htoken, .inr ⟨"x", by unfold DotFree; decide, .inl hempty, rfl⟩⟩
      rcases acceptsToken_iff.mp ((h.agree _).mp hany) with ⟨hfree, -⟩ | ⟨-, heq⟩
      · exact not_dotFree _ _ hfree
      · have hid := (parts_inj (by unfold DotFree; decide) (by rw [hempty]; exact List.not_mem_nil)
          heq).1
        rw [hempty] at hid
        exact absurd hid (by decide)
    · exact hvisible _ (acceptsToken_iff.mpr (.inl ⟨hfree, rfl⟩))
    · exact hvisible _ (acceptsToken_iff.mpr (.inr ⟨hfree, rfl⟩))
  · intro h
    have hagree : ∀ credential, AcceptsBearer config credential ↔ AcceptsToken config credential := by
      intro credential
      rw [acceptsBearer_iff, acceptsToken_iff]
      constructor
      · rintro ⟨-, ⟨hfree, heq⟩ | ⟨tid, htid, hid, rfl⟩⟩
        · exact .inl ⟨hfree, heq⟩
        · rcases hid with hempty | rfl
          · exact absurd hempty h.id
          · exact .inr ⟨htid, rfl⟩
      · rintro (⟨hfree, rfl⟩ | ⟨hfree, rfl⟩)
        · exact ⟨h.plain hfree, .inl ⟨hfree, rfl⟩⟩
        · exact ⟨h.dotted hfree, .inr ⟨_, hfree, .inr rfl, rfl⟩⟩
    refine ⟨hagree, fun hfree => ?_, fun _ _ credential haccepts => ?_⟩
    · have htoken : AcceptsToken config (panelCredential config.tokenId config.token) :=
        acceptsToken_iff.mpr (.inr ⟨hfree, rfl⟩)
      exact ⟨(hagree _).mpr htoken, htoken⟩
    · rw [hagree, or_self, acceptsToken_iff] at haccepts
      exact haccepts.imp And.right And.right

/-! ## No id configured -/

/-- The id is left out of the configuration file, as its default allows. -/
theorem empty_id_differs :
    ¬ SameLanguage ⟨"https://panel.example.com", "", "my-secret-token", "/data"⟩ := by
  intro h
  have hbearer : AcceptsBearer ⟨"https://panel.example.com", "", "my-secret-token", "/data"⟩
      "tid-123.my-secret-token" := rfl
  have htoken := (h.agree _).mp hbearer
  cases htoken

end Wings
