import NexusPanel.Wings.Http

/-!
# What the panel hears of an install

`run_install` asks the Docker daemon six questions, and each may fail: the pull of the image,
the removal of a leftover container, the creation of a container, its start, its log and its
exit code. The callback to the panel stands behind the last of them. A run that fails before
is over without a callback, and one whose wait ends without an exit code is reported as a
success.

So a run is reported exactly once, and as what it was, exactly when it gets to see an exit
code.
-/

namespace Wings

open StateAction

/-! ## The report of a run -/

/-- The answer to the `k`-th question from now on. -/
def AppState.answer (s : AppState) (k : Nat) : Except String (List String) :=
  s.docker.answers (s.docker.asked + k)

/-- The exit code of the script, when a run that starts now gets to see one: the image can be
pulled, the container created and started, and the wait answers. The removal of a leftover
and the log, questions 1 and 4, do not matter. -/
def AppState.exitCode (s : AppState) : Option String :=
  match s.answer 0, s.answer 2, s.answer 3, s.answer 5 with
  | .ok _, .ok _, .ok _, .ok items => items.head?
  | _, _, _, _ => none

/-- The run posts one callback: `success` when the script was seen to exit with code 0, and
`failed` otherwise. -/
def ReportsOnce (config : ServerConfig) (script image : String) (s : AppState) : Prop :=
  ∃ message, (Installer.install config script image s).2.posts =
    reportOf s config.uuid (if s.exitCode = some "0" then "success" else "failed") message ::
      s.posts

/-- No question that matters fails, and the wait has an exit code for an answer. -/
def ExitObserved (s : AppState) : Prop :=
  (∃ items, s.answer 0 = .ok items) ∧ (∃ items, s.answer 2 = .ok items) ∧
    (∃ items, s.answer 3 = .ok items) ∧ ∃ code items, s.answer 5 = .ok (code :: items)

/-- No question that matters fails; the wait need not have an exit code. -/
def Answered (s : AppState) : Prop :=
  (∃ items, s.answer 0 = .ok items) ∧ (∃ items, s.answer 2 = .ok items) ∧
    (∃ items, s.answer 3 = .ok items) ∧ ∃ items, s.answer 5 = .ok items

theorem ExitObserved.answered {s : AppState} (h : ExitObserved s) : Answered s := by
  obtain ⟨h0, h2, h3, code, items, h5⟩ := h
  exact ⟨h0, h2, h3, _, h5⟩

/-! ## The run, question by question -/

/-- `k` questions after `s`, and nothing posted. -/
structure Asked (s : AppState) (k : Nat) (t : AppState) : Prop where
  asked : t.docker.asked = s.docker.asked + k
  answers : t.docker.answers = s.docker.answers
  posts : t.posts = s.posts

/-- How a run ends. -/
inductive Ended (uuid : String) (s t : AppState) : Prop
  /-- A question in front of the exit code failed: the panel hears nothing. -/
  | silent (hanswered : ¬Answered s) (hposts : t.posts = s.posts)
  /-- The wait had no answer: the panel hears of a success. -/
  | assumed (hexit : ¬ExitObserved s) (hposts : t.posts = reportOf s uuid "success" none :: s.posts)
  | observed (code : String) (message : Option String) (hexit : s.exitCode = some code)
      (hposts : t.posts =
        reportOf s uuid (if code = "0" then "success" else "failed") message :: s.posts)

section Run

variable {s t : AppState} {k : Nat} {uuid : String}

/-- A question is answered, or it fails. -/
theorem asked_ask {keep : Docker → Docker} (hkeep : ∀ d, (keep d).answers = d.answers) :
    Triple (Asked s k) (ask keep) (fun items t => s.answer k = .ok items ∧ Asked s (k + 1) t)
      (fun t => (∃ e, s.answer k = .error e) ∧ Asked s (k + 1) t) := by
  unfold ask
  refine Triple.bind (Triple.get (Q := fun u t => u = t ∧ Asked s k t)
    fun t ht => ⟨rfl, ht⟩) fun u => ?_
  refine Triple.bind (Q := fun _ t => u.docker.answers u.docker.asked = s.answer k ∧
    Asked s (k + 1) t) (Triple.modify ?_) fun _ => Triple.assume fun hanswer => ?_
  · rintro t ⟨rfl, ht⟩
    refine ⟨?_, ?_, (hkeep u.docker).trans ht.answers, ht.posts⟩
    · rw [ht.answers, ht.asked]
      rfl
    · show u.docker.asked + 1 = s.docker.asked + (k + 1)
      rw [ht.asked]
      omega
  · rw [hanswer]
    split
    next items hitems => exact Triple.pure fun t ht => ⟨hitems, ht⟩
    next e he => exact Triple.fail fun t ht => ⟨⟨e, he⟩, ht⟩

/-- A question whose failure nobody minds. -/
theorem asked_attempt {keep : Docker → Docker} {E : AppState → Prop}
    (hkeep : ∀ d, (keep d).answers = d.answers) :
    Triple (Asked s k) ((ask keep).attempt : Handler (Option (List String)))
      (fun _ => Asked s (k + 1)) E :=
  Triple.attempt ((asked_ask hkeep).weaken (fun _ h => h) (fun _ _ h => h.2) fun _ h => h.2)

/-- A question that matters: without an answer, the run ends in silence. -/
theorem ended_ask {keep : Docker → Docker} (hkeep : ∀ d, (keep d).answers = d.answers)
    (hmatters : Answered s → ∃ items, s.answer k = .ok items) :
    Triple (Asked s k) (ask keep) (fun items t => s.answer k = .ok items ∧ Asked s (k + 1) t)
      (Ended uuid s) := by
  refine (asked_ask hkeep).weaken (fun _ h => h) (fun _ _ h => h) ?_
  rintro t ⟨⟨e, he⟩, ht⟩
  refine .silent (fun hanswered => ?_) ht.posts
  obtain ⟨items, hitems⟩ := hmatters hanswered
  rw [he] at hitems
  cases hitems

/-- The panel is told, and then the container is removed, which may fail. -/
theorem posted_notify {status : String} {message : Option String} {α : Type} {m : Handler α}
    {name : String} (hm : ∀ t, (m t).2 = t) :
    Triple (Asked s k)
      (do
        Installer.notify (some s.config.panelUrl)
          (some (s.config.tokenId ++ "." ++ s.config.token)) uuid status message
        let _ ← (dockerCall (.removeContainer name false)).attempt
        m)
      (fun _ t => t.posts = reportOf s uuid status message :: s.posts)
      (fun t => t.posts = reportOf s uuid status message :: s.posts) := by
  refine Triple.bind (Triple.modify fun t ht => ?_) fun _ =>
    Triple.bind (Keeps.attempt (keeps_ask fun t ht => ht)) fun _ => Triple.of_snd fun t ht => ?_
  · rw [← ht.posts]
    rfl
  · rw [hm t]
    exact ht

/-- The exit code is seen exactly when no question that matters fails. -/
theorem exitObserved_iff : ExitObserved s ↔ ∃ code, s.exitCode = some code := by
  unfold AppState.exitCode
  constructor
  · rintro ⟨⟨_, h0⟩, ⟨_, h2⟩, ⟨_, h3⟩, code, items, h5⟩
    rw [h0, h2, h3, h5]
    exact ⟨code, rfl⟩
  · rintro ⟨code, h⟩
    split at h
    next h0 h2 h3 h5 =>
      obtain ⟨items, rfl⟩ := List.head?_eq_some_iff.mp h
      exact ⟨⟨_, h0⟩, ⟨_, h2⟩, ⟨_, h3⟩, code, items, h5⟩
    next => cases h

/-- Every run ends in one of the three ways. -/
theorem install_ended (config : ServerConfig) (script image : String) :
    Triple (fun t => t = s) (Installer.install config script image)
      (fun _ => Ended config.uuid s) (Ended config.uuid s) := by
  refine Triple.bind (Triple.get (Q := fun u t => u = s ∧ Asked s 0 t) ?_) fun u =>
    Triple.assume ?_
  · rintro t rfl
    exact ⟨rfl, rfl, rfl, rfl⟩
  rintro rfl
  refine Triple.bind (ended_ask ?_ fun h => h.1) fun pulled => Triple.assume fun hpull => ?_
  · exact fun _ => rfl
  refine Triple.bind (asked_attempt ?_) fun _ => ?_
  · exact fun _ => rfl
  refine Triple.bind (ended_ask ?_ fun h => h.2.1) fun created => Triple.assume fun hcreate => ?_
  · exact fun _ => rfl
  refine Triple.bind (ended_ask ?_ fun h => h.2.2.1) fun started => Triple.assume fun hstart => ?_
  · exact fun _ => rfl
  refine Triple.bind (asked_attempt ?_) fun log => ?_
  · exact fun _ => rfl
  refine Triple.bind (ended_ask ?_ fun h => h.2.2.2) fun exit => Triple.assume fun hwait => ?_
  · exact fun _ => rfl
  have hexit : u.exitCode = exit.head? := by
    simp only [AppState.exitCode, hpull, hcreate, hstart, hwait]
  cases hcode : exit.head?.filter (· ≠ "0") with
  | some code =>
    rw [Option.filter_eq_some_iff] at hcode
    have hne : code ≠ "0" := of_decide_eq_true hcode.2
    refine (posted_notify fun _ => rfl).weaken (fun _ h => h) (fun _ t ht => ?_) fun t ht => ?_
    · exact .observed code _ (hexit.trans hcode.1) (by rw [if_neg hne]; exact ht)
    · exact .observed code _ (hexit.trans hcode.1) (by rw [if_neg hne]; exact ht)
  | none =>
    rw [Option.filter_eq_none_iff] at hcode
    cases hitems : exit.head? with
    | none =>
      have hsilent : ¬ExitObserved u := by
        rw [exitObserved_iff, hexit, hitems]
        rintro ⟨code, h⟩
        cases h
      exact (posted_notify fun _ => rfl).weaken (fun _ h => h) (fun _ t ht => .assumed hsilent ht)
        fun t ht => .assumed hsilent ht
    | some code =>
      have hzero : code = "0" := by
        by_contra hne
        exact hcode code hitems (decide_eq_true hne)
      refine (posted_notify fun _ => rfl).weaken (fun _ h => h) (fun _ t ht => ?_) fun t ht => ?_
      · exact .observed code none (hexit.trans hitems) (by rw [if_pos hzero]; exact ht)
      · exact .observed code none (hexit.trans hitems) (by rw [if_pos hzero]; exact ht)

theorem install_posts (config : ServerConfig) (script image : String) (s : AppState) :
    Ended config.uuid s (Installer.install config script image s).2 :=
  (install_ended config script image).snd rfl

end Run

/-- A run of which no question that matters fails is reported, one way or the other. -/
theorem posts_of_answered (config : ServerConfig) (script image : String) {s : AppState}
    (h : Answered s) : ∃ status message, (status = "success" ∨ status = "failed") ∧
      (Installer.install config script image s).2.posts =
        reportOf s config.uuid status message :: s.posts := by
  rcases install_posts config script image s with
    ⟨hanswered, -⟩ | ⟨-, hposts⟩ | ⟨code, message, -, hposts⟩
  · exact absurd h hanswered
  · exact ⟨_, none, .inl rfl, hposts⟩
  · refine ⟨_, message, ?_, hposts⟩
    split
    · exact .inl rfl
    · exact .inr rfl

/-- For every server, script and image, in every state, and whatever the Docker daemon answers:
an install run is reported exactly once and as what it was if and only if it gets to see an
exit code. -/
theorem reportsOnce_iff (config : ServerConfig) (script image : String) (s : AppState) :
    ReportsOnce config script image s ↔ ExitObserved s := by
  constructor
  · rintro ⟨message, hposts⟩
    rcases install_posts config script image s with
      ⟨-, hsilent⟩ | ⟨hexit, hassumed⟩ | ⟨code, -, hexit, -⟩
    · rw [hsilent] at hposts
      exact absurd hposts (List.cons_ne_self _ _).symm
    · have hnone : s.exitCode ≠ some "0" := fun h => hexit (exitObserved_iff.mpr ⟨_, h⟩)
      rw [hassumed, if_neg hnone] at hposts
      have hstatus : "success" = "failed" := congrArg Callback.status (List.cons.inj hposts).1
      exact absurd hstatus (by decide)
    · exact exitObserved_iff.mpr ⟨code, hexit⟩
  · intro hobserved
    rcases install_posts config script image s with
      ⟨hanswered, -⟩ | ⟨hexit, -⟩ | ⟨code, message, hexit, hposts⟩
    · exact absurd hobserved.answered hanswered
    · exact absurd hobserved hexit
    · refine ⟨message, hposts.trans ?_⟩
      simp only [hexit, Option.some.injEq]

/-! ## Who starts a run -/

/-- The handler stops with nothing posted, or an install run is the last thing it does. -/
def EndsInInstall (config : ServerConfig) (script image : String) (s t : AppState) : Prop :=
  t.posts = s.posts ∨ ∃ s', s'.posts = s.posts ∧ s'.config = s.config ∧
    t = (Installer.install config script image s').2

section Starters

variable {config : ServerConfig} {script image uuid : String} {s : AppState}

/-- The task that `create_server` and `reinstall_server` of the gRPC service spawn. -/
theorem runSpawned_install :
    (runSpawned (.install config script image) s).2 = (Installer.install config script image s).2 :=
  snd_bind_pure _ _ s

/-- `POST /servers/:uuid/install`. -/
theorem installServer_install {given installScript : Option String}
    {server : Option ServerConfig} (hscript : installScript.or given = some script) :
    (Http.installServer uuid given installScript (some image) server s).2 =
      (Installer.install (server.getD ⟨uuid, "", "", [], 0, 0, 0, [],
        serverDir s.config.dataDir uuid⟩) script image s).2 := by
  have hor : (installScript.orElse fun _ => given) = some script := by
    rw [← hscript]
    cases installScript <;> rfl
  unfold Http.installServer
  rw [hor]
  exact snd_bind_pure _ _ s

/-- `POST /servers`. -/
theorem createServer_install {server : ServerConfig}
    (hconfig : config = { server with volumePath := serverDir s.config.dataDir server.uuid }) :
    EndsInInstall config script image s
      (Http.createServer server (some script) (some image) s).2 := by
  have hsame : ∀ {α : Type} {m : Handler α},
      Keeps (fun t : AppState => t.posts = s.posts ∧ t.config = s.config) m →
      Triple (fun t => t.posts = s.posts ∧ t.config = s.config) m
        (fun _ t => t.posts = s.posts ∧ t.config = s.config)
        (EndsInInstall config script image s) :=
    fun h => h.weaken (fun _ h => h) (fun _ _ h => h) fun _ h => .inl h.1
  have htriple : Triple (fun t => t = s) (Http.createServer server (some script) (some image))
      (fun _ => EndsInInstall config script image s) (EndsInInstall config script image s) := by
    refine Triple.bind (Triple.get (Q := fun u t => u = s ∧ t.posts = s.posts ∧
      t.config = s.config) ?_) fun u => Triple.assume ?_
    · rintro t rfl
      exact ⟨rfl, rfl, rfl⟩
    rintro rfl
    refine Triple.bind (hsame ⟨fun t ht => ?_⟩) fun _ => ?_
    · unfold Http.onFiles
      split
      next r fs _ => cases r <;> exact ht
    rw [← hconfig]
    refine Triple.bind (hsame ?_) fun id => Triple.of_snd fun t ht => ?_
    · exact Keeps.bind (keeps_ask fun _ h => h) fun _ =>
        Keeps.bind (keeps_ask fun _ h => h) fun _ => Keeps.pure
    · exact .inr ⟨t, ht.1, ht.2, (snd_bind_pure _ _ t).trans (snd_attempt _ t)⟩
  exact htriple.snd rfl

end Starters

/-! ## An image that cannot be pulled -/

section Counterexample

/-- Nothing can be pulled, and the panel hears nothing. -/
theorem pull_failure_unreported :
    ¬ReportsOnce ⟨"u", "image", "run", [], 1024, 100, 1024, [], "/data/u"⟩ "install" "missing:latest"
      (.fresh ⟨"https://panel.example.com", "tid", "token", "/data"⟩
        fun _ => .error "no such image") := by
  rintro ⟨message, hposts⟩
  cases hposts

end Counterexample

end Wings
