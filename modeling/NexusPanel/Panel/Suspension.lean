import NexusPanel.Panel.ServersSystem

/-!
# Suspension

Once a server is suspended it is to stay so until somebody unsuspends it or it is deleted.
The column is shared with the installs, and their statements, and the whole-row `save` of an
update, do not look at what they overwrite: each of them lifts the suspension of a server it
reaches. Nothing else does, whatever the order of the statements.
-/

namespace Panel

open Transition

def Suspended (db : Database) (id : String) : Prop :=
  ∃ s ∈ db.servers, s.id = id ∧ s.status = some .suspended

/-- The step is the statement of `unsuspend` for this server. -/
def Unsuspends (p : ServersPool) (l : ServersLabel) (id : String) : Prop :=
  ∃ i server, l = .turn i .ok ∧ p.tasks[i]? = some (.unsuspend (.write server)) ∧ server.id = id

/-- One step leaves a suspended server suspended, unless it unsuspends or deletes it. -/
def HoldsSuspension (js : Js) (p : ServersPool) (l : ServersLabel) : Prop :=
  ∀ id, Suspended p.store.db id → ¬ Unsuspends p l id → ∀ p', serversStep js p l = some p' →
    ∀ s ∈ p'.store.db.servers, s.id = id → s.status = some .suspended

/-- The server is there after the step, and the step does not unsuspend it. -/
def Spares (js : Js) (id : String) (p : ServersPool) (l : ServersLabel) : Prop :=
  ¬ Unsuspends p l id ∧ ∀ p', serversStep js p l = some p' → ∃ s ∈ p'.store.db.servers, s.id = id

/-- From any point of a run at which a server is suspended, it is suspended for as long as it is
neither unsuspended nor deleted. -/
def SuspensionStays (js : Js) (p : ServersPool) (labels : List ServersLabel) : Prop :=
  ∀ before during after, labels = before ++ during ++ after →
    ∀ q, run (serversStep js) p before = some q → ∀ id, Suspended q.store.db id →
      Along (serversStep js) (Spares js id) q during →
        ∀ r, run (serversStep js) q during = some r → Suspended r.store.db id

/-- The statement takes a suspension away. -/
def Lifts (db : Database) : Statement → Prop
  | .updateServer id columns =>
    Suspended db id ∧ ∃ status, columns.status = some status ∧ status ≠ some .suspended
  | .updateServerByUuid uuid columns =>
    (∃ s ∈ db.servers, s.uuid = uuid ∧ s.status = some .suspended) ∧
      ∃ status, columns.status = some status ∧ status ≠ some .suspended
  | .saveServer server _ => Suspended db server.id ∧ server.status ≠ some .suspended
  | _ => False

/-- No statement but `unsuspend`'s reaches a suspended server with another status: no report
of an install, from a callback or an event, no failed `create`, and no `save` of a row that
was loaded before the suspension. -/
def NoStrayStatus (p : ServersPool) : ServersLabel → Prop
  | .turn i .ok => ∀ task, p.tasks[i]? = some task → (∀ server, task ≠ .unsuspend (.write server)) →
      ∀ st, task.statement = some st → p.store.db.exec st ≠ none → ¬ Lifts p.store.db st
  | _ => True

/-! ## One statement -/

section Statements

variable {db db' : Database} {id : String}

theorem Suspended.status {s : Server} (h : Suspended db id) (hs : s ∈ db.servers)
    (hid : s.id = id) : s.status = some .suspended := by
  obtain ⟨x, hx, hxid, hstatus⟩ := h
  rw [Table.eq_of_key hs hx (hid.trans hxid.symm)]
  exact hstatus

theorem Lifecycle.set_status {columns : Lifecycle} {s : Server} :
    (columns.set s).status = columns.status.getD s.status := rfl

/-- A statement that sets columns, on the servers it selects. -/
theorem lifts_columns {p : Server → Bool} {columns : Lifecycle}
    (hservers : ∀ x, x ∈ db'.servers ↔ ∃ s ∈ db.servers, (if p s then columns.set s else s) = x) :
    ((∃ s ∈ db.servers, p s = true ∧ s.status = some .suspended) ∧
      ∃ status, columns.status = some status ∧ status ≠ some .suspended) ↔
    ∃ id, Suspended db id ∧ ∃ y ∈ db'.servers, y.id = id ∧ y.status ≠ some .suspended := by
  constructor
  · rintro ⟨⟨s, hs, hp, hstatus⟩, status, hset, hne⟩
    refine ⟨s.id, ⟨s, hs, rfl, hstatus⟩, columns.set s, ?_, rfl, ?_⟩
    · exact (hservers _).mpr ⟨s, hs, by rw [if_pos hp]⟩
    · rwa [Lifecycle.set_status, hset]
  · rintro ⟨id, hsuspended, y, hy, hid, hne⟩
    obtain ⟨s, hs, rfl⟩ := (hservers y).mp hy
    split at hne
    next hp =>
      rw [if_pos hp] at hid
      have hstatus := hsuspended.status hs hid
      refine ⟨⟨s, hs, hp, hstatus⟩, ?_⟩
      rw [Lifecycle.set_status] at hne
      cases hset : columns.status with
      | none =>
        rw [hset] at hne
        exact absurd hstatus hne
      | some status =>
        rw [hset] at hne
        exact ⟨status, rfl, hne⟩
    next hp =>
      rw [if_neg hp] at hid
      exact absurd (hsuspended.status hs hid) hne

/-- A statement that goes through lifts a suspension exactly when some suspended server has
another status afterwards. -/
theorem lifts_iff {st : Statement} (hexec : db.exec st = some db') :
    Lifts db st ↔
      ∃ id, Suspended db id ∧ ∃ y ∈ db'.servers, y.id = id ∧ y.status ≠ some .suspended := by
  have unchanged (hsub : ∀ y ∈ db'.servers, y ∈ db.servers) : False ↔
      ∃ id, Suspended db id ∧ ∃ y ∈ db'.servers, y.id = id ∧ y.status ≠ some .suspended := by
    refine iff_of_false id ?_
    rintro ⟨i, hsuspended, y, hy, hid, hne⟩
    exact hne (hsuspended.status (hsub y hy) hid)
  cases st with
  | createServer server =>
    refine iff_of_false id ?_
    rintro ⟨i, hsuspended, y, hy, hid, hne⟩
    rcases (mem_servers_createServer hexec).2.mp hy with rfl | hy
    · obtain ⟨s, hs, hsid, -⟩ := hsuspended
      exact (mem_servers_createServer (x := y) hexec).1 s hs (hsid.trans hid.symm)
    · exact hne (hsuspended.status hy hid)
  | updateServer i columns =>
    rw [← lifts_columns fun _ => mem_servers_updateServer hexec]
    refine and_congr_left fun _ => ⟨?_, ?_⟩
    · rintro ⟨s, hs, hid, hstatus⟩
      exact ⟨s, hs, beq_iff_eq.mpr hid, hstatus⟩
    · rintro ⟨s, hs, hid, hstatus⟩
      exact ⟨s, hs, beq_iff_eq.mp hid, hstatus⟩
  | updateServerByUuid uuid columns =>
    rw [← lifts_columns fun _ => mem_servers_updateServerByUuid hexec]
    refine and_congr_left fun _ => ⟨?_, ?_⟩
    · rintro ⟨s, hs, huuid, hstatus⟩
      exact ⟨s, hs, beq_iff_eq.mpr huuid, hstatus⟩
    · rintro ⟨s, hs, huuid, hstatus⟩
      exact ⟨s, hs, beq_iff_eq.mp huuid, hstatus⟩
  | saveServer server allocation =>
    constructor
    · rintro ⟨hsuspended, hne⟩
      exact ⟨server.id, hsuspended, server, (mem_servers_saveServer hexec).mpr (.inl rfl), rfl, hne⟩
    · rintro ⟨i, hsuspended, y, hy, rfl, hne⟩
      rcases (mem_servers_saveServer hexec).mp hy with rfl | ⟨hy, -⟩
      · exact ⟨hsuspended, hne⟩
      · exact absurd (hsuspended.status hy rfl) hne
  | removeServer i => exact unchanged fun y hy => ((mem_servers_removeServer hexec).mp hy).1
  | freeAllocation i => exact unchanged fun y hy => servers_freeAllocation hexec ▸ hy
  | removeAllocation i => exact unchanged fun y hy => servers_removeAllocation hexec ▸ hy
  | removeUnassigned n => exact unchanged fun y hy => servers_removeUnassigned hexec ▸ hy

end Statements

/-! ## One step -/

section Steps

variable {js : Js} {p p' : ServersPool} {l : ServersLabel}

/-- A step that issues no statement, or one that is refused, leaves every suspension. -/
theorem holdsSuspension_of_servers
    (h : ∀ p', serversStep js p l = some p' → p'.store.db.servers = p.store.db.servers) :
    HoldsSuspension js p l := by
  intro id hsuspended _ p' hstep s hs hid
  exact hsuspended.status (h p' hstep ▸ hs) hid

theorem servers_of_not_issued (h : issued p l = none) (hstep : serversStep js p l = some p') :
    p'.store.db.servers = p.store.db.servers := by
  cases serversStep_changes hstep with
  | executed st hst => cases h.symm.trans hst
  | quiet _ hservers => exact hservers
  | provisioned _ _ _ _ hservers => exact hservers

/-- The statement of `unsuspend` concerns its own server only. -/
theorem holdsSuspension_unsuspend {i : Nat} {server : Server}
    (htask : p.tasks[i]? = some (.unsuspend (.write server))) :
    HoldsSuspension js p (.turn i .ok) := by
  intro id hsuspended hspared p' hstep s hs hid
  have hissued : issued p (.turn i .ok) = some (.updateServer server.id ⟨none, some none⟩) := by
    simp only [issued, htask, Option.bind_some, Task.statement]
  cases serversStep_changes hstep with
  | executed st hst hexec =>
    cases hissued.symm.trans hst
    obtain ⟨x, hx, rfl⟩ := (mem_servers_updateServer hexec).mp hs
    split at hid
    next hserver =>
      exact absurd ⟨i, server, rfl, htask, (beq_iff_eq.mp hserver).symm.trans hid⟩ hspared
    next hserver =>
      rw [if_neg hserver]
      exact hsuspended.status hx hid
  | quiet _ hservers => exact hsuspended.status (hservers ▸ hs) hid
  | provisioned hst => cases hissued.symm.trans hst

/-- A turn of any other task holds every suspension exactly when its statement is refused or
lifts none. -/
theorem holdsSuspension_turn {i : Nat} {task : Task} (htask : p.tasks[i]? = some task)
    (hne : ∀ server, task ≠ .unsuspend (.write server)) :
    HoldsSuspension js p (.turn i .ok) ↔
      ∀ st, task.statement = some st → p.store.db.exec st ≠ none → ¬ Lifts p.store.db st := by
  have hissued : issued p (.turn i .ok) = task.statement := by
    simp only [issued, htask, Option.bind_some]
  have hspared (id : String) : ¬ Unsuspends p (.turn i .ok) id := by
    rintro ⟨j, server, heq, hserver, -⟩
    cases heq
    exact hne server (Option.some.inj (htask.symm.trans hserver))
  constructor
  · intro hholds st hst hgoes hlifts
    obtain ⟨db', hexec⟩ := Option.ne_none_iff_exists'.mp hgoes
    obtain ⟨id, hsuspended, y, hy, hid, hstatus⟩ := (lifts_iff hexec).mp hlifts
    obtain ⟨p', hstep⟩ : ∃ p', serversStep js p (.turn i .ok) = some p' := by
      simp only [serversStep, Tasks.step, Tasks.turnOf, htask, Option.map_some, Option.some.injEq,
        exists_eq']
    cases serversStep_changes hstep with
    | executed st' hst' hexec' =>
      cases (hissued.symm.trans hst').symm.trans hst
      cases hexec.symm.trans hexec'
      exact hstatus (hholds id hsuspended (hspared id) p' hstep y hy hid)
    | quiet hrefused => exact hgoes (hrefused st (hissued.trans hst))
    | provisioned hnone => cases (hissued.symm.trans hnone).symm.trans hst
  · intro hkeeps id hsuspended _ p' hstep s hs hid
    by_contra hstatus
    cases serversStep_changes hstep with
    | executed st hst hexec =>
      refine hkeeps st (hissued.symm.trans hst) (by rw [hexec]; exact Option.some_ne_none _) ?_
      exact (lifts_iff hexec).mpr ⟨id, hsuspended, s, hs, hid, hstatus⟩
    | quiet _ hservers => exact hstatus (hsuspended.status (hservers ▸ hs) hid)
    | provisioned _ _ _ _ hservers => exact hstatus (hsuspended.status (hservers ▸ hs) hid)

theorem holdsSuspension_iff : HoldsSuspension js p l ↔ NoStrayStatus p l := by
  cases l with
  | start task | outside event =>
    exact iff_of_true (holdsSuspension_of_servers fun _ => servers_of_not_issued rfl) trivial
  | turn i reply =>
    cases reply with
    | failed message =>
      exact iff_of_true (holdsSuspension_of_servers fun _ => servers_of_not_issued rfl) trivial
    | ok =>
      cases htask : p.tasks[i]? with
      | none =>
        have hissued : issued p (.turn i .ok) = none := by
          simp only [issued, htask, Option.bind_none]
        refine iff_of_true (holdsSuspension_of_servers fun _ => servers_of_not_issued hissued) ?_
        intro task hsome
        cases htask.symm.trans hsome
      | some task =>
        by_cases hwrite : ∃ server, task = .unsuspend (.write server)
        · obtain ⟨server, rfl⟩ := hwrite
          refine iff_of_true (holdsSuspension_unsuspend htask) fun task' htask' hne => ?_
          cases htask.symm.trans htask'
          exact absurd rfl (hne server)
        · have hne : ∀ server, task ≠ .unsuspend (.write server) :=
            fun server heq => hwrite ⟨server, heq⟩
          rw [holdsSuspension_turn htask hne]
          constructor
          · intro h task' htask' _
            cases htask.symm.trans htask'
            exact h
          · exact fun h => h task htask hne

end Steps

/-! ## Runs -/

/-- While every step holds suspensions, a server that is spared stays suspended. -/
theorem suspended_of_along {js : Js} {p p' : ServersPool} {labels : List ServersLabel}
    {id : String} (hholds : Along (serversStep js) (HoldsSuspension js) p labels)
    (hspares : Along (serversStep js) (Spares js id) p labels)
    (hsuspended : Suspended p.store.db id) (hrun : run (serversStep js) p labels = some p') :
    Suspended p'.store.db id := by
  induction labels generalizing p with
  | nil =>
    cases hrun
    exact hsuspended
  | cons l labels ih =>
    obtain ⟨q, hstep, hrun⟩ := run_cons_eq_some.mp hrun
    obtain ⟨hhold, hholds⟩ := hholds
    obtain ⟨⟨hspared, hthere⟩, hspares⟩ := hspares
    obtain ⟨s, hs, hid⟩ := hthere q hstep
    exact ih (hholds q hstep) (hspares q hstep)
      ⟨s, hs, hid, hhold id hsuspended hspared q hstep s hs hid⟩ hrun

theorem suspensionStays_iff_holds {js : Js} {p : ServersPool} {labels : List ServersLabel} :
    SuspensionStays js p labels ↔ Along (serversStep js) (HoldsSuspension js) p labels := by
  constructor
  · intro h
    induction labels generalizing p with
    | nil => trivial
    | cons l labels ih =>
      refine ⟨fun id hsuspended hspared p' hstep s hs hid => ?_, fun p' hstep => ih ?_⟩
      · have hspares : Along (serversStep js) (Spares js id) p [l] := by
          refine ⟨⟨hspared, fun q hq => ?_⟩, fun _ _ => trivial⟩
          cases hstep.symm.trans hq
          exact ⟨s, hs, hid⟩
        have hstays := h [] [l] labels rfl p rfl id hsuspended hspares p'
          (run_cons_eq_some.mpr ⟨p', hstep, rfl⟩)
        exact hstays.status hs hid
      · intro before during after hlabels q hrun
        exact h (l :: before) during after (congrArg (l :: ·) hlabels) q
          (run_cons_eq_some.mpr ⟨p', hstep, hrun⟩)
  · rintro h before during after rfl q hq id hsuspended hspares r hr
    refine suspended_of_along ?_ hspares hsuspended hr
    rw [List.append_assoc, along_append] at h
    exact (along_append.mp (h.2 q hq)).1

/-- From any operations in flight on any database, and for every run: a suspended server stays
suspended until it is unsuspended or deleted, if and only if no other statement reaches a
suspended server with another status. -/
theorem suspension_stays_iff (js : Js) (p : ServersPool) (labels : List ServersLabel) :
    SuspensionStays js p labels ↔ Along (serversStep js) NoStrayStatus p labels := by
  rw [suspensionStays_iff_holds]
  exact along_iff (I := fun _ => True) (fun _ _ _ _ _ => trivial)
    (fun _ _ _ => holdsSuspension_iff) trivial

/-! ## An install that ends while the server is suspended -/

section Callback

/-- An administrator suspends a server, and then the report of its install arrives. -/
def suspendAndReport : List ServersLabel :=
  [.start (.suspend (.find "u")), .turn 0 .ok, .turn 0 .ok, .turn 0 .ok, .turn 0 .ok, .turn 0 .ok,
    .start (.callback (.receive "u" "success")), .turn 0 .ok, .turn 0 .ok, .turn 0 .ok]

/-- The report lifts the suspension. -/
theorem suspension_lifted_by_callback :
    ¬ SuspensionStays .plain (.idle (.oneServer (some .installing)) []) suspendAndReport := by
  intro h
  have hsteps := suspensionStays_iff_holds.mp h
  have hlast := (((((((((hsteps.2 _ rfl).2 _ rfl).2 _ rfl).2 _ rfl).2 _ rfl).2 _ rfl).2 _ rfl).2 _
    rfl).2 _ rfl).1
  have hstatus := hlast "1" ⟨_, List.mem_cons_self, rfl, rfl⟩ ?_ _ rfl _ List.mem_cons_self rfl
  · cases hstatus
  · rintro ⟨i, server, hturn, htask, -⟩
    cases hturn
    cases htask

end Callback

end Panel
