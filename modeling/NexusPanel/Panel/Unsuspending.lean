import NexusPanel.Panel.Suspension

/-!
# Suspending and unsuspending a server

A suspension takes the place of the status the server had, and `unsuspend` clears the column:
what stood there before the suspension is kept nowhere. So a server that was running gets back
where it was, and one that was installing, restoring a backup or being transferred does not.
Whether it is installed is a column of its own, and stays.
-/

namespace Panel

open Transition

/-- How far along a server is: its status, and whether it is installed. -/
def Database.lifecycle (db : Database) (id : String) : Option (Option ServerStatus × Int) :=
  (db.servers.findOne fun s => s.id == id).map fun s => (s.status, s.installed)

/-- The status that `suspend` or `unsuspend` is about to write to the server. -/
def Task.suspensionStatus (id : String) : Task → Option (Option ServerStatus)
  | .suspend (.write server) => if server.id = id then some (some .suspended) else none
  | .unsuspend (.write server) => if server.id = id then some none else none
  | _ => none

/-- The status that a step writes in this way. -/
def suspensionWrite (id : String) (p : ServersPool) : ServersLabel → Option (Option ServerStatus)
  | .turn i .ok => p.tasks[i]?.bind (Task.suspensionStatus id)
  | _ => none

/-- The statuses that `suspend` and `unsuspend` write to the server in the course of a run. -/
def suspensionWrites (js : Js) (id : String) :
    ServersPool → List ServersLabel → List (Option ServerStatus)
  | _, [] => []
  | p, l :: ls =>
    (suspensionWrite id p l).toList ++
      match serversStep js p l with
      | some p' => suspensionWrites js id p' ls
      | none => []

/-- Every step but those leaves the lifecycle of the server alone. -/
def StandsAside (js : Js) (id : String) (p : ServersPool) (l : ServersLabel) : Prop :=
  suspensionWrite id p l = none →
    ∀ p' ∈ serversStep js p l, p'.store.db.lifecycle id = p.store.db.lifecycle id

instance (js : Js) (id : String) (p : ServersPool) (l : ServersLabel) :
    Decidable (StandsAside js id p l) := inferInstanceAs (Decidable (_ → _))

/-- A run in which the server is suspended and then unsuspended, whatever Wings answers, and nothing
else is done to its lifecycle, leaves the lifecycle as it was. -/
def RestoresLifecycle (js : Js) (id : String) (p : ServersPool) (ls : List ServersLabel) : Prop :=
  Along (serversStep js) (StandsAside js id) p ls →
    suspensionWrites js id p ls = [some .suspended, none] →
      ∀ p', run (serversStep js) p ls = some p' →
        p'.store.db.lifecycle id = p.store.db.lifecycle id

section Steps

variable {js : Js} {p p' : ServersPool} {l : ServersLabel} {id : String}

/-- A statement on the status of one server. -/
theorem lifecycle_updateServer {db db' : Database} {status : Option ServerStatus}
    (h : db.exec (.updateServer id ⟨none, some status⟩) = some db') :
    db'.lifecycle id = (db.lifecycle id).map fun old => (status, old.2) := by
  unfold Database.lifecycle
  cases hfound : db.servers.findOne fun s => s.id == id with
  | none =>
    have habsent : db'.servers.findOne (fun s => s.id == id) = none := by
      rw [Table.findOne_eq_none] at hfound ⊢
      intro x hx
      obtain ⟨s, hs, rfl⟩ := (mem_servers_updateServer h).mp hx
      have hne := hfound s hs
      rw [if_neg (by simpa using hne)]
      exact hne
    rw [habsent]
    rfl
  | some s =>
    have hid := Table.findOne_sat hfound
    have hmem := (mem_servers_updateServer h).mpr ⟨s, Table.findOne_mem hfound, rfl⟩
    rw [if_pos hid] at hmem
    have hnew : db'.servers.findOne (fun s => s.id == id) =
        some (Lifecycle.set ⟨none, some status⟩ s) := by
      refine Table.findOne_eq_some hmem hid fun y _ hyid => ?_
      exact (beq_iff_eq.mp hyid).trans (beq_iff_eq.mp hid).symm
    rw [hnew]
    rfl

/-- The turn that writes a status leaves it behind. -/
theorem lifecycle_written {i : Nat} {task : Task} {status : Option ServerStatus}
    (htask : p.tasks[i]? = some task)
    (hstatement : task.statement = some (.updateServer id ⟨none, some status⟩))
    (hstep : serversStep js p (.turn i .ok) = some p') :
    p'.store.db.lifecycle id = (p.store.db.lifecycle id).map fun old => (status, old.2) := by
  obtain ⟨task', htask', hdb, -⟩ := serversStep_turn hstep
  cases htask.symm.trans htask'
  obtain ⟨db', hexec⟩ := exec_updateServer p.store.db id ⟨none, some status⟩
  have hissue : p.store.db.issue .ok task.statement = db' := by
    simp only [Database.issue, hstatement, hexec, Option.getD_some]
  rw [hdb, hissue]
  exact lifecycle_updateServer hexec

/-- One step: the status that it writes, and otherwise what was there. -/
theorem lifecycle_step (hstep : serversStep js p l = some p') (haside : StandsAside js id p l) :
    p'.store.db.lifecycle id = (p.store.db.lifecycle id).map fun old =>
      ((suspensionWrite id p l).getD old.1, old.2) := by
  cases hwrite : suspensionWrite id p l with
  | none =>
    rw [haside hwrite p' hstep]
    exact Option.map_id'.symm
  | some status =>
    cases l with
    | start task | outside event => cases hwrite
    | turn i reply =>
      cases reply with
      | failed message => cases hwrite
      | ok =>
        obtain ⟨task, htask, hstatus⟩ := Option.bind_eq_some_iff.mp hwrite
        refine lifecycle_written htask ?_ hstep
        unfold Task.suspensionStatus at hstatus
        split at hstatus
        next server =>
          split at hstatus <;> cases hstatus
          subst id
          rfl
        next server =>
          split at hstatus <;> cases hstatus
          subst id
          rfl
        next => cases hstatus

/-- A run: the last status that was written, and otherwise what was there. -/
theorem lifecycle_run {ls : List ServersLabel} (hrun : run (serversStep js) p ls = some p')
    (haside : Along (serversStep js) (StandsAside js id) p ls) :
    p'.store.db.lifecycle id = (p.store.db.lifecycle id).map fun old =>
      ((suspensionWrites js id p ls).getLast?.getD old.1, old.2) := by
  induction ls generalizing p with
  | nil =>
    cases hrun
    exact Option.map_id'.symm
  | cons l ls ih =>
    obtain ⟨q, hstep, hrest⟩ := run_cons_eq_some.mp hrun
    rw [ih hrest (haside.2 q hstep), lifecycle_step hstep haside.1, Option.map_map]
    congr 1
    funext old
    simp only [suspensionWrites, hstep, Function.comp_apply, Prod.mk.injEq, and_true]
    cases suspensionWrite id p l with
    | none => rfl
    | some status =>
      cases suspensionWrites js id q ls with
      | nil => rfl
      | cons first rest => simp [List.getLast?_cons]

end Steps

/-- A server that is suspended and then unsuspended, whatever Wings answers and whatever happens
to other servers meanwhile, is as installed as it was and has no status. -/
theorem unsuspended_has_no_status (js : Js) (p : ServersPool) (ls : List ServersLabel)
    (id : String) {p' : ServersPool} {status : Option ServerStatus} {installed : Int}
    (hbefore : p.store.db.lifecycle id = some (status, installed))
    (haside : Along (serversStep js) (StandsAside js id) p ls)
    (hwrites : suspensionWrites js id p ls = [some .suspended, none])
    (hrun : run (serversStep js) p ls = some p') :
    p'.store.db.lifecycle id = some (none, installed) ∧
      (p'.store.db.lifecycle id = p.store.db.lifecycle id ↔ status = none) := by
  have hafter : p'.store.db.lifecycle id = some (none, installed) := by
    rw [lifecycle_run hrun haside, hbefore, hwrites]
    rfl
  refine ⟨hafter, ?_⟩
  rw [hafter, hbefore]
  simp [eq_comm]

/-! ## A server that is being installed -/

/-- An administrator suspends the server, Wings refusing to stop it, and unsuspends it. -/
def suspendAndUnsuspend : List ServersLabel :=
  [.start (.suspend (.find "u")), .turn 0 .ok, .turn 0 .ok, .turn 0 (.failed "unreachable"),
    .turn 0 .ok, .turn 0 .ok, .start (.unsuspend (.find "u")), .turn 0 .ok, .turn 0 .ok,
    .turn 0 .ok, .turn 0 .ok]

theorem running_server_unsuspended :
    ∃ p', run (serversStep .plain) (.idle (.oneServer none) []) suspendAndUnsuspend = some p' ∧
      p'.store.db.lifecycle "1" = some (none, 0) := by
  have hbefore : (ServersPool.idle (.oneServer none) []).store.db.lifecycle "1" = some (none, 0) :=
    by decide +kernel
  exact ⟨_, rfl, (unsuspended_has_no_status .plain _ suspendAndUnsuspend "1" hbefore
    (by decide +kernel) (by decide +kernel) rfl).1⟩

/-- The status is lost, and with it that the server is being installed. -/
theorem installing_not_restored :
    ¬ RestoresLifecycle .plain "1" (.idle (.oneServer (some .installing)) [])
      suspendAndUnsuspend := by
  intro h
  have hrestored := h (by decide +kernel) (by decide +kernel) _ rfl
  revert hrestored
  decide +kernel

end Panel
