import NexusPanel.Panel.ServersSystem

/-!
# Servers and allocations agree

A server refers to an allocation by its column `allocationId`, which no foreign key guards,
and the allocation to the server by `serverId`. The two agree as long as every statement that
goes through keeps them together, and for each statement there is one condition, on the
database it finds, under which it does. `create`'s transaction needs its allocation to be
there still; the statement with which `delete` frees an allocation, and the removal of an
allocation, need one that is not assigned. A save writes the relation as it was loaded: the
server has to have been loaded with the allocation it names, and when that is gone by now,
with a row that is there still and names it too. No statement of the code looks.
-/

namespace Panel

open Transition

/-- The server refers to an allocation if and only if the allocation is there and refers to
the server. -/
def Agree (db : Database) : Prop :=
  ∀ s ∈ db.servers, ∀ id, s.allocationId = id ↔
    ∃ a ∈ db.allocations, a.id = id ∧ a.serverId = some s.id

/-- What a statement has to find so as to keep servers and allocations together. -/
def KeepsAgreement (db : Database) : Statement → Prop
  | .createServer server => ∃ a ∈ db.allocations, a.id = server.allocationId
  | .saveServer server (some id) =>
    (∀ a ∈ db.allocations, a.id = id → server.allocationId = id) ∧
      ((∀ a ∈ db.allocations, a.id ≠ id) →
        ∃ s ∈ db.servers, s.id = server.id ∧ s.allocationId = server.allocationId)
  | .saveServer _ none => False
  | .freeAllocation id | .removeAllocation id =>
    ∀ a ∈ db.allocations, a.id = id → a.serverId = none
  | .updateServer _ _ | .updateServerByUuid _ _ | .removeServer _ | .removeUnassigned _ => True

/-- Every statement that goes through finds what it has to. -/
def StatementsKeepAgreement (p : ServersPool) (l : ServersLabel) : Prop :=
  ∀ st, issued p l = some st → ∀ db', p.store.db.exec st = some db' →
    KeepsAgreement p.store.db st

namespace Agree

variable {db db' : Database} {s : Server} {a : Allocation}

/-- The allocation a server refers to refers back. -/
theorem back (h : Agree db) (hs : s ∈ db.servers) :
    ∃ a ∈ db.allocations, a.id = s.allocationId ∧ a.serverId = some s.id := (h s hs _).mp rfl

/-- An assigned allocation has its server, which refers to it. -/
theorem holder (h : Agree db) (ha : a ∈ db.allocations) {id : String}
    (hid : a.serverId = some id) : ∃ s ∈ db.servers, s.id = id ∧ s.allocationId = a.id := by
  obtain ⟨s, hs, rfl⟩ := db.exists_holder ha hid
  exact ⟨s, hs, rfl, (h s hs a.id).mpr ⟨a, ha, rfl, hid⟩⟩

/-- Servers and allocations that only look the same to each other. -/
theorem congr (h : Agree db)
    (hservers : ∀ s ∈ db'.servers, ∃ s₀ ∈ db.servers,
      s.id = s₀.id ∧ s.allocationId = s₀.allocationId)
    (hallocations : ∀ id serverId, (∃ a ∈ db'.allocations, a.id = id ∧ a.serverId = some serverId) ↔
      ∃ a ∈ db.allocations, a.id = id ∧ a.serverId = some serverId) : Agree db' := by
  intro s hs id
  obtain ⟨s₀, hs₀, hid, hallocation⟩ := hservers s hs
  rw [hallocations, hid, hallocation]
  exact h s₀ hs₀ id

/-- Setting columns of servers changes no reference. -/
theorem of_lifecycle (h : Agree db) {p : Server → Bool} {columns : Lifecycle}
    (hservers : ∀ x, x ∈ db'.servers ↔ ∃ s ∈ db.servers, (if p s then columns.set s else s) = x)
    (hallocations : db'.allocations = db.allocations) : Agree db' := by
  refine h.congr (fun x hx => ?_) (fun id serverId => by rw [hallocations])
  obtain ⟨s, hs, rfl⟩ := (hservers x).mp hx
  refine ⟨s, hs, ?_⟩
  split <;> exact ⟨rfl, rfl⟩

theorem createServer_iff (h : Agree db) {server : Server}
    (hexec : db.exec (.createServer server) = some db') :
    Agree db' ↔ KeepsAgreement db (.createServer server) := by
  have hfresh := (mem_servers_createServer (x := server) hexec).1
  have hservers := fun x => (mem_servers_createServer (x := x) hexec).2
  have hallocations := fun x => mem_allocations_createServer (x := x) hexec
  constructor
  · intro h'
    obtain ⟨b, hb, hid, -⟩ := h'.back ((hservers server).mpr (.inl rfl))
    obtain ⟨a, ha, rfl⟩ := (hallocations b).mp hb
    refine ⟨a, ha, ?_⟩
    split at hid <;> exact hid
  · rintro ⟨a₀, ha₀, ha₀id⟩ s hs id
    rcases (hservers s).mp hs with rfl | hold
    · -- the new server: its allocation, and no other, was assigned to it
      constructor
      · rintro rfl
        refine ⟨{ a₀ with serverId := some s.id }, ?_, ha₀id, rfl⟩
        exact (hallocations _).mpr ⟨a₀, ha₀, by rw [if_pos (beq_iff_eq.mpr ha₀id)]⟩
      · rintro ⟨b, hb, rfl, hserver⟩
        obtain ⟨a, ha, rfl⟩ := (hallocations b).mp hb
        split at hserver
        next hid =>
          rw [if_pos hid]
          exact (beq_iff_eq.mp hid).symm
        next =>
          obtain ⟨holder, hholder, hholderid⟩ := db.exists_holder ha hserver
          exact absurd hholderid (hfresh holder hholder)
    · -- an old server does not refer to the new one's allocation
      have hne : s.allocationId ≠ server.allocationId := fun heq => by
        have hnew := (hservers server).mpr (.inl rfl)
        have hsame := db'.eq_of_allocationId hs hnew heq
        exact hfresh s hold (congrArg Server.id hsame)
      rw [h s hold id]
      constructor
      · rintro ⟨a, ha, rfl, hserver⟩
        have haid : a.id ≠ server.allocationId := fun heq =>
          hne ((h s hold _).mpr ⟨a, ha, heq, hserver⟩)
        refine ⟨a, (hallocations a).mpr ⟨a, ha, ?_⟩, rfl, hserver⟩
        rw [if_neg (fun heq => haid (beq_iff_eq.mp heq))]
      · rintro ⟨b, hb, rfl, hserver⟩
        obtain ⟨a, ha, rfl⟩ := (hallocations b).mp hb
        split at hserver
        next => exact absurd (Option.some.inj hserver).symm (hfresh s hold)
        next hid =>
          rw [if_neg hid]
          exact ⟨a, ha, rfl, hserver⟩

/-- A save that finds the allocation of its entity assigns it. -/
theorem saveServer_found (h : Agree db) {server : Server} (ha : a ∈ db.allocations)
    (hexec : db.exec (.saveServer server (some a.id)) = some db') :
    Agree db' ↔ server.allocationId = a.id := by
  have hservers := fun x => mem_servers_saveServer (x := x) hexec
  have hallocations := fun x => mem_allocations_saveServer (x := x) hexec
  have hassigned : { a with serverId := some server.id } ∈ db'.allocations :=
    (hallocations _).mpr ⟨a, ha, if_pos (Allocation.writtenWith_some.mpr rfl)⟩
  have hserver : server ∈ db'.servers := (hservers server).mpr (.inl rfl)
  constructor
  · intro h'
    exact (h' server hserver a.id).mpr ⟨_, hassigned, rfl, rfl⟩
  · intro heq s hs id
    rcases (hservers s).mp hs with rfl | ⟨hold, hne⟩
    · -- the unique column has no other allocation assigned to the saved server
      constructor
      · rintro rfl
        exact ⟨_, hassigned, heq.symm, rfl⟩
      · rintro ⟨b, hb, rfl, hb'⟩
        by_contra hid
        have hdiffer : b.id ≠ a.id := fun hba => hid (heq.trans hba.symm)
        rcases (db'.constraints.2.2.1 b hb _ hassigned hdiffer).1 with hnone | hother
        · cases hb'.symm.trans hnone
        · exact hother hb'
    · -- another server does not name the allocation, and it was not assigned to it before
      have hdiffer : s.allocationId ≠ a.id := fun hsa => by
        have hsame := db'.eq_of_allocationId hs hserver (hsa.trans heq.symm)
        exact hne (congrArg Server.id hsame)
      rw [h s hold id]
      constructor
      · rintro ⟨b, hb, rfl, hb'⟩
        have hba : b.id ≠ a.id := fun hba => hdiffer ((h s hold _).mpr ⟨b, hb, hba, hb'⟩)
        refine ⟨b, (hallocations b).mpr ⟨b, hb, if_neg fun hwritten => ?_⟩, rfl, hb'⟩
        exact hba (Allocation.writtenWith_some.mp hwritten)
      · rintro ⟨c, hc, rfl, hc'⟩
        obtain ⟨b, hb, rfl⟩ := (hallocations c).mp hc
        split at hc'
        next => exact absurd (Option.some.inj hc').symm hne
        next hid =>
          rw [if_neg hid]
          exact ⟨b, hb, rfl, hc'⟩

/-- A save whose allocation is gone leaves the allocations as they are. -/
theorem saveServer_gone (h : Agree db) {server : Server} {id : String}
    (hgone : ∀ a ∈ db.allocations, a.id ≠ id)
    (hexec : db.exec (.saveServer server (some id)) = some db') :
    Agree db' ↔ ∃ s ∈ db.servers, s.id = server.id ∧ s.allocationId = server.allocationId := by
  have hservers := fun x => mem_servers_saveServer (x := x) hexec
  have hunwritten : ∀ a ∈ db.allocations, ¬ a.writtenWith server (some id) := fun a ha hid =>
    hgone a ha (Allocation.writtenWith_some.mp hid)
  have hallocations : ∀ x, x ∈ db'.allocations ↔ x ∈ db.allocations := by
    intro x
    rw [mem_allocations_saveServer hexec]
    constructor
    · rintro ⟨a, ha, rfl⟩
      rwa [if_neg (hunwritten a ha)]
    · exact fun hx => ⟨x, hx, if_neg (hunwritten x hx)⟩
  constructor
  · intro h'
    obtain ⟨a, ha, haid, hserver⟩ := h'.back ((hservers server).mpr (.inl rfl))
    obtain ⟨s, hs, hsid, hallocation⟩ := h.holder ((hallocations a).mp ha) hserver
    exact ⟨s, hs, hsid, hallocation.trans haid⟩
  · rintro ⟨s₀, hs₀, hid, hallocation⟩
    refine h.congr (fun x hx => ?_) (fun id serverId => by simp only [hallocations])
    rcases (hservers x).mp hx with rfl | ⟨hx, -⟩
    · exact ⟨s₀, hs₀, hid.symm, hallocation.symm⟩
    · exact ⟨x, hx, rfl, rfl⟩

/-- A save of an entity that was loaded without an allocation leaves it none. -/
theorem saveServer_unassigned {server : Server}
    (hexec : db.exec (.saveServer server none) = some db') : ¬ Agree db' := by
  intro h'
  obtain ⟨b, hb, -, hserver⟩ := h'.back ((mem_servers_saveServer hexec).mpr (.inl rfl))
  obtain ⟨a, -, rfl⟩ := (mem_allocations_saveServer hexec).mp hb
  split at hserver
  next => cases hserver
  next hid => exact hid (Allocation.writtenWith_none.mpr hserver)

theorem saveServer_iff (h : Agree db) {server : Server} {allocation : Option String}
    (hexec : db.exec (.saveServer server allocation) = some db') :
    Agree db' ↔ KeepsAgreement db (.saveServer server allocation) := by
  cases allocation with
  | none => exact iff_of_false (saveServer_unassigned hexec) id
  | some id =>
    by_cases hfound : ∃ a ∈ db.allocations, a.id = id
    · obtain ⟨a, ha, rfl⟩ := hfound
      rw [h.saveServer_found ha hexec]
      exact ⟨fun heq => ⟨fun _ _ _ => heq, fun hgone => absurd rfl (hgone a ha)⟩,
        fun hkeep => hkeep.1 a ha rfl⟩
    · have hgone : ∀ a ∈ db.allocations, a.id ≠ id := fun a ha hid => hfound ⟨a, ha, hid⟩
      rw [h.saveServer_gone hgone hexec]
      exact ⟨fun hrow => ⟨fun a ha hid => absurd hid (hgone a ha), fun _ => hrow⟩,
        fun hkeep => hkeep.2 hgone⟩

/-- Taking assignments away, or allocations: agreement is kept when none was assigned. -/
theorem unassign_iff (h : Agree db) {id : String} (hservers : db'.servers = db.servers)
    (hallocations : ∀ aid serverId,
      (∃ a ∈ db'.allocations, a.id = aid ∧ a.serverId = some serverId) ↔
        ∃ a ∈ db.allocations, (a.id = aid ∧ a.serverId = some serverId) ∧ a.id ≠ id) :
    Agree db' ↔ ∀ a ∈ db.allocations, a.id = id → a.serverId = none := by
  constructor
  · intro h' a ha haid
    cases hserver : a.serverId with
    | none => rfl
    | some serverId =>
      obtain ⟨s, hs, rfl, hallocation⟩ := h.holder ha hserver
      obtain ⟨b, hb, ⟨hbid, -⟩, hne⟩ := (hallocations _ _).mp (h'.back (hservers ▸ hs))
      exact absurd (hbid.trans (hallocation.trans haid)) hne
  · intro hfree
    refine h.congr (fun s hs => ⟨s, hservers ▸ hs, rfl, rfl⟩) fun aid serverId => ?_
    rw [hallocations]
    constructor
    · rintro ⟨a, ha, hkeep, -⟩
      exact ⟨a, ha, hkeep⟩
    · rintro ⟨a, ha, hkeep⟩
      refine ⟨a, ha, hkeep, fun heq => ?_⟩
      rw [hfree a ha heq] at hkeep
      cases hkeep.2

/-- One statement that goes through keeps agreement exactly when it finds what it has to. -/
theorem exec_iff (h : Agree db) {st : Statement} (hexec : db.exec st = some db') :
    Agree db' ↔ KeepsAgreement db st := by
  cases st with
  | createServer server => exact h.createServer_iff hexec
  | saveServer server allocation => exact h.saveServer_iff hexec
  | updateServer id columns =>
    exact iff_of_true (h.of_lifecycle (fun _ => mem_servers_updateServer hexec)
      (allocations_updateServer hexec)) trivial
  | updateServerByUuid uuid columns =>
    exact iff_of_true (h.of_lifecycle (fun _ => mem_servers_updateServerByUuid hexec)
      (allocations_updateServerByUuid hexec)) trivial
  | removeServer id =>
    refine iff_of_true (h.congr (fun s hs => ?_) fun _ _ => by rw [allocations_removeServer hexec])
      trivial
    exact ⟨s, ((mem_servers_removeServer hexec).mp hs).1, rfl, rfl⟩
  | freeAllocation id =>
    refine h.unassign_iff (servers_freeAllocation hexec) fun aid serverId => ?_
    constructor
    · rintro ⟨b, hb, rfl, hserver⟩
      obtain ⟨a, ha, rfl⟩ := (mem_allocations_freeAllocation hexec).mp hb
      split at hserver
      next => cases hserver
      next hid =>
        rw [if_neg hid]
        exact ⟨a, ha, ⟨rfl, hserver⟩, fun heq => hid (beq_iff_eq.mpr heq)⟩
    · rintro ⟨a, ha, ⟨rfl, hserver⟩, hne⟩
      refine ⟨a, (mem_allocations_freeAllocation hexec).mpr ⟨a, ha, ?_⟩, rfl, hserver⟩
      rw [if_neg fun heq => hne (beq_iff_eq.mp heq)]
  | removeAllocation id =>
    refine h.unassign_iff (servers_removeAllocation hexec) fun aid serverId => ?_
    constructor
    · rintro ⟨a, ha, hkeep⟩
      obtain ⟨ha, hne⟩ := (mem_allocations_removeAllocation hexec).mp ha
      exact ⟨a, ha, hkeep, hne⟩
    · rintro ⟨a, ha, hkeep, hne⟩
      exact ⟨a, (mem_allocations_removeAllocation hexec).mpr ⟨ha, hne⟩, hkeep⟩
  | removeUnassigned nodeId =>
    -- an allocation some server holds is not among those removed
    refine iff_of_true (h.congr (fun s hs => ⟨s, servers_removeUnassigned hexec ▸ hs, rfl, rfl⟩)
      fun aid serverId => ?_) trivial
    constructor
    · rintro ⟨a, ha, hkeep⟩
      exact ⟨a, ((mem_allocations_removeUnassigned hexec).mp ha).1, hkeep⟩
    · rintro ⟨a, ha, haid, hserver⟩
      refine ⟨a, (mem_allocations_removeUnassigned hexec).mpr ⟨ha, .inr ?_⟩, haid, hserver⟩
      rw [hserver]
      exact Option.some_ne_none _

/-- One step. -/
theorem step_iff {js : Js} {p p' : ServersPool} {l : ServersLabel} (h : Agree p.store.db)
    (hstep : serversStep js p l = some p') :
    Agree p'.store.db ↔ StatementsKeepAgreement p l := by
  cases serversStep_changes hstep with
  | executed st hst hexec =>
    rw [h.exec_iff hexec]
    constructor
    · intro hkeep st' hst' _ _
      cases hst.symm.trans hst'
      exact hkeep
    · exact fun hkeep => hkeep st hst _ hexec
  | quiet hst hservers hallocations =>
    refine iff_of_true (h.congr (fun s hs => ⟨s, hservers ▸ hs, rfl, rfl⟩)
      fun _ _ => by rw [hallocations]) fun st hissued db' hexec => ?_
    rw [hst st hissued] at hexec
    cases hexec
  | provisioned hst a hfree hfresh hservers hallocations =>
    refine iff_of_true (h.congr (fun s hs => ⟨s, hservers ▸ hs, rfl, rfl⟩)
      fun aid serverId => ?_) fun st hissued => by cases hst.symm.trans hissued
    constructor
    · rintro ⟨b, hb, hid, hserver⟩
      rcases (hallocations b).mp hb with rfl | hb
      · cases hfree.symm.trans hserver
      · exact ⟨b, hb, hid, hserver⟩
    · rintro ⟨b, hb, hkeep⟩
      exact ⟨b, (hallocations b).mpr (.inr hb), hkeep⟩

end Agree

/-- From any operations in flight on a database in which servers and allocations agree, and
for every run: they agree in every state of it, also in one an operation was left in midway,
if and only if every statement that goes through finds what it has to. -/
theorem allocations_agree_iff (js : Js) (p : ServersPool) (h : Agree p.store.db)
    (labels : List ServersLabel) :
    (∀ done, done <+: labels → ∀ p', run (serversStep js) p done = some p' →
      Agree p'.store.db) ↔
    Along (serversStep js) StatementsKeepAgreement p labels :=
  always_iff_along (I := fun q => Agree q.store.db) (fun _ _ _ hq hstep => hq.step_iff hstep)
    (fun q l hstuck st hst => by rw [issued_of_stuck hstuck] at hst; cases hst) h

/-! ## A server on its way out -/

section Deletion

/-- `delete` up to and including the statement that frees the allocation. -/
def freeingRun : List ServersLabel :=
  [.start (.delete (.load "u")), .turn 0 .ok, .turn 0 .ok, .turn 0 .ok]

/-- Removing all free allocations of the node. -/
def bulkDeleteRun : List ServersLabel :=
  [.start (.allocation (.bulkDelete "n")), .turn 0 .ok]

theorem Database.oneServer_agree (status : Option ServerStatus) : Agree (.oneServer status) := by
  intro s hs id
  rw [List.mem_singleton.mp hs]
  constructor
  · rintro rfl
    exact ⟨_, List.mem_cons_self, rfl, rfl⟩
  · rintro ⟨a, ha, rfl, hserver⟩
    rcases List.mem_cons.mp ha with rfl | ha
    · rfl
    · rw [List.mem_singleton.mp ha] at hserver
      cases hserver

theorem allocations_agree_bulkDelete :
    Always (serversStep .plain) (fun _ p' => Agree p'.store.db) (.idle (.oneServer none) [])
      bulkDeleteRun := by
  refine (allocations_agree_iff .plain (.idle (.oneServer none) []) (Database.oneServer_agree none)
    bulkDeleteRun).mpr ⟨fun _ h => (nomatch h), fun p' hp' => ?_⟩
  cases hp'
  refine ⟨fun st hst _ _ => ?_, fun _ _ => trivial⟩
  cases hst
  trivial

/-- Between the two statements of `delete` the server refers to an allocation that does not
refer to it. -/
theorem allocations_disagree :
    ¬ ∀ done, done <+: freeingRun →
      ∀ p', run (serversStep .plain) (.idle (.oneServer none) []) done = some p' →
        Agree p'.store.db := by
  intro h
  have hagree := h freeingRun (List.prefix_refl _) _ rfl
  obtain ⟨a, ha, hid, hserver⟩ := hagree.back List.mem_cons_self
  revert hid hserver
  rcases List.mem_cons.mp ha with rfl | ha
  · decide
  · rw [List.mem_singleton.mp ha]
    decide

end Deletion

end Panel
