import NexusPanel.Foundation.Text
import NexusPanel.Panel.AllocationsService

/-!
# Ranges of ports

What an accepted range does to the table: it adds a row for each of its ports that the node and
the address do not have yet, and nothing else happens. The two routes accept the same ranges and
leave the same places behind.

The range is checked before its ports are counted, and its width is one less than their number.
So a range of 1001 ports passes, and ports beyond sixteen bits pass as well.
-/

namespace Panel

open Fallible

/-! ## Places -/

/-- The columns of the unique constraint. -/
def Allocation.place (a : Allocation) : String × String × Nat := (a.nodeId, a.ip, a.port)

structure PortRange where
  nodeId : String
  ip : String
  portStart : Rat
  portEnd : Rat

/-- The ports of the range. -/
def PortRange.Covers (range : PortRange) (port : Nat) : Prop :=
  range.portStart ≤ port ∧ (port : Rat) ≤ range.portEnd

/-- The range a request asks for. -/
def AllocationRequest.range : AllocationRequest → Option PortRange
  | .create _ dto => some ⟨dto.nodeId, dto.ip, dto.portStart, dto.portEnd⟩
  | .adminCreate _ nodeId dto => some ⟨nodeId, dto.ip, dto.portStart, dto.portEnd⟩
  | .execute _ => none

/-- The old rows are as they were, and there is one new row, assigned to nobody, for each port of
the range that was not there. -/
structure CreatesMissing (range : PortRange) (db db' : Database) : Prop where
  untouched : ∀ a ∈ db.allocations, a ∈ db'.allocations
  missing : ∀ a ∈ db'.allocations, a ∈ db.allocations ∨
    (a.nodeId = range.nodeId ∧ a.ip = range.ip ∧ range.Covers a.port ∧ a.serverId = none ∧
      ∀ b ∈ db.allocations, b.place ≠ a.place)
  complete : ∀ port, range.Covers port →
    ∃ a ∈ db'.allocations, a.place = (range.nodeId, range.ip, port)
  once : ∀ a ∈ db'.allocations, ∀ b ∈ db'.allocations, a.place = b.place → a = b

section Created

variable {db db' : Database} {id : Nat → String} {nodeId ip : String} {ipAlias : Option String}
  {portStart portEnd : Rat}

theorem not_taken_iff {port : Nat} :
    (¬∃ a ∈ db.allocations, a.nodeId = nodeId ∧ a.ip = ip ∧ a.port = port) ↔
      ∀ a ∈ db.allocations, a.place ≠ (nodeId, ip, port) := by
  simp only [Allocation.place, ne_eq, Prod.mk.injEq, not_exists, not_and]

/-- Two rows of one place are one row. -/
theorem eq_of_place {a b : Allocation} (ha : a ∈ db.allocations) (hb : b ∈ db.allocations)
    (h : a.place = b.place) : a = b := by
  by_cases hid : a.id = b.id
  · exact Table.eq_of_key ha hb hid
  · exact absurd h (db.constraints.2.2.1 a ha b hb hid).2

theorem createsMissing (h : createRange db id nodeId ip ipAlias portStart portEnd = .ok db') :
    CreatesMissing ⟨nodeId, ip, portStart, portEnd⟩ db db' := by
  obtain ⟨-, -, first, rfl, hsave⟩ := createRange_ok h
  refine ⟨fun a ha => (mem_saveAllocations hsave).mpr (.inr ha), fun a ha => ?_,
    fun port hport => ?_, fun a ha b hb => eq_of_place ha hb⟩
  · rcases (mem_saveAllocations hsave).mp ha with hnew | hold
    · obtain ⟨⟨hstart, hend⟩, hfree, heq⟩ := mem_newAllocations.mp hnew
      refine .inr ⟨by rw [heq], by rw [heq], ⟨Nat.cast_le.mpr hstart, hend⟩, by rw [heq], ?_⟩
      have hplace : a.place = (nodeId, ip, a.port) := by rw [heq]; rfl
      rw [hplace]
      exact not_taken_iff.mp hfree
    · exact .inl hold
  · obtain ⟨a, ha, rfl, rfl, rfl⟩ := exists_of_createRange h hport.1 hport.2
    exact ⟨a, ha, rfl⟩

/-- The places behind an accepted range do not depend on the route. -/
theorem CreatesMissing.places {range : PortRange} (h : CreatesMissing range db db')
    (place : String × String × Nat) :
    (∃ a ∈ db'.allocations, a.place = place) ↔
      (∃ a ∈ db.allocations, a.place = place) ∨
        ∃ port, range.Covers port ∧ place = (range.nodeId, range.ip, port) := by
  constructor
  · rintro ⟨a, ha, rfl⟩
    rcases h.missing a ha with hold | ⟨hnode, hip, hcovers, -, -⟩
    · exact .inl ⟨a, hold, rfl⟩
    · exact .inr ⟨a.port, hcovers, by rw [← hnode, ← hip]; rfl⟩
  · rintro (⟨a, ha, rfl⟩ | ⟨port, hcovers, rfl⟩)
    · exact ⟨a, h.untouched a ha, rfl⟩
    · exact h.complete port hcovers

/-! ## What is accepted -/

/-- The ids that the database draws are new. -/
structure DrawnNew (db : Database) (id : Nat → String) : Prop where
  distinct : Function.Injective id
  new : ∀ a ∈ db.allocations, ∀ port, a.id ≠ id port

theorem exists_foldlM_insert {t : Table Allocation} {as : List Allocation}
    (hnodup : (as.map Allocation.id).Nodup) (hnew : ∀ a ∈ as, ∀ x ∈ t, x.id ≠ a.id) :
    ∃ t', as.foldlM Table.insert t = some t' := by
  induction as generalizing t with
  | nil => exact ⟨t, rfl⟩
  | cons a as ih =>
    obtain ⟨hfirst, hrest⟩ := List.nodup_cons.mp hnodup
    obtain ⟨u, hu⟩ := Table.exists_insert (hnew a List.mem_cons_self)
    have hnew' : ∀ b ∈ as, ∀ x ∈ u, x.id ≠ b.id := by
      intro b hb x hx heq
      rcases ((Table.insert_eq_some hu).2 x).mp hx with rfl | hold
      · exact hfirst (heq ▸ List.mem_map_of_mem hb)
      · exact hnew b (List.mem_cons_of_mem a hb) x hold heq
    obtain ⟨t', ht'⟩ := ih hrest hnew'
    exact ⟨t', Option.bind_eq_some_iff.mpr ⟨u, hu, ht'⟩⟩

/-- Rows of free places of a stored node, assigned to nobody, keep the constraints. -/
theorem constraints_of_free {t : Table Allocation} {row : Nat → Allocation}
    (hplace : ∀ port, (row port).place = (nodeId, ip, port))
    (hserver : ∀ port, (row port).serverId = none) {ports : List Nat}
    (hmem : ∀ a, a ∈ t ↔ (∃ port ∈ ports, row port = a) ∨ a ∈ db.allocations)
    (hfree : ∀ port ∈ ports, ∀ a ∈ db.allocations, a.place ≠ (nodeId, ip, port))
    (hnode : ports ≠ [] → ∃ n ∈ db.nodes, n.id = nodeId) :
    Tables.Constraints { db.toTables with allocations := t } := by
  refine ⟨db.constraints.1, db.constraints.2.1, ?_, ?_⟩
  · intro a ha b hb hne
    rcases (hmem a).mp ha with ⟨p, hp, rfl⟩ | hold <;>
      rcases (hmem b).mp hb with ⟨q, hq, rfl⟩ | hold'
    · refine ⟨.inl (hserver p), fun heq => hne ?_⟩
      have hplaces : (row p).place = (row q).place := heq
      rw [hplace, hplace] at hplaces
      have hpq : p = q := (Prod.mk.inj (Prod.mk.inj hplaces).2).2
      rw [hpq]
    · exact ⟨.inl (hserver p), fun heq => hfree p hp b hold' ((hplace p).symm.trans heq).symm⟩
    · refine ⟨?_, fun heq => hfree q hq a hold (heq.trans (hplace q))⟩
      cases hassigned : a.serverId with
      | none => exact .inl rfl
      | some serverId =>
        refine .inr fun heq => ?_
        rw [hserver] at heq
        cases heq
    · exact db.constraints.2.2.1 a hold b hold' hne
  · intro a ha
    rcases (hmem a).mp ha with ⟨p, hp, rfl⟩ | hold
    · have hnodeId : (row p).nodeId = nodeId := (Prod.mk.inj (hplace p)).1
      exact ⟨hnodeId ▸ hnode (List.ne_nil_of_mem hp), .inl (hserver p)⟩
    · exact db.constraints.2.2.2 a hold

/-- With ids that are new, rows for places that are free are refused only where the numbers do
not fit or the node is not there. -/
theorem saveAllocations_accepted (hdrawn : DrawnNew db id) (ipAlias : Option String)
    {ports : List Nat}
    (hnodup : ports.Nodup)
    (hfree : ∀ port ∈ ports, ∀ a ∈ db.allocations, a.place ≠ (nodeId, ip, port)) :
    (∃ db', saveAllocations db (ports.map fun port =>
        ⟨id port, nodeId, ip, ipAlias, port, none, none⟩) = .ok db') ↔
      (∀ port ∈ ports, port ≤ maxInteger) ∧ (ports ≠ [] → ∃ n ∈ db.nodes, n.id = nodeId) := by
  set row : Nat → Allocation := fun port => ⟨id port, nodeId, ip, ipAlias, port, none, none⟩
  constructor
  · rintro ⟨db', hsave⟩
    have hrows := rows_saveAllocations hsave
    simp only [saveAllocations, bind_eq_ok, require_eq_ok, orThrow_eq_ok] at hsave
    obtain ⟨-, hmax, hsave⟩ := hsave
    obtain ⟨allocations, -, hdb⟩ := Option.bind_eq_some_iff.mp hsave
    have htables := Database.ofTables_eq_some hdb
    refine ⟨fun port hport => ?_, fun hne => ?_⟩
    · exact of_decide_eq_true (List.all_eq_true.mp hmax (row port) (List.mem_map_of_mem hport))
    · obtain ⟨port, hport⟩ := List.exists_mem_of_ne_nil ports hne
      have hmem : row port ∈ db'.allocations.rows := by
        rw [hrows, List.mem_append, List.mem_reverse]
        exact .inl (List.mem_map_of_mem hport)
      have hnodes : db'.nodes = db.nodes := by rw [htables]
      exact hnodes ▸ (db'.constraints.2.2.2 (row port) hmem).1
  · rintro ⟨hmax, hnode⟩
    have hids : ((ports.map row).map Allocation.id).Nodup := by
      rw [List.map_map]
      exact hnodup.map hdrawn.distinct
    have hnew : ∀ a ∈ ports.map row, ∀ x ∈ db.allocations, x.id ≠ a.id := by
      intro a ha x hx heq
      obtain ⟨port, -, rfl⟩ := List.mem_map.mp ha
      exact hdrawn.new x hx port heq
    obtain ⟨t', hinsert⟩ := exists_foldlM_insert hids hnew
    have hmem : ∀ a, a ∈ t' ↔ (∃ port ∈ ports, row port = a) ∨ a ∈ db.allocations := by
      intro a
      rw [← Table.mem_rows, rows_foldlM_insert hinsert, List.mem_append, List.mem_reverse,
        List.mem_map, Table.mem_rows]
    have hconstraints : Tables.Constraints { db.toTables with allocations := t' } :=
      constraints_of_free (fun _ => rfl) (fun _ => rfl) hmem hfree hnode
    refine ⟨⟨_, hconstraints⟩, ?_⟩
    simp only [saveAllocations, bind_eq_ok, require_eq_ok, orThrow_eq_ok]
    refine ⟨(), List.all_eq_true.mpr fun a ha => ?_, ?_⟩
    · obtain ⟨port, hport, rfl⟩ := List.mem_map.mp ha
      exact decide_eq_true (hmax port hport)
    · rw [hinsert, Option.bind_some, Database.ofTables, dif_pos hconstraints]

theorem place_of_free {columns : List Nat} {port : Nat}
    (h : port ∈ columns.filter fun port => (findAllocation db nodeId ip port).isNone) :
    ∀ a ∈ db.allocations, a.place ≠ (nodeId, ip, port) := by
  rw [← not_taken_iff, ← findAllocation_isSome, Bool.not_eq_true, Option.isSome_eq_false_iff]
  exact (List.mem_filter.mp h).2

/-- Whether a range is accepted depends neither on the ids, as long as they are new, nor on the
alias. -/
theorem createRange_accepted {id' : Nat → String} (ipAlias' : Option String)
    (hdrawn : DrawnNew db id) (hdrawn' : DrawnNew db id')
    (h : createRange db id nodeId ip ipAlias portStart portEnd = .ok db') :
    ∃ db'', createRange db id' nodeId ip ipAlias' portStart portEnd = .ok db'' := by
  have hordered := (createRange_ok h).1
  simp only [createRange, bind_eq_ok] at h
  obtain ⟨u, hcheck, columns, hcolumns, hsave⟩ := h
  have hnodup : columns.Nodup := by
    rw [portCount_of_le hordered] at hcolumns
    obtain ⟨first, -, rfl⟩ := columns_portsFrom hcolumns
    exact List.nodup_range'
  have haccepted := (saveAllocations_accepted hdrawn ipAlias (hnodup.filter _)
    fun _ => place_of_free).mp ⟨db', hsave⟩
  obtain ⟨db'', hsave'⟩ := (saveAllocations_accepted hdrawn' ipAlias' (hnodup.filter _)
    fun _ => place_of_free).mpr haccepted
  refine ⟨db'', ?_⟩
  simp only [createRange, bind_eq_ok]
  exact ⟨u, hcheck, columns, hcolumns, hsave'⟩

end Created

/-! ## The two routes -/

/-- The same range on either route. -/
structure RoutesAgree (db : Database) (range : PortRange) : Prop where
  accepted : ∀ id id' ipAlias, DrawnNew db id → DrawnNew db id' →
    ((∃ db', AllocationsController.create db id
        ⟨range.nodeId, range.ip, range.portStart, range.portEnd⟩ = .ok db') ↔
      ∃ db', AdminAllocationsController.create db id' range.nodeId
        ⟨range.ip, range.portStart, range.portEnd, ipAlias⟩ = .ok db')
  service : ∀ id db', AllocationsController.create db id
      ⟨range.nodeId, range.ip, range.portStart, range.portEnd⟩ = .ok db' →
    CreatesMissing range db db'
  admin : ∀ id ipAlias db', AdminAllocationsController.create db id range.nodeId
      ⟨range.ip, range.portStart, range.portEnd, ipAlias⟩ = .ok db' →
    CreatesMissing range db db'
  same : ∀ id id' ipAlias db₁ db₂, AllocationsController.create db id
      ⟨range.nodeId, range.ip, range.portStart, range.portEnd⟩ = .ok db₁ →
    AdminAllocationsController.create db id' range.nodeId
      ⟨range.ip, range.portStart, range.portEnd, ipAlias⟩ = .ok db₂ →
    ∀ place, (∃ a ∈ db₁.allocations, a.place = place) ↔ ∃ a ∈ db₂.allocations, a.place = place

theorem AllocationsController.create_eq_ok {db db' : Database} {id : Nat → String}
    {dto : CreateAllocationsDto} : AllocationsController.create db id dto = .ok db' ↔
      dto.isValid = true ∧
        createRange db id dto.nodeId dto.ip none dto.portStart dto.portEnd = .ok db' := by
  simp only [AllocationsController.create, AllocationsService.create_eq, bind_eq_ok, require_eq_ok]
  constructor
  · rintro ⟨-, h⟩
    exact h
  · intro h
    exact ⟨(), h⟩

theorem AdminAllocationsController.create_eq_ok {db db' : Database} {id : Nat → String}
    {nodeId : String} {dto : CreateNodeAllocationsDto} :
    AdminAllocationsController.create db id nodeId dto = .ok db' ↔
      dto.isValid = true ∧
        createRange db id nodeId dto.ip dto.ipAlias dto.portStart dto.portEnd = .ok db' := by
  rw [AdminAllocationsController.create_eq]
  simp only [bind_eq_ok, require_eq_ok]
  constructor
  · rintro ⟨-, h⟩
    exact h
  · intro h
    exact ⟨(), h⟩

/-- For every database and every range: the two routes accept it or refuse it alike, and where it
is accepted both add the missing rows and leave the same places. -/
theorem routes_agree (db : Database) (range : PortRange) : RoutesAgree db range where
  accepted := by
    intro id id' ipAlias hdrawn hdrawn'
    simp only [AllocationsController.create_eq_ok, AdminAllocationsController.create_eq_ok]
    constructor
    · rintro ⟨db', hvalid, h⟩
      obtain ⟨db'', h'⟩ := createRange_accepted ipAlias hdrawn hdrawn' h
      exact ⟨db'', hvalid, h'⟩
    · rintro ⟨db', hvalid, h⟩
      obtain ⟨db'', h'⟩ := createRange_accepted none hdrawn' hdrawn h
      exact ⟨db'', hvalid, h'⟩
  service := fun _ _ h => createsMissing (AllocationsController.create_eq_ok.mp h).2
  admin := fun _ _ _ h => createsMissing (AdminAllocationsController.create_eq_ok.mp h).2
  same := by
    intro id id' ipAlias db₁ db₂ h₁ h₂ place
    rw [(createsMissing (AllocationsController.create_eq_ok.mp h₁).2).places,
      (createsMissing (AdminAllocationsController.create_eq_ok.mp h₂).2).places]

/-! ## The advertised bounds -/

/-- The rows that are there now and were not before. -/
def created (db db' : Database) : List Allocation :=
  db'.allocations.rows.filter fun a => decide (a ∉ db.allocations.rows)

/-- At most 1000 rows are created, for ports from 1024 to 65535. -/
structure Bounded (db db' : Database) : Prop where
  few : (created db db').length ≤ 1000
  ports : ∀ a ∈ created db db', 1024 ≤ a.port ∧ a.port ≤ 65535

/-- The range has at most 1000 ports, or one of its 1001 is there already; and of its ports beyond
sixteen bits all are there already. -/
structure PortRange.InBounds (range : PortRange) (db : Database) : Prop where
  few : range.portEnd - range.portStart < 1000 ∨ ∃ a ∈ db.allocations,
    a.nodeId = range.nodeId ∧ a.ip = range.ip ∧ range.Covers a.port
  low : ∀ port, 65535 < port → range.Covers port →
    ∃ a ∈ db.allocations, a.place = (range.nodeId, range.ip, port)

section Bounds

variable {db db' : Database} {id : Nat → String} {nodeId ip : String} {ipAlias : Option String}
  {portEnd : Rat}

/-- What is created are the new rows. -/
theorem created_eq {first : Nat} (hsave : saveAllocations db
    (newAllocations db id nodeId ip ipAlias first (portCount first portEnd)) = .ok db') :
    created db db' =
      (newAllocations db id nodeId ip ipAlias first (portCount first portEnd)).reverse := by
  rw [created, rows_saveAllocations hsave, List.filter_append]
  have hnew : ∀ a ∈ (newAllocations db id nodeId ip ipAlias first
      (portCount first portEnd)).reverse, decide (a ∉ db.allocations.rows) = true := by
    intro a ha
    obtain ⟨-, hfree, heq⟩ := mem_newAllocations.mp (List.mem_reverse.mp ha)
    refine decide_eq_true fun hold => hfree ⟨a, hold, ?_, ?_, rfl⟩ <;> rw [heq]
  have hold : ∀ a ∈ db.allocations.rows, ¬ decide (a ∉ db.allocations.rows) = true :=
    fun a ha hnot => of_decide_eq_true hnot ha
  rw [List.filter_eq_self.mpr hnew, List.filter_eq_nil_iff.mpr hold, List.append_nil]

/-- Of a list of at most 1001, at most 1000 are kept exactly when it is shorter or one is not
kept. -/
theorem length_filter_le_iff {p : Nat → Bool} {ports : List Nat} (h : ports.length ≤ 1001) :
    (ports.filter p).length ≤ 1000 ↔ ports.length ≤ 1000 ∨ ∃ port ∈ ports, ¬ p port = true := by
  have hle := List.length_filter_le p ports
  constructor
  · intro hfew
    by_contra hnot
    obtain ⟨hlong, hall⟩ := not_or.mp hnot
    have hkept : ports.filter p = ports :=
      List.filter_eq_self.mpr fun port hport => by_contra fun hp => hall ⟨port, hport, hp⟩
    rw [hkept] at hfew
    exact hlong hfew
  · rintro (hshort | ⟨port, hport, hp⟩)
    · exact hle.trans hshort
    · have hlt : (ports.filter p).length < ports.length :=
        List.length_filter_lt_length_iff_exists.mpr ⟨port, hport, hp⟩
      omega

theorem portCount_le_iff {portStart : Rat} (n : Nat) :
    portCount portStart portEnd ≤ n ↔ portEnd - portStart < n := by
  have hfloor : ⌊portEnd - portStart + 1⌋ < (n : Int) + 1 ↔ portEnd - portStart < n := by
    rw [Int.floor_lt]
    push_cast
    constructor <;> intro h <;> linarith
  rw [← hfloor, portCount]
  omega

theorem few_iff {first : Nat} (hwidth : portEnd - first ≤ 1000) :
    (newAllocations db id nodeId ip ipAlias first (portCount first portEnd)).length ≤ 1000 ↔
      portEnd - first < 1000 ∨ ∃ a ∈ db.allocations, a.nodeId = nodeId ∧ a.ip = ip ∧
        PortRange.Covers ⟨nodeId, ip, first, portEnd⟩ a.port := by
  have hcount : portCount first portEnd ≤ 1001 :=
    (portCount_le_iff 1001).mpr (lt_of_le_of_lt hwidth (by norm_num))
  rw [newAllocations, List.length_map, length_filter_le_iff (by rw [List.length_range']; exact hcount),
    List.length_range', portCount_le_iff]
  refine or_congr Iff.rfl ⟨?_, ?_⟩
  · rintro ⟨port, hport, htaken⟩
    rw [← Option.not_isSome, Bool.not_eq_true', Bool.not_eq_false, findAllocation_isSome] at htaken
    obtain ⟨a, ha, hnode, hip, rfl⟩ := htaken
    obtain ⟨hstart, hend⟩ := mem_range_portCount.mp hport
    exact ⟨a, ha, hnode, hip, Nat.cast_le.mpr hstart, hend⟩
  · rintro ⟨a, ha, hnode, hip, hstart, hend⟩
    refine ⟨a.port, mem_range_portCount.mpr ⟨Nat.cast_le.mp hstart, hend⟩, ?_⟩
    rw [← Option.not_isSome, Bool.not_eq_true', Bool.not_eq_false, findAllocation_isSome]
    exact ⟨a, ha, hnode, hip, rfl⟩

theorem low_iff {first : Nat} (hleast : 1024 ≤ first) :
    (∀ a ∈ newAllocations db id nodeId ip ipAlias first (portCount first portEnd),
        1024 ≤ a.port ∧ a.port ≤ 65535) ↔
      ∀ port, 65535 < port → PortRange.Covers ⟨nodeId, ip, first, portEnd⟩ port →
        ∃ a ∈ db.allocations, a.place = (nodeId, ip, port) := by
  constructor
  · intro h port hport hcovers
    by_contra hfree
    have hplace : ∀ a ∈ db.allocations, a.place ≠ (nodeId, ip, port) :=
      fun a ha heq => hfree ⟨a, ha, heq⟩
    have hnew : (⟨id port, nodeId, ip, ipAlias, port, none, none⟩ : Allocation) ∈
        newAllocations db id nodeId ip ipAlias first (portCount first portEnd) :=
      mem_newAllocations.mpr
        ⟨⟨Nat.cast_le.mp hcovers.1, hcovers.2⟩, not_taken_iff.mpr hplace, rfl⟩
    exact absurd (h _ hnew).2 (Nat.not_le_of_lt hport)
  · intro h a ha
    obtain ⟨⟨hstart, hend⟩, hfree, -⟩ := mem_newAllocations.mp ha
    refine ⟨hleast.trans hstart, ?_⟩
    by_contra hbeyond
    obtain ⟨b, hb, hplace⟩ := h a.port (not_le.mp hbeyond) ⟨Nat.cast_le.mpr hstart, hend⟩
    exact not_taken_iff.mp hfree b hb hplace

theorem bounded_iff {portStart : Rat} (hleast : 1024 ≤ portStart)
    (h : createRange db id nodeId ip ipAlias portStart portEnd = .ok db') :
    Bounded db db' ↔ PortRange.InBounds ⟨nodeId, ip, portStart, portEnd⟩ db := by
  obtain ⟨-, hwidth, first, rfl, hsave⟩ := createRange_ok h
  have hcreated := created_eq hsave
  have hleast' : 1024 ≤ first := by exact_mod_cast hleast
  constructor
  · rintro ⟨hfew, hports⟩
    have hnew : ∀ a ∈ newAllocations db id nodeId ip ipAlias first (portCount first portEnd),
        1024 ≤ a.port ∧ a.port ≤ 65535 := by
      intro a ha
      refine hports a ?_
      rw [hcreated]
      exact List.mem_reverse.mpr ha
    rw [hcreated, List.length_reverse] at hfew
    exact ⟨(few_iff hwidth).mp hfew, (low_iff hleast').mp hnew⟩
  · rintro ⟨hfew, hlow⟩
    refine ⟨?_, fun a ha => ?_⟩
    · rw [hcreated, List.length_reverse]
      exact (few_iff hwidth).mpr hfew
    · rw [hcreated] at ha
      exact (low_iff hleast').mpr hlow a (List.mem_reverse.mp ha)

/-- Whatever range a route accepts: what it creates keeps within the bounds if and only if the
range has at most 1000 ports or one of them is there already, and all ports beyond 65535 are. -/
theorem within_bounds_iff {r : AllocationRequest} {range : PortRange} (hr : r.range = some range)
    (h : r.serve db = .ok db') : Bounded db db' ↔ range.InBounds db := by
  cases r with
  | create id dto =>
    cases hr
    obtain ⟨hvalid, hcreate⟩ := AllocationsController.create_eq_ok.mp h
    exact bounded_iff (least_of_validRange hvalid) hcreate
  | adminCreate id nodeId dto =>
    cases hr
    obtain ⟨hvalid, hcreate⟩ := AdminAllocationsController.create_eq_ok.mp h
    exact bounded_iff (least_of_validRange hvalid) hcreate
  | execute statement => cases hr

end Bounds

/-! ## A range of 1001 ports -/

section Counterexample

theorem columns_of_integers (n : Nat) {first : Nat} (h : first + n ≤ maxInteger + 1) :
    (portsFrom first n).mapM integerColumn = .ok (List.range' first n) := by
  induction n generalizing first with
  | zero => rfl
  | succ n ih =>
    have hnext : ((first : Rat) + 1) = ((first + 1 : Nat) : Rat) := by push_cast; rfl
    rw [portsFrom, List.mapM_cons, integerColumn_eq_ok.mpr ⟨rfl, by omega⟩, hnext,
      @ih (first + 1) (by omega)]
    rfl

/-- A range of integers that fit the column is accepted for a node that is there. -/
theorem createRange_of_integers {db : Database} {id : Nat → String} {nodeId ip : String}
    {first last : Nat} (hdrawn : DrawnNew db id) (hnode : ∃ n ∈ db.nodes, n.id = nodeId)
    (hordered : first ≤ last) (hwidth : last ≤ first + 1000) (hmax : last ≤ maxInteger) :
    ∃ db', createRange db id nodeId ip none first last = .ok db' := by
  have hcount : portCount (first : Rat) last = last - first + 1 := by
    unfold portCount
    have hfloor : ⌊(last : Rat) - first + 1⌋ = (last : Int) - first + 1 := by
      rw [Int.floor_eq_iff]
      push_cast
      constructor <;> linarith
    omega
  have hcolumns : (portsFrom first (last - first + 1)).mapM integerColumn =
      .ok (List.range' first (last - first + 1)) := columns_of_integers _ (by omega)
  have hnodup : (List.range' first (last - first + 1)).Nodup := List.nodup_range'
  have hfits : ∀ port ∈ (List.range' first (last - first + 1)).filter
      fun port => (findAllocation db nodeId ip port).isNone, port ≤ maxInteger := by
    intro port hport
    have hmem := List.mem_range'_1.mp (List.mem_filter.mp hport).1
    omega
  obtain ⟨db', hsave⟩ := (saveAllocations_accepted hdrawn none (hnodup.filter _)
    fun _ => place_of_free).mpr ⟨hfits, fun _ => hnode⟩
  refine ⟨db', ?_⟩
  simp only [createRange, checkRange, bind_eq_ok, require_eq_ok, decide_eq_true_eq]
  refine ⟨(), ⟨(), Nat.cast_le.mpr hordered, ?_⟩, _, hcount ▸ hcolumns, hsave⟩
  have hcast : (last : Rat) ≤ (first : Rat) + 1000 := by exact_mod_cast hwidth
  linarith

/-- A node without allocations. -/
def Database.oneNode : Database where
  nodes := .single ⟨"n", 4096, 0, 4096, 0⟩
  eggs := .empty
  eggVariables := .empty
  users := .empty
  servers := .empty
  allocations := .empty
  constraints := by decide

theorem drawnNew_oneNode : DrawnNew .oneNode (fun port => toString port) :=
  ⟨fun _ _ h => Text.toString_inj h, fun _ ha => by cases ha⟩

theorem rangeOf_oneNode {first last : Nat} (hfirst : 1024 ≤ first) (hordered : first ≤ last)
    (hwidth : last ≤ first + 1000) (hmax : last ≤ maxInteger) :
    ∃ db', (AllocationRequest.create (fun port => toString port)
      ⟨"n", "0.0.0.0", first, last⟩).serve .oneNode = .ok db' := by
  obtain ⟨db', h⟩ := @createRange_of_integers .oneNode _ "n" "0.0.0.0" _ _ drawnNew_oneNode
    ⟨_, List.mem_singleton.mpr rfl, rfl⟩ hordered hwidth hmax
  refine ⟨db', AllocationsController.create_eq_ok.mpr ⟨?_, h⟩⟩
  simp only [CreateAllocationsDto.isValid, validRange, Bool.and_eq_true, decide_eq_true_eq]
  exact ⟨⟨rfl, by exact_mod_cast hfirst⟩, by exact_mod_cast hfirst.trans hordered⟩

theorem one_port_within_bounds : ∃ db', (AllocationRequest.create (fun port => toString port)
    ⟨"n", "0.0.0.0", 25565, 25565⟩).serve .oneNode = .ok db' ∧ Bounded .oneNode db' := by
  obtain ⟨db', h⟩ := @rangeOf_oneNode 25565 25565 (by decide) le_rfl (by decide) (by decide)
  refine ⟨db', h, (within_bounds_iff rfl h).mpr ⟨.inl (by norm_num), ?_⟩⟩
  rintro port hport ⟨-, hend⟩
  have hend' : (port : Rat) ≤ 25565 := hend
  have : port ≤ 25565 := by exact_mod_cast hend'
  omega

/-- The ports from 1024 to 2024 are 1001, and all of them are created. -/
theorem too_many_created : ¬ ∀ (db db' : Database) (r : AllocationRequest) (range : PortRange),
    r.range = some range → r.serve db = .ok db' → Bounded db db' := by
  intro h
  obtain ⟨db', hserve⟩ := @rangeOf_oneNode 1024 2024 (by decide) (by decide) (by decide) (by decide)
  have hbounded := h _ _ _ _ rfl hserve
  obtain ⟨-, hcreate⟩ := AllocationsController.create_eq_ok.mp hserve
  rcases ((bounded_iff (by norm_num) hcreate).mp hbounded).few with hfew | ⟨a, ha, -⟩
  · norm_num at hfew
  · cases ha

end Counterexample

end Panel
