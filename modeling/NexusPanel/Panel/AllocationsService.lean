import Mathlib.Data.Rat.Floor
import Mathlib.Tactic.Linarith
import NexusPanel.Foundation.Fallible
import NexusPanel.Foundation.Transition
import NexusPanel.Panel.Database

/-!
# Where allocations come from

Two routes make allocations out of a range of ports: `AllocationsController`, which names the
node in the body, and `AdminAllocationsController`, which names it in the path and may give the
address an alias. The validators of both bodies know a least port and no greatest one, and take
any number; that a port is an integer is left to the column.

The service asks for all ports of the range in one query, the admin route for one after the
other. Both come to the same (`createRange`).

A request is served in one go, and one that throws leaves the tables as they are. Between
requests the statements of the other services are executed.
-/

namespace Panel

open Fallible Transition

structure CreateAllocationsDto where
  nodeId : String
  ip : String
  portStart : Rat
  portEnd : Rat
deriving DecidableEq, Repr

structure CreateNodeAllocationsDto where
  ip : String
  portStart : Rat
  portEnd : Rat
  ipAlias : Option String
deriving DecidableEq, Repr

/-- `@IsNotEmpty()` on the address and `@Min(1024)` on both ports. -/
def validRange (ip : String) (portStart portEnd : Rat) : Bool :=
  ip != "" && decide (1024 ≤ portStart) && decide (1024 ≤ portEnd)

def CreateAllocationsDto.isValid (dto : CreateAllocationsDto) : Bool :=
  validRange dto.ip dto.portStart dto.portEnd

def CreateNodeAllocationsDto.isValid (dto : CreateNodeAllocationsDto) : Bool :=
  validRange dto.ip dto.portStart dto.portEnd

/-- The greatest number of an `integer` column. -/
def maxInteger : Nat := 2147483647

/-- A number as the value of the column `port`, which no caller makes negative. -/
def integerColumn (port : Rat) : Except HttpException Nat := do
  require (decide (port.den = 1)) (.internal "invalid input syntax for type integer")
  require (decide (0 ≤ port.num ∧ port.num ≤ maxInteger))
    (.internal "value is out of range for type integer")
  return port.num.toNat

/-- `save` of new rows, in one transaction. -/
def saveAllocations (db : Database) (allocations : List Allocation) :
    Except HttpException Database := do
  require (allocations.all fun a => decide (a.port ≤ maxInteger))
    (.internal "value is out of range for type integer")
  orThrow ((allocations.foldlM Table.insert db.allocations).bind fun allocations =>
    Database.ofTables { db.toTables with allocations }) (.internal "insert refused")

/-- The checks on a range, which are the same on both routes. -/
def checkRange (portStart portEnd : Rat) : Except HttpException Unit := do
  require (decide (portStart ≤ portEnd)) (.badRequest "portStart must be <= portEnd")
  require (decide (portEnd - portStart ≤ 1000))
    (.badRequest "Cannot create more than 1000 allocations at once")

/-- The ports of the range that have no allocation yet get one, with the ids that are drawn. -/
def AllocationsService.create (db : Database) (id : Nat → String) (nodeId ip : String)
    (portStart portEnd : Rat) : Except HttpException Database := do
  checkRange portStart portEnd
  let ports := (List.range ⌊portEnd - portStart + 1⌋.toNat).map fun i : Nat => portStart + (i : Rat)
  let columns ← ports.mapM integerColumn
  let existing := db.allocations.find fun a =>
    a.nodeId == nodeId && a.ip == ip && columns.contains a.port
  let existingPorts := existing.map Allocation.port
  let free := columns.filter fun port => !existingPorts.contains port
  saveAllocations db (free.map fun port => ⟨id port, nodeId, ip, none, port, none, none⟩)

/-- `POST /allocations`. -/
def AllocationsController.create (db : Database) (id : Nat → String)
    (dto : CreateAllocationsDto) : Except HttpException Database := do
  require dto.isValid (.badRequest "Bad Request")
  AllocationsService.create db id dto.nodeId dto.ip dto.portStart dto.portEnd

/-- The lookup of one port. -/
def findAllocation (db : Database) (nodeId ip : String) (port : Nat) : Option Allocation :=
  db.allocations.findOne fun a => a.nodeId == nodeId && a.ip == ip && a.port == port

/-- `for (let port = portStart; port <= portEnd; port++)`, for so many turns at most. -/
def lookUpPorts (db : Database) (nodeId ip : String) (portEnd : Rat) :
    Nat → Rat → Except HttpException (List Nat)
  | 0, _ => return []
  | turns + 1, port =>
    if port ≤ portEnd then do
      let column ← integerColumn port
      let rest ← lookUpPorts db nodeId ip portEnd turns (port + 1)
      return if (findAllocation db nodeId ip column).isNone then column :: rest else rest
    else return []

/-- `POST /admin/nodes/:nodeId/allocations`. The loop is over after as many turns as the range
has ports (`lookUpPorts_eq`). -/
def AdminAllocationsController.create (db : Database) (id : Nat → String) (nodeId : String)
    (dto : CreateNodeAllocationsDto) : Except HttpException Database := do
  require dto.isValid (.badRequest "Bad Request")
  checkRange dto.portStart dto.portEnd
  let free ← lookUpPorts db nodeId dto.ip dto.portEnd ⌊dto.portEnd - dto.portStart + 1⌋.toNat
    dto.portStart
  saveAllocations db (free.map fun port =>
    ⟨id port, nodeId, dto.ip, dto.ipAlias, port, none, none⟩)

/-! ## The same range on both routes -/

section Range

variable {db : Database} {nodeId ip : String} {portEnd : Rat}

/-- The ports from the first one on, one after the other. -/
def portsFrom (port : Rat) : Nat → List Rat
  | 0 => []
  | n + 1 => port :: portsFrom (port + 1) n

/-- How many ports there are from the first one on. -/
def portCount (portStart portEnd : Rat) : Nat := ⌊portEnd - portStart + 1⌋.toNat

/-- What both routes come to. -/
def createRange (db : Database) (id : Nat → String) (nodeId ip : String)
    (ipAlias : Option String) (portStart portEnd : Rat) : Except HttpException Database := do
  checkRange portStart portEnd
  let columns ← (portsFrom portStart (portCount portStart portEnd)).mapM integerColumn
  let free := columns.filter fun port => (findAllocation db nodeId ip port).isNone
  saveAllocations db (free.map fun port => ⟨id port, nodeId, ip, ipAlias, port, none, none⟩)

theorem map_range_eq_portsFrom (port : Rat) (n : Nat) :
    ((List.range n).map fun i : Nat => port + (i : Rat)) = portsFrom port n := by
  induction n generalizing port with
  | zero => rfl
  | succ n ih =>
    rw [List.range_succ_eq_map, List.map_cons, List.map_map, portsFrom, ← ih]
    refine congr_arg₂ _ (by simp) (List.map_congr_left fun i _ => ?_)
    simp only [Function.comp_apply, Nat.cast_succ]
    ring

/-- The batch query finds a port of the range exactly when the lookup of it does. -/
theorem contains_existing {columns : List Nat} {port : Nat} (h : port ∈ columns) :
    (((db.allocations.find fun a => a.nodeId == nodeId && a.ip == ip && columns.contains a.port).map
      Allocation.port).contains port) = (findAllocation db nodeId ip port).isSome := by
  rw [Bool.eq_iff_iff, List.contains_iff_mem, List.mem_map]
  constructor
  · rintro ⟨a, ha, rfl⟩
    obtain ⟨hmem, hmatches⟩ := Table.mem_find.mp ha
    simp only [Bool.and_eq_true, beq_iff_eq] at hmatches
    rw [Option.isSome_iff_ne_none]
    intro hnone
    have := Table.findOne_eq_none.mp hnone a hmem
    simp [hmatches.1.1, hmatches.1.2] at this
  · intro hsome
    obtain ⟨a, ha⟩ := Option.isSome_iff_exists.mp hsome
    have hmatches := Table.findOne_sat ha
    simp only [Bool.and_eq_true, beq_iff_eq] at hmatches
    refine ⟨a, Table.mem_find.mpr ⟨Table.findOne_mem ha, ?_⟩, hmatches.2⟩
    simp [hmatches.1.1, hmatches.1.2, hmatches.2, h]

theorem AllocationsService.create_eq (db : Database) (id : Nat → String) (nodeId ip : String)
    (portStart portEnd : Rat) :
    AllocationsService.create db id nodeId ip portStart portEnd =
      createRange db id nodeId ip none portStart portEnd := by
  unfold AllocationsService.create createRange portCount
  rw [map_range_eq_portsFrom]
  congr 1
  funext _
  dsimp only
  congr 1
  funext columns
  congr 2
  refine List.filter_congr fun port hport => ?_
  rw [contains_existing hport, Option.not_isSome]

theorem portCount_of_le {port : Rat} (h : port ≤ portEnd) :
    portCount port portEnd = portCount (port + 1) portEnd + 1 := by
  have hfloor : ⌊portEnd - port + 1⌋ = ⌊portEnd - (port + 1) + 1⌋ + 1 := by
    rw [← Int.floor_add_one]
    congr 1
    ring
  have hnonneg : 0 ≤ ⌊portEnd - (port + 1) + 1⌋ := Int.floor_nonneg.mpr (by linarith)
  unfold portCount
  omega

theorem portCount_of_lt {port : Rat} (h : portEnd < port) : portCount port portEnd = 0 := by
  have hfloor : ⌊portEnd - port + 1⌋ < 1 := Int.floor_lt.mpr (by push_cast; linarith)
  unfold portCount
  omega

/-- The loop has looked every port of the range up when it has had a turn for each. -/
theorem lookUpPorts_eq {turns : Nat} {port : Rat} (h : portCount port portEnd ≤ turns) :
    lookUpPorts db nodeId ip portEnd turns port = (do
      let columns ← (portsFrom port (portCount port portEnd)).mapM integerColumn
      return columns.filter fun port => (findAllocation db nodeId ip port).isNone) := by
  induction turns generalizing port with
  | zero =>
    rw [Nat.le_zero.mp h]
    rfl
  | succ turns ih =>
    rw [lookUpPorts]
    split
    next hle =>
      rw [portCount_of_le hle] at h ⊢
      rw [ih (Nat.le_of_succ_le_succ h), portsFrom, List.mapM_cons]
      cases hcolumn : integerColumn port with
      | error e => rfl
      | ok column =>
        cases hrest : (portsFrom (port + 1) (portCount (port + 1) portEnd)).mapM integerColumn with
        | error e => rfl
        | ok rest =>
          show Except.ok _ = Except.ok _
          rw [List.filter_cons]
    next hlt =>
      rw [portCount_of_lt (not_le.mp hlt)]
      rfl

theorem AdminAllocationsController.create_eq (db : Database) (id : Nat → String) (nodeId : String)
    (dto : CreateNodeAllocationsDto) :
    AdminAllocationsController.create db id nodeId dto = (do
      require dto.isValid (.badRequest "Bad Request")
      createRange db id nodeId dto.ip dto.ipAlias dto.portStart dto.portEnd) := by
  unfold AdminAllocationsController.create createRange
  congr 1
  funext _
  congr 1
  funext _
  have hturns : ⌊dto.portEnd - dto.portStart + 1⌋.toNat = portCount dto.portStart dto.portEnd := rfl
  rw [hturns, lookUpPorts_eq le_rfl, bind_assoc]
  rfl

end Range

/-- What happens to the table of allocations. -/
inductive AllocationRequest
  | create (id : Nat → String) (dto : CreateAllocationsDto)
  | adminCreate (id : Nat → String) (nodeId : String) (dto : CreateNodeAllocationsDto)
  | execute (statement : Statement)

namespace AllocationRequest

def serve (db : Database) : AllocationRequest → Except HttpException Database
  | .create id dto => AllocationsController.create db id dto
  | .adminCreate id nodeId dto => AdminAllocationsController.create db id nodeId dto
  | .execute statement => orThrow (db.exec statement) (.internal "statement refused")

def step (db : Database) (r : AllocationRequest) : Option Database :=
  match r.serve db with
  | .ok db' => some db'
  | .error _ => some db

/-- The last port a request asks for. -/
def portEnd : AllocationRequest → Option Rat
  | .create _ dto => some dto.portEnd
  | .adminCreate _ _ dto => some dto.portEnd
  | .execute _ => none

end AllocationRequest

/-! ## What the requests do to the table -/

section Table

variable {db db' : Database} {id : Nat → String} {nodeId ip : String} {ipAlias : Option String}
  {portStart portEnd : Rat}

theorem rows_foldlM_insert {t t' : Table Allocation} {as : List Allocation}
    (h : as.foldlM Table.insert t = some t') : t'.rows = as.reverse ++ t.rows := by
  induction as generalizing t with
  | nil =>
    cases h
    rfl
  | cons a as ih =>
    obtain ⟨u, hu, hrest⟩ := Option.bind_eq_some_iff.mp h
    rw [ih hrest, Table.rows_insert hu, List.reverse_cons, List.append_assoc]
    rfl

theorem rows_saveAllocations {as : List Allocation} (h : saveAllocations db as = .ok db') :
    db'.allocations.rows = as.reverse ++ db.allocations.rows := by
  simp only [saveAllocations, bind_eq_ok, require_eq_ok, orThrow_eq_ok] at h
  obtain ⟨-, -, hsave⟩ := h
  obtain ⟨allocations, hinsert, hdb⟩ := Option.bind_eq_some_iff.mp hsave
  rw [Database.ofTables_eq_some hdb]
  exact rows_foldlM_insert hinsert

theorem integerColumn_eq_ok {port : Rat} {column : Nat} :
    integerColumn port = .ok column ↔ port = (column : Rat) ∧ column ≤ maxInteger := by
  simp only [integerColumn, bind_eq_ok, require_eq_ok, decide_eq_true_eq, pure_eq_ok]
  constructor
  · rintro ⟨-, hden, -, ⟨hnonneg, hmax⟩, hcolumn⟩
    have hnum : port.num = (column : Int) := by omega
    refine ⟨?_, by omega⟩
    rw [← Rat.coe_int_num_of_den_eq_one hden, hnum]
    exact Int.cast_natCast column
  · rintro ⟨rfl, hmax⟩
    refine ⟨(), Rat.den_natCast _, (), ?_, ?_⟩
    · rw [Rat.num_natCast]
      omega
    · rw [Rat.num_natCast, Int.toNat_natCast]

/-- When the first port fits a column, the columns of the ports are consecutive. -/
theorem columns_portsFrom {n : Nat} {columns : List Nat} {port : Rat}
    (h : (portsFrom port (n + 1)).mapM integerColumn = .ok columns) :
    ∃ first : Nat, port = (first : Rat) ∧ columns = List.range' first (n + 1) := by
  induction n generalizing port columns with
  | zero =>
    simp only [portsFrom, List.mapM_cons, List.mapM_nil, bind_eq_ok, pure_eq_ok] at h
    obtain ⟨first, hfirst, -, rfl, rfl⟩ := h
    exact ⟨first, (integerColumn_eq_ok.mp hfirst).1, rfl⟩
  | succ n ih =>
    rw [portsFrom, List.mapM_cons] at h
    simp only [bind_eq_ok, pure_eq_ok] at h
    obtain ⟨first, hfirst, rest, hrest, rfl⟩ := h
    obtain ⟨second, hsecond, rfl⟩ := ih hrest
    have hport := (integerColumn_eq_ok.mp hfirst).1
    refine ⟨first, hport, ?_⟩
    have hnext : second = first + 1 := by
      rw [hport] at hsecond
      exact_mod_cast hsecond.symm
    rw [hnext]
    rfl

/-- The ports of a range that starts with an integer. -/
theorem mem_range_portCount {first port : Nat} :
    port ∈ List.range' first (portCount first portEnd) ↔ first ≤ port ∧ (port : Rat) ≤ portEnd := by
  rw [List.mem_range'_1]
  refine and_congr_right fun hle => ?_
  have hfloor : ((port : Int) - first + 1 ≤ ⌊portEnd - first + 1⌋) ↔ (port : Rat) ≤ portEnd := by
    rw [Int.le_floor]
    push_cast
    constructor <;> intro h <;> linarith
  rw [← hfloor, portCount]
  omega

/-- The new rows of an accepted range. -/
def newAllocations (db : Database) (id : Nat → String) (nodeId ip : String)
    (ipAlias : Option String) (first n : Nat) : List Allocation :=
  ((List.range' first n).filter fun port => (findAllocation db nodeId ip port).isNone).map
    fun port => ⟨id port, nodeId, ip, ipAlias, port, none, none⟩

/-- What is known of a range that was accepted. -/
theorem createRange_ok (h : createRange db id nodeId ip ipAlias portStart portEnd = .ok db') :
    portStart ≤ portEnd ∧ portEnd - portStart ≤ 1000 ∧ ∃ first : Nat, portStart = (first : Rat) ∧
      saveAllocations db
        (newAllocations db id nodeId ip ipAlias first (portCount portStart portEnd)) = .ok db' := by
  simp only [createRange, checkRange, bind_eq_ok, require_eq_ok, decide_eq_true_eq] at h
  obtain ⟨-, ⟨-, hordered, hwidth⟩, columns, hcolumns, hsave⟩ := h
  rw [portCount_of_le hordered] at hcolumns
  obtain ⟨first, hfirst, rfl⟩ := columns_portsFrom hcolumns
  refine ⟨hordered, hwidth, first, hfirst, ?_⟩
  rw [portCount_of_le hordered]
  exact hsave

theorem findAllocation_isSome {port : Nat} : (findAllocation db nodeId ip port).isSome = true ↔
    ∃ a ∈ db.allocations, a.nodeId = nodeId ∧ a.ip = ip ∧ a.port = port := by
  constructor
  · intro h
    obtain ⟨a, ha⟩ := Option.isSome_iff_exists.mp h
    have hmatches := Table.findOne_sat ha
    simp only [Bool.and_eq_true, beq_iff_eq] at hmatches
    exact ⟨a, Table.findOne_mem ha, hmatches.1.1, hmatches.1.2, hmatches.2⟩
  · rintro ⟨a, ha, hnode, hip, hport⟩
    rw [Option.isSome_iff_ne_none]
    intro hnone
    have := Table.findOne_eq_none.mp hnone a ha
    simp [hnode, hip, hport] at this

/-- A new row is one for a port of the range that had none. -/
theorem mem_newAllocations {first : Nat} {x : Allocation} :
    x ∈ newAllocations db id nodeId ip ipAlias first (portCount first portEnd) ↔
      (first ≤ x.port ∧ (x.port : Rat) ≤ portEnd) ∧
        (¬∃ a ∈ db.allocations, a.nodeId = nodeId ∧ a.ip = ip ∧ a.port = x.port) ∧
        x = ⟨id x.port, nodeId, ip, ipAlias, x.port, none, none⟩ := by
  simp only [newAllocations, List.mem_map, List.mem_filter, mem_range_portCount,
    ← Option.not_isSome, ← findAllocation_isSome, Bool.not_eq_true']
  constructor
  · rintro ⟨port, ⟨hrange, hfree⟩, rfl⟩
    exact ⟨hrange, by simp [hfree], rfl⟩
  · rintro ⟨hrange, hfree, hx⟩
    exact ⟨x.port, ⟨hrange, by simpa using hfree⟩, hx.symm⟩

theorem mem_saveAllocations {as : List Allocation} (h : saveAllocations db as = .ok db')
    {x : Allocation} : x ∈ db'.allocations ↔ x ∈ as ∨ x ∈ db.allocations := by
  rw [← Table.mem_rows, rows_saveAllocations h, List.mem_append, List.mem_reverse, Table.mem_rows]

/-- Every port of an accepted range has a row. -/
theorem exists_of_createRange
    (h : createRange db id nodeId ip ipAlias portStart portEnd = .ok db') {port : Nat}
    (hstart : portStart ≤ port) (hend : port ≤ portEnd) :
    ∃ x ∈ db'.allocations, x.nodeId = nodeId ∧ x.ip = ip ∧ x.port = port := by
  obtain ⟨-, -, first, rfl, hsave⟩ := createRange_ok h
  by_cases hfound : ∃ a ∈ db.allocations, a.nodeId = nodeId ∧ a.ip = ip ∧ a.port = port
  · obtain ⟨a, ha, hplace⟩ := hfound
    exact ⟨a, (mem_saveAllocations hsave).mpr (.inr ha), hplace⟩
  · refine ⟨⟨id port, nodeId, ip, ipAlias, port, none, none⟩,
      (mem_saveAllocations hsave).mpr (.inl ?_), rfl, rfl, rfl⟩
    exact mem_newAllocations.mpr ⟨⟨Nat.cast_le.mp hstart, hend⟩, hfound, rfl⟩

/-- The request has been accepted: whatever is new has a port of the range, and every port of
the range is there. -/
structure Ranged (db db' : Database) (portStart portEnd : Rat) : Prop where
  least : 1024 ≤ portStart
  whole : ∃ first : Nat, portStart = first
  ordered : portStart ≤ portEnd
  rows : ∀ x ∈ db'.allocations, x ∈ db.allocations ∨ x.port ≤ portEnd
  ports : ∀ port : Nat, portStart ≤ port → port ≤ portEnd → ∃ x ∈ db'.allocations, x.port = port

theorem createRange_ranged (hleast : 1024 ≤ portStart)
    (h : createRange db id nodeId ip ipAlias portStart portEnd = .ok db') :
    Ranged db db' portStart portEnd := by
  obtain ⟨hordered, -, first, rfl, hsave⟩ := createRange_ok h
  refine ⟨hleast, ⟨first, rfl⟩, hordered, fun x hx => ?_, fun port hstart hend => ?_⟩
  · rcases (mem_saveAllocations hsave).mp hx with hnew | hold
    · exact .inr (mem_newAllocations.mp hnew).1.2
    · exact .inl hold
  · obtain ⟨x, hx, -, -, hport⟩ := exists_of_createRange h hstart hend
    exact ⟨x, hx, hport⟩

theorem least_of_validRange (h : validRange ip portStart portEnd = true) : 1024 ≤ portStart := by
  simp only [validRange, Bool.and_eq_true, decide_eq_true_eq] at h
  exact h.1.2

/-- A statement moves no port. -/
theorem port_exec {st : Statement} (h : db.exec st = some db') {x : Allocation}
    (hx : x ∈ db'.allocations) : ∃ a ∈ db.allocations, a.port = x.port := by
  cases st with
  | createServer server =>
    obtain ⟨a, ha, rfl⟩ := (mem_allocations_createServer h).mp hx
    exact ⟨a, ha, by split <;> rfl⟩
  | updateServer => exact ⟨x, allocations_updateServer h ▸ hx, rfl⟩
  | updateServerByUuid => exact ⟨x, allocations_updateServerByUuid h ▸ hx, rfl⟩
  | saveServer =>
    obtain ⟨a, ha, rfl⟩ := (mem_allocations_saveServer h).mp hx
    exact ⟨a, ha, by split <;> rfl⟩
  | removeServer => exact ⟨x, allocations_removeServer h ▸ hx, rfl⟩
  | freeAllocation =>
    obtain ⟨a, ha, rfl⟩ := (mem_allocations_freeAllocation h).mp hx
    exact ⟨a, ha, by split <;> rfl⟩
  | removeAllocation => exact ⟨x, ((mem_allocations_removeAllocation h).mp hx).1, rfl⟩
  | removeUnassigned => exact ⟨x, ((mem_allocations_removeUnassigned h).mp hx).1, rfl⟩

/-- A request either creates a range or moves no port. -/
theorem AllocationRequest.serve_cases {r : AllocationRequest} (h : r.serve db = .ok db') :
    (∃ portStart portEnd, r.portEnd = some portEnd ∧ Ranged db db' portStart portEnd) ∨
      r.portEnd = none ∧ ∀ x ∈ db'.allocations, ∃ a ∈ db.allocations, a.port = x.port := by
  cases r with
  | create id dto =>
    simp only [serve, AllocationsController.create, AllocationsService.create_eq, bind_eq_ok,
      require_eq_ok] at h
    obtain ⟨-, hvalid, h⟩ := h
    exact .inl ⟨_, _, rfl, createRange_ranged (least_of_validRange hvalid) h⟩
  | adminCreate id nodeId dto =>
    simp only [serve, AdminAllocationsController.create_eq, bind_eq_ok, require_eq_ok] at h
    obtain ⟨-, hvalid, h⟩ := h
    exact .inl ⟨_, _, rfl, createRange_ranged (least_of_validRange hvalid) h⟩
  | execute statement =>
    simp only [serve, orThrow_eq_ok] at h
    exact .inr ⟨rfl, fun x hx => port_exec h hx⟩

end Table

end Panel
