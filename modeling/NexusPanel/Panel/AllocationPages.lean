import Mathlib.Data.Rat.Floor
import Mathlib.Algebra.Order.Floor.Semiring
import NexusPanel.Foundation.Paging
import NexusPanel.Panel.AllocationsService

/-!
# Pages of a node's allocations

Two routes list the allocations of a node page by page, sorted by their ports. A port may occur
once for each address of the node, and among allocations of one port the database is free to
choose an order for every query. The pages are a partition of the allocations as long as no page
boundary falls between two allocations of one port.

The page and the number of allocations on it are query parameters, which the validation pipe has
made numbers of; zero counts as not given.
-/

namespace Panel

open Paging

/-- `order: { port: 'ASC' }`, as the database takes it in one query. -/
abbrev PortOrder := Sorting Allocation.port

/-- A page and its `meta`. -/
structure AllocationsPage where
  data : List Allocation
  total : Nat
  page : Nat
  perPage : Nat
  totalPages : Nat
deriving DecidableEq, Repr

/-- `findAndCount` of a node's allocations. -/
def findAndCountAllocations (db : Database) (order : PortOrder) (nodeId : String)
    (skip take : Nat) : List Allocation × Nat :=
  let rows := db.allocations.find fun a => a.nodeId == nodeId
  (((order.order rows).drop skip).take take, rows.length)

def AllocationsService.findByNode (db : Database) (order : PortOrder) (nodeId : String)
    (page perPage : Nat) : AllocationsPage :=
  let (data, total) :=
    findAndCountAllocations db order nodeId ((page - 1) * perPage) perPage
  { data, total, page, perPage, totalPages := ⌈(total : Rat) / perPage⌉₊ }

/-- A query parameter that counts. -/
def givenOr (default : Nat) (parameter : Option Nat) : Nat :=
  match parameter with
  | some n => if n = 0 then default else n
  | none => default

/-- `GET /allocations`. -/
def AllocationsController.findByNode (db : Database) (order : PortOrder) (nodeId : String)
    (page perPage : Option Nat) : AllocationsPage :=
  AllocationsService.findByNode db order nodeId (givenOr 1 page) (givenOr 50 perPage)

/-- `GET /admin/nodes/:nodeId/allocations`. -/
def AdminAllocationsController.findByNode (db : Database) (order : PortOrder) (nodeId : String)
    (page perPage : Option Nat) : AllocationsPage :=
  let p := givenOr 1 page
  let pp := givenOr 50 perPage
  let (data, total) := findAndCountAllocations db order nodeId ((p - 1) * pp) pp
  { data, total, page := p, perPage := pp, totalPages := ⌈(total : Rat) / pp⌉₊ }

/-! ## One page after the other -/

section Walk

variable (db : Database) (nodeId : String) (perPage : Nat)

/-- The pages up to the last one, one after the other. Every request makes a query of its own. -/
def allPages (route : PortOrder → Option Nat → Option Nat → AllocationsPage)
    (queries : Nat → PortOrder) (perPage : Nat) : List Allocation :=
  let first := route (queries 1) (some 1) (some perPage)
  (List.range' 1 first.totalPages).flatMap fun page =>
    (route (queries page) (some page) (some perPage)).data

/-- Whatever the database does with allocations of one port, the pages have every allocation of
the node once, and nothing else. -/
def Partitions (route : PortOrder → Option Nat → Option Nat → AllocationsPage) : Prop :=
  ∀ queries,
    (allPages route queries perPage).Perm (db.allocations.find fun a => a.nodeId == nodeId)

/-- The end of a page falls between two allocations of one port. -/
def PageDivides (page port : Nat) : Prop :=
  Divided Allocation.port (db.allocations.find fun a => a.nodeId == nodeId) (page * perPage) port

instance (page port : Nat) : Decidable (PageDivides db nodeId perPage page port) :=
  inferInstanceAs (Decidable (Divided _ _ _ _))

variable {db nodeId perPage}

theorem givenOr_some {n default : Nat} (h : 0 < n) : givenOr default (some n) = n :=
  if_neg h.ne'

/-- The two routes list the same pages. -/
theorem AdminAllocationsController.findByNode_eq :
    AdminAllocationsController.findByNode = AllocationsController.findByNode := rfl

/-- There are as many pages as it takes. -/
theorem lt_totalPages_iff (h : 0 < perPage) (total page : Nat) :
    page < ⌈(total : Rat) / perPage⌉₊ ↔ page * perPage < total := by
  rw [Nat.lt_ceil, lt_div_iff₀ (Nat.cast_pos.mpr h), ← Nat.cast_mul, Nat.cast_lt]

/-- The pages of a route are windows on the sorted rows. -/
theorem allPages_eq (h : 0 < perPage) (queries : Nat → PortOrder) :
    allPages (AllocationsController.findByNode db · nodeId) queries perPage =
      pages (fun page => (queries page).order (db.allocations.find fun a => a.nodeId == nodeId))
        perPage ⌈((db.allocations.find fun a => a.nodeId == nodeId).length : Rat) / perPage⌉₊ := by
  simp only [allPages, pages, AllocationsController.findByNode, givenOr_some h]
  refine List.flatMap_congr fun page hpage => ?_
  rw [givenOr_some (List.mem_range'_1.mp hpage).1]
  rfl

theorem partitions_iff (h : 0 < perPage) :
    Partitions db nodeId perPage (AllocationsController.findByNode db · nodeId) ↔
      ∀ page port, ¬PageDivides db nodeId perPage page port := by
  have hrows : (db.allocations.find fun a => a.nodeId == nodeId).Nodup :=
    (List.Nodup.of_map _ db.allocations.nodup).filter _
  simp only [Partitions, allPages_eq h]
  exact pages_perm_iff hrows (lt_totalPages_iff h _)

end Walk

/-- The pages of both routes partition the allocations of a node exactly when no page ends
between two allocations of one port. -/
theorem pages_partition_iff (db : Database) (nodeId : String) (perPage : Nat) (h : 0 < perPage) :
    (Partitions db nodeId perPage (AllocationsController.findByNode db · nodeId) ∧
      Partitions db nodeId perPage (AdminAllocationsController.findByNode db · nodeId)) ↔
    ∀ page port, ¬PageDivides db nodeId perPage page port := by
  rw [AdminAllocationsController.findByNode_eq, and_self_iff]
  exact partitions_iff h

/-- A node with two ports on both its addresses and a third port on one. -/
def Database.pairedPorts : Database where
  nodes := .single ⟨"n", 4096, 0, 4096, 0⟩
  eggs := .empty
  eggVariables := .empty
  users := .empty
  servers := .empty
  allocations := ⟨[⟨"a", "n", "0.0.0.0", none, 25565, none, none⟩,
    ⟨"b", "n", "0.0.0.0", none, 25566, none, none⟩,
    ⟨"c", "n", "0.0.0.0", none, 25567, none, none⟩,
    ⟨"d", "n", "10.0.0.1", none, 25565, none, none⟩,
    ⟨"e", "n", "10.0.0.1", none, 25566, none, none⟩], by decide⟩
  constraints := by decide

/-- With two allocations a page there are three pages, and each pair is on one of them. -/
theorem three_pages_partition :
    Partitions .pairedPorts "n" 2
        (AllocationsController.findByNode .pairedPorts · "n") ∧
      Partitions .pairedPorts "n" 2
        (AdminAllocationsController.findByNode .pairedPorts · "n") := by
  refine (pages_partition_iff .pairedPorts "n" 2 (by decide)).mpr fun page port hdivided => ?_
  obtain ⟨hbelow, hupTo⟩ := hdivided
  have hports : ∀ p : Nat → Bool,
      ((Database.pairedPorts.allocations.find fun a => a.nodeId == "n").countP fun a => p a.port) =
        [25565, 25566, 25567, 25565, 25566].countP p := fun _ => rfl
  rw [hports fun q => decide (q < port)] at hbelow
  rw [hports fun q => decide (q ≤ port)] at hupTo
  simp only [List.countP_cons, List.countP_nil, decide_eq_true_eq] at hbelow hupTo
  split_ifs at hbelow hupTo <;> omega

/-- A node with the same port on two addresses. -/
def Database.onePortTwice : Database where
  nodes := .single ⟨"n", 4096, 0, 4096, 0⟩
  eggs := .empty
  eggVariables := .empty
  users := .empty
  servers := .empty
  allocations := ⟨[⟨"a", "n", "0.0.0.0", none, 25565, none, none⟩,
    ⟨"b", "n", "10.0.0.1", none, 25565, none, none⟩], by decide⟩
  constraints := by decide

/-- With one allocation a page, one of the two may be shown twice and the other one never. -/
theorem one_port_on_two_pages : ¬ ∀ (db : Database) (nodeId : String) (perPage : Nat),
    0 < perPage → Partitions db nodeId perPage (AllocationsController.findByNode db · nodeId) ∧
      Partitions db nodeId perPage (AdminAllocationsController.findByNode db · nodeId) := by
  intro h
  obtain ⟨hpages, -⟩ := h .onePortTwice "n" 1 (by decide)
  exact (partitions_iff (by decide)).mp hpages 1 25565 (by decide)

end Panel
