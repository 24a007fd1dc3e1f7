import NexusPanel.Foundation.MovingPages
import NexusPanel.Foundation.Transition
import NexusPanel.Panel.AllocationPages

/-!
# Reading the audit log

`AuditLogService` writes entries and lists them page by page, the newest first. As the query joins
the users, TypeORM asks up to three times for a page: for the ids on it, for the rows with these
ids, unless there are none, and for the number of rows, unless the page is not full and so tells
how many there are. In between entries are written, and users are deleted, whose entries stay
without them.

A reader asks for the first page, and for the next one until an answer says that it was the last.
-/

namespace Panel

open Paging Transition

/-! ## The service -/

/-- A row of `audit_logs`. -/
structure AuditLogEntry where
  id : String
  userId : Option String
  event : String
  ip : Option String
  metadata : String
  createdAt : Nat
deriving DecidableEq, Repr

structure AuditLogTables where
  users : List User
  entries : List AuditLogEntry

structure AuditLogParams where
  userId : String
  event : String
  ip : String
  metadata : Option String

/-- `log`, which the database refuses for a user who is not there. The id and the time are the
database's. -/
def AuditLogService.log (t : AuditLogTables) (params : AuditLogParams) (id : String) (now : Nat) :
    Option AuditLogTables :=
  if t.users.any (·.id == params.userId) && !t.entries.any (·.id == id) then
    some { t with entries := ⟨id, some params.userId, params.event, some params.ip,
      params.metadata.getD "\x7b\x7d", now⟩ :: t.entries }
  else none

/-- `onDelete: 'SET NULL'`. -/
def AuditLogEntry.among (users : List User) (e : AuditLogEntry) : AuditLogEntry :=
  { e with userId := e.userId.filter fun id => users.any (·.id == id) }

/-- Any change to the users. -/
def AuditLogTables.setUsers (t : AuditLogTables) (users : List User) : AuditLogTables :=
  ⟨users, t.entries.map (·.among users)⟩

/-- The conditions of a query. -/
structure AuditLogFilter where
  event : Option String
  userId : Option String

def AuditLogFilter.sat (filter : AuditLogFilter) (e : AuditLogEntry) : Bool :=
  ((truthy filter.event).all fun event => e.event == event) &&
    (truthy filter.userId).all fun id => e.userId == some id

def AuditLogTables.listed (t : AuditLogTables) (filter : AuditLogFilter) : List AuditLogEntry :=
  t.entries.filter filter.sat

def newest (e : AuditLogEntry) : OrderDual Nat := .toDual e.createdAt

/-- `orderBy('audit.createdAt', 'DESC')`, as the database takes it in one query. -/
abbrev NewestFirst := Sorting newest

structure AuditLogRow where
  entry : AuditLogEntry
  user : Option User
deriving DecidableEq, Repr

/-- `leftJoinAndSelect('audit.user', 'user')`. -/
def AuditLogTables.join (t : AuditLogTables) (e : AuditLogEntry) : AuditLogRow :=
  ⟨e, e.userId.bind fun id => t.users.find? (·.id == id)⟩

structure AuditLogPage where
  data : List AuditLogRow
  total : Nat
  page : Nat
  perPage : Nat
  totalPages : Nat

/-- Where `findAll` is: before the query for the ids, the rows, or their number. -/
inductive FindAll
  | distinct
  | load (ids : List String)
  | count (data : List AuditLogRow)
deriving DecidableEq, Repr

def AuditLogPage.of (data : List AuditLogRow) (total page perPage : Nat) : AuditLogPage :=
  ⟨data, total, page, perPage, ⌈(total : Rat) / perPage⌉₊⟩

/-- The end of `getManyAndCount`, when the rows are there. A page that is full may have another
one behind it, and one without rows may be behind the last one; so they take a query for the
number of rows. -/
def FindAll.loaded (page perPage : Nat) (data : List AuditLogRow) : FindAll ⊕ AuditLogPage :=
  let skipped := (page - 1) * perPage
  if data.length = perPage ∨ data = [] ∧ 0 < skipped then .inl (.count data)
  else .inr (.of data (data.length + skipped) page perPage)

/-- Where the rows are not counted, the page is not full. -/
theorem FindAll.loaded_cases (page perPage : Nat) (data : List AuditLogRow) :
    loaded page perPage data = .inl (.count data) ∨ data.length ≠ perPage ∧
      loaded page perPage data =
        .inr (.of data (data.length + (page - 1) * perPage) page perPage) := by
  by_cases hcount : data.length = perPage ∨ data = [] ∧ 0 < (page - 1) * perPage
  · exact .inl (if_pos hcount)
  · exact .inr ⟨fun heq => hcount (.inl heq), if_neg hcount⟩

/-- One query of `findAll`. -/
def FindAll.turn (t : AuditLogTables) (order : NewestFirst) (filter : AuditLogFilter)
    (page perPage : Nat) : FindAll → FindAll ⊕ AuditLogPage
  | .distinct =>
    match (window (order.order (t.listed filter)) perPage page).map (·.id) with
    | [] => FindAll.loaded page perPage []
    | ids => .inl (.load ids)
  | .load ids => FindAll.loaded page perPage
      ((order.order ((t.listed filter).filter fun e => ids.contains e.id)).map t.join)
  | .count data => .inr (.of data (t.listed filter).length page perPage)

/-! ## A reader -/

/-- The log beside someone who reads it: the page asked for, the request unless the reading is
over, and what has been shown. -/
structure Reading where
  tables : AuditLogTables
  page : Nat
  request : Option FindAll
  shown : List AuditLogRow

inductive ReadingEvent
  | log (params : AuditLogParams) (id : String) (now : Nat)
  | users (users : List User)
  | query (order : NewestFirst)
  | failed

namespace Reading

/-- The reader begins. -/
def begun (tables : AuditLogTables) : Reading := ⟨tables, 1, some .distinct, []⟩

/-- The reader goes on with an answer until its page is the last one. -/
def answered (r : Reading) (p : AuditLogPage) : Reading :=
  { r with
    page := r.page + 1
    request := if p.page < p.totalPages then some .distinct else none
    shown := r.shown ++ p.data }

def next (r : Reading) : FindAll ⊕ AuditLogPage → Reading
  | .inl request => { r with request := some request }
  | .inr p => r.answered p

/-- One event. A request that fails is made again. -/
def step (filter : AuditLogFilter) (perPage : Nat) (r : Reading) : ReadingEvent → Option Reading
  | .log params id now =>
    (AuditLogService.log r.tables params id now).map fun tables => { r with tables }
  | .users users => some { r with tables := r.tables.setUsers users }
  | .query order => r.request.map fun request =>
    r.next (request.turn r.tables order filter r.page perPage)
  | .failed => r.request.map fun _ => { r with request := some .distinct }

end Reading

/-- While the log is read, no entry is written in the same instant as this one, and if only the
entries of a user are read, this user stays. -/
def Undisturbed (filter : AuditLogFilter) (x : AuditLogEntry) : ReadingEvent → Prop
  | .log _ _ now => now ≠ x.createdAt
  | .users users => ∀ id ∈ truthy filter.userId, users.any (·.id == id) = true
  | .query _ | .failed => True

/-! ## What a reading shows -/

/-- The entry as it is later: its user may be gone. -/
def AuditLogEntry.Version (x e : AuditLogEntry) : Prop := e = { x with userId := e.userId }

theorem AuditLogEntry.Version.id_eq {x e : AuditLogEntry} (h : x.Version e) : e.id = x.id := by
  rw [Version] at h
  rw [h]

theorem AuditLogEntry.Version.newest_eq {x e : AuditLogEntry} (h : x.Version e) :
    newest e = newest x := by
  rw [Version] at h
  rw [h, newest, newest]

theorem AuditLogEntry.Version.among {x e : AuditLogEntry} (h : x.Version e) (users : List User) :
    x.Version (e.among users) := by
  rw [Version] at h ⊢
  rw [AuditLogEntry.among, h]

section Log

variable {filter : AuditLogFilter} {x : AuditLogEntry} {t t' : AuditLogTables} {perPage : Nat}

theorem sat_among {users : List User} (e : AuditLogEntry)
    (h : ∀ id ∈ truthy filter.userId, users.any (·.id == id) = true) :
    filter.sat (e.among users) = filter.sat e := by
  rw [AuditLogFilter.sat, AuditLogFilter.sat]
  congr 1
  cases hid : truthy filter.userId with
  | none => rfl
  | some id =>
    have hany := h id hid
    cases he : e.userId with
    | none => simp [AuditLogEntry.among, he]
    | some userId =>
      by_cases heq : userId = id
      · subst heq
        simp only [AuditLogEntry.among, he, Option.filter_some, hany, if_true]
      · rw [AuditLogEntry.among, he, Option.filter_some]
        split
        · rfl
        · simp [heq]

/-- Deleted users take no entry out of the list. -/
theorem listed_setUsers {users : List User}
    (h : ∀ id ∈ truthy filter.userId, users.any (·.id == id) = true) :
    (t.setUsers users).listed filter = (t.listed filter).map (·.among users) := by
  rw [AuditLogTables.listed, AuditLogTables.listed, AuditLogTables.setUsers, List.filter_map]
  congr 1
  exact List.filter_congr fun e _ => sat_among e h

/-- A new entry comes to the others, or the filter passes it over. -/
theorem listed_log (filter : AuditLogFilter) {params : AuditLogParams} {id : String} {now : Nat}
    (h : AuditLogService.log t params id now = some t') :
    t'.listed filter = t.listed filter ∨
      ∃ e, e.createdAt = now ∧ t'.listed filter = e :: t.listed filter := by
  unfold AuditLogService.log at h
  split at h
  · cases h
    rw [AuditLogTables.listed, List.filter_cons]
    split
    · exact .inr ⟨_, rfl, rfl⟩
    · exact .inl rfl
  · cases h

/-- The entry is in the list, and no other entry is of its instant. -/
structure AuditLogTables.Lists (t : AuditLogTables) (filter : AuditLogFilter)
    (x : AuditLogEntry) : Prop where
  alone : Alone newest (t.listed filter) (newest x)
  present : ∃ e ∈ t.listed filter, x.Version e

/-- The page the entry is on. -/
def AuditLogTables.pageOf (t : AuditLogTables) (filter : AuditLogFilter) (perPage : Nat)
    (x : AuditLogEntry) : Nat :=
  place newest (t.listed filter) (newest x) / perPage + 1

theorem AuditLogTables.Lists.log {params : AuditLogParams} {id : String} {now : Nat}
    (h : t.Lists filter x) (hlog : AuditLogService.log t params id now = some t')
    (hnow : now ≠ x.createdAt) :
    t'.Lists filter x ∧ t.pageOf filter perPage x ≤ t'.pageOf filter perPage x := by
  obtain ⟨e, he, hversion⟩ := h.present
  obtain hsame | ⟨new, hcreated, hnew⟩ := listed_log filter hlog
  · refine ⟨⟨hsame ▸ h.alone, e, hsame ▸ he, hversion⟩, ?_⟩
    rw [AuditLogTables.pageOf, AuditLogTables.pageOf, hsame]
  · have hkey : newest new ≠ newest x := fun heq =>
      hnow (hcreated ▸ OrderDual.toDual_inj.mp heq)
    refine ⟨⟨hnew ▸ h.alone.cons hkey, e, hnew ▸ List.mem_cons_of_mem new he, hversion⟩, ?_⟩
    rw [AuditLogTables.pageOf, AuditLogTables.pageOf, hnew]
    exact Nat.succ_le_succ (Nat.div_le_div_right (place_cons_le new))

theorem AuditLogTables.Lists.setUsers {users : List User} (h : t.Lists filter x)
    (hstay : ∀ id ∈ truthy filter.userId, users.any (·.id == id) = true) :
    (t.setUsers users).Lists filter x ∧
      (t.setUsers users).pageOf filter perPage x = t.pageOf filter perPage x := by
  obtain ⟨e, he, hversion⟩ := h.present
  have hkeys : ∀ e ∈ t.listed filter, newest (e.among users) = newest e := fun _ _ => rfl
  refine ⟨⟨?_, e.among users, ?_, hversion.among users⟩, ?_⟩
  · rw [listed_setUsers hstay]
    exact h.alone.map hkeys
  · rw [listed_setUsers hstay]
    exact List.mem_map_of_mem he
  · rw [AuditLogTables.pageOf, listed_setUsers hstay, place_map hkeys, AuditLogTables.pageOf]

/-- The query for the ids of its page finds the entry. -/
theorem AuditLogTables.Lists.mem_ids (h : t.Lists filter x) (hpos : 0 < perPage)
    (order : NewestFirst) :
    x.id ∈ (window (order.order (t.listed filter)) perPage (t.pageOf filter perPage x)).map
      (·.id) := by
  obtain ⟨e, he, hversion⟩ := h.present
  obtain ⟨r, hr, hkey⟩ := h.alone.mem_window order hpos
  have hlisted : r ∈ t.listed filter :=
    (order.perm _).mem_iff.mp (List.mem_of_mem_drop (List.mem_of_mem_take hr))
  have hre : r = e := h.alone.eq hlisted he hkey hversion.newest_eq
  exact List.mem_map.mpr ⟨r, hr, hre ▸ hversion.id_eq⟩

/-- The ids on a page before the entry's are those of a full page. -/
theorem AuditLogTables.Lists.le_countP (h : t.Lists filter x) (order : NewestFirst) {page : Nat}
    (hfirst : 0 < page) (hpage : page < t.pageOf filter perPage x) :
    perPage ≤ (t.listed filter).countP fun e =>
      ((window (order.order (t.listed filter)) perPage page).map (·.id)).contains e.id := by
  have hrows := h.alone.lt_length hpage
  obtain ⟨page, rfl⟩ := Nat.exists_eq_succ_of_ne_zero hfirst.ne'
  rw [Nat.succ_mul] at hrows
  set shown := window (order.order (t.listed filter)) perPage page.succ with hshown
  have hsublist : shown.Sublist (order.order (t.listed filter)) :=
    (List.take_sublist _ _).trans (List.drop_sublist _ _)
  calc perPage
    _ = shown.length := by
      rw [hshown, window, List.length_take, List.length_drop, (order.perm _).length_eq,
        Nat.succ_sub_one]
      omega
    _ = shown.countP fun e => (shown.map (·.id)).contains e.id :=
      (List.countP_eq_length.mpr fun e he =>
        List.contains_iff_mem.mpr (List.mem_map_of_mem he)).symm
    _ ≤ (order.order (t.listed filter)).countP fun e => (shown.map (·.id)).contains e.id :=
      hsublist.countP_le
    _ = _ := (order.perm _).countP_eq _

/-- The query for the rows with certain ids finds it among them. -/
theorem AuditLogTables.Lists.mem_data (h : t.Lists filter x) (order : NewestFirst)
    {ids : List String} (hid : x.id ∈ ids) :
    ∃ row ∈ (order.order ((t.listed filter).filter fun e => ids.contains e.id)).map t.join,
      x.Version row.entry := by
  obtain ⟨e, he, hversion⟩ := h.present
  have hfilter : e ∈ (t.listed filter).filter fun e => ids.contains e.id :=
    List.mem_filter.mpr ⟨he, List.contains_iff_mem.mpr (hversion.id_eq ▸ hid)⟩
  exact ⟨t.join e, List.mem_map_of_mem ((order.perm _).mem_iff.mpr hfilter), hversion⟩

end Log

/-! ## A whole reading -/

namespace Reading

variable {filter : AuditLogFilter} {perPage : Nat} {x : AuditLogEntry} {r r' : Reading}

def Shown (x : AuditLogEntry) (r : Reading) : Prop := ∃ row ∈ r.shown, x.Version row.entry

/-- The entry is in what a request has found so far. -/
def Found (x : AuditLogEntry) : FindAll → Prop
  | .distinct => True
  | .load ids => x.id ∈ ids
  | .count data => ∃ row ∈ data, x.Version row.entry

/-- The request is for a full page, as far as it has got. -/
def Full (t : AuditLogTables) (filter : AuditLogFilter) (perPage : Nat) : FindAll → Prop
  | .load ids => perPage ≤ (t.listed filter).countP fun e => ids.contains e.id
  | .distinct | .count _ => True

theorem Full.log {t t' : AuditLogTables} {params : AuditLogParams} {id : String} {now : Nat}
    {request : FindAll} (h : Full t filter perPage request)
    (hlog : AuditLogService.log t params id now = some t') : Full t' filter perPage request := by
  cases request with
  | load ids =>
    obtain hsame | ⟨e, -, hnew⟩ := listed_log filter hlog
    · rw [Full, hsame]
      exact h
    · rw [Full, hnew]
      exact Nat.le_trans h (List.sublist_cons_self e _).countP_le
  | distinct | count => trivial

theorem Full.setUsers {t : AuditLogTables} {users : List User} {request : FindAll}
    (h : Full t filter perPage request)
    (hstay : ∀ id ∈ truthy filter.userId, users.any (·.id == id) = true) :
    Full (t.setUsers users) filter perPage request := by
  cases request with
  | load ids =>
    rw [Full, listed_setUsers hstay, List.countP_map]
    exact h
  | distinct | count => trivial

/-- The reader has not come past the entry: it is what the request finds, or on a later page than
the one that is being read, which is full. -/
def Ahead (filter : AuditLogFilter) (perPage : Nat) (x : AuditLogEntry) (r : Reading) : Prop :=
  0 < r.page ∧ r.page ≤ r.tables.pageOf filter perPage x ∧
    ∃ request, r.request = some request ∧ (Found x request ∨
      r.page < r.tables.pageOf filter perPage x ∧ Full r.tables filter perPage request)

/-- The invariant: the entry is not left behind. -/
structure LeavesNone (filter : AuditLogFilter) (perPage : Nat) (x : AuditLogEntry)
    (r : Reading) : Prop where
  listed : r.tables.Lists filter x
  shownOrAhead : Shown x r ∨ Ahead filter perPage x r

/-- Entries that come in move the entry away from the reader. -/
theorem Ahead.later {tables : AuditLogTables} (h : Ahead filter perPage x r)
    (hle : r.tables.pageOf filter perPage x ≤ tables.pageOf filter perPage x)
    (hfull : ∀ request, Full r.tables filter perPage request →
      Full tables filter perPage request) :
    Ahead filter perPage x { r with tables } := by
  obtain ⟨hfirst, hpage, request, hrequest, hfound⟩ := h
  exact ⟨hfirst, hpage.trans hle, request, hrequest,
    hfound.imp_right fun h => ⟨h.1.trans_le hle, hfull request h.2⟩⟩

theorem Ahead.begin (h : Ahead filter perPage x r) :
    Ahead filter perPage x { r with request := some .distinct } := by
  obtain ⟨hfirst, hpage, -⟩ := h
  exact ⟨hfirst, hpage, .distinct, rfl, .inl trivial⟩

/-- An answer shows the entry, or there is a next page. -/
theorem answered_ahead {p : AuditLogPage} (hp : p.page = r.page)
    (h : (∃ row ∈ p.data, x.Version row.entry) ∨
      r.page < r.tables.pageOf filter perPage x ∧ r.page < p.totalPages) :
    Shown x (r.answered p) ∨ Ahead filter perPage x (r.answered p) := by
  obtain ⟨row, hrow, hversion⟩ | ⟨hlt, hnext⟩ := h
  · exact .inl ⟨row, List.mem_append_right _ hrow, hversion⟩
  · exact .inr ⟨Nat.succ_pos _, hlt, .distinct, if_pos (hp ▸ hnext), .inl trivial⟩

/-- So do the rows of a page, if they are counted off or take a query to count. -/
theorem loaded_ahead {data : List AuditLogRow} (hpos : 0 < perPage) (hfirst : 0 < r.page)
    (hpage : r.page ≤ r.tables.pageOf filter perPage x)
    (h : (∃ row ∈ data, x.Version row.entry) ∨
      r.page < r.tables.pageOf filter perPage x ∧ perPage ≤ data.length) :
    Shown x (r.next (FindAll.loaded r.page perPage data)) ∨
      Ahead filter perPage x (r.next (FindAll.loaded r.page perPage data)) := by
  obtain heq | ⟨hne, heq⟩ := FindAll.loaded_cases r.page perPage data <;> rw [heq]
  · exact .inr ⟨hfirst, hpage, _, rfl, h.imp_right fun h => ⟨h.1, trivial⟩⟩
  · refine answered_ahead (p := .of data _ r.page perPage) rfl (h.imp_right fun h => ⟨h.1, ?_⟩)
    refine (lt_totalPages_iff hpos _ _).mpr ?_
    obtain ⟨page, hsucc⟩ := Nat.exists_eq_succ_of_ne_zero hfirst.ne'
    rw [hsucc, Nat.succ_mul, Nat.succ_sub_one]
    omega

/-- A query finds the entry, or a full page before it. -/
theorem Ahead.query {order : NewestFirst} (hpos : 0 < perPage)
    (hlisted : r.tables.Lists filter x) (h : Ahead filter perPage x r)
    (hstep : r.step filter perPage (.query order) = some r') :
    Shown x r' ∨ Ahead filter perPage x r' := by
  obtain ⟨hfirst, hpage, request, hrequest, hfound⟩ := h
  rw [step, hrequest, Option.map_some] at hstep
  cases hstep
  cases request with
  | distinct =>
    rw [FindAll.turn]
    obtain heq | hlt := hpage.eq_or_lt
    · have hid := heq ▸ hlisted.mem_ids hpos order
      split
      next hnone => simp [hnone] at hid
      next => exact .inr ⟨hfirst, hpage, _, rfl, .inl hid⟩
    · have hfull := hlisted.le_countP order hfirst hlt
      split
      next hnone =>
        have hzero : perPage = 0 := by simpa [hnone] using hfull
        exact absurd hzero hpos.ne'
      next => exact .inr ⟨hfirst, hpage, _, rfl, .inr ⟨hlt, hfull⟩⟩
  | load ids =>
    refine loaded_ahead hpos hfirst hpage (hfound.imp (hlisted.mem_data order) fun h => ⟨h.1, ?_⟩)
    rw [List.length_map, (order.perm _).length_eq, ← List.countP_eq_length_filter]
    exact h.2
  | count data =>
    refine answered_ahead (p := .of data _ r.page perPage) rfl
      (hfound.imp_right fun h => ⟨h.1, ?_⟩)
    exact (lt_totalPages_iff hpos _ _).mpr (hlisted.alone.lt_length h.1)

/-- What has been shown stays shown. -/
theorem Shown.next (h : Shown x r) (answer : FindAll ⊕ AuditLogPage) :
    Shown x (r.next answer) := by
  obtain ⟨row, hrow, hversion⟩ := h
  cases answer with
  | inl request => exact ⟨row, hrow, hversion⟩
  | inr p => exact ⟨row, List.mem_append_left _ hrow, hversion⟩

theorem tables_next (r : Reading) (answer : FindAll ⊕ AuditLogPage) :
    (r.next answer).tables = r.tables := by
  cases answer <;> rfl

theorem LeavesNone.step {event : ReadingEvent} (hpos : 0 < perPage)
    (h : LeavesNone filter perPage x r) (hquiet : Undisturbed filter x event)
    (hstep : r.step filter perPage event = some r') : LeavesNone filter perPage x r' := by
  obtain ⟨hlisted, hshown⟩ := h
  cases event with
  | log params id now =>
    obtain ⟨tables, hlog, rfl⟩ := Option.map_eq_some_iff.mp hstep
    obtain ⟨hlisted', hpage⟩ := hlisted.log hlog hquiet
    exact ⟨hlisted', hshown.imp_right fun h => h.later hpage fun _ hfull => hfull.log hlog⟩
  | users users =>
    cases hstep
    obtain ⟨hlisted', hpage⟩ := hlisted.setUsers hquiet
    exact ⟨hlisted',
      hshown.imp_right fun h => h.later hpage.ge fun _ hfull => hfull.setUsers hquiet⟩
  | query order =>
    cases hshown with
    | inl hshown =>
      obtain ⟨request, -, rfl⟩ := Option.map_eq_some_iff.mp hstep
      exact ⟨(tables_next r _).symm ▸ hlisted, .inl (hshown.next _)⟩
    | inr hahead =>
      refine ⟨?_, hahead.query hpos hlisted hstep⟩
      obtain ⟨request, -, rfl⟩ := Option.map_eq_some_iff.mp hstep
      exact (tables_next r _).symm ▸ hlisted
  | failed =>
    obtain ⟨request, -, rfl⟩ := Option.map_eq_some_iff.mp hstep
    exact ⟨hlisted, hshown.imp_right Ahead.begin⟩

/-- A reading that begins leaves no entry behind. -/
theorem leavesNone_begun {tables : AuditLogTables} (h : tables.Lists filter x) :
    LeavesNone filter perPage x (begun tables) :=
  ⟨h, .inr ⟨Nat.one_pos, Nat.le_add_left 1 _, .distinct, rfl, .inl trivial⟩⟩

/-! ### Nothing else is shown -/

/-- An entry of the log that meets the filter. -/
def Logged (filter : AuditLogFilter) (t : AuditLogTables) (e : AuditLogEntry) : Prop :=
  filter.sat e = true ∧ ∃ e' ∈ t.entries, e.Version e'

/-- The rows a reading has found. -/
def rows (r : Reading) : List AuditLogRow :=
  r.shown ++ match r.request with
    | some (.count data) => data
    | _ => []

/-- The invariant: what has been found is in the log. -/
def ShowsLogged (filter : AuditLogFilter) (r : Reading) : Prop :=
  ∀ row ∈ r.rows, Logged filter r.tables row.entry

theorem mem_rows_answered {p : AuditLogPage} {row : AuditLogRow} (h : row ∈ (r.answered p).rows) :
    row ∈ r.shown ++ p.data := by
  simp only [answered, rows] at h
  split_ifs at h <;> simpa using h

theorem Logged.log {t t' : AuditLogTables} {e : AuditLogEntry} {params : AuditLogParams}
    {id : String} {now : Nat} (h : Logged filter t e)
    (hlog : AuditLogService.log t params id now = some t') : Logged filter t' e := by
  obtain ⟨hsat, e', he', hversion⟩ := h
  unfold AuditLogService.log at hlog
  split at hlog
  · cases hlog
    exact ⟨hsat, e', List.mem_cons_of_mem _ he', hversion⟩
  · cases hlog

theorem Logged.setUsers {t : AuditLogTables} {e : AuditLogEntry} (h : Logged filter t e)
    (users : List User) : Logged filter (t.setUsers users) e := by
  obtain ⟨hsat, e', he', hversion⟩ := h
  exact ⟨hsat, e'.among users, List.mem_map_of_mem he', hversion.among users⟩

/-- The rows of a query are in the log. -/
theorem logged_of_mem_data {t : AuditLogTables} {order : NewestFirst} {ids : List String}
    {row : AuditLogRow}
    (h : row ∈ (order.order ((t.listed filter).filter fun e => ids.contains e.id)).map t.join) :
    Logged filter t row.entry := by
  obtain ⟨e, he, rfl⟩ := List.mem_map.mp h
  obtain ⟨hentry, hsat⟩ :=
    List.mem_filter.mp (List.mem_of_mem_filter ((order.perm _).mem_iff.mp he))
  exact ⟨hsat, e, hentry, rfl⟩

/-- The rows of a page become those of an answer, or wait for their number. -/
theorem rows_loaded {data : List AuditLogRow} {row : AuditLogRow}
    (h : row ∈ (r.next (FindAll.loaded r.page perPage data)).rows) : row ∈ r.shown ∨ row ∈ data := by
  obtain heq | ⟨-, heq⟩ := FindAll.loaded_cases r.page perPage data <;> rw [heq] at h
  · exact List.mem_append.mp h
  · exact List.mem_append.mp (mem_rows_answered h)

theorem ShowsLogged.query {order : NewestFirst} (h : ShowsLogged filter r)
    (hstep : r.step filter perPage (.query order) = some r') : ShowsLogged filter r' := by
  obtain ⟨request, hrequest, rfl⟩ := Option.map_eq_some_iff.mp hstep
  have hshown : ∀ row ∈ r.shown, Logged filter r.tables row.entry :=
    fun row hrow => h row (List.mem_append_left _ hrow)
  rw [ShowsLogged, tables_next]
  intro row hrow
  cases request with
  | distinct =>
    rw [FindAll.turn] at hrow
    split at hrow
    · obtain hrow | hrow := rows_loaded hrow
      · exact hshown row hrow
      · cases hrow
    · exact hshown row (by simpa [next, rows] using hrow)
  | load ids =>
    obtain hrow | hrow := rows_loaded hrow
    · exact hshown row hrow
    · exact logged_of_mem_data hrow
  | count data =>
    -- The rows of the answer are those that were waiting for it.
    refine h row ?_
    rw [rows, hrequest]
    exact mem_rows_answered hrow

theorem ShowsLogged.step {event : ReadingEvent} (h : ShowsLogged filter r)
    (hstep : r.step filter perPage event = some r') : ShowsLogged filter r' := by
  cases event with
  | log params id now =>
    obtain ⟨tables, hlog, rfl⟩ := Option.map_eq_some_iff.mp hstep
    exact fun row hrow => (h row hrow).log hlog
  | users users =>
    cases hstep
    exact fun row hrow => (h row hrow).setUsers users
  | query order => exact h.query hstep
  | failed =>
    obtain ⟨request, -, rfl⟩ := Option.map_eq_some_iff.mp hstep
    intro row hrow
    rw [rows, List.append_nil] at hrow
    exact h row (List.mem_append_left _ hrow)

end Reading

/-- A reader who asks for the pages of the audit log until the last one has been shown entries of
the log that meet the filter, and of those in the log when the reading begins every one that no
other entry shares its instant with, however many entries are written and users deleted between
the queries, and in whatever order a query gives out the entries of one instant. -/
theorem log_read {filter : AuditLogFilter} {perPage : Nat} (hpos : 0 < perPage)
    {tables : AuditLogTables} {events : List ReadingEvent} {r : Reading}
    (hrun : run (Reading.step filter perPage) (.begun tables) events = some r)
    (hover : r.request = none) :
    (∀ row ∈ r.shown, Reading.Logged filter r.tables row.entry) ∧
      ∀ x ∈ tables.listed filter, Alone newest (tables.listed filter) (newest x) →
        (∀ event ∈ events, Undisturbed filter x event) →
        ∃ row ∈ r.shown, x.Version row.entry := by
  constructor
  · have hlogged : r.ShowsLogged filter := by
      refine run_preserves (fun r event r' h hstep => h.step hstep) ?_ hrun
      exact fun row hrow => absurd hrow List.not_mem_nil
    exact fun row hrow => hlogged row (List.mem_append_left _ hrow)
  · intro x hx halone hquiet
    have hlists : tables.Lists filter x := ⟨halone, x, hx, rfl⟩
    have hbegun : Reading.LeavesNone filter perPage x (.begun tables) :=
      Reading.leavesNone_begun hlists
    have hlast := run_invariant (C := fun _ event => Undisturbed filter x event)
      (fun r event r' h hev hstep => h.step hpos hev hstep) hbegun
      (along_of_forall fun event hmem _ => hquiet event hmem) hrun
    obtain hshown | ⟨-, -, request, hrequest, -⟩ := hlast.shownOrAhead
    · exact hshown
    · rw [hover] at hrequest
      cases hrequest

/-- The entry of a registration. -/
def aliceRegistered : AuditLogEntry :=
  ⟨"1", some "alice", "user.created", some "", "\x7b\x7d", 0⟩

def aliceInLog : AuditLogTables :=
  ⟨[.withDefaults "alice" "alice@nexus.local" "alice" "password"], [aliceRegistered]⟩

/-- A login is logged, and the user deleted, while the first of two pages is read. -/
def readBesideLogin : List ReadingEvent :=
  let query := ReadingEvent.query (.stable newest)
  [query, .log ⟨"alice", "user.login", "127.0.0.1", none⟩ "2" 1, query, .users [], query,
    query, query, query]

theorem log_read_besideLogin : ∃ r,
    run (Reading.step ⟨none, none⟩ 1) (.begun aliceInLog) readBesideLogin = some r ∧
      ∃ row ∈ r.shown, aliceRegistered.Version row.entry := by
  have hend : (run (Reading.step ⟨none, none⟩ 1) (.begun aliceInLog) readBesideLogin).map
      Reading.request = some none := by decide +kernel
  obtain ⟨r, hrun, hover⟩ := Option.map_eq_some_iff.mp hend
  refine ⟨r, hrun, (log_read (by decide) hrun hover).2 aliceRegistered (by decide) (by decide) ?_⟩
  simp [readBesideLogin, Undisturbed, aliceRegistered, truthy]

end Panel
