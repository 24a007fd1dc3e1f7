import NexusPanel.Panel.EggsService

/-!
# Replacing the children of a row

`updateEgg` replaces the variables of an egg and `SchedulesService.update` the tasks of a
schedule: the old rows are deleted by one statement and the new ones inserted by another. A
failure between the two, or an insert that the database refuses, leaves neither the old rows
nor the new ones. This module says for both operations when that happens.
-/

namespace Panel

open StateAction Connection

/-! ## All or nothing -/

section Replacement

variable {C P R ε α : Type} {children : C → String → List R} {parent : C → String → Option P}
  {id : String} {new : Option (List R)} {c : Connection C ε} {r : Except ε α × Connection C ε}

/-- What a request that replaces the children of one row is to do, `new` being the new ones if
it names any. -/
structure AllOrNothing (children : C → String → List R) (parent : C → String → Option P)
    (id : String) (new : Option (List R)) (c : Connection C ε)
    (r : Except ε α × Connection C ε) : Prop where
  done : ∀ a, r.1 = .ok a → children r.2.tables id = new.getD (children c.tables id)
  failed : ∀ e, r.1 = .error e → children r.2.tables id = children c.tables id
  others : ∀ other, other ≠ id → children r.2.tables other = children c.tables other ∧
    parent r.2.tables other = parent c.tables other

/-- A request that failed before anything was deleted. -/
theorem AllOrNothing.of_failed {e : ε} (hr : r.1 = .error e)
    (hchildren : ∀ other, children r.2.tables other = children c.tables other)
    (hparent : ∀ other, other ≠ id → parent r.2.tables other = parent c.tables other) :
    AllOrNothing children parent id new c r where
  done a ha := by
    rw [hr] at ha
    cases ha
  failed _ _ := hchildren id
  others other hother := ⟨hchildren other, hparent other hother⟩

/-- A request that went through. -/
theorem AllOrNothing.of_done {a : α} (hr : r.1 = .ok a)
    (hchildren : children r.2.tables id = new.getD (children c.tables id))
    (hothers : ∀ other, other ≠ id → children r.2.tables other = children c.tables other ∧
      parent r.2.tables other = parent c.tables other) :
    AllOrNothing children parent id new c r where
  done _ _ := hchildren
  failed e he := by
    rw [hr] at he
    cases he
  others := hothers

/-- A request that failed when the old children were gone: it did nothing to them only if there
were none. -/
theorem allOrNothing_of_cleared {e : ε} (hr : r.1 = .error e)
    (hchildren : children r.2.tables id = [])
    (hothers : ∀ other, other ≠ id → children r.2.tables other = children c.tables other ∧
      parent r.2.tables other = parent c.tables other) :
    AllOrNothing children parent id new c r ↔ children c.tables id = [] := by
  constructor
  · intro h
    rw [← h.failed e hr, hchildren]
  · intro hempty
    refine ⟨fun a ha => ?_, fun _ _ => by rw [hchildren, hempty], hothers⟩
    rw [hr] at ha
    cases ha

end Replacement

/-! ## Schedules -/

namespace Replacement

/-- The numbers of a request body need not be whole. -/
structure ScheduleTaskDto where
  sequence : Rat
  action : ScheduleTaskAction
  payload : String
  timeOffset : Field Rat
deriving DecidableEq

structure UpdateScheduleDto where
  name : Field String
  cronMinute : Field String
  cronHour : Field String
  cronDayOfMonth : Field String
  cronMonth : Field String
  cronDayOfWeek : Field String
  isActive : Field Bool
  tasks : Field (List ScheduleTaskDto)
deriving DecidableEq

/-- A row of `schedule_tasks`; the id, which nothing looks at, is left out. -/
structure TaskRow where
  scheduleId : String
  action : ScheduleTaskAction
  sequence : Int
  payload : String
  timeOffset : Int
deriving DecidableEq

/-- A row of `schedules`: the columns an update writes, and those that say whose it is. -/
structure ScheduleRow where
  id : String
  serverId : String
  name : String
  cronMinute : String
  cronHour : String
  cronDayOfMonth : String
  cronMonth : String
  cronDayOfWeek : String
  isActive : Bool
deriving DecidableEq

instance : Keyed String ScheduleRow := ⟨ScheduleRow.id⟩

structure ScheduleTables where
  schedules : Table ScheduleRow
  tasks : List TaskRow

def ScheduleTables.Consistent (t : ScheduleTables) : Prop :=
  ∀ task ∈ t.tasks, ∃ s ∈ t.schedules.rows, s.id = task.scheduleId

instance (t : ScheduleTables) : Decidable t.Consistent := List.decidableBAll _ _

structure ScheduleCatalog extends ScheduleTables where
  consistent : toScheduleTables.Consistent

def ScheduleCatalog.ofTables (t : ScheduleTables) : Except HttpException ScheduleCatalog :=
  if h : t.Consistent then .ok { toScheduleTables := t, consistent := h }
  else .error (.internal "violates foreign key constraint")

abbrev ScheduleAction (α : Type) :=
  StateAction (Connection ScheduleCatalog HttpException) HttpException α

/-- An `integer` column takes a whole number of 32 bits. -/
def integerColumn (q : Rat) : Option Int :=
  if q.den = 1 ∧ -2147483648 ≤ q.num ∧ q.num ≤ 2147483647 then some q.num else none

/-- `taskRepo.create`, and the row that is inserted for it. -/
def ScheduleTaskDto.row (scheduleId : String) (t : ScheduleTaskDto) : Option TaskRow := do
  let sequence ← integerColumn t.sequence
  let timeOffset ← integerColumn (t.timeOffset.join.getD 0)
  return { scheduleId, action := t.action, sequence, payload := t.payload, timeOffset }

/-- The properties of the request that are not `undefined`; a `null` is refused by its column. -/
def UpdateScheduleDto.assign (dto : UpdateScheduleDto) (s : ScheduleRow) : Option ScheduleRow := do
  let name ← dto.name.getD (some s.name)
  let cronMinute ← dto.cronMinute.getD (some s.cronMinute)
  let cronHour ← dto.cronHour.getD (some s.cronHour)
  let cronDayOfMonth ← dto.cronDayOfMonth.getD (some s.cronDayOfMonth)
  let cronMonth ← dto.cronMonth.getD (some s.cronMonth)
  let cronDayOfWeek ← dto.cronDayOfWeek.getD (some s.cronDayOfWeek)
  let isActive ← dto.isActive.getD (some s.isActive)
  return { s with name, cronMinute, cronHour, cronDayOfMonth, cronMonth, cronDayOfWeek, isActive }

namespace ScheduleCatalog

def deleteTasks (scheduleId : String) (t : ScheduleCatalog) : Except HttpException ScheduleCatalog :=
  ofTables { t.toScheduleTables with tasks := t.tasks.filter fun task => task.scheduleId ≠ scheduleId }

/-- `save`: the schedule and its new tasks in one transaction. -/
def saveSchedule (row : Option ScheduleRow) (tasks : Option (List TaskRow)) (t : ScheduleCatalog) :
    Except HttpException ScheduleCatalog := do
  let row ← notNull row
  match tasks with
  | some tasks =>
    ofTables { t.toScheduleTables with schedules := t.schedules.save row, tasks := t.tasks ++ tasks }
  | none => .error (.internal "invalid input syntax for type integer")

/-- What the tasks of a schedule say. -/
def tasksOf (t : ScheduleCatalog) (scheduleId : String) :
    List (ScheduleTaskAction × Rat × String × Rat) :=
  (t.tasks.filter fun task => task.scheduleId = scheduleId).map fun task =>
    (task.action, task.sequence, task.payload, task.timeOffset)

def schedule (t : ScheduleCatalog) (id : String) : Option ScheduleRow :=
  t.schedules.findOne fun s => s.id == id

end ScheduleCatalog

/-- What the tasks of a request say: an offset that is missing is 0. -/
def ScheduleTaskDto.content (t : ScheduleTaskDto) : ScheduleTaskAction × Rat × String × Rat :=
  (t.action, t.sequence, t.payload, t.timeOffset.join.getD 0)

def findById (id : String) : ScheduleAction ScheduleRow := do
  let schedule ← query fun t => t.schedule id
  ofOption schedule (.notFound "Schedule not found")

/-- Remove the old tasks and replace them, if the request has any. -/
def update (id : String) (dto : UpdateScheduleDto) : ScheduleAction Unit := do
  let schedule ← findById id
  match dto.tasks.join with
  | some tasks =>
    statement (ScheduleCatalog.deleteTasks id)
    statement (ScheduleCatalog.saveSchedule (dto.assign schedule) (tasks.mapM (ScheduleTaskDto.row id)))
  | none => statement (ScheduleCatalog.saveSchedule (dto.assign schedule) (some []))

/-- No list is given, or there are no old tasks, or the request stops before the deletion, or the
save behind it goes through. -/
def UpdateWhen (c : Connection ScheduleCatalog HttpException) (id : String)
    (dto : UpdateScheduleDto) : Prop :=
  ∀ tasks, dto.tasks.join = some tasks → c.tables.tasksOf id = [] ∨
    c.failure c.issued ≠ none ∨ c.tables.schedule id = none ∨ c.failure (c.issued + 1) ≠ none ∨
    c.failure (c.issued + 2) = none ∧ (∀ t ∈ tasks, (t.row id).isSome) ∧
      ∀ schedule ∈ c.tables.schedule id, (dto.assign schedule).isSome

/-! ### Its statements -/

section Schedules

variable {t : ScheduleCatalog} {id : String} {row : ScheduleRow} {tasks : List TaskRow}

theorem ofTables_consistent {t : ScheduleTables} (h : t.Consistent) :
    ScheduleCatalog.ofTables t = .ok { toScheduleTables := t, consistent := h } := dif_pos h

/-- Deleting the tasks of a schedule breaks no foreign key. -/
theorem deleteTasks_ok (t : ScheduleCatalog) (id : String) :
    ∃ t', ScheduleCatalog.deleteTasks id t = .ok t' ∧ t'.schedules = t.schedules ∧
      t'.tasks = t.tasks.filter fun task => task.scheduleId ≠ id := by
  refine ⟨_, ofTables_consistent fun task htask => ?_, rfl, rfl⟩
  exact t.consistent task (List.mem_of_mem_filter htask)

/-- Saving a schedule with tasks of its own breaks none either. -/
theorem saveSchedule_ok (t : ScheduleCatalog) (row : ScheduleRow) (tasks : List TaskRow)
    (htasks : ∀ task ∈ tasks, task.scheduleId = row.id) :
    ∃ t', ScheduleCatalog.saveSchedule (some row) (some tasks) t = .ok t' ∧
      t'.schedules = t.schedules.save row ∧ t'.tasks = t.tasks ++ tasks := by
  refine ⟨_, ofTables_consistent fun task htask => ?_, rfl, rfl⟩
  rcases List.mem_append.mp htask with hold | hnew
  · obtain ⟨s, hs, hid⟩ := t.consistent task hold
    by_cases hsame : s.id = row.id
    · exact ⟨row, Table.mem_save.mpr (.inl rfl), hsame.symm.trans hid⟩
    · exact ⟨s, Table.mem_save.mpr (.inr ⟨hs, hsame⟩), hid⟩
  · exact ⟨row, Table.mem_save.mpr (.inl rfl), (htasks task hnew).symm⟩

/-- A save touches no other schedule. -/
theorem schedule_save {t t' : ScheduleCatalog} (hsave : t'.schedules = t.schedules.save row)
    {other : String} (hother : other ≠ row.id) : t'.schedule other = t.schedule other := by
  unfold ScheduleCatalog.schedule
  rw [hsave]
  exact Table.findOne_save_of_ne (Ne.symm hother)

theorem id_of_schedule {s : ScheduleRow} (h : t.schedule id = some s) :
    s ∈ t.schedules ∧ s.id = id := by
  unfold ScheduleCatalog.schedule at h
  have hsat := Table.findOne_sat h
  exact ⟨Table.findOne_mem h, by simpa using hsat⟩

theorem id_of_assign {dto : UpdateScheduleDto} {s : ScheduleRow} (h : dto.assign s = some row) :
    row.id = s.id := by
  simp only [UpdateScheduleDto.assign, Option.bind_eq_bind, Option.bind_eq_some_iff, Option.pure_def,
    Option.some.injEq] at h
  obtain ⟨_, -, _, -, _, -, _, -, _, -, _, -, _, -, rfl⟩ := h
  rfl

theorem integerColumn_eq_some {q : Rat} {i : Int} (h : integerColumn q = some i) : (i : Rat) = q := by
  unfold integerColumn at h
  split at h
  next hfits =>
    cases h
    exact Rat.ext rfl hfits.1.symm
  next => cases h

theorem content_of_row {dto : ScheduleTaskDto} {task : TaskRow} (h : dto.row id = some task) :
    task.scheduleId = id ∧ (task.action, (task.sequence : Rat), task.payload,
      (task.timeOffset : Rat)) = dto.content := by
  simp only [ScheduleTaskDto.row, Option.bind_eq_bind, Option.bind_eq_some_iff, Option.pure_def,
    Option.some.injEq] at h
  obtain ⟨sequence, hsequence, timeOffset, htimeOffset, rfl⟩ := h
  refine ⟨rfl, ?_⟩
  rw [integerColumn_eq_some hsequence, integerColumn_eq_some htimeOffset]
  rfl

/-- The rows that are inserted say what the request says. -/
theorem content_of_rows {dtos : List ScheduleTaskDto} (h : dtos.mapM (ScheduleTaskDto.row id) = some tasks) :
    (∀ task ∈ tasks, task.scheduleId = id) ∧
      tasks.map (fun task => (task.action, (task.sequence : Rat), task.payload,
        (task.timeOffset : Rat))) = dtos.map ScheduleTaskDto.content := by
  induction dtos generalizing tasks with
  | nil =>
    cases h
    exact ⟨fun task h => (nomatch h), rfl⟩
  | cons dto dtos ih =>
    simp only [List.mapM_cons, Option.bind_eq_bind, Option.bind_eq_some_iff, Option.pure_def,
      Option.some.injEq] at h
    obtain ⟨task, htask, rest, hrest, rfl⟩ := h
    obtain ⟨hid, hcontent⟩ := content_of_row htask
    obtain ⟨hids, hcontents⟩ := ih hrest
    refine ⟨fun other hother => ?_, ?_⟩
    · rcases List.mem_cons.mp hother with rfl | hother
      · exact hid
      · exact hids other hother
    · rw [List.map_cons, List.map_cons, hcontent, hcontents]

/-- All of them fit their columns, or the insert is refused. -/
theorem rows_isSome {dtos : List ScheduleTaskDto} :
    (dtos.mapM (ScheduleTaskDto.row id)).isSome ↔ ∀ t ∈ dtos, (t.row id).isSome := by
  induction dtos with
  | nil => simp
  | cons dto dtos ih =>
    rw [List.forall_mem_cons, ← ih, List.mapM_cons]
    cases dto.row id <;> cases dtos.mapM (ScheduleTaskDto.row id) <;> simp

/-- Deleting the tasks of a schedule, seen from any schedule. -/
theorem tasksOf_deleteTasks {t t' : ScheduleCatalog}
    (h : t'.tasks = t.tasks.filter fun task => task.scheduleId ≠ id) (other : String) :
    t'.tasksOf other = if other = id then [] else t.tasksOf other := by
  unfold ScheduleCatalog.tasksOf
  rw [h, List.filter_filter]
  split
  next heq =>
    subst heq
    have hnone : t.tasks.filter (fun task =>
        decide (task.scheduleId = other) && decide (task.scheduleId ≠ other)) = [] := by
      refine List.filter_eq_nil_iff.mpr fun task _ => ?_
      simp
    rw [hnone]
    rfl
  next hne =>
    congr 1
    refine List.filter_congr fun task _ => ?_
    by_cases htask : task.scheduleId = other
    · simp [htask, hne]
    · simp [htask]

/-- Saving a schedule with new tasks, seen from any schedule. -/
theorem tasksOf_saveSchedule {t t' : ScheduleCatalog} {i : String}
    (h : t'.tasks = t.tasks ++ tasks) (htasks : ∀ task ∈ tasks, task.scheduleId = i)
    (other : String) :
    t'.tasksOf other = t.tasksOf other ++ if other = i then tasks.map fun task =>
      (task.action, (task.sequence : Rat), task.payload, (task.timeOffset : Rat)) else [] := by
  unfold ScheduleCatalog.tasksOf
  rw [h, List.filter_append, List.map_append]
  congr 1
  split
  next heq =>
    subst heq
    rw [List.filter_eq_self.mpr fun task htask => decide_eq_true (htasks task htask)]
  next hne =>
    rw [List.filter_eq_nil_iff.mpr fun task htask => ?_]
    · rfl
    · rw [htasks task htask, decide_eq_true_eq]
      exact Ne.symm hne

end Schedules

/-! ### The update -/

section Update

variable {c : Connection ScheduleCatalog HttpException} {id : String} {dto : UpdateScheduleDto}
  {s : ScheduleRow}

/-- An update of a schedule replaces its tasks or leaves them. -/
def ReplacesTasks (c : Connection ScheduleCatalog HttpException) (id : String)
    (dto : UpdateScheduleDto) : Prop :=
  AllOrNothing ScheduleCatalog.tasksOf ScheduleCatalog.schedule id
    (dto.tasks.join.map (·.map ScheduleTaskDto.content)) c (update id dto c)

/-- What is left once the tasks are deleted: they are replaced if the save goes through, and
lost if it does not. -/
theorem allOrNothing_of_deleted {d : Connection ScheduleCatalog HttpException}
    {tasks : List ScheduleTaskDto} (hs : s.id = id)
    (hschedules : d.tables.schedules = c.tables.schedules)
    (hdeleted : d.tables.tasks = c.tables.tasks.filter fun task => task.scheduleId ≠ id) :
    AllOrNothing ScheduleCatalog.tasksOf ScheduleCatalog.schedule id
        (some (tasks.map ScheduleTaskDto.content)) c
        (statement (ScheduleCatalog.saveSchedule (dto.assign s)
          (tasks.mapM (ScheduleTaskDto.row id))) d) ↔
      c.tables.tasksOf id = [] ∨ d.failure d.issued = none ∧ (∀ t ∈ tasks, (t.row id).isSome) ∧
        (dto.assign s).isSome := by
  have htasks := tasksOf_deleteTasks hdeleted
  have hcleared : ∀ {r : Except HttpException Unit} {e},
      r = .error e → (AllOrNothing ScheduleCatalog.tasksOf ScheduleCatalog.schedule id
        (some (tasks.map ScheduleTaskDto.content)) c (r, d.next) ↔ c.tables.tasksOf id = []) := by
    intro r e hr
    refine allOrNothing_of_cleared hr ?_ fun other hother => ⟨?_, ?_⟩
    · rw [tables_next, htasks, if_pos rfl]
    · rw [tables_next, htasks, if_neg hother]
    · rw [tables_next, ScheduleCatalog.schedule, hschedules]
      rfl
  cases hfailure : d.failure d.issued with
  | some e =>
    rw [statement_fails hfailure, hcleared rfl]
    simp
  | none =>
    cases hrow : dto.assign s with
    | none =>
      rw [statement_refused hfailure rfl, hcleared rfl]
      simp
    | some row =>
      rw [← rows_isSome]
      cases hrows : tasks.mapM (ScheduleTaskDto.row id) with
      | none =>
        rw [statement_refused hfailure rfl, hcleared rfl]
        simp
      | some rows =>
        obtain ⟨hids, hcontents⟩ := content_of_rows hrows
        have hid : row.id = id := (id_of_assign hrow).trans hs
        obtain ⟨t', ht', hsaved, hinserted⟩ := saveSchedule_ok d.tables row rows
          fun task htask => (hids task htask).trans hid.symm
        rw [statement_done hfailure ht']
        refine iff_of_true (.of_done rfl ?_ fun other hother => ⟨?_, ?_⟩) (by simp)
        · rw [tables_put, tasksOf_saveSchedule hinserted hids, if_pos rfl, htasks, if_pos rfl,
            List.nil_append, hcontents]
          rfl
        · rw [tables_put, tasksOf_saveSchedule hinserted hids, if_neg hother, htasks,
            if_neg hother, List.append_nil]
        · rw [tables_put, schedule_save hsaved (by rwa [hid]), ScheduleCatalog.schedule, hschedules]
          rfl

/-- The query that an update begins with, and what it does not get past. -/
theorem findById_cases (c : Connection ScheduleCatalog HttpException) (id : String) :
    (∃ e, findById id c = (.error e, c.next)) ∧
        (c.failure c.issued ≠ none ∨ c.tables.schedule id = none) ∨
      ∃ s, findById id c = (.ok s, c.next) ∧ c.failure c.issued = none ∧
        c.tables.schedule id = some s := by
  unfold findById
  cases hfailure : c.failure c.issued with
  | some e => exact .inl ⟨⟨e, bind_error (query_fails hfailure)⟩, .inl (by simp)⟩
  | none =>
    rw [bind_ok (query_done hfailure)]
    cases hschedule : c.tables.schedule id with
    | none => exact .inl ⟨⟨_, rfl⟩, .inr rfl⟩
    | some s => exact .inr ⟨s, rfl, rfl, rfl⟩

/-- A save without new tasks leaves the tasks as they are. -/
theorem allOrNothing_of_untouched {d : Connection ScheduleCatalog HttpException} (hs : s.id = id)
    (hd : d.tables = c.tables) :
    AllOrNothing ScheduleCatalog.tasksOf ScheduleCatalog.schedule id none c
      (statement (ScheduleCatalog.saveSchedule (dto.assign s) (some [])) d) := by
  have hfailed : ∀ e, AllOrNothing ScheduleCatalog.tasksOf ScheduleCatalog.schedule id none c
      ((.error e, d.next) : Except HttpException Unit × _) := fun e => by
    refine .of_failed rfl (fun other => ?_) fun other _ => ?_
    · rw [tables_next, hd]
    · rw [tables_next, hd]
  cases hfailure : d.failure d.issued with
  | some e =>
    rw [statement_fails hfailure]
    exact hfailed e
  | none =>
    cases hrow : dto.assign s with
    | none =>
      rw [statement_refused hfailure rfl]
      exact hfailed _
    | some row =>
      have hid : row.id = id := (id_of_assign hrow).trans hs
      obtain ⟨t', ht', hsaved, hinserted⟩ := saveSchedule_ok d.tables row []
        fun task htask => nomatch htask
      have htasks := tasksOf_saveSchedule (i := id) hinserted fun task htask => nomatch htask
      rw [statement_done hfailure ht']
      refine .of_done rfl ?_ fun other hother => ⟨?_, ?_⟩
      · rw [tables_put, htasks, hd]
        simp
      · rw [tables_put, htasks, hd]
        simp
      · rw [tables_put, schedule_save hsaved (by rwa [hid]), hd]

theorem replacesTasks_iff : ReplacesTasks c id dto ↔ UpdateWhen c id dto := by
  unfold ReplacesTasks UpdateWhen update
  rcases findById_cases c id with ⟨⟨e, hfind⟩, hstopped⟩ | ⟨s, hfind, hfailure, hschedule⟩
  · rw [bind_error hfind]
    refine iff_of_true (.of_failed rfl (fun _ => rfl) fun _ _ => rfl) fun tasks _ => ?_
    exact hstopped.elim (fun h => .inr (.inl h)) fun h => .inr (.inr (.inl h))
  · obtain ⟨-, hs⟩ := id_of_schedule hschedule
    rw [bind_ok hfind]
    cases htasks : dto.tasks.join with
    | none =>
      refine iff_of_true ?_ fun tasks h => nomatch h
      exact allOrNothing_of_untouched hs rfl
    | some tasks =>
      dsimp only
      cases hdelete : c.failure (c.issued + 1) with
      | some e =>
        rw [bind_error (statement_fails (c := c.next) hdelete)]
        refine iff_of_true (.of_failed rfl (fun _ => rfl) fun _ _ => rfl) fun tasks _ => ?_
        exact .inr (.inr (.inr (.inl (by simp))))
      | none =>
        obtain ⟨t', ht', hschedules, hdeleted⟩ := deleteTasks_ok c.tables id
        rw [bind_ok (statement_done (c := c.next) hdelete ht')]
        refine (allOrNothing_of_deleted (d := c.next.put t') hs hschedules hdeleted).trans ?_
        simp only [Option.some.injEq, forall_eq', hfailure, hschedule, ne_eq,
          not_true_eq_false, false_or, reduceCtorEq, Option.mem_def]
        exact Iff.rfl

end Update

end Replacement

/-! ## Eggs -/

namespace EggsService

/-- The row of an egg that is there can be saved: no column that is not nullable gets `null`, and
the egg it takes its script from exists. -/
def Acceptable (t : EggCatalog) (row : Option EggEntity) : Prop :=
  ∃ egg, row = some egg ∧ ∀ source ∈ egg.copyScriptFrom, ∃ e ∈ t.eggs, e.id = source

/-- An update of an egg replaces its variables or leaves them. -/
def ReplacesVariables (c : Connection EggCatalog HttpException) (id : String)
    (dto : UpdateEggDto) : Prop :=
  AllOrNothing EggCatalog.variablesOf EggCatalog.egg id
    (dto.eggVariables.join.map (·.map (EggVariableDto.create · id))) c (updateEgg id dto c)

/-- The property is missing, or there are no old variables, or the request stops before the
deletion, or it has a list (and not `null`) whose insert, if it takes one, goes through. -/
def UpdateEggWhen (c : Connection EggCatalog HttpException) (id : String) (dto : UpdateEggDto) :
    Prop :=
  ∀ given, dto.eggVariables = some given → c.tables.variablesOf id = [] ∨
    c.failure c.issued ≠ none ∨ c.tables.egg id = none ∨
    c.failure (c.issued + 1) ≠ none ∨
    (∀ egg ∈ c.tables.egg id, ¬ Acceptable c.tables (dto.data.assign egg)) ∨
    c.failure (c.issued + 2) ≠ none ∨
    ∃ list, given = some list ∧ (list = [] ∨ c.failure (c.issued + 3) = none)

/-! ### The update -/

section Update

variable {c d : Connection EggCatalog HttpException} {id : String} {dto : UpdateEggDto}
  {egg : EggEntity}

/-- The query that an update begins with, and what it does not get past. -/
theorem findEgg_cases (c : Connection EggCatalog HttpException) (id : String) :
    (∃ e, findEgg id c = (.error e, c.next)) ∧
        (c.failure c.issued ≠ none ∨ c.tables.egg id = none) ∨
      ∃ egg, findEgg id c = (.ok egg, c.next) ∧ c.failure c.issued = none ∧
        c.tables.egg id = some egg := by
  unfold findEgg
  cases hfailure : c.failure c.issued with
  | some e => exact .inl ⟨⟨e, bind_error (query_fails hfailure)⟩, .inl (by simp)⟩
  | none =>
    rw [bind_ok (query_done hfailure)]
    cases hegg : c.tables.egg id with
    | none => exact .inl ⟨⟨_, rfl⟩, .inr rfl⟩
    | some egg => exact .inr ⟨egg, rfl, rfl, rfl⟩

/-- A row that cannot be saved is refused. -/
theorem saveEgg_refused {t : EggCatalog} (hegg : egg ∈ t.eggs) {d : EggData}
    (h : ¬ Acceptable t (d.assign egg)) : ∃ e, EggCatalog.saveEgg (d.assign egg) t = .error e := by
  cases hrow : d.assign egg with
  | none => exact ⟨_, rfl⟩
  | some row =>
    refine ⟨.internal "violates foreign key constraint", dif_neg fun hconsistent => h ?_⟩
    refine ⟨row, hrow, fun source hsource => ?_⟩
    have hexists := (hconsistent.1 row (Table.mem_save.mpr (.inl rfl))).2 source hsource
    exact (exists_save hegg (assign_keeps hrow).1).mp hexists

/-- The save of the egg: nothing changes, or it goes through. -/
theorem saveEgg_cases (hegg : egg ∈ d.tables.eggs) (data : EggData) :
    (∃ e, statement (EggCatalog.saveEgg (data.assign egg)) d = (.error e, d.next)) ∧
        (d.failure d.issued ≠ none ∨ ¬ Acceptable d.tables (data.assign egg)) ∨
      ∃ t', statement (EggCatalog.saveEgg (data.assign egg)) d = (.ok (), d.put t') ∧
        (d.failure d.issued = none ∧ Acceptable d.tables (data.assign egg)) ∧
        (∃ e ∈ t'.eggs, e.id = egg.id) ∧
        (∀ other, other ≠ egg.id → t'.egg other = d.tables.egg other) ∧
        t'.eggVariables = d.tables.eggVariables := by
  cases hfailure : d.failure d.issued with
  | some e => exact .inl ⟨⟨e, statement_fails hfailure⟩, .inl (by simp)⟩
  | none =>
    by_cases hacceptable : Acceptable d.tables (data.assign egg)
    · obtain ⟨row, hrow, hsource⟩ := hacceptable
      obtain ⟨t', ht', heggs, hvariables⟩ := saveEgg_ok hegg hrow hsource
      have hid := (assign_keeps hrow).1
      refine .inr ⟨t', ?_, ⟨rfl, row, hrow, hsource⟩, ?_, fun other hother => ?_, hvariables⟩
      · rw [hrow]
        exact statement_done hfailure ht'
      · rw [heggs]
        exact (exists_save hegg hid).mpr ⟨egg, hegg, rfl⟩
      · exact egg_save heggs (by rwa [hid])
    · obtain ⟨e, he⟩ := saveEgg_refused hegg hacceptable
      exact .inl ⟨⟨e, statement_refused hfailure he⟩, .inr hacceptable⟩

/-- What is left once the old variables are deleted: they are replaced if there is a list and its
insert goes through, and lost if not. -/
theorem allOrNothing_of_deleted {given : Option (List EggVariableDto)}
    (hexists : ∃ e ∈ d.tables.eggs, e.id = id)
    (heggs : ∀ other, other ≠ id → d.tables.egg other = c.tables.egg other)
    (hdeleted : d.tables.eggVariables = c.tables.eggVariables.filter fun v => v.eggId ≠ id) :
    AllOrNothing EggCatalog.variablesOf EggCatalog.egg id
        (given.map (·.map (EggVariableDto.create · id))) c
        ((ofOption given (.internal "Cannot read properties of null (reading 'map')") >>=
          fun list => saveVariables (list.map fun v => v.create id) : EggAction Unit) d) ↔
      c.tables.variablesOf id = [] ∨
        ∃ list, given = some list ∧ (list = [] ∨ d.failure d.issued = none) := by
  have hvariables := variablesOf_deleteVariables hdeleted
  have hcleared : ∀ {d' : Connection EggCatalog HttpException} {e}, d'.tables = d.tables →
      (AllOrNothing EggCatalog.variablesOf EggCatalog.egg id
        (given.map (·.map (EggVariableDto.create · id))) c
        ((.error e, d') : Except HttpException Unit × _) ↔ c.tables.variablesOf id = []) := by
    intro d' e hd'
    refine allOrNothing_of_cleared rfl ?_ fun other hother => ⟨?_, ?_⟩
    · rw [hd', hvariables, if_pos rfl]
    · rw [hd', hvariables, if_neg hother]
    · rw [hd', heggs other hother]
  cases given with
  | none =>
    rw [show (ofOption none _ >>= _ : EggAction Unit) d = (.error _, d) from rfl, hcleared rfl]
    simp
  | some list =>
    rw [bind_ok (show (ofOption (some list) _ : EggAction _) d = (.ok list, d) from rfl),
      saveVariables]
    cases list with
    | nil =>
      refine iff_of_true (.of_done rfl ?_ fun other hother => ⟨?_, heggs other hother⟩) (by simp)
      · exact (hvariables id).trans (if_pos rfl)
      · exact (hvariables other).trans (if_neg hother)
    | cons v list =>
      rw [if_neg (by simp)]
      cases hfailure : d.failure d.issued with
      | some e =>
        rw [statement_fails hfailure, hcleared tables_next]
        simp
      | none =>
        have hrows : ∀ row ∈ (v :: list).map (EggVariableDto.create · id), row.eggId = id := by
          intro row hrow
          obtain ⟨dto, -, rfl⟩ := List.mem_map.mp hrow
          rfl
        obtain ⟨t', ht', hsame, hinserted⟩ := insertVariables_ok hexists hrows
        have hnew := variablesOf_insertVariables hinserted hrows
        rw [statement_done hfailure ht']
        refine iff_of_true (.of_done rfl ?_ fun other hother => ⟨?_, ?_⟩) (by simp)
        · rw [tables_put, hnew, if_pos rfl, hvariables, if_pos rfl, List.nil_append]
          rfl
        · rw [tables_put, hnew, if_neg hother, hvariables, if_neg hother, List.append_nil]
        · rw [tables_put, EggCatalog.egg, hsame]
          exact heggs other hother

theorem replacesVariables_iff : ReplacesVariables c id dto ↔ UpdateEggWhen c id dto := by
  unfold ReplacesVariables UpdateEggWhen updateEgg
  have hstopped : ∀ {d' : Connection EggCatalog HttpException} {e : HttpException},
      d'.tables = c.tables → AllOrNothing EggCatalog.variablesOf EggCatalog.egg id
        (dto.eggVariables.join.map (·.map (EggVariableDto.create · id))) c
        ((.error e, d') : Except HttpException Unit × _) := fun hd' =>
    .of_failed rfl (fun _ => by rw [hd']) fun _ _ => by rw [hd']
  rcases findEgg_cases c id with ⟨⟨e, hfind⟩, hnone⟩ | ⟨egg, hfind, hfailure, hfound⟩
  · rw [bind_error hfind]
    refine iff_of_true (hstopped rfl) fun given _ => ?_
    exact hnone.elim (fun h => .inr (.inl h)) fun h => .inr (.inr (.inl h))
  obtain ⟨hegg, hid⟩ := id_of_egg hfound
  rw [bind_ok hfind]
  rcases saveEgg_cases (d := c.next) hegg dto.data with
    ⟨⟨e, hsave⟩, hrefused⟩ | ⟨t', hsave, ⟨hgoes, hacceptable⟩, hexists, heggs, hvariables⟩
  · rw [bind_error hsave]
    refine iff_of_true (hstopped rfl) fun given _ => .inr (.inr (.inr ?_))
    refine hrefused.imp (fun h => h) fun h => .inl fun egg' hegg' => ?_
    cases hfound.symm.trans hegg'
    exact h
  rw [bind_ok hsave]
  subst hid
  have hsame : ∀ other, t'.variablesOf other = c.tables.variablesOf other := fun other => by
    rw [EggCatalog.variablesOf, hvariables]
    rfl
  cases hgiven : dto.eggVariables with
  | none =>
    refine iff_of_true (.of_done rfl (hsame egg.id) fun other hother => ?_) fun _ h => nomatch h
    exact ⟨hsame other, heggs other hother⟩
  | some given =>
    dsimp only
    cases hdelete : c.failure (c.issued + 2) with
    | some e =>
      rw [bind_error (statement_fails (c := c.next.put t') hdelete)]
      refine iff_of_true (.of_failed rfl hsame heggs) fun given _ => ?_
      exact .inr (.inr (.inr (.inr (.inr (.inl (by simp))))))
    | none =>
      obtain ⟨t'', ht'', hsame', hdeleted⟩ := deleteVariables_ok t' egg.id
      rw [bind_ok (statement_done (c := c.next.put t') hdelete ht'')]
      have hnot : ¬ ∀ egg' ∈ c.tables.egg egg.id, ¬ Acceptable c.tables (dto.data.assign egg') :=
        fun h => h egg hfound hacceptable
      refine (allOrNothing_of_deleted (d := (c.next.put t').put t'') (by rwa [tables_put, hsame'])
        (fun other hother => ?_) (hdeleted.trans (by rw [hvariables]; rfl))).trans ?_
      · exact (congrArg (Table.findOne · _) hsame').trans (heggs other hother)
      · have hfailure' : c.failure (c.issued + 1) = none := hgoes
        have hthere : ¬ c.tables.egg egg.id = none := by simp [hfound]
        simp only [Option.some.injEq, forall_eq', hfailure, hthere, hfailure', hnot, ne_eq,
          not_true_eq_false, false_or]
        exact Iff.rfl

end Update

end EggsService

/-! ## Both -/

/-- Replacing the variables of an egg, and replacing the tasks of a schedule, is all or nothing
exactly when no failure comes between the deletion and the insert. -/
theorem replaces_all_or_nothing_iff (c : Connection EggCatalog HttpException)
    (egg : UpdateEggDto) (c' : Connection Replacement.ScheduleCatalog HttpException)
    (schedule : Replacement.UpdateScheduleDto) (id : String) :
    (EggsService.ReplacesVariables c id egg ↔ EggsService.UpdateEggWhen c id egg) ∧
      (Replacement.ReplacesTasks c' id schedule ↔ Replacement.UpdateWhen c' id schedule) :=
  ⟨EggsService.replacesVariables_iff, Replacement.replacesTasks_iff⟩

section Fractional

open Replacement

/-- A schedule with one task, and a database that does not fail. -/
def oneTask : Connection ScheduleCatalog HttpException where
  tables :=
    { schedules := ⟨[⟨"s", "1", "nightly", "0", "4", "*", "*", "*", true⟩], by decide⟩
      tasks := [⟨"s", .command, 1, "save-all", 0⟩]
      consistent := by decide }
  issued := 0
  failure _ := none

/-- A request with a task in between two others. -/
def halfway : UpdateScheduleDto where
  name := none
  cronMinute := none
  cronHour := none
  cronDayOfMonth := none
  cronMonth := none
  cronDayOfWeek := none
  isActive := none
  tasks := some (some [⟨1 / 2, .command, "say hello", none⟩])

/-- The insert is refused, and the old task is gone. -/
theorem fractional_sequence_loses_tasks : ¬ ReplacesTasks oneTask "s" halfway := by
  intro h
  have hkept := h.failed (.internal "invalid input syntax for type integer") (by decide +kernel)
  revert hkept
  decide +kernel

end Fractional

end Panel
