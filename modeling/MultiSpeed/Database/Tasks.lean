import MultiSpeed.Database.Store

/-!
# Task statements

The functions of `internal/database/tasks.go`.  Each write has one lemma that
says what it does to the key map of `tasks` and that it leaves the other tables
alone.
-/

namespace MultiSpeed.Database

namespace Store

/-- The end of a write to `tasks`. -/
def writeTasks (s : Store) : Option TaskTable → Except StoreError Store
  | none => .error .constraint
  | some tasks => commit tasks s.routes s.results s.settings

/-- The tables that no statement on `tasks` touches. -/
structure SameExceptTasks (s s' : Store) : Prop where
  routes : s'.routes = s.routes
  results : s'.results = s.results
  settings : s'.settings = s.settings

theorem SameExceptTasks.refl (s : Store) : SameExceptTasks s s := ⟨rfl, rfl, rfl⟩

theorem SameExceptTasks.trans {s t u : Store} (h : SameExceptTasks s t)
    (h' : SameExceptTasks t u) : SameExceptTasks s u :=
  ⟨h'.routes.trans h.routes, h'.results.trans h.results, h'.settings.trans h.settings⟩

theorem SameExceptTasks.result? {s s' : Store} (h : SameExceptTasks s s') (id : String) :
    s'.result? id = s.result? id := by
  simp [Store.result?, h.results]

theorem SameExceptTasks.route? {s s' : Store} (h : SameExceptTasks s s') (id : String) :
    s'.route? id = s.route? id := by
  simp [Store.route?, h.routes]

theorem writeTasks_ok {s s' : Store} {tasks : Option TaskTable}
    (h : s.writeTasks tasks = .ok s') :
    tasks = some s'.tasks ∧ SameExceptTasks s s' := by
  cases tasks with
  | none => simp [writeTasks] at h
  | some tasks =>
      obtain ⟨htasks, hroutes, hresults, hsettings⟩ := commit_eq_ok_iff.mp h
      exact ⟨by rw [htasks], hroutes, hresults, hsettings⟩

/-- New task rows that keep all keys and refer to stored route profiles break
no foreign key. -/
theorem consistent_tasks (s : Store) {tasks : TaskTable}
    (hkeys : ∀ k, (s.tasks.find? k).isSome → (tasks.find? k).isSome)
    (hroute : ∀ k task, tasks.find? k = some task → ∀ id ∈ task.routeProfileID,
      (s.routes.find? id).isSome) :
    consistent tasks s.routes s.results s.settings = true := by
  obtain ⟨_, hresult, hresultRoute, hsettings⟩ := consistent_iff.mp s.isConsistent
  exact consistent_iff.mpr
    ⟨hroute, fun k result h ↦ hkeys _ (hresult k result h), hresultRoute, hsettings⟩

/-! ## Reads -/

/-- `WHERE id=? AND deleted_at IS NULL`. -/
def getTask (s : Store) (id : String) : Except StoreError Task :=
  match s.task? id with
  | some task => if task.live then .ok task else .error .notFound
  | none => .error .notFound

theorem getTask_eq_ok_iff {s : Store} {id : String} {task : Task} :
    s.getTask id = .ok task ↔ s.task? id = some task ∧ task.live = true := by
  unfold getTask
  cases s.task? id with
  | none => simp
  | some row =>
      by_cases hlive : row.live
      · simp only [hlive, if_true, Except.ok.injEq, Option.some.injEq]
        exact ⟨fun h ↦ ⟨h, h ▸ hlive⟩, And.left⟩
      · simp only [hlive, Bool.false_eq_true, if_false, Option.some.injEq, reduceCtorEq,
          false_iff]
        rintro ⟨rfl, h⟩
        exact hlive h

theorem getTask_id {s : Store} {id : String} {task : Task} (h : s.getTask id = .ok task) :
    task.id = id := task?_id (getTask_eq_ok_iff.mp h).1

/-- `COLLATE NOCASE` folds the 26 ASCII letters. -/
def nocase (name : Text) : Text :=
  name.map fun b ↦ if 65 ≤ b ∧ b ≤ 90 then b + 32 else b

/-- `ORDER BY name COLLATE NOCASE, id`. -/
def taskOrder (first second : Task) : Prop :=
  nocase first.name < nocase second.name ∨
    nocase first.name = nocase second.name ∧ first.id ≤ second.id

instance : DecidableRel taskOrder := fun first second ↦ by
  unfold taskOrder
  infer_instance

/-- The cap on a list: one row more than the maximum is read. -/
def capped {α : Type} (items : List α) : Except StoreError (List α) :=
  if 1000 < items.length then .error .tooMany else .ok items

def listTasks (s : Store) : Except StoreError (List Task) :=
  capped ((s.tasks.rows.filter Task.live).insertionSort taskOrder)

def listEnabledTasks (s : Store) : Except StoreError (List Task) :=
  capped ((s.tasks.rows.filter fun task ↦ task.enabled && task.live).insertionSort
    fun first second ↦ first.id ≤ second.id)

theorem capped_ok {α : Type} {items items' : List α} (h : capped items = .ok items') :
    items' = items := by
  unfold capped at h
  split at h
  · cases h
  · exact (Except.ok.inj h).symm

theorem mem_listTasks {s : Store} {items : List Task} (h : s.listTasks = .ok items)
    {task : Task} : task ∈ items ↔ s.task? task.id = some task ∧ task.live = true := by
  rw [capped_ok h, (List.perm_insertionSort _ _).mem_iff, List.mem_filter,
    Table.mem_rows_iff]
  rfl

theorem mem_listEnabledTasks {s : Store} {items : List Task}
    (h : s.listEnabledTasks = .ok items) {task : Task} :
    task ∈ items ↔
      s.task? task.id = some task ∧ task.enabled = true ∧ task.live = true := by
  rw [capped_ok h, (List.perm_insertionSort _ _).mem_iff, List.mem_filter,
    Table.mem_rows_iff, Bool.and_eq_true]
  rfl

/-- Some result of the task is queued, validating or running. -/
def taskHasActiveResults (s : Store) (id : String) : Bool :=
  s.results.rows.any fun result ↦ result.taskID = id && result.status.active

theorem taskHasActiveResults_iff {s : Store} {id : String} :
    s.taskHasActiveResults id = true ↔
      ∃ k result, s.result? k = some result ∧ result.taskID = id ∧
        result.status.active = true := by
  unfold taskHasActiveResults
  rw [Table.any_iff]
  simp [Store.result?]

/-! ## Writes -/

/-- The identity and the times `CreateTask` fills in; `uuid` and `now` are the
answers of `uuid.NewString` and `time.Now`. -/
def newTask (task : Task) (uuid : String) (now : Time) : Task :=
  { task with
    id := if task.id = "" then uuid else task.id
    createdAt := now
    updatedAt := now }

def createTask (s : Store) (task : Task) (uuid : String) (now : Time) :
    Except StoreError (Task × Store) :=
  if !(encodableMap task.customServerDefinition && encodableMap task.providerOptions) then
    .error .encoding
  else
    match s.writeTasks
        (s.tasks.insert { newTask task uuid now with deletedAt := none }) with
    | .error e => .error e
    | .ok s' => .ok (newTask task uuid now, s')

/-- The columns `UpdateTask` sets. -/
def assignTask (task : Task) (now : Time) (row : Task) : Task :=
  { row with
    name := task.name
    description := task.description
    enabled := task.enabled
    provider := task.provider
    cronExpression := task.cronExpression
    timezone := task.timezone
    randomJitterSeconds := task.randomJitterSeconds
    serverSelectionMode := task.serverSelectionMode
    serverID := task.serverID
    serverURL := task.serverURL
    customServerDefinition := task.customServerDefinition
    interfaceName := task.interfaceName
    sourceIP := task.sourceIP
    ipFamily := task.ipFamily
    routeProfileID := task.routeProfileID
    timeoutSeconds := task.timeoutSeconds
    providerOptions := task.providerOptions
    preventOverlap := task.preventOverlap
    routeValidation := task.routeValidation
    updatedAt := now }

/-- The columns `UpdateTaskSchedule` sets. -/
def assignSchedule (last next : Option Time) (now : Time) (row : Task) : Task :=
  { row with lastScheduledAt := last, nextScheduledAt := next, updatedAt := now }

/-- The columns `DeleteTask` sets. -/
def assignDeleted (now : Time) (row : Task) : Task :=
  { row with enabled := false, deletedAt := some now, updatedAt := now }

theorem assignDeleted_id (now : Time) (row : Task) : (assignDeleted now row).id = row.id := rfl

@[simp] theorem assignDeleted_live (now : Time) (row : Task) :
    (assignDeleted now row).live = false := rfl

/-- `UPDATE tasks SET f WHERE id=? AND deleted_at IS NULL`, where no affected
row is reported as not found. -/
def updateLiveTask (s : Store) (id : String) (f : Task → Task)
    (hf : ∀ task, (f task).id = task.id) : Except StoreError Store :=
  match s.getTask id with
  | .error e => .error e
  | .ok _ => s.writeTasks (s.tasks.update (fun row ↦ row.id = id && row.live) f hf)

def updateTask (s : Store) (task : Task) (now : Time) : Except StoreError Store :=
  if !(encodableMap task.customServerDefinition && encodableMap task.providerOptions) then
    .error .encoding
  else s.updateLiveTask task.id (assignTask task now) fun _ ↦ rfl

def updateTaskSchedule (s : Store) (id : String) (last next : Option Time) (now : Time) :
    Except StoreError Store :=
  s.updateLiveTask id (assignSchedule last next now) fun _ ↦ rfl

/-- The conditional `UPDATE` of `DeleteTask`; `notFound` when no row is affected. -/
def markTaskDeleted (s : Store) (id : String) (now : Time) : Except StoreError Store :=
  if s.taskHasActiveResults id then .error .notFound
  else s.updateLiveTask id (assignDeleted now) fun _ ↦ rfl

/-- The second query of `DeleteTask`, which names the reason. -/
def deleteTaskReason (s : Store) (id : String) : StoreError :=
  match s.getTask id with
  | .ok _ => if s.taskHasActiveResults id then .active else .notFound
  | .error _ => .notFound

def deleteTask (s : Store) (id : String) (now : Time) : Except StoreError Store :=
  match s.markTaskDeleted id now with
  | .ok s' => .ok s'
  | .error .notFound => .error (s.deleteTaskReason id)
  | .error e => .error e

/-! ## What the writes do -/

theorem createTask_ok {s s' : Store} {task created : Task} {uuid : String} {now : Time}
    (h : s.createTask task uuid now = .ok (created, s')) :
    created = newTask task uuid now ∧
      s.task? created.id = none ∧
      (∀ k, s'.task? k =
        if created.id = k then some { created with deletedAt := none } else s.task? k) ∧
      SameExceptTasks s s' := by
  unfold createTask at h
  split at h
  · cases h
  · split at h
    · cases h
    · rename_i u hu
      cases h
      obtain ⟨hinsert, hsame⟩ := writeTasks_ok hu
      exact ⟨rfl, Table.find?_none_of_insert hinsert, Table.find?_insert hinsert, hsame⟩

theorem updateLiveTask_ok {s s' : Store} {id : String} {f : Task → Task}
    {hf : ∀ task, (f task).id = task.id} (h : s.updateLiveTask id f hf = .ok s') :
    ∃ row, s.task? id = some row ∧ row.live = true ∧
      (∀ k, s'.task? k = if id = k then some (f row) else s.task? k) ∧
      SameExceptTasks s s' := by
  unfold updateLiveTask at h
  split at h
  · cases h
  · rename_i row hrow
    obtain ⟨hfind, hlive⟩ := getTask_eq_ok_iff.mp hrow
    obtain ⟨hupdate, hsame⟩ := writeTasks_ok h
    refine ⟨row, hfind, hlive, fun k ↦ ?_, hsame⟩
    have hk := Table.find?_update hupdate k
    by_cases hid : id = k
    · subst hid
      have hrowid := task?_id hfind
      rw [if_pos rfl]
      change s'.tasks.find? id = _
      rw [hk]
      change (s.task? id).map _ = _
      rw [hfind]
      simp [hrowid, hlive]
    · rw [if_neg hid]
      change s'.tasks.find? k = _
      rw [hk]
      change (s.task? k).map _ = _
      cases hother : s.task? k with
      | none => rfl
      | some other =>
          have hotherid := task?_id hother
          have hne : other.id ≠ id := fun heq ↦ hid (heq.symm.trans hotherid)
          simp [hne]

theorem updateLiveTask_isOk {s : Store} {id : String} {f : Task → Task}
    {hf : ∀ task, (f task).id = task.id} {row : Task} (hrow : s.task? id = some row)
    (hlive : row.live = true) (hcheck : taskCheck (f row) = true)
    (hroute : ∀ p ∈ (f row).routeProfileID, (s.route? p).isSome) :
    ∃ s', s.updateLiveTask id f hf = .ok s' := by
  have hwhere : ∀ k q, s.tasks.find? k = some q →
      (decide (q.id = id) && q.live) = true → q = row := by
    intro k q hq hp
    have hqid : q.id = id := of_decide_eq_true ((Bool.and_eq_true _ _).mp hp).1
    have hqk : q.id = k := task?_id hq
    have hqrow : s.task? id = some q := by
      rw [← hqid, hqk]
      exact hq
    exact Option.some.inj (hqrow.symm.trans hrow)
  obtain ⟨tasks, htasks⟩ :=
    Table.update_isSome (t := s.tasks) (p := fun row ↦ row.id = id && row.live) (f := f)
      hf (by
        intro k q hq hp
        obtain rfl := hwhere k q hq hp
        exact hcheck)
  have hfind := Table.find?_update htasks
  have hconsistent : consistent tasks s.routes s.results s.settings = true := by
    apply s.consistent_tasks
    · intro k hk
      rw [hfind]
      simpa using hk
    · intro k task htask p hp
      rw [hfind] at htask
      obtain ⟨q, hq, hqtask⟩ := Option.map_eq_some_iff.mp htask
      by_cases hmatch : (decide (q.id = id) && q.live) = true
      · rw [if_pos hmatch] at hqtask
        obtain rfl := hwhere k q hq hmatch
        exact hroute p (hqtask ▸ hp)
      · rw [if_neg hmatch] at hqtask
        exact (consistent_iff.mp s.isConsistent).1 k q hq p (hqtask ▸ hp)
  have hget : s.getTask id = .ok row := getTask_eq_ok_iff.mpr ⟨hrow, hlive⟩
  unfold updateLiveTask
  rw [hget]
  simp only [htasks, writeTasks]
  exact commit_of_consistent hconsistent

/-- `UpdateTaskSchedule` writes a live row's schedule and can only fail when
there is none. -/
theorem updateTaskSchedule_isOk {s : Store} {id : String} (last next : Option Time)
    (now : Time) {row : Task} (hrow : s.task? id = some row) (hlive : row.live = true) :
    ∃ s', s.updateTaskSchedule id last next now = .ok s' :=
  updateLiveTask_isOk hrow hlive (Table.check_of_find? hrow)
    fun p hp ↦ (consistent_iff.mp s.isConsistent).1 id row hrow p hp

theorem updateTask_ok {s s' : Store} {task : Task} {now : Time}
    (h : s.updateTask task now = .ok s') :
    ∃ row, s.task? task.id = some row ∧ row.live = true ∧
      (∀ k, s'.task? k =
        if task.id = k then some (assignTask task now row) else s.task? k) ∧
      SameExceptTasks s s' := by
  unfold updateTask at h
  split at h
  · cases h
  · exact updateLiveTask_ok h

theorem updateTaskSchedule_ok {s s' : Store} {id : String} {last next : Option Time}
    {now : Time} (h : s.updateTaskSchedule id last next now = .ok s') :
    ∃ row, s.task? id = some row ∧ row.live = true ∧
      (∀ k, s'.task? k =
        if id = k then some (assignSchedule last next now row) else s.task? k) ∧
      SameExceptTasks s s' :=
  updateLiveTask_ok h

theorem markTaskDeleted_ok {s s' : Store} {id : String} {now : Time}
    (h : s.markTaskDeleted id now = .ok s') :
    s.taskHasActiveResults id = false ∧
      ∃ row, s.task? id = some row ∧ row.live = true ∧
        (∀ k, s'.task? k =
          if id = k then some (assignDeleted now row) else s.task? k) ∧
        SameExceptTasks s s' := by
  unfold markTaskDeleted at h
  split at h
  · cases h
  · rename_i hactive
    exact ⟨by simpa using hactive, updateLiveTask_ok h⟩

theorem deleteTask_eq_ok_iff {s s' : Store} {id : String} {now : Time} :
    s.deleteTask id now = .ok s' ↔ s.markTaskDeleted id now = .ok s' := by
  unfold deleteTask
  cases s.markTaskDeleted id now with
  | ok s' => simp
  | error e => cases e <;> simp

theorem markTaskDeleted_isOk {s : Store} {id : String} {now : Time} {row : Task}
    (hrow : s.task? id = some row) (hlive : row.live = true)
    (hactive : s.taskHasActiveResults id = false) :
    ∃ s', s.markTaskDeleted id now = .ok s' := by
  unfold markTaskDeleted
  rw [if_neg (by simp [hactive])]
  exact updateLiveTask_isOk hrow hlive (Table.check_of_find? hrow)
    fun p hp ↦ (consistent_iff.mp s.isConsistent).1 id row hrow p hp

end Store

end MultiSpeed.Database
