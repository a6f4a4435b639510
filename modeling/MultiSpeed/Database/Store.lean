import MultiSpeed.Lib.Table
import MultiSpeed.Models
import Mathlib.Data.List.Sort

/-!
# The SQLite store

The four tables of `internal/migrations` with their constraints.  A `Store` is
a committed database state: primary keys and row checks are part of the tables,
the foreign keys and the checks of the settings row are a field of the store.
Every write statement builds the new tables and then goes through `commit`,
which refuses a state that breaks a constraint.
-/

namespace MultiSpeed.Database

/-- `length(name)` of SQLite: the characters before the first NUL, where a byte
from `0xC0` on takes the continuation bytes after it with it. -/
def sqliteLength (name : Text) : ℕ := go false name
where
  go (afterLead : Bool) : Text → ℕ
    | [] => 0
    | b :: rest =>
        if b = 0 then 0
        else if afterLead && decide (0x80 ≤ b ∧ b < 0xC0) then go true rest
        else go (decide (0xC0 ≤ b)) rest + 1

/-- The check constraints of `tasks`. -/
def taskCheck (task : Task) : Bool :=
  decide (1 ≤ sqliteLength task.name ∧ sqliteLength task.name ≤ 120) &&
    decide (task.provider = .ookla ∨ task.provider = .librespeed ∨
      task.provider = .cloudflare) &&
    decide (0 ≤ task.randomJitterSeconds ∧ task.randomJitterSeconds ≤ 3600) &&
    decide (task.ipFamily = "auto" ∨ task.ipFamily = "ipv4" ∨ task.ipFamily = "ipv6") &&
    decide (5 ≤ task.timeoutSeconds ∧ task.timeoutSeconds ≤ 3600) &&
    decide (task.routeValidation = "required" ∨ task.routeValidation = "interface-only")

/-- The check constraint of `route_profiles`. -/
def routeCheck (profile : RouteProfile) : Bool :=
  decide (1 ≤ sqliteLength (utf8 profile.name) ∧ sqliteLength (utf8 profile.name) ≤ 120)

/-- The check constraints of `settings`. -/
def settingsCheck (settings : Settings) : Bool :=
  decide (1 ≤ settings.globalConcurrency ∧ settings.globalConcurrency ≤ 16) &&
    decide (settings.retentionMode = "forever" ∨ settings.retentionMode = "days" ∨
      settings.retentionMode = "months") &&
    decide (0 ≤ settings.retentionValue) &&
    decide (5 ≤ settings.interfaceRefreshInterval ∧
      settings.interfaceRefreshInterval ≤ 3600) &&
    decide (5 ≤ settings.defaultTaskTimeout ∧ settings.defaultTaskTimeout ≤ 3600)

def taskSchema : Schema Task String := ⟨Task.id, taskCheck⟩

def routeSchema : Schema RouteProfile String := ⟨RouteProfile.id, routeCheck⟩

/-- The checks of `results` (`status`, `trigger_type`, `tls_verification_disabled`)
are part of the field types. -/
def resultSchema : Schema Result String := ⟨Result.id, fun _ ↦ true⟩

abbrev TaskTable := Table taskSchema
abbrev RouteTable := Table routeSchema
abbrev ResultTable := Table resultSchema

@[simp] theorem taskSchema_key (task : Task) : taskSchema.key task = task.id := rfl
@[simp] theorem routeSchema_key (profile : RouteProfile) :
    routeSchema.key profile = profile.id := rfl
@[simp] theorem resultSchema_key (result : Result) : resultSchema.key result = result.id := rfl
@[simp] theorem taskSchema_check (task : Task) : taskSchema.check task = taskCheck task := rfl
@[simp] theorem resultSchema_check (result : Result) : resultSchema.check result = true := rfl

/-- The foreign keys (`foreign_keys(1)`) and the checks of the settings row. -/
def consistent (tasks : TaskTable) (routes : RouteTable) (results : ResultTable)
    (settings : Settings) : Bool :=
  tasks.rows.all (fun task ↦ task.routeProfileID.all fun id ↦ (routes.find? id).isSome) &&
    results.rows.all (fun result ↦ (tasks.find? result.taskID).isSome) &&
    results.rows.all (fun result ↦
      result.routeProfileID.all fun id ↦ (routes.find? id).isSome) &&
    settingsCheck settings

/-- A committed state of the database. -/
structure Store where
  tasks : TaskTable
  routes : RouteTable
  results : ResultTable
  settings : Settings
  isConsistent : consistent tasks routes results settings = true

inductive StoreError where
  | notFound
  | active
  | inUse
  /-- A constraint or trigger of the schema aborted the statement. -/
  | constraint
  /-- `json.Marshal` failed. -/
  | encoding
  /-- A list exceeds the maximum of 1000 items. -/
  | tooMany
  /-- A batch argument is out of range. -/
  | badBatch
  /-- The call was not served: its context was done or the database failed. -/
  | unavailable
  deriving DecidableEq, Repr

/-- A call into the store, which may not be served. -/
def serve {α : Type} (served : Bool) (answer : Except StoreError α) : Except StoreError α :=
  if served then answer else .error .unavailable

theorem serve_eq_ok_iff {α : Type} {served : Bool} {answer : Except StoreError α} {a : α} :
    serve served answer = .ok a ↔ served = true ∧ answer = .ok a := by
  unfold serve
  cases served <;> simp

/-- The end of a write: the new tables become the committed state unless a
constraint across tables is broken. -/
def commit (tasks : TaskTable) (routes : RouteTable) (results : ResultTable)
    (settings : Settings) : Except StoreError Store :=
  if h : consistent tasks routes results settings = true then
    .ok ⟨tasks, routes, results, settings, h⟩
  else .error .constraint

theorem commit_eq_ok_iff {tasks : TaskTable} {routes : RouteTable} {results : ResultTable}
    {settings : Settings} {s : Store} :
    commit tasks routes results settings = .ok s ↔
      s.tasks = tasks ∧ s.routes = routes ∧ s.results = results ∧ s.settings = settings := by
  unfold commit
  constructor
  · intro h
    split at h
    · cases h
      exact ⟨rfl, rfl, rfl, rfl⟩
    · cases h
  · rintro ⟨rfl, rfl, rfl, rfl⟩
    rw [dif_pos s.isConsistent]

theorem commit_of_consistent {tasks : TaskTable} {routes : RouteTable}
    {results : ResultTable} {settings : Settings}
    (h : consistent tasks routes results settings = true) :
    ∃ s, commit tasks routes results settings = .ok s := by
  unfold commit
  rw [dif_pos h]
  exact ⟨_, rfl⟩

namespace Store

/-- The row of a task, deleted or not. -/
def task? (s : Store) (id : String) : Option Task := s.tasks.find? id

/-- The row of a route profile, deleted or not. -/
def route? (s : Store) (id : String) : Option RouteProfile := s.routes.find? id

/-- The row of a result. -/
def result? (s : Store) (id : String) : Option Result := s.results.find? id

theorem task?_id {s : Store} {id : String} {task : Task} (h : s.task? id = some task) :
    task.id = id := Table.key_of_find? h

theorem route?_id {s : Store} {id : String} {profile : RouteProfile}
    (h : s.route? id = some profile) : profile.id = id := Table.key_of_find? h

theorem result?_id {s : Store} {id : String} {result : Result}
    (h : s.result? id = some result) : result.id = id := Table.key_of_find? h

/-- The foreign keys, read through the key maps. -/
theorem consistent_iff {tasks : TaskTable} {routes : RouteTable} {results : ResultTable}
    {settings : Settings} :
    consistent tasks routes results settings = true ↔
      (∀ k task, tasks.find? k = some task → ∀ id ∈ task.routeProfileID,
        (routes.find? id).isSome) ∧
      (∀ k result, results.find? k = some result → (tasks.find? result.taskID).isSome) ∧
      (∀ k result, results.find? k = some result → ∀ id ∈ result.routeProfileID,
        (routes.find? id).isSome) ∧
      settingsCheck settings = true := by
  simp only [consistent, Bool.and_eq_true, List.all_eq_true, Option.all_eq_true,
    and_assoc]
  constructor
  · rintro ⟨htask, hresult, hroute, hsettings⟩
    exact ⟨fun k task h ↦ htask task (Table.mem_of_find? h),
      fun k result h ↦ hresult result (Table.mem_of_find? h),
      fun k result h ↦ hroute result (Table.mem_of_find? h), hsettings⟩
  · rintro ⟨htask, hresult, hroute, hsettings⟩
    exact ⟨fun task h ↦ htask _ task (Table.find?_of_mem h),
      fun result h ↦ hresult _ result (Table.find?_of_mem h),
      fun result h ↦ hroute _ result (Table.find?_of_mem h), hsettings⟩

theorem task?_of_result? (s : Store) {id : String} {result : Result}
    (h : s.result? id = some result) : ∃ task, s.task? result.taskID = some task :=
  Option.isSome_iff_exists.mp ((consistent_iff.mp s.isConsistent).2.1 id result h)

/-- `GetSettings`, before the acknowledgement is compared with the release's
review marker. -/
def getSettings (s : Store) : Settings := s.settings

/-- `SELECT COUNT(*) FROM results WHERE status IN (...)` is positive. -/
def hasActive (s : Store) : Bool := s.results.rows.any fun result ↦ result.status.active

end Store

/-- The row `INSERT INTO settings(singleton) VALUES (1)` leaves. -/
def migratedSettings : Settings where
  displayUnits := "bits"
  defaultTimezone := "UTC"
  globalConcurrency := 1
  allowSeparateWANConcurrency := false
  retentionMode := "forever"
  retentionValue := 0
  defaultChartRange := "30d"
  interfaceRefreshInterval := 30
  defaultTaskTimeout := 120
  databaseMaintenanceSchedule := "0 3 * * 0"
  ooklaEULAAccepted := false
  ooklaEULAAcceptedAt := none
  ooklaEULAVersion := none

/-- The database the migrations create. -/
def migrated : Store where
  tasks := Table.empty
  routes := Table.empty
  results := Table.empty
  settings := migratedSettings
  isConsistent := by decide

end MultiSpeed.Database
