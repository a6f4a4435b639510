import MultiSpeed.Database.Results

/-!
# Reading and replacing the configuration

`Configuration` and `ReplaceConfiguration` of
`internal/database/configuration.go`.  A replacement is one transaction: the
settings row, an upsert per listed profile and task, and a retirement of every
live row that is not listed.  The fold over the listed tasks is described row
by row: `importedTask` is what the listed tasks with one identity make of the
row stored under it.
-/

namespace MultiSpeed.Database

open Store

structure ConfigurationSnapshot where
  settings : Settings
  routeProfiles : List RouteProfile
  tasks : List Task

/-! ## Columns -/

/-- The ten portable settings. -/
def assignSettings (settings row : Settings) : Settings :=
  { row with
    displayUnits := settings.displayUnits
    defaultTimezone := settings.defaultTimezone
    globalConcurrency := settings.globalConcurrency
    allowSeparateWANConcurrency := settings.allowSeparateWANConcurrency
    retentionMode := settings.retentionMode
    retentionValue := settings.retentionValue
    defaultChartRange := settings.defaultChartRange
    interfaceRefreshInterval := settings.interfaceRefreshInterval
    defaultTaskTimeout := settings.defaultTaskTimeout
    databaseMaintenanceSchedule := settings.databaseMaintenanceSchedule }

/-- The values a listed profile is inserted with. -/
def insertedRoute (profile : RouteProfile) (now : Time) : RouteProfile :=
  { profile with
    createdAt := now
    updatedAt := now
    lastValidationAt := none
    lastValidationSucceeded := none
    lastValidationSnapshot := some []
    deletedAt := none }

/-- The columns a listed profile sets on the row that has its identity. -/
def assignImportedRoute (profile : RouteProfile) (now : Time) (row : RouteProfile) :
    RouteProfile :=
  { row with
    name := profile.name
    description := profile.description
    interfaceName := profile.interfaceName
    sourceIP := profile.sourceIP
    expectedGateway := profile.expectedGateway
    expectedRoutingTable := profile.expectedRoutingTable
    validationTarget := profile.validationTarget
    notes := profile.notes
    updatedAt := now
    lastValidationAt := none
    lastValidationSucceeded := none
    lastValidationSnapshot := some []
    deletedAt := none }

theorem assignImportedRoute_id (profile : RouteProfile) (now : Time) (row : RouteProfile) :
    (assignImportedRoute profile now row).id = row.id := rfl

/-- The values a listed task is inserted with. -/
def insertedTask (task : Task) (now : Time) : Task :=
  { task with
    createdAt := now
    updatedAt := now
    lastScheduledAt := none
    nextScheduledAt := none
    deletedAt := none }

/-- The columns a listed task sets on the row that has its identity. -/
def assignImportedTask (task : Task) (now : Time) (row : Task) : Task :=
  { assignTask task now row with deletedAt := none }

theorem assignImportedTask_id (task : Task) (now : Time) (row : Task) :
    (assignImportedTask task now row).id = row.id := rfl

/-- The columns the retirement of a profile sets. -/
def assignRetiredRoute (now : Time) (row : RouteProfile) : RouteProfile :=
  { row with updatedAt := now, deletedAt := some now }

theorem assignRetiredRoute_id (now : Time) (row : RouteProfile) :
    (assignRetiredRoute now row).id = row.id := rfl

@[simp] theorem assignRetiredRoute_live (now : Time) (row : RouteProfile) :
    (assignRetiredRoute now row).live = false := rfl

namespace Store

/-! ## Reads -/

def getRouteProfile (s : Store) (id : String) : Except StoreError RouteProfile :=
  match s.route? id with
  | some profile => if profile.live then .ok profile else .error .notFound
  | none => .error .notFound

theorem getRouteProfile_eq_ok_iff {s : Store} {id : String} {profile : RouteProfile} :
    s.getRouteProfile id = .ok profile ↔
      s.route? id = some profile ∧ profile.live = true := by
  unfold getRouteProfile
  cases s.route? id with
  | none => simp
  | some row =>
      by_cases hlive : row.live
      · simp only [hlive, if_true, Except.ok.injEq, Option.some.injEq]
        exact ⟨fun h ↦ ⟨h, h ▸ hlive⟩, And.left⟩
      · simp only [hlive, Bool.false_eq_true, if_false, Option.some.injEq, reduceCtorEq,
          false_iff]
        rintro ⟨rfl, h⟩
        exact hlive h

/-- `ORDER BY name COLLATE NOCASE, id`. -/
def routeOrder (first second : RouteProfile) : Prop :=
  nocase (utf8 first.name) < nocase (utf8 second.name) ∨
    nocase (utf8 first.name) = nocase (utf8 second.name) ∧ first.id ≤ second.id

instance : DecidableRel routeOrder := fun first second ↦ by
  unfold routeOrder
  infer_instance

def listConfigurationRoutes (s : Store) : Except StoreError (List RouteProfile) :=
  capped ((s.routes.rows.filter RouteProfile.live).insertionSort routeOrder)

/-- `Configuration`: one read-only transaction. -/
def configuration (s : Store) : Except StoreError ConfigurationSnapshot :=
  match s.listTasks with
  | .error e => .error e
  | .ok tasks =>
      match s.listConfigurationRoutes with
      | .error e => .error e
      | .ok routes => .ok ⟨s.getSettings, routes, tasks⟩

theorem configuration_tasks {s : Store} {snapshot : ConfigurationSnapshot}
    (h : s.configuration = .ok snapshot) : s.listTasks = .ok snapshot.tasks := by
  unfold configuration at h
  split at h
  · cases h
  · rename_i tasks htasks
    split at h
    · cases h
    · cases h
      exact htasks

def liveTaskIDs (s : Store) : List String :=
  ((s.tasks.rows.filter Task.live).map Task.id).insertionSort (· ≤ ·)

def liveRouteIDs (s : Store) : List String :=
  ((s.routes.rows.filter RouteProfile.live).map RouteProfile.id).insertionSort (· ≤ ·)

theorem mem_liveTaskIDs {s : Store} {id : String} :
    id ∈ s.liveTaskIDs ↔ ∃ row, s.task? id = some row ∧ row.live = true := by
  unfold liveTaskIDs
  rw [(List.perm_insertionSort _ _).mem_iff]
  exact Table.mem_filter_keys_iff (t := s.tasks)

theorem mem_liveRouteIDs {s : Store} {id : String} :
    id ∈ s.liveRouteIDs ↔ ∃ row, s.route? id = some row ∧ row.live = true := by
  unfold liveRouteIDs
  rw [(List.perm_insertionSort _ _).mem_iff]
  exact Table.mem_filter_keys_iff (t := s.routes)

end Store

/-! ## The statements of a replacement -/

def upsertRoutes (now : Time) : List RouteProfile → RouteTable → Option RouteTable :=
  Table.upsertAll (insertedRoute · now) (assignImportedRoute · now) fun _ _ ↦ rfl

def upsertTasks (now : Time) : List Task → TaskTable → Option TaskTable :=
  Table.upsertAll (insertedTask · now) (assignImportedTask · now) fun _ _ ↦ rfl

/-- The loop over the live identities that were not imported. -/
def retireTasks (now : Time) (imported : List String) :
    List String → TaskTable → Option TaskTable :=
  Table.retireAll Task.live (assignDeleted now) (fun _ ↦ rfl) imported

def retireRoutes (now : Time) (imported : List String) :
    List String → RouteTable → Option RouteTable :=
  Table.retireAll RouteProfile.live (assignRetiredRoute now) (fun _ ↦ rfl) imported

/-- The task statements of a replacement. -/
def replaceTasks (s : Store) (tasks : List Task) (now : Time) : Option TaskTable :=
  match upsertTasks now tasks s.tasks with
  | none => none
  | some table => retireTasks now (tasks.map Task.id) s.liveTaskIDs table

/-- The profile statements of a replacement. -/
def replaceRoutes (s : Store) (routes : List RouteProfile) (now : Time) :
    Option RouteTable :=
  match upsertRoutes now routes s.routes with
  | none => none
  | some table => retireRoutes now (routes.map RouteProfile.id) s.liveRouteIDs table

/-- `ReplaceConfiguration`: one transaction, rolled back by any failure. -/
def Store.replaceConfiguration (s : Store) (settings : Settings)
    (routes : List RouteProfile) (tasks : List Task) (now : Time) :
    Except StoreError Store :=
  if !(tasks.all fun task ↦
      encodableMap task.customServerDefinition && encodableMap task.providerOptions) then
    .error .encoding
  else if s.hasActive then .error .active
  else
    match replaceRoutes s routes now, replaceTasks s tasks now with
    | some routes, some tasks =>
        commit tasks routes s.results (assignSettings settings s.settings)
    | _, _ => .error .constraint

/-! ## Row by row -/

/-- What one listed task makes of the row stored under its identity. -/
def importTaskRow (task : Task) (now : Time) : Option Task → Task :=
  Table.upserted (insertedTask · now) (assignImportedTask · now) task

/-- What the listed tasks with identity `k` make of the row stored under `k`. -/
def importedTask (now : Time) (k : String) : List Task → Option Task → Option Task :=
  Table.upsertedAll taskSchema (insertedTask · now) (assignImportedTask · now) k

/-- What one listed profile makes of the row stored under its identity. -/
def importRouteRow (profile : RouteProfile) (now : Time) : Option RouteProfile → RouteProfile :=
  Table.upserted (insertedRoute · now) (assignImportedRoute · now) profile

def importedRoute (now : Time) (k : String) :
    List RouteProfile → Option RouteProfile → Option RouteProfile :=
  Table.upsertedAll routeSchema (insertedRoute · now) (assignImportedRoute · now) k

/-- A row that is not listed is retired when it was live and kept otherwise. -/
def retiredTask (now : Time) : Task → Task := Table.retired Task.live (assignDeleted now)

def retiredRoute (now : Time) : RouteProfile → RouteProfile :=
  Table.retired RouteProfile.live (assignRetiredRoute now)

/-! ## The effect of a replacement -/

theorem importedTask_of_nodup {now : Time} {task : Task} {tasks : List Task}
    (hnd : (tasks.map Task.id).Nodup) (hmem : task ∈ tasks) (row : Option Task) :
    importedTask now task.id tasks row = some (importTaskRow task now row) :=
  Table.upsertedAll_of_nodup (S := taskSchema) (insertedTask · now) (assignImportedTask · now)
    hmem hnd row

theorem importedRoute_of_nodup {now : Time} {profile : RouteProfile}
    {routes : List RouteProfile} (hnd : (routes.map RouteProfile.id).Nodup)
    (hmem : profile ∈ routes) (row : Option RouteProfile) :
    importedRoute now profile.id routes row = some (importRouteRow profile now row) :=
  Table.upsertedAll_of_nodup (S := routeSchema) (insertedRoute · now)
    (assignImportedRoute · now) hmem hnd row

theorem find?_replaceTasks {s : Store} {tasks : List Task} {now : Time} {table : TaskTable}
    (h : replaceTasks s tasks now = some table) (k : String) :
    table.find? k =
      if k ∈ tasks.map Task.id then importedTask now k tasks (s.task? k)
      else (s.task? k).map (retiredTask now) := by
  unfold replaceTasks at h
  split at h
  · cases h
  · rename_i middle hmiddle
    exact Table.find?_replaced _ _ (fun _ ↦ rfl) (fun _ ↦ mem_liveTaskIDs) hmiddle h k

theorem find?_replaceRoutes {s : Store} {routes : List RouteProfile} {now : Time}
    {table : RouteTable} (h : replaceRoutes s routes now = some table) (k : String) :
    table.find? k =
      if k ∈ routes.map RouteProfile.id then importedRoute now k routes (s.route? k)
      else (s.route? k).map (retiredRoute now) := by
  unfold replaceRoutes at h
  split at h
  · cases h
  · rename_i middle hmiddle
    exact Table.find?_replaced _ _ (fun _ ↦ rfl) (fun _ ↦ mem_liveRouteIDs) hmiddle h k

namespace Store

/-- A replacement succeeds only without an active result.  Its rows are the imported ones
and, for identities that are not listed, the retired ones. -/
theorem replaceConfiguration_ok {s s' : Store} {settings : Settings}
    {routes : List RouteProfile} {tasks : List Task} {now : Time}
    (h : s.replaceConfiguration settings routes tasks now = .ok s') :
    s.hasActive = false ∧ s'.results = s.results ∧
      s'.settings = assignSettings settings s.settings ∧
      (∀ k, s'.task? k =
        if k ∈ tasks.map Task.id then importedTask now k tasks (s.task? k)
        else (s.task? k).map (retiredTask now)) ∧
      ∀ k, s'.route? k =
        if k ∈ routes.map RouteProfile.id then importedRoute now k routes (s.route? k)
        else (s.route? k).map (retiredRoute now) := by
  unfold replaceConfiguration at h
  split at h
  · cases h
  · split at h
    · cases h
    · rename_i hactive
      split at h
      · rename_i routes' tasks' hroutes htasks
        obtain ⟨htask, hroute, hresults, hsettings⟩ := commit_eq_ok_iff.mp h
        refine ⟨by simpa using hactive, hresults, hsettings, fun k ↦ ?_, fun k ↦ ?_⟩
        · rw [task?, htask]
          exact find?_replaceTasks htasks k
        · rw [route?, hroute]
          exact find?_replaceRoutes hroutes k
      · cases h

end Store

end MultiSpeed.Database
