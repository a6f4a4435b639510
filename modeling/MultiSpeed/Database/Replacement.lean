import MultiSpeed.Lib.Transaction
import MultiSpeed.Database.Statements

/-!
# The transaction of a replacement

`ReplaceConfiguration` call by call.  Any call may fail, and then the deferred
rollback discards the copy.  A replacement that returns no error has stored what
`Store.replaceConfiguration` computes, and that is described table by table.
-/

namespace MultiSpeed.Database

open Store

/-- The tables a transaction works on; the foreign keys are checked at its end. -/
structure Working where
  tasks : TaskTable
  routes : RouteTable
  results : ResultTable
  settings : Settings

def Store.working (s : Store) : Working := ⟨s.tasks, s.routes, s.results, s.settings⟩

def Working.commit (w : Working) : Except StoreError Store :=
  Database.commit w.tasks w.routes w.results w.settings

def taskPart : Tx.Part Working TaskTable where
  get := Working.tasks
  set w tasks := { w with tasks := tasks }
  get_set _ _ := rfl
  set_get _ := rfl
  set_set _ _ _ := rfl

def routePart : Tx.Part Working RouteTable where
  get := Working.routes
  set w routes := { w with routes := routes }
  get_set _ _ := rfl
  set_get _ := rfl
  set_set _ _ _ := rfl

abbrev StoreTx (α : Type) := Tx Working StoreError α

abbrev execTx (f : Working → Except StoreError Working) : StoreTx Unit := Tx.exec .unavailable f

abbrev queryTx {α : Type} (f : Working → α) : StoreTx α := Tx.query .unavailable f

def upsertRouteTx (now : Time) (profile : RouteProfile) : StoreTx Unit :=
  routePart.statement .unavailable .constraint fun table ↦
    table.upsert (insertedRoute profile now) (assignImportedRoute profile now)
      (assignImportedRoute_id profile now)

def upsertTaskTx (now : Time) (task : Task) : StoreTx Unit :=
  taskPart.statement .unavailable .constraint fun table ↦
    table.upsert (insertedTask task now) (assignImportedTask task now)
      (assignImportedTask_id task now)

def retireTaskTx (now : Time) (imported : List String) (id : String) : StoreTx Unit :=
  if id ∈ imported then pure ()
  else taskPart.statement .unavailable .constraint fun table ↦
    table.update (fun row ↦ row.id = id && row.live) (assignDeleted now) (assignDeleted_id now)

def retireRouteTx (now : Time) (imported : List String) (id : String) : StoreTx Unit :=
  if id ∈ imported then pure ()
  else routePart.statement .unavailable .constraint fun table ↦
    table.update (fun row ↦ row.id = id && row.live) (assignRetiredRoute now)
      (assignRetiredRoute_id now)

/-- Between `BeginTx` and `Commit`. -/
def replaceConfigurationBody (settings : Settings) (routes : List RouteProfile)
    (tasks : List Task) (now : Time) : StoreTx Unit := do
  let active ← queryTx fun w ↦ w.results.rows.any fun result ↦ result.status.active
  if active then Tx.fail .active
  else do
    let existingTaskIDs ← queryTx fun w ↦
      ((w.tasks.rows.filter Task.live).map Task.id).insertionSort (· ≤ ·)
    let existingRouteIDs ← queryTx fun w ↦
      ((w.routes.rows.filter RouteProfile.live).map RouteProfile.id).insertionSort (· ≤ ·)
    execTx fun w ↦ .ok { w with settings := assignSettings settings w.settings }
    Tx.each (upsertRouteTx now) routes
    Tx.each (upsertTaskTx now) tasks
    Tx.each (retireTaskTx now (tasks.map Task.id)) existingTaskIDs
    Tx.each (retireRouteTx now (routes.map RouteProfile.id)) existingRouteIDs

/-- `ReplaceConfiguration`: the store it leaves and the error it returns. -/
def replaceConfigurationTx (served : ℕ → Bool) (settings : Settings)
    (routes : List RouteProfile) (tasks : List Task) (now : Time) (s : Store) :
    Store × Option StoreError :=
  if !(tasks.all fun task ↦
      encodableMap task.customServerDefinition && encodableMap task.providerOptions) then
    (s, some .encoding)
  else
    Tx.run .unavailable served Store.working (replaceConfigurationBody settings routes tasks now)
      Working.commit s

/-! ## The loops -/

variable {served : ℕ → Bool} {n m : ℕ} {w v : Working} {u : Unit} {now : Time}

theorem upsertTasksTx_ok {tasks : List Task}
    (h : Tx.each (upsertTaskTx now) tasks served n w = .ok (u, m, v)) :
    upsertTasks now tasks w.tasks = some v.tasks ∧ v = { w with tasks := v.tasks } :=
  taskPart.each_ok (fun h ↦ Tx.Part.statement_ok (p := taskPart) h) h

theorem upsertRoutesTx_ok {routes : List RouteProfile}
    (h : Tx.each (upsertRouteTx now) routes served n w = .ok (u, m, v)) :
    upsertRoutes now routes w.routes = some v.routes ∧ v = { w with routes := v.routes } :=
  routePart.each_ok (fun h ↦ Tx.Part.statement_ok (p := routePart) h) h

theorem retireTasksTx_ok {imported ids : List String}
    (h : Tx.each (retireTaskTx now imported) ids served n w = .ok (u, m, v)) :
    retireTasks now imported ids w.tasks = some v.tasks ∧ v = { w with tasks := v.tasks } :=
  taskPart.each_ok (fun h ↦ Tx.Part.ite_statement_ok (p := taskPart) h) h

theorem retireRoutesTx_ok {imported ids : List String}
    (h : Tx.each (retireRouteTx now imported) ids served n w = .ok (u, m, v)) :
    retireRoutes now imported ids w.routes = some v.routes ∧
      v = { w with routes := v.routes } :=
  routePart.each_ok (fun h ↦ Tx.Part.ite_statement_ok (p := routePart) h) h

/-! ## The transaction computes the replacement -/

theorem replaceConfigurationBody_ok {settings : Settings} {routes : List RouteProfile}
    {tasks : List Task} {s : Store}
    (h : replaceConfigurationBody settings routes tasks now served n s.working = .ok (u, m, v)) :
    s.hasActive = false ∧ replaceRoutes s routes now = some v.routes ∧
      replaceTasks s tasks now = some v.tasks ∧ v.results = s.results ∧
      v.settings = assignSettings settings s.settings := by
  obtain ⟨active, _, w₀, hactive, h⟩ := Tx.bind_ok h
  obtain ⟨rfl, rfl⟩ := Tx.query_ok hactive
  split at h
  · cases h
  · rename_i hidle
    obtain ⟨existingTaskIDs, _, w₁, htaskIDs, h⟩ := Tx.bind_ok h
    obtain ⟨rfl, rfl⟩ := Tx.query_ok htaskIDs
    obtain ⟨existingRouteIDs, _, w₂, hrouteIDs, h⟩ := Tx.bind_ok h
    obtain ⟨rfl, rfl⟩ := Tx.query_ok hrouteIDs
    obtain ⟨_, _, w₃, hsettings, h⟩ := Tx.bind_ok h
    obtain rfl := Except.ok.inj (Tx.exec_ok hsettings)
    obtain ⟨_, _, w₄, hroutes, h⟩ := Tx.bind_ok h
    obtain ⟨hupsertRoutes, hw₄⟩ := upsertRoutesTx_ok hroutes
    obtain ⟨_, _, w₅, htasks, h⟩ := Tx.bind_ok h
    obtain ⟨hupsertTasks, hw₅⟩ := upsertTasksTx_ok htasks
    obtain ⟨_, _, w₆, hretire, h⟩ := Tx.bind_ok h
    obtain ⟨hretireTasks, hw₆⟩ := retireTasksTx_ok hretire
    obtain ⟨hretireRoutes, hv⟩ := retireRoutesTx_ok h
    have hinactive : ¬ s.hasActive = true := hidle
    have hroutes₄ : upsertRoutes now routes s.routes = some w₄.routes := hupsertRoutes
    have htasks₄ : upsertTasks now tasks s.tasks = some w₅.tasks := by
      rw [hw₄] at hupsertTasks
      exact hupsertTasks
    refine ⟨by simpa using hinactive, ?_, ?_, ?_, ?_⟩
    · rw [replaceRoutes, hroutes₄]
      rw [hw₆, hw₅] at hretireRoutes
      exact hretireRoutes
    · rw [replaceTasks, htasks₄, hv]
      exact hretireTasks
    · rw [hv, hw₆, hw₅, hw₄]
      rfl
    · rw [hv, hw₆, hw₅, hw₄]
      rfl

/-- A replacement without error has stored what the statements compute. -/
theorem replaceConfigurationTx_ok {settings : Settings} {routes : List RouteProfile}
    {tasks : List Task} {s : Store}
    (h : (replaceConfigurationTx served settings routes tasks now s).2 = none) :
    s.replaceConfiguration settings routes tasks now =
      .ok (replaceConfigurationTx served settings routes tasks now s).1 := by
  unfold replaceConfigurationTx at h ⊢
  unfold Store.replaceConfiguration
  split at h
  · cases h
  · rename_i hencodable
    obtain ⟨n, w, hbody, hcommit⟩ := Tx.run_of_ok h
    obtain ⟨hidle, hroutes, htasks, hresults, hsettings⟩ := replaceConfigurationBody_ok hbody
    rw [if_neg hencodable, if_neg hencodable, hidle, if_neg Bool.false_ne_true, hroutes, htasks,
      ← hresults, ← hsettings]
    exact hcommit

/-! ## The tables after a replacement -/

/-- What a replacement at `now` has made of the store `s`. -/
structure Replaced (settings : Settings) (routes : List RouteProfile) (tasks : List Task)
    (now : Time) (s s' : Store) : Prop where
  liveTasks : ∀ k, (∃ row, s'.task? k = some row ∧ row.live = true) ↔ k ∈ tasks.map Task.id
  taskRows : ∀ task ∈ tasks, ∃ row, s'.task? task.id = some row ∧
    ConfigurationTask.from row = ConfigurationTask.from task
  liveRoutes : ∀ k, (∃ row, s'.route? k = some row ∧ row.live = true) ↔
    k ∈ routes.map RouteProfile.id
  routeRows : ∀ profile ∈ routes, ∃ row, s'.route? profile.id = some row ∧
    ConfigurationRouteProfile.from row = ConfigurationRouteProfile.from profile
  settings : ConfigurationSettings.from s'.settings = ConfigurationSettings.from settings
  retiredTasks : ∀ k row, s.task? k = some row → row.live = true → k ∉ tasks.map Task.id →
    s'.task? k = some (assignDeleted now row)
  retiredRoutes : ∀ k row, s.route? k = some row → row.live = true →
    k ∉ routes.map RouteProfile.id → s'.route? k = some (assignRetiredRoute now row)
  results : s'.results = s.results
  acknowledgement : s'.settings.ooklaEULAAccepted = s.settings.ooklaEULAAccepted ∧
    s'.settings.ooklaEULAAcceptedAt = s.settings.ooklaEULAAcceptedAt ∧
    s'.settings.ooklaEULAVersion = s.settings.ooklaEULAVersion
  keptTasks : ∀ k row, s.task? k = some row → ∃ row', s'.task? k = some row' ∧
    row'.createdAt = row.createdAt ∧ row'.lastScheduledAt = row.lastScheduledAt
  keptRoutes : ∀ k row, s.route? k = some row → ∃ row', s'.route? k = some row' ∧
    row'.createdAt = row.createdAt
  otherTasks : ∀ k, k ∉ tasks.map Task.id → (∀ row, s.task? k = some row → row.live = false) →
    s'.task? k = s.task? k
  otherRoutes : ∀ k, k ∉ routes.map RouteProfile.id →
    (∀ row, s.route? k = some row → row.live = false) → s'.route? k = s.route? k

variable {settings : Settings} {routes : List RouteProfile} {tasks : List Task} {s s' : Store}

theorem task?_listed (hnd : (tasks.map Task.id).Nodup)
    (h : s.replaceConfiguration settings routes tasks now = .ok s') {task : Task}
    (htask : task ∈ tasks) :
    s'.task? task.id = some (importTaskRow task now (s.task? task.id)) := by
  obtain ⟨-, -, -, htasks, -⟩ := replaceConfiguration_ok h
  rw [htasks, if_pos (List.mem_map_of_mem htask)]
  exact importedTask_of_nodup hnd htask _

theorem route?_listed (hnd : (routes.map RouteProfile.id).Nodup)
    (h : s.replaceConfiguration settings routes tasks now = .ok s') {profile : RouteProfile}
    (hprofile : profile ∈ routes) :
    s'.route? profile.id = some (importRouteRow profile now (s.route? profile.id)) := by
  obtain ⟨-, -, -, -, hroutes⟩ := replaceConfiguration_ok h
  rw [hroutes, if_pos (List.mem_map_of_mem hprofile)]
  exact importedRoute_of_nodup hnd hprofile _

theorem task?_unlisted (h : s.replaceConfiguration settings routes tasks now = .ok s')
    {k : String} (hk : k ∉ tasks.map Task.id) :
    s'.task? k = (s.task? k).map (retiredTask now) := by
  obtain ⟨-, -, -, htasks, -⟩ := replaceConfiguration_ok h
  rw [htasks, if_neg hk]

theorem route?_unlisted (h : s.replaceConfiguration settings routes tasks now = .ok s')
    {k : String} (hk : k ∉ routes.map RouteProfile.id) :
    s'.route? k = (s.route? k).map (retiredRoute now) := by
  obtain ⟨-, -, -, -, hroutes⟩ := replaceConfiguration_ok h
  rw [hroutes, if_neg hk]

theorem importTaskRow_configuration (task : Task) (row : Option Task)
    (hrow : ∀ old ∈ row, old.id = task.id) :
    ConfigurationTask.from (importTaskRow task now row) = ConfigurationTask.from task := by
  cases row with
  | none => rfl
  | some old =>
      have hid : old.id = task.id := hrow old rfl
      simp only [importTaskRow, Table.upserted, assignImportedTask, assignTask,
        ConfigurationTask.from, hid]

theorem importRouteRow_configuration (profile : RouteProfile) (row : Option RouteProfile)
    (hrow : ∀ old ∈ row, old.id = profile.id) :
    ConfigurationRouteProfile.from (importRouteRow profile now row) =
      ConfigurationRouteProfile.from profile := by
  cases row with
  | none => rfl
  | some old =>
      have hid : old.id = profile.id := hrow old rfl
      simp only [importRouteRow, Table.upserted, assignImportedRoute,
        ConfigurationRouteProfile.from, hid]

theorem retiredTask_live (row : Task) : (retiredTask now row).live = false :=
  Table.retired_dead (fun _ ↦ rfl) row

theorem retiredRoute_live (row : RouteProfile) : (retiredRoute now row).live = false :=
  Table.retired_dead (fun _ ↦ rfl) row

theorem replaced_of_ok (hroutes : (routes.map RouteProfile.id).Nodup)
    (htasks : (tasks.map Task.id).Nodup)
    (h : s.replaceConfiguration settings routes tasks now = .ok s') :
    Replaced settings routes tasks now s s' where
  liveTasks k := by
    constructor
    · rintro ⟨row, hrow, hlive⟩
      by_contra hk
      rw [task?_unlisted h hk] at hrow
      obtain ⟨old, -, rfl⟩ := Option.map_eq_some_iff.mp hrow
      rw [retiredTask_live] at hlive
      cases hlive
    · intro hk
      obtain ⟨task, htask, rfl⟩ := List.mem_map.mp hk
      refine ⟨_, task?_listed htasks h htask, ?_⟩
      cases s.task? task.id <;> rfl
  taskRows task htask :=
    ⟨_, task?_listed htasks h htask,
      importTaskRow_configuration task _ fun _ hold ↦ Store.task?_id hold⟩
  liveRoutes k := by
    constructor
    · rintro ⟨row, hrow, hlive⟩
      by_contra hk
      rw [route?_unlisted h hk] at hrow
      obtain ⟨old, -, rfl⟩ := Option.map_eq_some_iff.mp hrow
      rw [retiredRoute_live] at hlive
      cases hlive
    · intro hk
      obtain ⟨profile, hprofile, rfl⟩ := List.mem_map.mp hk
      refine ⟨_, route?_listed hroutes h hprofile, ?_⟩
      cases s.route? profile.id <;> rfl
  routeRows profile hprofile :=
    ⟨_, route?_listed hroutes h hprofile,
      importRouteRow_configuration profile _ fun _ hold ↦ Store.route?_id hold⟩
  settings := by
    obtain ⟨-, -, hsettings, -⟩ := replaceConfiguration_ok h
    rw [hsettings]
    rfl
  retiredTasks k row hrow hlive hk := by
    rw [task?_unlisted h hk, hrow, Option.map_some, retiredTask, Table.retired, if_pos hlive]
  retiredRoutes k row hrow hlive hk := by
    rw [route?_unlisted h hk, hrow, Option.map_some, retiredRoute, Table.retired, if_pos hlive]
  results := (replaceConfiguration_ok h).2.1
  acknowledgement := by
    obtain ⟨-, -, hsettings, -⟩ := replaceConfiguration_ok h
    rw [hsettings]
    exact ⟨rfl, rfl, rfl⟩
  keptTasks k row hrow := by
    by_cases hk : k ∈ tasks.map Task.id
    · obtain ⟨task, htask, rfl⟩ := List.mem_map.mp hk
      refine ⟨_, task?_listed htasks h htask, ?_⟩
      rw [hrow]
      exact ⟨rfl, rfl⟩
    · refine ⟨_, (task?_unlisted h hk).trans (congrArg _ hrow), ?_⟩
      unfold retiredTask Table.retired
      split <;> exact ⟨rfl, rfl⟩
  keptRoutes k row hrow := by
    by_cases hk : k ∈ routes.map RouteProfile.id
    · obtain ⟨profile, hprofile, rfl⟩ := List.mem_map.mp hk
      refine ⟨_, route?_listed hroutes h hprofile, ?_⟩
      rw [hrow]
      rfl
    · refine ⟨_, (route?_unlisted h hk).trans (congrArg _ hrow), ?_⟩
      unfold retiredRoute Table.retired
      split <;> rfl
  otherTasks k hk hdead := by
    rw [task?_unlisted h hk]
    cases hrow : s.task? k with
    | none => rfl
    | some row =>
        rw [Option.map_some, retiredTask, Table.retired, hdead row hrow,
          if_neg Bool.false_ne_true]
  otherRoutes k hk hdead := by
    rw [route?_unlisted h hk]
    cases hrow : s.route? k with
    | none => rfl
    | some row =>
        rw [Option.map_some, retiredRoute, Table.retired, hdead row hrow,
          if_neg Bool.false_ne_true]

/-! ## When a replacement is stored -/

theorem replaceTasks_exists (s : Store) (now : Time) (h : ∀ task ∈ tasks, taskCheck task = true) :
    ∃ table, replaceTasks s tasks now = some table := by
  obtain ⟨table, htable⟩ : ∃ table, upsertTasks now tasks s.tasks = some table :=
    Table.exists_upsertAll _ h (fun task htask _ ↦ h task htask) s.tasks
  rw [replaceTasks, htable]
  exact Table.exists_retireAll Task.live (assignDeleted now) (fun _ ↦ rfl)
    (fun _ hrow ↦ hrow) _ _ table

theorem replaceRoutes_exists (s : Store) (now : Time)
    (h : ∀ profile ∈ routes, routeCheck profile = true) :
    ∃ table, replaceRoutes s routes now = some table := by
  obtain ⟨table, htable⟩ : ∃ table, upsertRoutes now routes s.routes = some table :=
    Table.exists_upsertAll _ h (fun profile hprofile _ ↦ h profile hprofile) s.routes
  rw [replaceRoutes, htable]
  exact Table.exists_retireAll RouteProfile.live (assignRetiredRoute now) (fun _ ↦ rfl)
    (fun _ hrow ↦ hrow) _ _ table

/-- No profile is lost, and the listed ones are there. -/
theorem isSome_replaceRoutes {table : RouteTable} (hnd : (routes.map RouteProfile.id).Nodup)
    (h : replaceRoutes s routes now = some table) {id : String}
    (hid : id ∈ routes.map RouteProfile.id ∨ (s.routes.find? id).isSome) :
    (table.find? id).isSome := by
  by_cases hlisted : id ∈ routes.map RouteProfile.id
  · obtain ⟨profile, hprofile, rfl⟩ := List.mem_map.mp hlisted
    rw [find?_replaceRoutes h, if_pos hlisted, importedRoute_of_nodup hnd hprofile]
    rfl
  · have hstored : (s.route? id).isSome := hid.resolve_left hlisted
    rw [find?_replaceRoutes h, if_neg hlisted, Option.isSome_map]
    exact hstored

theorem isSome_replaceTasks {table : TaskTable} (hnd : (tasks.map Task.id).Nodup)
    (h : replaceTasks s tasks now = some table) {id : String} (hid : (s.tasks.find? id).isSome) :
    (table.find? id).isSome := by
  rw [find?_replaceTasks h]
  split
  · rename_i hlisted
    obtain ⟨task, htask, rfl⟩ := List.mem_map.mp hlisted
    rw [importedTask_of_nodup hnd htask]
    rfl
  · have hstored : (s.task? id).isSome := hid
    rw [Option.isSome_map]
    exact hstored

/-- A row names the profile of the listed task or of the row that was there. -/
theorem routeProfileID_replaceTasks {table : TaskTable} (hnd : (tasks.map Task.id).Nodup)
    (h : replaceTasks s tasks now = some table) {k : String} {row : Task}
    (hrow : table.find? k = some row) :
    (∃ task ∈ tasks, row.routeProfileID = task.routeProfileID) ∨
      ∃ old, s.tasks.find? k = some old ∧ row.routeProfileID = old.routeProfileID := by
  rw [find?_replaceTasks h] at hrow
  split at hrow
  · rename_i hlisted
    obtain ⟨task, htask, rfl⟩ := List.mem_map.mp hlisted
    rw [importedTask_of_nodup hnd htask] at hrow
    obtain rfl := Option.some.inj hrow
    refine .inl ⟨task, htask, ?_⟩
    cases s.task? task.id <;> rfl
  · obtain ⟨old, hold, rfl⟩ := Option.map_eq_some_iff.mp hrow
    refine .inr ⟨old, hold, ?_⟩
    unfold retiredTask Table.retired
    split <;> rfl

/-- A replacement whose rows and settings pass their checks and whose tasks name listed
profiles is stored on every store without an active result. -/
theorem replaceConfiguration_stored (hroutes : (routes.map RouteProfile.id).Nodup)
    (htasks : (tasks.map Task.id).Nodup)
    (hencodable : ∀ task ∈ tasks, (encodableMap task.customServerDefinition &&
      encodableMap task.providerOptions) = true)
    (htaskChecks : ∀ task ∈ tasks, taskCheck task = true)
    (hrouteChecks : ∀ profile ∈ routes, routeCheck profile = true)
    (hsettings : settingsCheck settings = true)
    (hnamed : ∀ task ∈ tasks, ∀ id ∈ task.routeProfileID, id ∈ routes.map RouteProfile.id)
    (hidle : s.hasActive = false) :
    ∃ s', s.replaceConfiguration settings routes tasks now = .ok s' := by
  obtain ⟨taskTable, htaskTable⟩ := replaceTasks_exists s now htaskChecks
  obtain ⟨routeTable, hrouteTable⟩ := replaceRoutes_exists s now hrouteChecks
  obtain ⟨hnamedBefore, hresultTasks, hresultRoutes, -⟩ := Store.consistent_iff.mp s.isConsistent
  rw [Store.replaceConfiguration, List.all_eq_true.mpr hencodable, hidle, hrouteTable, htaskTable]
  refine commit_of_consistent (Store.consistent_iff.mpr ⟨fun k row hrow id hid ↦ ?_,
    fun k result hresult ↦ ?_, fun k result hresult id hid ↦ ?_, hsettings⟩)
  · apply isSome_replaceRoutes hroutes hrouteTable
    obtain ⟨task, htask, hsame⟩ | ⟨old, hold, hsame⟩ :=
      routeProfileID_replaceTasks htasks htaskTable hrow
    · exact .inl (hnamed task htask id (hsame ▸ hid))
    · exact .inr (hnamedBefore k old hold id (hsame ▸ hid))
  · exact isSome_replaceTasks htasks htaskTable (hresultTasks k result hresult)
  · exact isSome_replaceRoutes hroutes hrouteTable (.inr (hresultRoutes k result hresult id hid))

/-- A replacement that returns an error leaves the store as it was, and one that
returns none has made of it exactly the imported configuration. -/
theorem replaceConfiguration_spec (served : ℕ → Bool) (settings : Settings)
    (routes : List RouteProfile) (tasks : List Task) (now : Time) (s : Store)
    (hroutes : (routes.map RouteProfile.id).Nodup) (htasks : (tasks.map Task.id).Nodup) :
    ((replaceConfigurationTx served settings routes tasks now s).2 ≠ none →
      (replaceConfigurationTx served settings routes tasks now s).1 = s) ∧
    ((replaceConfigurationTx served settings routes tasks now s).2 = none →
      Replaced settings routes tasks now s
        (replaceConfigurationTx served settings routes tasks now s).1) := by
  refine ⟨fun hfailed ↦ ?_, fun hdone ↦ ?_⟩
  · unfold replaceConfigurationTx at hfailed ⊢
    split
    · rfl
    · rename_i hencodable
      rw [if_neg hencodable] at hfailed
      exact Tx.run_of_error hfailed
  · exact replaced_of_ok hroutes htasks (replaceConfigurationTx_ok hdone)

/-- The only task is replaced by one with another identity. -/
theorem replaceConfiguration_spec_oneTask :
    Replaced migratedSettings [] [{ scheduledTask with id := "other" }] 7 oneTask
      (replaceConfigurationTx (fun _ ↦ true) migratedSettings []
        [{ scheduledTask with id := "other" }] 7 oneTask).1 :=
  (replaceConfiguration_spec (fun _ ↦ true) migratedSettings []
    [{ scheduledTask with id := "other" }] 7 oneTask (by decide) (by decide)).2
    (by decide +kernel)

end MultiSpeed.Database
