import MultiSpeed.Database.Dashboard
import MultiSpeed.Database.Statements

/-!
# The dashboard

`dashboardResults` of `internal/api/results.go`: every live task and every path of one with
its newest result, and which tasks share a path.
-/

namespace MultiSpeed.Api

open Database

/-! ## The response -/

/-- A result without its large diagnostics. -/
structure ResultSummary where
  id : String
  taskID : String
  routeProfileID : Option String
  trigger : TriggerType
  provider : ProviderID
  queuedAt : Time
  scheduledAt : Option Time
  startedAt : Option Time
  finishedAt : Option Time
  status : ResultStatus
  downloadBitsPerSecond : Option ℤ
  uploadBitsPerSecond : Option ℤ
  latencyMilliseconds : Option Float64
  jitterMilliseconds : Option Float64
  packetLossPercent : Option Float64
  downloadBytes : Option ℤ
  uploadBytes : Option ℤ
  selectedInterface : String
  selectedSourceIP : String
  detectedPublicIP : String
  serverID : String
  serverName : String
  serverHost : String
  serverSponsor : String
  serverLocation : String
  serverCountry : String
  providerResultURL : String
  cloudflareColo : String
  executionDurationMS : ℤ
  processExitCode : Option ℤ
  sanitizedError : Text
  providerVersion : String
  applicationVersion : String
  tlsVerificationDisabled : Bool

def compactResult (result : Result) : ResultSummary where
  id := result.id
  taskID := result.taskID
  routeProfileID := result.routeProfileID
  trigger := result.trigger
  provider := result.provider
  queuedAt := result.queuedAt
  scheduledAt := result.scheduledAt
  startedAt := result.startedAt
  finishedAt := result.finishedAt
  status := result.status
  downloadBitsPerSecond := result.downloadBitsPerSecond
  uploadBitsPerSecond := result.uploadBitsPerSecond
  latencyMilliseconds := result.latencyMilliseconds
  jitterMilliseconds := result.jitterMilliseconds
  packetLossPercent := result.packetLossPercent
  downloadBytes := result.downloadBytes
  uploadBytes := result.uploadBytes
  selectedInterface := result.selectedInterface
  selectedSourceIP := result.selectedSourceIP
  detectedPublicIP := result.detectedPublicIP
  serverID := result.serverID
  serverName := result.serverName
  serverHost := result.serverHost
  serverSponsor := result.serverSponsor
  serverLocation := result.serverLocation
  serverCountry := result.serverCountry
  providerResultURL := result.providerResultURL
  cloudflareColo := result.cloudflareColo
  executionDurationMS := result.executionDurationMS
  processExitCode := result.processExitCode
  sanitizedError := result.sanitizedError
  providerVersion := result.providerVersion
  applicationVersion := result.applicationVersion
  tlsVerificationDisabled := result.tlsVerificationDisabled

structure DashboardTaskSummary where
  taskID : String
  taskName : Text
  enabled : Bool
  interfaceName : String
  sourceIP : String
  latestResult : Option ResultSummary

structure DashboardPathSummary where
  interfaceName : String
  sourceIP : String
  taskIDs : List String
  latestResult : Option ResultSummary

structure DashboardResultSummary where
  latestByTask : List DashboardTaskSummary
  latestByPath : List DashboardPathSummary
  activeRuns : List ResultSummary
  recentFailures : List ResultSummary
  failedTaskCount : ℕ

/-! ## The handler -/

/-- An interface with a source address. -/
abbrev PathKey := String × String

def taskPath (task : Task) : PathKey := (task.interfaceName, task.sourceIP)

def DashboardPathSummary.path (summary : DashboardPathSummary) : PathKey :=
  (summary.interfaceName, summary.sourceIP)

section

variable (latestByTask : AList fun _ : String ↦ ResultSummary)
  (latestByPath : AList fun _ : PathKey ↦ ResultSummary)

def taskSummary (task : Task) : DashboardTaskSummary where
  taskID := task.id
  taskName := task.name
  enabled := task.enabled
  interfaceName := task.interfaceName
  sourceIP := task.sourceIP
  latestResult := latestByTask.lookup task.id

/-- The entries of the paths, and where they are, with one for the path of the task. -/
def indexPath (paths : List DashboardPathSummary) (pathIndexes : AList fun _ : PathKey ↦ ℕ)
    (task : Task) : List DashboardPathSummary × (AList fun _ : PathKey ↦ ℕ) × ℕ :=
  match pathIndexes.lookup (taskPath task) with
  | some index => (paths, pathIndexes, index)
  | none =>
      (paths ++ [{
          interfaceName := task.interfaceName
          sourceIP := task.sourceIP
          taskIDs := []
          latestResult := latestByPath.lookup (taskPath task) }],
        pathIndexes.insert (taskPath task) paths.length, paths.length)

/-- `path.TaskIDs = append(path.TaskIDs, taskID)` -/
def addTaskID (taskID : String) (path : DashboardPathSummary) : DashboardPathSummary :=
  { path with taskIDs := path.taskIDs ++ [taskID] }

/-- The turn of the loop over the live tasks. -/
def addTask (state : DashboardResultSummary × AList fun _ : PathKey ↦ ℕ) (task : Task) :
    DashboardResultSummary × AList fun _ : PathKey ↦ ℕ :=
  let (response, pathIndexes) := state
  let failed := (latestByTask.lookup task.id).any (·.status = .failed)
  let (paths, pathIndexes, index) := indexPath latestByPath response.latestByPath pathIndexes task
  ({ response with
      failedTaskCount := response.failedTaskCount + if failed then 1 else 0
      latestByTask := response.latestByTask ++ [taskSummary latestByTask task]
      latestByPath := paths.modify index (addTaskID task.id) }, pathIndexes)

end

/-- The response to a request for the dashboard. -/
def dashboardResults (s : Store) : Except StoreError DashboardResultSummary :=
  match s.getDashboardResults with
  | .error err => .error err
  | .ok snapshot =>
      let latestByTask := Grouping.indexBy Result.taskID compactResult snapshot.latestByTask
      let latestByPath := Grouping.indexBy resultPath compactResult snapshot.latestByPath
      let response : DashboardResultSummary := {
        latestByTask := []
        latestByPath := []
        activeRuns := snapshot.activeRuns.map compactResult
        recentFailures := snapshot.recentFailures.map compactResult
        failedTaskCount := 0 }
      .ok (snapshot.tasks.foldl (addTask latestByTask latestByPath) (response, ∅)).1

/-! ## The loop -/

section

variable {latestByTask : AList fun _ : String ↦ ResultSummary}
  {latestByPath : AList fun _ : PathKey ↦ ResultSummary}

/-- The entries of the paths after some tasks. -/
structure PathsOf (latestByPath : AList fun _ : PathKey ↦ ResultSummary) (tasks : List Task)
    (paths : List DashboardPathSummary) (pathIndexes : AList fun _ : PathKey ↦ ℕ) : Prop where
  indexed : Grouping.Indexed DashboardPathSummary.path paths pathIndexes
  mem_iff : ∀ key, key ∈ paths.map DashboardPathSummary.path ↔ ∃ task ∈ tasks, taskPath task = key
  taskIDs : ∀ path ∈ paths,
    path.taskIDs = (Grouping.fiber taskPath tasks path.path).map Task.id
  latestResult : ∀ path ∈ paths, path.latestResult = latestByPath.lookup path.path

/-- There is an entry for the path of the task, which may be one without tasks. -/
theorem indexPath_spec {tasks : List Task} {paths : List DashboardPathSummary}
    {pathIndexes : AList fun _ : PathKey ↦ ℕ} (h : PathsOf latestByPath tasks paths pathIndexes)
    (task : Task) :
    let (paths', pathIndexes', index) := indexPath latestByPath paths pathIndexes task
    Grouping.Indexed DashboardPathSummary.path paths' pathIndexes' ∧
      pathIndexes'.lookup (taskPath task) = some index ∧
      (∀ key, key ∈ paths'.map DashboardPathSummary.path ↔
        ∃ t ∈ tasks ++ [task], taskPath t = key) ∧
      ∀ path ∈ paths', path.taskIDs = (Grouping.fiber taskPath tasks path.path).map Task.id ∧
        path.latestResult = latestByPath.lookup path.path := by
  rw [indexPath]
  cases hlookup : pathIndexes.lookup (taskPath task) with
  | some index =>
      refine ⟨h.indexed, hlookup, ?_, fun path hpath ↦ ⟨h.taskIDs path hpath, h.latestResult path hpath⟩⟩
      have hmem : taskPath task ∈ paths.map DashboardPathSummary.path :=
        List.mem_of_getElem? ((h.indexed _ index).mp hlookup)
      obtain ⟨t, ht, hsame⟩ := (h.mem_iff _).mp hmem
      intro key
      rw [h.mem_iff]
      constructor
      · rintro ⟨t', ht', rfl⟩
        exact ⟨t', List.mem_append_left _ ht', rfl⟩
      · rintro ⟨t', ht', rfl⟩
        rcases List.mem_append.mp ht' with ht' | ht'
        · exact ⟨t', ht', rfl⟩
        · rw [List.mem_singleton.mp ht']
          exact ⟨t, ht, hsame⟩
  | none =>
      have hnew : taskPath task ∉ paths.map DashboardPathSummary.path :=
        h.indexed.lookup_eq_none_iff.mp hlookup
      refine ⟨h.indexed.push hlookup, AList.lookup_insert _, ?_, ?_⟩
      · intro key
        rw [List.map_append, List.mem_append, h.mem_iff]
        simp only [List.mem_append, or_and_right, exists_or]
        apply or_congr_right
        simp [DashboardPathSummary.path, taskPath, eq_comm]
      · intro path hpath
        rcases List.mem_append.mp hpath with hpath | hpath
        · exact ⟨h.taskIDs path hpath, h.latestResult path hpath⟩
        · rw [List.mem_singleton.mp hpath]
          refine ⟨?_, rfl⟩
          have hnone : Grouping.fiber taskPath tasks (taskPath task) = [] := by
            rw [List.eq_nil_iff_forall_not_mem]
            intro t ht
            obtain ⟨hmem, hsame⟩ := (Grouping.mem_fiber taskPath).mp ht
            exact hnew ((h.mem_iff _).mpr ⟨t, hmem, hsame⟩)
          change [] = (Grouping.fiber taskPath tasks (taskPath task)).map Task.id
          rw [hnone, List.map_nil]

/-- What the loop has made of the tasks it has seen. -/
structure Summarizes (latestByTask : AList fun _ : String ↦ ResultSummary)
    (latestByPath : AList fun _ : PathKey ↦ ResultSummary) (start : DashboardResultSummary)
    (tasks : List Task) (state : DashboardResultSummary × AList fun _ : PathKey ↦ ℕ) : Prop where
  summaries : state.1.latestByTask = tasks.map (taskSummary latestByTask)
  paths : PathsOf latestByPath tasks state.1.latestByPath state.2
  failedTaskCount : state.1.failedTaskCount =
    tasks.countP fun task ↦ (latestByTask.lookup task.id).any (·.status = .failed)
  activeRuns : state.1.activeRuns = start.activeRuns
  recentFailures : state.1.recentFailures = start.recentFailures

theorem Summarizes.addTask {start : DashboardResultSummary} {tasks : List Task}
    {state : DashboardResultSummary × AList fun _ : PathKey ↦ ℕ}
    (h : Summarizes latestByTask latestByPath start tasks state) (task : Task) :
    Summarizes latestByTask latestByPath start (tasks ++ [task])
      (addTask latestByTask latestByPath state task) := by
  obtain ⟨response, pathIndexes⟩ := state
  have hspec := indexPath_spec h.paths task
  rw [Api.addTask]
  generalize indexPath latestByPath response.latestByPath pathIndexes task = indexed at hspec
  obtain ⟨paths, pathIndexes', index⟩ := indexed
  obtain ⟨hindexed, hlookup, hmem, hpaths⟩ := hspec
  have hkeep : ∀ path, (addTaskID task.id path).path = path.path := fun _ ↦ rfl
  have hchanged : ∀ path ∈ paths.modify index (addTaskID task.id), ∃ path' ∈ paths,
      path.path = path'.path ∧ path.latestResult = path'.latestResult ∧
        path.taskIDs = path'.taskIDs ++ if taskPath task = path'.path then [task.id] else [] := by
    intro path hpath
    obtain ⟨path', hpath', rfl⟩ := hindexed.mem_modify hlookup hpath
    refine ⟨path', hpath', ?_⟩
    by_cases hsame : path'.path = taskPath task
    · rw [if_pos hsame, if_pos hsame.symm]
      exact ⟨rfl, rfl, rfl⟩
    · rw [if_neg hsame, if_neg (Ne.symm hsame), List.append_nil]
      exact ⟨rfl, rfl, rfl⟩
  refine ⟨?_, ⟨hindexed.modify hkeep index, ?_, ?_, ?_⟩, ?_, h.activeRuns, h.recentFailures⟩
  · rw [List.map_append, ← h.summaries, List.map_singleton]
  · intro key
    rw [← hmem key, Grouping.Indexed.map_modify hkeep]
  · intro path hpath
    obtain ⟨path', hpath', hkey, -, htaskIDs⟩ := hchanged path hpath
    rw [htaskIDs, hkey, (hpaths path' hpath').1, Grouping.fiber, Grouping.fiber,
      List.filter_append, List.map_append]
    congr 1
    split
    · rename_i hsame
      rw [List.filter_cons_of_pos (by simpa using hsame)]
      rfl
    · rename_i hother
      rw [List.filter_cons_of_neg (by simpa using hother)]
      rfl
  · intro path hpath
    obtain ⟨path', hpath', hkey, hlatest, -⟩ := hchanged path hpath
    rw [hlatest, hkey, (hpaths path' hpath').2]
  · rw [List.countP_append, ← h.failedTaskCount, List.countP_singleton]

theorem summarizes_foldl (latestByTask : AList fun _ : String ↦ ResultSummary)
    (latestByPath : AList fun _ : PathKey ↦ ResultSummary)
    (activeRuns recentFailures : List ResultSummary) (tasks : List Task) :
    Summarizes latestByTask latestByPath ⟨[], [], activeRuns, recentFailures, 0⟩ tasks
      (tasks.foldl (addTask latestByTask latestByPath)
        (⟨[], [], activeRuns, recentFailures, 0⟩, ∅)) := by
  induction tasks using List.reverseRecOn with
  | nil =>
      refine ⟨rfl, ⟨Grouping.Indexed.nil, ?_, ?_, ?_⟩, rfl, rfl, rfl⟩
      · simp
      · simp
      · simp
  | append_singleton tasks task ih =>
      rw [List.foldl_concat]
      exact ih.addTask task

end

/-! ## What the dashboard shows -/

/-- The columns that are not selected are those of the large diagnostics. -/
theorem map_compactResult_query (rows : List Result) (order : Result → Result → Prop)
    [DecidableRel order] (limit : ℕ) :
    (Store.queryDashboardResults rows order limit).map compactResult =
      ((rows.insertionSort order).take limit).map compactResult := by
  rw [Store.queryDashboardResults, List.map_map]
  rfl

/-- The map by a key that the dashboard makes of selected last results. -/
theorem lookup_indexBy_query {κ : Type} [DecidableEq κ] {s : Store} {key : Result → κ}
    (hkey : ∀ row, key (listColumns row) = key row) {p : Result → Bool}
    (hfew : ((Grouping.maxima key comesAfter s.results.rows).filter p).length ≤ 1001) {k : κ}
    (hk : ∀ row, key row = k → p row = true) :
    (Grouping.indexBy key compactResult (Store.queryDashboardResults
        ((Grouping.maxima key comesAfter s.results.rows).filter p) newestFirst 1001)).lookup k =
      (Grouping.maximum key comesAfter s.results.rows k).map compactResult := by
  have hperm := Store.perm_queryDashboardResults newestFirst hfew
  have hsame : key ∘ listColumns = key := funext hkey
  have hnodup : ((Store.queryDashboardResults
      ((Grouping.maxima key comesAfter s.results.rows).filter p) newestFirst 1001).map
        key).Nodup := by
    rw [(hperm.map key).nodup_iff, List.map_map, hsame]
    exact (Grouping.nodup_maxima s.results_nodup s.results_comesAfter_total).sublist
      (List.filter_sublist.map key)
  ext summary
  rw [Grouping.lookup_indexBy_eq_some_iff hnodup, Option.map_eq_some_iff]
  simp only [hperm.mem_iff, List.mem_map, List.mem_filter,
    Grouping.maximum_eq_some_iff s.results_nodup s.results_comesAfter_total]
  constructor
  · rintro ⟨_, ⟨row, ⟨hrow, -⟩, rfl⟩, hrowKey, rfl⟩
    exact ⟨row, ⟨hrow, (hkey row).symm.trans hrowKey⟩, rfl⟩
  · rintro ⟨row, ⟨hrow, hrowKey⟩, rfl⟩
    exact ⟨_, ⟨row, ⟨hrow, hk row hrowKey⟩, rfl⟩, (hkey row).trans hrowKey, rfl⟩

/-- The newest result of a task. -/
def newestOfTask (s : Store) (taskID : String) : Option Result :=
  Grouping.maximum Result.taskID comesAfter s.results.rows taskID

/-- The newest result of a path, of whatever task. -/
def newestOfPath (s : Store) (key : PathKey) : Option Result :=
  Grouping.maximum resultPath comesAfter s.results.rows key

theorem mem_queryDashboardTasks {s : Store}
    (hfew : (s.tasks.rows.filter Task.live).length ≤ 1000) {task : Task} :
    task ∈ s.queryDashboardTasks ↔ task ∈ s.tasks.rows ∧ task.live := by
  rw [(Store.perm_queryDashboardTasks hfew).mem_iff, List.mem_filter]

theorem lookup_latestByTask {s : Store} (hfew : (s.tasks.rows.filter Task.live).length ≤ 1000)
    {task : Task} (htask : task ∈ s.queryDashboardTasks) :
    (Grouping.indexBy Result.taskID compactResult
      (Store.queryDashboardResults s.latestByTask newestFirst 1001)).lookup task.id =
      (newestOfTask s task.id).map compactResult := by
  obtain ⟨hrow, hlive⟩ := (mem_queryDashboardTasks hfew).mp htask
  apply lookup_indexBy_query (fun _ ↦ rfl)
  · exact (s.length_latestByTask_le.trans hfew).trans (by decide)
  · intro row hkey
    rw [List.any_eq_true]
    exact ⟨task, hrow, by simp [hkey, hlive]⟩

theorem lookup_latestByPath {s : Store} (hfew : (s.tasks.rows.filter Task.live).length ≤ 1000)
    {task : Task} (htask : task ∈ s.queryDashboardTasks) :
    (Grouping.indexBy resultPath compactResult
      (Store.queryDashboardResults s.latestByPath newestFirst 1001)).lookup (taskPath task) =
      (newestOfPath s (taskPath task)).map compactResult := by
  obtain ⟨hrow, hlive⟩ := (mem_queryDashboardTasks hfew).mp htask
  apply lookup_indexBy_query (fun _ ↦ rfl)
  · exact (s.length_latestByPath_le.trans hfew).trans (by decide)
  · intro row hkey
    rw [List.any_eq_true]
    refine ⟨task, hrow, ?_⟩
    rw [hkey, taskPath, decide_eq_true rfl, Bool.and_true]
    exact hlive

/-- The dashboard of a store with at most 1000 live tasks. -/
theorem dashboardResults_of_few {s : Store}
    (hfew : (s.tasks.rows.filter Task.live).length ≤ 1000) :
    ∃ response, dashboardResults s = .ok response ∧
      (∀ taskID, Store.IsNewest Result.taskID s.results.rows taskID (newestOfTask s taskID)) ∧
      (∀ key, Store.IsNewest resultPath s.results.rows key (newestOfPath s key)) ∧
      (∃ tasks : List Task, tasks.Perm (s.tasks.rows.filter Task.live) ∧
        response.latestByTask = tasks.map fun task ↦
          ⟨task.id, task.name, task.enabled, task.interfaceName, task.sourceIP,
            (newestOfTask s task.id).map compactResult⟩) ∧
      (response.latestByPath.map DashboardPathSummary.path).Nodup ∧
      (∀ key, key ∈ response.latestByPath.map DashboardPathSummary.path ↔
        ∃ task ∈ s.tasks.rows, task.live ∧ taskPath task = key) ∧
      (∀ path ∈ response.latestByPath,
        path.latestResult = (newestOfPath s path.path).map compactResult) ∧
      (response.latestByPath.flatMap DashboardPathSummary.taskIDs).Perm
        ((s.tasks.rows.filter Task.live).map Task.id) ∧
      (∀ path ∈ response.latestByPath, path.taskIDs ≠ [] ∧ ∀ id, id ∈ path.taskIDs ↔
        ∃ task ∈ s.tasks.rows, task.live ∧ taskPath task = path.path ∧ task.id = id) ∧
      (response.failedTaskCount = (s.tasks.rows.filter Task.live).countP fun task ↦
        (newestOfTask s task.id).any fun row ↦ row.status = .failed) ∧
      (∃ rows, Store.Foremost newestFirst 1000
          (s.results.rows.filter fun row ↦ row.status.active) rows ∧
        response.activeRuns = rows.map compactResult) ∧
      ∃ rows, Store.Foremost latestEndFirst 5
          (s.results.rows.filter fun row ↦ row.status = .failed) rows ∧
        response.recentFailures = rows.map compactResult := by
  have hperm := Store.perm_queryDashboardTasks hfew
  refine ⟨_, by rw [dashboardResults, Store.getDashboardResults_of_few hfew], s.isNewest_maximum _,
    s.isNewest_maximum _, ?_⟩
  obtain ⟨hsummaries, hpaths, hfailed, hactive, hrecent⟩ := summarizes_foldl
    (Grouping.indexBy Result.taskID compactResult
      (Store.queryDashboardResults s.latestByTask newestFirst 1001))
    (Grouping.indexBy resultPath compactResult
      (Store.queryDashboardResults s.latestByPath newestFirst 1001))
    ((Store.queryDashboardResults (s.results.rows.filter fun row ↦ row.status.active)
      newestFirst 1000).map compactResult)
    ((Store.queryDashboardResults (s.results.rows.filter fun row ↦ row.status = .failed)
      latestEndFirst 5).map compactResult) s.queryDashboardTasks
  have hmem (key : PathKey) := (hpaths.mem_iff key).trans
    (exists_congr fun task ↦ by rw [mem_queryDashboardTasks hfew, and_assoc])
  refine ⟨⟨s.queryDashboardTasks, hperm, ?_⟩, hpaths.indexed.nodup, hmem, ?_, ?_, ?_, ?_, ?_, ?_⟩
  · rw [hsummaries]
    apply List.map_congr_left
    intro task htask
    rw [taskSummary, lookup_latestByTask hfew htask]
  · intro path hpath
    obtain ⟨task, htask, hkey⟩ := (hpaths.mem_iff _).mp (List.mem_map_of_mem hpath)
    rw [hpaths.latestResult path hpath, ← hkey, lookup_latestByPath hfew htask]
  · have hflat := Grouping.flatMap_fiber_perm taskPath hpaths.indexed.nodup
      fun task htask ↦ (hpaths.mem_iff _).mpr ⟨task, htask, rfl⟩
    have hids := (hflat.map Task.id).trans (hperm.map Task.id)
    rw [List.map_flatMap, List.flatMap_map] at hids
    rwa [List.flatMap_congr hpaths.taskIDs]
  · intro path hpath
    have hids (id : String) : id ∈ path.taskIDs ↔
        ∃ task ∈ s.tasks.rows, task.live ∧ taskPath task = path.path ∧ task.id = id := by
      rw [hpaths.taskIDs path hpath, List.mem_map]
      simp only [Grouping.mem_fiber, mem_queryDashboardTasks hfew, and_assoc]
    refine ⟨?_, hids⟩
    obtain ⟨task, htask, hlive, hkey⟩ := (hmem _).mp (List.mem_map_of_mem hpath)
    exact List.ne_nil_of_mem ((hids task.id).mpr ⟨task, htask, hlive, hkey, rfl⟩)
  · rw [hfailed, ← hperm.countP_eq]
    apply List.countP_congr
    intro task htask
    rw [lookup_latestByTask hfew htask, Option.any_map]
    rfl
  · exact ⟨_, Store.foremost_take newestFirst 1000 _, hactive.trans (map_compactResult_query _ _ _)⟩
  · exact ⟨_, Store.foremost_take latestEndFirst 5 _, hrecent.trans (map_compactResult_query _ _ _)⟩

/-- A task on the same path that never ran. -/
def idleTask : Task := { scheduledTask with id := "idle" }

/-- A run of the other task; all its runs are queued at the same time. -/
def tiedResult (id : String) (status : ResultStatus) : Result :=
  { Execution.queuedResult "" scheduledTask .manual none 0 with
    id := id
    status := status
    finishedAt := some 1 }

/-- Two tasks on one path, and two results of one of them that were queued at one time. -/
def tiedTasks : Store :=
  { oneTask with
    tasks := ⟨[scheduledTask, idleTask], by decide, by decide⟩
    results := ⟨[tiedResult "second" .failed, tiedResult "first" .succeeded], by decide, by simp⟩
    isConsistent := by decide }

theorem dashboardResults_tiedTasks : ∃ response path, dashboardResults tiedTasks = .ok response ∧
    (response.latestByTask.map fun task ↦ (task.taskID, task.latestResult)).Perm
      [("task", some (compactResult (tiedResult "second" .failed))), ("idle", none)] ∧
    response.latestByPath = [path] ∧ path.path = ("eth0", "192.0.2.10") ∧
    path.taskIDs.Perm ["task", "idle"] ∧
    path.latestResult = some (compactResult (tiedResult "second" .failed)) ∧
    response.failedTaskCount = 1 := by
  have hlive : tiedTasks.tasks.rows.filter Task.live = [scheduledTask, idleTask] := rfl
  have hsecond : newestOfTask tiedTasks scheduledTask.id = some (tiedResult "second" .failed) := rfl
  have hidle : newestOfTask tiedTasks idleTask.id = none := rfl
  have hboth : newestOfPath tiedTasks ("eth0", "192.0.2.10") =
      some (tiedResult "second" .failed) := rfl
  obtain ⟨response, hresponse, -, -, ⟨tasks, htasks, hlatest⟩, hnodup, hpaths, hnewest, hids, -,
    hfailed, -⟩ := @dashboardResults_of_few tiedTasks (by decide)
  rw [hlive] at htasks hids hfailed
  have hone : (response.latestByPath.map DashboardPathSummary.path).Perm
      [("eth0", "192.0.2.10")] := by
    refine (List.perm_ext_iff_of_nodup hnodup (List.nodup_singleton _)).mpr fun key ↦ ?_
    rw [hpaths, List.mem_singleton]
    constructor
    · rintro ⟨task, htask, -, rfl⟩
      rcases List.mem_cons.mp htask with rfl | htask
      · rfl
      · rw [List.mem_singleton.mp htask]
        rfl
    · rintro rfl
      exact ⟨scheduledTask, List.mem_cons_self, rfl, rfl⟩
  obtain ⟨path, hpath, hkey⟩ := List.map_eq_singleton_iff.mp (List.perm_singleton.mp hone)
  refine ⟨response, path, hresponse, ?_, hpath, hkey, ?_, ?_, ?_⟩
  · rw [hlatest, List.map_map]
    refine (htasks.map _).trans (List.Perm.of_eq ?_)
    simp only [List.map_cons, List.map_nil, Function.comp_apply, hsecond, hidle]
    rfl
  · rw [hpath, List.flatMap_singleton] at hids
    exact hids
  · rw [hnewest path (hpath ▸ List.mem_singleton_self path), hkey, hboth]
    rfl
  · rw [hfailed]
    simp only [List.countP_cons, List.countP_nil, hsecond, hidle]
    rfl

end MultiSpeed.Api
