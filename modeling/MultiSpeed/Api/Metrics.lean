import MultiSpeed.Database.Counts
import MultiSpeed.Execution.Results

/-!
# The exported gauges

The collector of the application state in `internal/api/metrics.go`, against the queries
that ask for active results.
-/

namespace MultiSpeed.Api

open Database

/-- `prometheus.Desc` without labels. -/
structure Desc where
  fqName : String
  help : String
  deriving DecidableEq

/-- `prometheus.Metric`, as far as the collector makes one.  The counts are far below
2^53, where a `float64` holds each of them. -/
inductive Metric where
  | gauge (desc : Desc) (value : ℕ)
  | invalid (desc : Desc) (err : StoreError)
  deriving DecidableEq

namespace applicationStateCollector

def tasks : Desc := ⟨"multispeed_tasks", "Current number of persisted speed-test tasks."⟩

def results : Desc := ⟨"multispeed_results", "Current number of persisted result records."⟩

def activeRuns : Desc :=
  ⟨"multispeed_active_runs", "Current number of queued, validating, or running tests."⟩

/-- `Collect` -/
def collect : Except StoreError Store.RowCounts → List Metric
  | .error err => [.invalid tasks err]
  | .ok counts =>
      [.gauge tasks counts.tasks, .gauge results counts.results, .gauge activeRuns counts.running]

/-- What is exported while the store is in one state. -/
def exported (s : Store) : List Metric := collect (Store.counts (.ok s) (.ok s) (.ok s))

theorem mem_exported_activeRuns {s : Store} {value : ℕ} :
    .gauge activeRuns value ∈ exported s ↔ value = s.countRunning := by
  simp [exported, collect, Store.counts, activeRuns, tasks, results]

/-- The other queries have one notion of an active result.  The exported number of active
runs is the number of these exactly where none is queued and no two belong to one task. -/
theorem exported_activeRuns_iff (s : Store) :
    ((∀ id, s.taskHasActiveResults id = true ↔ ∃ row ∈ s.activeRows, row.taskID = id) ∧
      (∀ id task now, s.getTask id = .ok task →
        (s.deleteTask id now = .error .active ↔ ∃ row ∈ s.activeRows, row.taskID = id)) ∧
      (∀ settings routes tasks now,
        (∀ task ∈ tasks, encodableMap task.customServerDefinition = true ∧
          encodableMap task.providerOptions = true) →
        (s.replaceConfiguration settings routes tasks now = .error .active ↔
          s.activeRows ≠ [])) ∧
      ∀ results, s.getDashboardResults = .ok results →
        ∃ rows, Store.Foremost newestFirst 1000 s.activeRows rows ∧
          results.activeRuns = rows.map listColumns) ∧
    (.gauge activeRuns s.activeRows.length ∈ exported s ↔
      (∀ row ∈ s.results.rows, row.status ≠ .queued) ∧
      ∀ row ∈ s.results.rows, ∀ row' ∈ s.results.rows, Store.measuring row = true →
        Store.measuring row' = true → row.taskID = row'.taskID → row = row') := by
  refine ⟨⟨s.taskHasActiveResults_iff_activeRows, ?_, ?_, ?_⟩, ?_⟩
  · intro id task now htask
    exact Store.deleteTask_active_iff htask now
  · intro settings routes tasks now hencodable
    exact Store.replaceConfiguration_active_iff hencodable s settings routes now
  · intro results h
    exact Store.activeRuns_of_getDashboardResults h
  · rw [mem_exported_activeRuns, ← s.countRunning_eq_iff]
    exact eq_comm

end applicationStateCollector

/-- A call has created its row and has not sent the job. -/
def queuedRun : List Execution.Action :=
  .queue "task" .manual none :: List.replicate 5 (.call 0 Execution.callInput)

/-- A queued test is active and is not exported. -/
theorem exported_queuedRun_fails :
    Transition.Reachable (Execution.step Execution.offline) Execution.Initial
        (Execution.oneTaskRun queuedRun) ∧
      (Execution.oneTaskRun queuedRun).store.activeRows.map Result.status = [.queued] ∧
      applicationStateCollector.exported (Execution.oneTaskRun queuedRun).store =
        [.gauge applicationStateCollector.tasks 1, .gauge applicationStateCollector.results 1,
          .gauge applicationStateCollector.activeRuns 0] :=
  ⟨Execution.reachable_oneTaskRun (by decide +kernel), by decide +kernel, by decide +kernel⟩

end MultiSpeed.Api
