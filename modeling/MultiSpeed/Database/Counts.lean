import MultiSpeed.Database.Dashboard

/-!
# Counted rows

`Counts` of `internal/database/settings.go`, and the rows that the other queries regard as
active.
-/

namespace MultiSpeed.Database.Store

/-- `status IN ('validating','running')` -/
def measuring (row : Result) : Bool := row.status = .validating || row.status = .running

/-- `SELECT COUNT(*) FROM tasks WHERE deleted_at IS NULL` -/
def countTasks (s : Store) : ℕ := (s.tasks.rows.filter Task.live).length

def countResults (s : Store) : ℕ := s.results.rows.length

/-- `SELECT COUNT(DISTINCT task_id) FROM results WHERE status IN ('validating','running')` -/
def countRunning (s : Store) : ℕ :=
  ((s.results.rows.filter measuring).map Result.taskID).dedup.length

/-- What `Counts` returns. -/
structure RowCounts where
  tasks : ℕ
  results : ℕ
  running : ℕ

/-- `Counts`: three statements, each of which may fail or see another state. -/
def counts (first second third : Except StoreError Store) : Except StoreError RowCounts :=
  match first with
  | .error err => .error err
  | .ok tasks =>
      match second with
      | .error err => .error err
      | .ok results =>
          match third with
          | .error err => .error err
          | .ok running => .ok ⟨tasks.countTasks, results.countResults, running.countRunning⟩

/-- The results that are queued, validating or running. -/
def activeRows (s : Store) : List Result := s.results.rows.filter fun row ↦ row.status.active

theorem mem_activeRows {s : Store} {row : Result} :
    row ∈ s.activeRows ↔ row ∈ s.results.rows ∧ row.status.active = true := List.mem_filter

/-! ## The queries for active results -/

theorem taskHasActiveResults_iff_activeRows (s : Store) (id : String) :
    s.taskHasActiveResults id = true ↔ ∃ row ∈ s.activeRows, row.taskID = id := by
  rw [taskHasActiveResults, List.any_eq_true]
  constructor
  · rintro ⟨row, hrow, h⟩
    obtain ⟨htask, hactive⟩ := Bool.and_eq_true_iff.mp h
    exact ⟨row, mem_activeRows.mpr ⟨hrow, hactive⟩, of_decide_eq_true htask⟩
  · rintro ⟨row, hrow, rfl⟩
    obtain ⟨hmem, hactive⟩ := mem_activeRows.mp hrow
    exact ⟨row, hmem, by rw [decide_eq_true rfl, hactive]; rfl⟩

theorem hasActive_iff_activeRows (s : Store) : s.hasActive = true ↔ s.activeRows ≠ [] := by
  rw [hasActive, List.any_eq_true]
  constructor
  · rintro ⟨row, hrow⟩
    exact List.ne_nil_of_mem (mem_activeRows.mpr hrow)
  · intro hne
    obtain ⟨row, hrow⟩ := List.exists_mem_of_ne_nil _ hne
    exact ⟨row, mem_activeRows.mp hrow⟩

theorem deleteTask_active_iff {s : Store} {id : String} {task : Task}
    (htask : s.getTask id = .ok task) (now : Time) :
    s.deleteTask id now = .error .active ↔ ∃ row ∈ s.activeRows, row.taskID = id := by
  rw [← taskHasActiveResults_iff_activeRows]
  cases hactive : s.taskHasActiveResults id with
  | true =>
      rw [deleteTask, markTaskDeleted, if_pos hactive]
      simp [deleteTaskReason, htask, hactive]
  | false =>
      obtain ⟨hrow, hlive⟩ := getTask_eq_ok_iff.mp htask
      obtain ⟨s', hs'⟩ := @markTaskDeleted_isOk s id now task hrow hlive hactive
      rw [deleteTask_eq_ok_iff.mpr hs']
      exact iff_of_false nofun Bool.false_ne_true

theorem commit_ne_active (tasks : TaskTable) (routes : RouteTable) (results : ResultTable)
    (settings : Settings) : commit tasks routes results settings ≠ .error .active := by
  intro h
  unfold commit at h
  split at h
  · cases h
  · cases h

/-- The guard of an import whose values can be stored. -/
theorem replaceConfiguration_active_iff {tasks : List Task}
    (hencodable : ∀ task ∈ tasks, encodableMap task.customServerDefinition = true ∧
      encodableMap task.providerOptions = true)
    (s : Store) (settings : Settings) (routes : List RouteProfile) (now : Time) :
    s.replaceConfiguration settings routes tasks now = .error .active ↔ s.activeRows ≠ [] := by
  have hall : (tasks.all fun task ↦ encodableMap task.customServerDefinition &&
      encodableMap task.providerOptions) = true := by
    rw [List.all_eq_true]
    intro task htask
    rw [(hencodable task htask).1, (hencodable task htask).2]
    rfl
  rw [← hasActive_iff_activeRows, replaceConfiguration, hall]
  cases hactive : s.hasActive with
  | true => exact iff_of_true rfl rfl
  | false =>
      apply iff_of_false _ Bool.false_ne_true
      rw [Bool.not_true, if_neg Bool.false_ne_true, if_neg Bool.false_ne_true]
      split
      · exact commit_ne_active _ _ _ _
      · exact nofun

/-- The active runs of a snapshot are the newest thousand active rows. -/
theorem activeRuns_of_getDashboardResults {s : Store} {results : DashboardResults}
    (h : s.getDashboardResults = .ok results) :
    ∃ rows, Foremost newestFirst 1000 s.activeRows rows ∧
      results.activeRuns = rows.map listColumns := by
  rw [getDashboardResults_of_few (getDashboardResults_ok_iff.mp ⟨results, h⟩)] at h
  obtain rfl := Except.ok.inj h
  exact ⟨_, foremost_take newestFirst 1000 _, rfl⟩

/-! ## The counted rows -/

theorem active_of_measuring {row : Result} (h : measuring row = true) :
    row.status.active = true := by
  obtain h | h := Bool.or_eq_true_iff.mp h
  · rw [of_decide_eq_true h]
    rfl
  · rw [of_decide_eq_true h]
    rfl

theorem measuring_of_active {row : Result} (h : row.status.active = true) :
    measuring row = true ↔ row.status ≠ .queued := by
  unfold measuring
  cases hstatus : row.status <;> simp_all [ResultStatus.active]

theorem filter_measuring (s : Store) :
    s.activeRows.filter measuring = s.results.rows.filter measuring := by
  rw [activeRows, List.filter_filter]
  apply List.filter_congr
  intro row _
  cases h : measuring row with
  | false => rfl
  | true => exact active_of_measuring h

/-- The count of tasks is the number of active rows exactly where each active row is
one of the counted ones and counted once. -/
theorem countRunning_eq_iff (s : Store) : s.countRunning = s.activeRows.length ↔
    (∀ row ∈ s.results.rows, row.status ≠ .queued) ∧
    ∀ row ∈ s.results.rows, ∀ row' ∈ s.results.rows, measuring row = true →
      measuring row' = true → row.taskID = row'.taskID → row = row' := by
  have hcounted := List.dedup_sublist ((s.results.rows.filter measuring).map Result.taskID)
  have hmeasuring : (s.results.rows.filter measuring).length ≤ s.activeRows.length := by
    rw [← filter_measuring]
    exact List.length_filter_le _ _
  have hqueued : (s.results.rows.filter measuring).length = s.activeRows.length ↔
      ∀ row ∈ s.results.rows, row.status ≠ .queued := by
    rw [← filter_measuring, List.length_filter_eq_length_iff]
    constructor
    · intro h row hrow hstatus
      have hactive : row.status.active = true := by rw [hstatus]; rfl
      exact (measuring_of_active hactive).mp (h row (mem_activeRows.mpr ⟨hrow, hactive⟩)) hstatus
    · intro h row hrow
      obtain ⟨hrow, hactive⟩ := mem_activeRows.mp hrow
      exact (measuring_of_active hactive).mpr (h row hrow)
  have honce : ((s.results.rows.filter measuring).map Result.taskID).Nodup ↔
      ∀ row ∈ s.results.rows, ∀ row' ∈ s.results.rows, measuring row = true →
        measuring row' = true → row.taskID = row'.taskID → row = row' := by
    rw [List.nodup_map_iff_inj_on (s.results_nodup.filter _)]
    simp only [List.mem_filter]
    constructor
    · intro h row hrow row' hrow' hm hm'
      exact h row ⟨hrow, hm⟩ row' ⟨hrow', hm'⟩
    · rintro h row ⟨hrow, hm⟩ row' ⟨hrow', hm'⟩
      exact h row hrow row' hrow' hm hm'
  rw [← hqueued, ← honce, countRunning]
  have hlength := hcounted.length_le
  rw [List.length_map] at hlength
  constructor
  · intro h
    refine ⟨by omega, List.dedup_eq_self.mp (hcounted.eq_of_length ?_)⟩
    rw [List.length_map]
    omega
  · rintro ⟨hlen, hnodup⟩
    rw [List.dedup_eq_self.mpr hnodup, List.length_map, hlen]

end MultiSpeed.Database.Store
