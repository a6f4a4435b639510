import MultiSpeed.Database.Configuration
import MultiSpeed.Database.Timestamps
import MultiSpeed.Lib.Grouping
import Mathlib.Data.String.Basic

/-!
# The dashboard's snapshot

`GetDashboardResults` of `internal/database/dashboard.go`: the live tasks, the newest
result of each task and of each path of a live task, the active runs and the most
recent failures, in one read-only transaction.
-/

namespace MultiSpeed.Database

/-- `resultListColumns`: the large diagnostic columns are not loaded. -/
def listColumns (row : Result) : Result :=
  { row with routeValidationSnapshot := some [], rawProviderResponse := [] }

/-- The condition on `newer` under which `current` is not the newest. -/
def comesAfter (newer current : Result) : Bool :=
  decide (formatTime current.queuedAt < formatTime newer.queuedAt ∨
    formatTime newer.queuedAt = formatTime current.queuedAt ∧ current.id < newer.id)

/-- `ORDER BY queued_at DESC, id DESC` -/
def newestFirst (first second : Result) : Prop := comesAfter second first = false

instance : DecidableRel newestFirst := fun _ _ ↦ inferInstanceAs (Decidable (_ = _))

/-- `COALESCE(finished_at, started_at, queued_at)` -/
def endText (row : Result) : String :=
  ((row.finishedAt.map formatTime).or (row.startedAt.map formatTime)).getD
    (formatTime row.queuedAt)

/-- `ORDER BY COALESCE(finished_at, started_at, queued_at) DESC, id DESC` -/
def latestEndFirst (first second : Result) : Prop :=
  endText second < endText first ∨ endText second = endText first ∧ second.id ≤ first.id

instance : DecidableRel latestEndFirst := fun first second ↦ by
  unfold latestEndFirst
  infer_instance

/-- The path a result was measured on. -/
def resultPath (row : Result) : String × String := (row.selectedInterface, row.selectedSourceIP)

structure DashboardResults where
  tasks : List Task
  latestByTask : List Result
  latestByPath : List Result
  activeRuns : List Result
  recentFailures : List Result

namespace Store

/-- The rows of `results` that are selected, at most `limit`. -/
def queryDashboardResults (rows : List Result) (order : Result → Result → Prop)
    [DecidableRel order] (limit : ℕ) : List Result :=
  ((rows.insertionSort order).take limit).map listColumns

def queryDashboardTasks (s : Store) : List Task :=
  ((s.tasks.rows.filter Task.live).insertionSort taskOrder).take 1001

/-- The newest result of each live task. -/
def latestByTask (s : Store) : List Result :=
  (Grouping.maxima Result.taskID comesAfter s.results.rows).filter fun current ↦
    s.tasks.rows.any fun task ↦ decide (task.id = current.taskID) && task.live

/-- The newest result of each path of a live task. -/
def latestByPath (s : Store) : List Result :=
  (Grouping.maxima resultPath comesAfter s.results.rows).filter fun current ↦
    s.tasks.rows.any fun task ↦
      task.live && decide ((task.interfaceName, task.sourceIP) = resultPath current)

def maxDashboardTasks : ℕ := 1000

def getDashboardResults (s : Store) : Except StoreError DashboardResults :=
  let tasks := s.queryDashboardTasks
  if maxDashboardTasks < tasks.length then .error .tooMany
  else
    let latestByTask := queryDashboardResults s.latestByTask newestFirst 1001
    if maxDashboardTasks < latestByTask.length then .error .tooMany
    else
      let latestByPath := queryDashboardResults s.latestByPath newestFirst 1001
      if maxDashboardTasks < latestByPath.length then .error .tooMany
      else .ok {
        tasks := tasks
        latestByTask := latestByTask
        latestByPath := latestByPath
        activeRuns := queryDashboardResults
          (s.results.rows.filter fun row ↦ row.status.active) newestFirst 1000
        recentFailures := queryDashboardResults
          (s.results.rows.filter fun row ↦ row.status = .failed) latestEndFirst 5 }

/-! ## The orders -/

/-- The rows in descending order of a text, and of their identifiers where it is equal. -/
def Descending (text : Result → String) (first second : Result) : Prop :=
  text second < text first ∨ text second = text first ∧ second.id ≤ first.id

theorem newestFirst_iff {first second : Result} :
    newestFirst first second ↔ Descending (fun row ↦ formatTime row.queuedAt) first second := by
  rw [newestFirst, comesAfter, decide_eq_false_iff_not, Descending]
  rcases lt_trichotomy (formatTime second.queuedAt) (formatTime first.queuedAt) with h | h | h
  · simp [h, h.not_gt, h.ne]
  · simp only [h, lt_irrefl, false_or, true_and, not_lt]
  · simp [h, h.not_gt, h.ne']

theorem descending_total (text : Result → String) (first second : Result) :
    Descending text first second ∨ Descending text second first := by
  rcases lt_trichotomy (text second) (text first) with h | h | h
  · exact .inl (.inl h)
  · rcases le_total second.id first.id with hid | hid
    · exact .inl (.inr ⟨h, hid⟩)
    · exact .inr (.inr ⟨h.symm, hid⟩)
  · exact .inr (.inl h)

theorem descending_trans {text : Result → String} {first second third : Result}
    (h : Descending text first second) (h' : Descending text second third) :
    Descending text first third := by
  rcases h with h | ⟨h, hid⟩
  · rcases h' with h' | ⟨h', -⟩
    · exact .inl (h'.trans h)
    · exact .inl (h'.trans_lt h)
  · rcases h' with h' | ⟨h', hid'⟩
    · exact .inl (h'.trans_eq h)
    · exact .inr ⟨h'.trans h, hid'.trans hid⟩

instance : Std.Total newestFirst where
  total first second := by
    rw [newestFirst_iff, newestFirst_iff]
    exact descending_total _ first second

instance : IsTrans Result newestFirst where
  trans first second third h h' := by
    rw [newestFirst_iff] at h h' ⊢
    exact descending_trans h h'

instance : Std.Total latestEndFirst where
  total := descending_total endText

instance : IsTrans Result latestEndFirst where
  trans _ _ _ h h' := descending_trans h h'

/-- The first rows of an order, `limit` of them where there are as many. -/
structure Foremost (order : Result → Result → Prop) (limit : ℕ) (rows chosen : List Result) :
    Prop where
  length_eq : chosen.length = min limit rows.length
  subperm : chosen.Subperm rows
  ordered : chosen.Pairwise order
  before : ∀ row ∈ chosen, ∀ row' ∈ rows, row' ∉ chosen → order row row'

theorem foremost_take (order : Result → Result → Prop) [DecidableRel order] [Std.Total order]
    [IsTrans Result order] (limit : ℕ) (rows : List Result) :
    Foremost order limit rows ((rows.insertionSort order).take limit) := by
  have hsorted := List.pairwise_insertionSort order rows
  have hperm := List.perm_insertionSort order rows
  refine ⟨?_, ?_, hsorted.sublist (List.take_sublist _ _), ?_⟩
  · rw [List.length_take, List.length_insertionSort]
  · exact (List.take_sublist _ _).subperm.trans hperm.subperm
  · intro row hrow row' hrow' hout
    have hsplit := List.take_append_drop limit (rows.insertionSort order)
    have hmem : row' ∈ (rows.insertionSort order).drop limit := by
      have hall : row' ∈ rows.insertionSort order := hperm.mem_iff.mpr hrow'
      rw [← hsplit, List.mem_append] at hall
      exact hall.resolve_left hout
    rw [← hsplit] at hsorted
    exact (List.pairwise_append.mp hsorted).2.2 row hrow row' hmem

/-! ## The newest results -/

/-- The result of a key that was queued after all others of the key, where it has one. -/
def IsNewest {κ : Type} (key : Result → κ) (rows : List Result) (k : κ) : Option Result → Prop
  | none => ∀ row ∈ rows, key row ≠ k
  | some newest => newest ∈ rows ∧ key newest = k ∧
      ∀ row ∈ rows, key row = k → row ≠ newest → comesAfter newest row = true

/-! ## The caps -/

/-- Of two results one was queued after the other. -/
theorem comesAfter_total {row row' : Result} (h : row.id ≠ row'.id) :
    comesAfter row row' = true ∨ comesAfter row' row = true := by
  simp only [comesAfter, decide_eq_true_eq]
  rcases lt_trichotomy (formatTime row.queuedAt) (formatTime row'.queuedAt) with hlt | heq | hlt
  · exact .inr (.inl hlt)
  · rcases lt_or_gt_of_ne h with hid | hid
    · exact .inr (.inr ⟨heq.symm, hid⟩)
    · exact .inl (.inr ⟨heq, hid⟩)
  · exact .inl (.inl hlt)

theorem comesAfter_irrefl (row : Result) : comesAfter row row = false := by
  rw [comesAfter, decide_eq_false_iff_not]
  rintro (h | ⟨-, h⟩)
  · exact lt_irrefl _ h
  · exact lt_irrefl _ h

theorem comesAfter_trans {first second third : Result} (h : comesAfter first second = true)
    (h' : comesAfter second third = true) : comesAfter first third = true := by
  rw [comesAfter, decide_eq_true_eq] at h h' ⊢
  rcases h with h | ⟨h, hid⟩
  · rcases h' with h' | ⟨h', -⟩
    · exact .inl (h'.trans h)
    · exact .inl (h'.symm.trans_lt h)
  · rcases h' with h' | ⟨h', hid'⟩
    · exact .inl (h'.trans_eq h.symm)
    · exact .inr ⟨h.trans h', hid'.trans hid⟩

theorem results_nodup (s : Store) : s.results.rows.Nodup := s.results.keys_nodup.of_map

theorem results_comesAfter_total (s : Store) : ∀ row ∈ s.results.rows, ∀ row' ∈ s.results.rows,
    row ≠ row' → comesAfter row row' = true ∨ comesAfter row' row = true := by
  intro row hrow row' hrow' hne
  refine comesAfter_total fun hid ↦ hne ?_
  have hfind : s.results.find? row.id = some row := Table.find?_of_mem hrow
  have hfind' : s.results.find? row.id = some row' := hid ▸ Table.find?_of_mem hrow'
  exact Option.some.inj (hfind.symm.trans hfind')

theorem isNewest_maximum {κ : Type} [DecidableEq κ] (s : Store) (key : Result → κ) (k : κ) :
    IsNewest key s.results.rows k (Grouping.maximum key comesAfter s.results.rows k) := by
  cases hmax : Grouping.maximum key comesAfter s.results.rows k with
  | some newest =>
      obtain ⟨hmem, hkey⟩ :=
        (Grouping.maximum_eq_some_iff s.results_nodup s.results_comesAfter_total).mp hmax
      obtain ⟨hrow, hlast⟩ := Grouping.mem_maxima.mp hmem
      refine ⟨hrow, hkey, ?_⟩
      intro row hrow' hkey' hne
      rcases s.results_comesAfter_total newest hrow row hrow' hne.symm with h | h
      · exact h
      · rw [hlast row hrow' (hkey'.trans hkey.symm)] at h
        cases h
  | none =>
      intro row hrow hkey
      obtain ⟨row', hmem, hkey'⟩ := @Grouping.exists_mem_maxima _ κ _ key _ _ comesAfter_irrefl
        (fun _ _ _ ↦ comesAfter_trans) _ hrow
      rw [(Grouping.maximum_eq_some_iff s.results_nodup s.results_comesAfter_total).mpr
        ⟨hmem, hkey'.trans hkey⟩] at hmax
      cases hmax

theorem length_latestByTask_le (s : Store) :
    s.latestByTask.length ≤ (s.tasks.rows.filter Task.live).length := by
  have hle : s.latestByTask.length ≤ ((s.tasks.rows.filter Task.live).map Task.id).length := by
    refine Grouping.length_maxima_le s.results_nodup s.results_comesAfter_total fun row _ hp ↦ ?_
    obtain ⟨task, htask, hid⟩ := List.any_eq_true.mp hp
    simp only [Bool.and_eq_true, decide_eq_true_eq] at hid
    exact List.mem_map.mpr ⟨task, List.mem_filter.mpr ⟨htask, hid.2⟩, hid.1⟩
  simpa using hle

theorem length_latestByPath_le (s : Store) :
    s.latestByPath.length ≤ (s.tasks.rows.filter Task.live).length := by
  have hle : s.latestByPath.length ≤ ((s.tasks.rows.filter Task.live).map fun task ↦
      (task.interfaceName, task.sourceIP)).length := by
    refine Grouping.length_maxima_le s.results_nodup s.results_comesAfter_total fun row _ hp ↦ ?_
    obtain ⟨task, htask, hpath⟩ := List.any_eq_true.mp hp
    simp only [Bool.and_eq_true, decide_eq_true_eq] at hpath
    exact List.mem_map.mpr ⟨task, List.mem_filter.mpr ⟨htask, hpath.1⟩, hpath.2⟩
  simpa using hle

theorem length_queryDashboardResults_le (rows : List Result) (order : Result → Result → Prop)
    [DecidableRel order] (limit : ℕ) :
    (queryDashboardResults rows order limit).length ≤ rows.length := by
  simp only [queryDashboardResults, List.length_map, List.length_take, List.length_insertionSort]
  exact min_le_right _ _

theorem length_queryDashboardTasks (s : Store) :
    s.queryDashboardTasks.length = min 1001 (s.tasks.rows.filter Task.live).length := by
  simp only [queryDashboardTasks, List.length_take, List.length_insertionSort]

/-- The snapshot of a store that does not have too many live tasks. -/
theorem getDashboardResults_of_few {s : Store}
    (hfew : (s.tasks.rows.filter Task.live).length ≤ 1000) :
    s.getDashboardResults = .ok {
      tasks := s.queryDashboardTasks
      latestByTask := queryDashboardResults s.latestByTask newestFirst 1001
      latestByPath := queryDashboardResults s.latestByPath newestFirst 1001
      activeRuns := queryDashboardResults
        (s.results.rows.filter fun row ↦ row.status.active) newestFirst 1000
      recentFailures := queryDashboardResults
        (s.results.rows.filter fun row ↦ row.status = .failed) latestEndFirst 5 } := by
  have htasks := s.length_queryDashboardTasks
  have hlatest := s.length_latestByTask_le
  have hpaths := s.length_latestByPath_le
  have hcap : ¬ maxDashboardTasks < s.queryDashboardTasks.length := by
    rw [htasks, maxDashboardTasks]
    omega
  have hcap' : ¬ maxDashboardTasks <
      (queryDashboardResults s.latestByTask newestFirst 1001).length := by
    have := length_queryDashboardResults_le s.latestByTask newestFirst 1001
    rw [maxDashboardTasks]
    omega
  have hcap'' : ¬ maxDashboardTasks <
      (queryDashboardResults s.latestByPath newestFirst 1001).length := by
    have := length_queryDashboardResults_le s.latestByPath newestFirst 1001
    rw [maxDashboardTasks]
    omega
  rw [getDashboardResults, if_neg hcap]
  dsimp only
  rw [if_neg hcap', if_neg hcap'']

/-- The snapshot fails exactly where there are more than 1000 live tasks. -/
theorem getDashboardResults_ok_iff {s : Store} :
    (∃ results, s.getDashboardResults = .ok results) ↔
      (s.tasks.rows.filter Task.live).length ≤ 1000 := by
  constructor
  · rintro ⟨results, h⟩
    by_contra hmany
    have hcap : maxDashboardTasks < s.queryDashboardTasks.length := by
      rw [s.length_queryDashboardTasks, maxDashboardTasks]
      omega
    unfold getDashboardResults at h
    rw [if_pos hcap] at h
    cases h
  · exact fun hfew ↦ ⟨_, getDashboardResults_of_few hfew⟩

theorem perm_queryDashboardTasks {s : Store}
    (hfew : (s.tasks.rows.filter Task.live).length ≤ 1000) :
    s.queryDashboardTasks.Perm (s.tasks.rows.filter Task.live) := by
  rw [queryDashboardTasks, List.take_of_length_le]
  · exact List.perm_insertionSort taskOrder _
  · rw [List.length_insertionSort]
    omega

/-- All rows are selected where they are not too many. -/
theorem perm_queryDashboardResults {rows : List Result} (order : Result → Result → Prop)
    [DecidableRel order] {limit : ℕ} (hfew : rows.length ≤ limit) :
    (queryDashboardResults rows order limit).Perm (rows.map listColumns) := by
  rw [queryDashboardResults, List.take_of_length_le]
  · exact (List.perm_insertionSort order rows).map _
  · rwa [List.length_insertionSort]

end Store

end MultiSpeed.Database
