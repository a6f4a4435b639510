import MultiSpeed.Api.Agreement
import MultiSpeed.Database.Dashboard
import MultiSpeed.Scheduler.Reschedule

/-!
# The caps on lists

Five reads refuse a store with more than 1000 live tasks or profiles.  An import refuses
a longer document, but no creation counts what is there: the reads go on to work as long
as no row is added to a full store.
-/

namespace MultiSpeed.Configuring

open Api Concurrent Database Execution Network

variable {host : Host} {m m' : Memory}

/-! ## What the reads need -/

/-- The reads with a cap. -/
structure Readable (s : Store) : Prop where
  listTasks : ∃ items, s.listTasks = .ok items
  listEnabledTasks : ∃ items, s.listEnabledTasks = .ok items
  listRouteProfiles : ∃ items, s.listRouteProfiles = .ok items
  configuration : ∃ snapshot, s.configuration = .ok snapshot
  dashboard : ∃ results, s.getDashboardResults = .ok results

def taskCount (s : Store) : ℕ := (s.tasks.rows.filter Task.live).length

def routeCount (s : Store) : ℕ := (s.routes.rows.filter RouteProfile.live).length

/-- There are not too many live rows. -/
structure Bounded (s : Store) : Prop where
  tasks : taskCount s ≤ 1000
  routes : routeCount s ≤ 1000

theorem capped_ok_iff {α : Type} {items : List α} :
    (∃ items', Store.capped items = .ok items') ↔ items.length ≤ 1000 := by
  unfold Store.capped
  split
  · rename_i hmany
    exact ⟨(fun ⟨_, h⟩ ↦ by cases h), fun h ↦ absurd hmany (not_lt.mpr h)⟩
  · rename_i hfew
    exact ⟨fun _ ↦ not_lt.mp hfew, fun _ ↦ ⟨items, rfl⟩⟩

theorem listTasks_ok_iff {s : Store} : (∃ items, s.listTasks = .ok items) ↔ taskCount s ≤ 1000 := by
  rw [Store.listTasks, capped_ok_iff, List.length_insertionSort, taskCount]

theorem listRouteProfiles_ok_iff {s : Store} :
    (∃ items, s.listRouteProfiles = .ok items) ↔ routeCount s ≤ 1000 := by
  rw [Store.listRouteProfiles, Store.listConfigurationRoutes, capped_ok_iff,
    List.length_insertionSort, routeCount]

/-- The reads succeed exactly where the store is bounded. -/
theorem readable_iff_bounded {s : Store} : Readable s ↔ Bounded s := by
  constructor
  · exact fun h ↦ ⟨listTasks_ok_iff.mp h.listTasks, listRouteProfiles_ok_iff.mp h.listRouteProfiles⟩
  · intro h
    obtain ⟨tasks, htasks⟩ := listTasks_ok_iff.mpr h.tasks
    obtain ⟨routes, hroutes⟩ := listRouteProfiles_ok_iff.mpr h.routes
    have henabled : (s.tasks.rows.filter fun task ↦ task.enabled && task.live).length ≤ 1000 := by
      refine le_trans (Table.length_filter_le_of_find? fun k task htask hp ↦ ?_) h.tasks
      exact ⟨task, htask, (Bool.and_eq_true_iff.mp hp).2⟩
    refine ⟨⟨tasks, htasks⟩, ?_, ⟨routes, hroutes⟩, ⟨⟨s.getSettings, routes, tasks⟩, ?_⟩,
      Store.getDashboardResults_ok_iff.mpr h.tasks⟩
    · rw [Store.listEnabledTasks, capped_ok_iff, List.length_insertionSort]
      exact henabled
    · have hroutes' : s.listConfigurationRoutes = .ok routes := hroutes
      rw [Store.configuration, htasks]
      dsimp only
      rw [hroutes']

/-- A failure to reschedule is that of a task. -/
theorem rescheduleAll_error {env : Scheduling.Env} {calls : Scheduling.Calls} {used : ℕ}
    {core : Scheduling.Core} {tasks : List Task} {e : Scheduling.SchedulerError}
    (h : (Scheduling.rescheduleAll env calls used core tasks).error = some e) :
    ∃ id cause, e = .task id cause := by
  induction tasks generalizing used core with
  | nil => cases h
  | cons task rest ih =>
      simp only [Scheduling.rescheduleAll] at h
      split at h
      · exact ⟨_, _, (Option.some.inj h).symm⟩
      · exact ih h

/-- The scheduler does not refuse a bounded store for its size. -/
theorem start_of_bounded {s : Store} (hs : Bounded s) (env : Scheduling.Env)
    (calls : Scheduling.Calls) (used : ℕ) (scheduler : Scheduling.Scheduler) :
    (Scheduling.start env calls used ⟨s, scheduler⟩).error ≠ some (.list .tooMany) := by
  obtain ⟨items, hitems⟩ := (readable_iff_bounded.mpr hs).listEnabledTasks
  intro h
  unfold Scheduling.start at h
  split at h
  · rename_i e hlist
    obtain rfl : e = .tooMany := by simpa using h
    rw [Scheduling.Call.serve, hitems, serve] at hlist
    split at hlist <;> cases hlist
  · obtain ⟨id, cause, hcause⟩ := rescheduleAll_error h
    cases hcause

/-! ## Counting live rows -/

theorem taskCount_le_of_same {s s' : Store} (h : s'.tasks = s.tasks) :
    taskCount s' ≤ taskCount s := by
  rw [taskCount, h, taskCount]

theorem routeCount_le_of_same {s s' : Store} (h : s'.routes = s.routes) :
    routeCount s' ≤ routeCount s := by
  rw [routeCount, h, routeCount]

/-- A write to a live task adds none. -/
theorem taskCount_le_of_write {s s' : Store} {id : String} {row written : Task}
    (hrow : s.task? id = some row) (hlive : row.live = true)
    (h : ∀ k, s'.task? k = if id = k then some written else s.task? k) :
    taskCount s' ≤ taskCount s := by
  refine Table.length_filter_le_of_find? fun k task htask hp ↦ ?_
  have hfind : s'.task? k = some task := htask
  rw [h] at hfind
  split at hfind
  · rename_i hk
    exact ⟨row, hk ▸ hrow, hlive⟩
  · exact ⟨task, hfind, hp⟩

/-- A write to a live profile adds none. -/
theorem routeCount_le_of_write {s s' : Store} {id : String} {row written : RouteProfile}
    (hrow : s.route? id = some row) (hlive : row.live = true)
    (h : ∀ k, s'.route? k = if id = k then some written else s.route? k) :
    routeCount s' ≤ routeCount s := by
  refine Table.length_filter_le_of_find? fun k profile hprofile hp ↦ ?_
  have hfind : s'.route? k = some profile := hprofile
  rw [h] at hfind
  split at hfind
  · rename_i hk
    exact ⟨row, hk ▸ hrow, hlive⟩
  · exact ⟨profile, hfind, hp⟩

theorem taskCount_le_of_quiet (h : Quiet m m') : taskCount m'.store ≤ taskCount m.store := by
  refine Table.length_filter_le_of_find? fun k task htask hp ↦ ?_
  obtain ⟨before, hbefore, hsettled⟩ := h.symm.task? htask
  exact ⟨before, hbefore, (settled_task_live hsettled).trans hp⟩

theorem routeCount_le_of_sameRoutes (h : SameRoutes m m') :
    routeCount m'.store ≤ routeCount m.store := by
  refine Table.length_filter_le_of_find? fun k profile hprofile hp ↦ ?_
  obtain ⟨before, hbefore, hsettled⟩ := h.symm.route? hprofile
  exact ⟨before, hbefore, (settled_live hsettled).trans hp⟩

/-- An imported document replaces the live rows. -/
theorem bounded_of_replaced {settings : Settings} {routes : List RouteProfile}
    {tasks : List Task} {now : Time} {interfaces : ℕ → List NetworkInterface} {s s' : Store}
    (hdocument : DocumentChecked host interfaces settings routes tasks)
    (h : s.replaceConfiguration settings routes tasks now = .ok s') : Bounded s' := by
  have hreplaced := replaced_of_ok hdocument.routesDistinct hdocument.tasksDistinct h
  constructor
  · have hle : taskCount s' ≤ (tasks.map Task.id).length :=
      Table.length_filter_le fun k task htask hp ↦ (hreplaced.liveTasks k).mp ⟨task, htask, hp⟩
    have hcount := hdocument.taskCount
    rw [List.length_map] at hle
    omega
  · have hle : routeCount s' ≤ (routes.map RouteProfile.id).length :=
      Table.length_filter_le fun k profile hprofile hp ↦
        (hreplaced.liveRoutes k).mp ⟨profile, hprofile, hp⟩
    have hcount := hdocument.routeCount
    rw [List.length_map] at hle
    omega

/-! ## The calls -/

def Call.createsTask : Call → Bool
  | .createTask _ => true
  | _ => false

def Call.createsRouteProfile : Call → Bool
  | .createRouteProfile _ => true
  | _ => false

/-- A row is created only where there are fewer than 1000. -/
def HasRoom (c : Call) (m : Memory) : Prop :=
  (c.createsTask = true → taskCount m.store < 1000) ∧
    (c.createsRouteProfile = true → routeCount m.store < 1000)

instance (c : Call) (m : Memory) : Decidable (HasRoom c m) := inferInstanceAs (Decidable (_ ∧ _))

/-- Every justified call that has room keeps the store bounded. -/
theorem Bounded.exec (i : Input) {c : Call} (hm : Bounded m.store)
    (hc : Justified host (fun m ↦ Bounded m.store) c m) (hroom : HasRoom c m) :
    Bounded (Configuring.exec host i c m).1.store := by
  have heffect := exec_effect host i c m
  generalize (Configuring.exec host i c m).1 = m' at heffect ⊢
  cases heffect with
  | none => exact hm
  | createTask hok =>
      obtain ⟨-, -, hwrite, hsame⟩ := Store.createTask_ok hok
      have hle := Table.length_filter_le_succ (p := Task.live) _ hwrite
      exact ⟨le_trans hle (hroom.1 rfl), le_trans (routeCount_le_of_same hsame.routes) hm.routes⟩
  | updateTask hok =>
      obtain ⟨row, hrow, hlive, hwrite, hsame⟩ := Store.updateTask_ok hok
      exact ⟨le_trans (taskCount_le_of_write hrow hlive hwrite) hm.tasks,
        le_trans (routeCount_le_of_same hsame.routes) hm.routes⟩
  | markTaskDeleted hok =>
      obtain ⟨-, row, hrow, hlive, hwrite, hsame⟩ := Store.markTaskDeleted_ok hok
      exact ⟨le_trans (taskCount_le_of_write hrow hlive hwrite) hm.tasks,
        le_trans (routeCount_le_of_same hsame.routes) hm.routes⟩
  | createRouteProfile hok =>
      obtain ⟨-, -, hwrite, hsame⟩ := Store.createRouteProfile_ok hok
      have hle := Table.length_filter_le_succ (p := RouteProfile.live) _ hwrite
      exact ⟨le_trans (taskCount_le_of_same hsame.tasks) hm.tasks, le_trans hle (hroom.2 rfl)⟩
  | updateRouteProfile hok =>
      obtain ⟨row, hrow, hlive, hwrite, hsame⟩ := Store.updateRouteProfile_ok hok
      exact ⟨le_trans (taskCount_le_of_same hsame.tasks) hm.tasks,
        le_trans (routeCount_le_of_write hrow hlive hwrite) hm.routes⟩
  | updateRouteValidation hok =>
      obtain ⟨row, hrow, hlive, hwrite, hsame⟩ := Store.updateRouteValidation_ok hok
      exact ⟨le_trans (taskCount_le_of_same hsame.tasks) hm.tasks,
        le_trans (routeCount_le_of_write hrow hlive hwrite) hm.routes⟩
  | markRouteDeleted hok =>
      obtain ⟨-, row, hrow, hlive, hwrite, hsame⟩ := Store.markRouteDeleted_ok hok
      exact ⟨le_trans (taskCount_le_of_same hsame.tasks) hm.tasks,
        le_trans (routeCount_le_of_write hrow hlive hwrite) hm.routes⟩
  | updateSettings hok =>
      obtain ⟨htasks, hroutes, -⟩ := Store.commit_settings_ok hok
      exact ⟨le_trans (taskCount_le_of_same htasks) hm.tasks,
        le_trans (routeCount_le_of_same hroutes) hm.routes⟩
  | replaceConfiguration hok =>
      obtain ⟨interfaces, document, hdocument⟩ := hc
      exact bounded_of_replaced (documentChecked_of_ok hdocument) hok

theorem Bounded.quiet (hm : Bounded m.store) (h : Quiet m m') : Bounded m'.store :=
  ⟨le_trans (taskCount_le_of_quiet h) hm.tasks,
    le_trans (routeCount_le_of_sameRoutes h.routes) hm.routes⟩

/-- In every run that stores a new task or profile only where there are fewer than 1000,
no read fails for its cap, and neither does the start of the scheduler. -/
theorem stores_stay_readable (host : Host) {start : Memory} (hstart : Readable start.store)
    {actions : List (Action Request String Input Change)}
    (hroom : Transition.Guarded (system host).step
      (System.Allowed (WhereStored host HasRoom) fun _ _ _ ↦ True) ⟨start, none, []⟩ actions)
    {s : State Call.Answer Memory Reply}
    (hrun : Transition.run (system host).step ⟨start, none, []⟩ actions = some s) :
    Readable s.shared.store ∧ ∀ env calls used scheduler,
      (Scheduling.start env calls used ⟨s.shared.store, scheduler⟩).error ≠
        some (.list .tooMany) := by
  have hkeeps : (system host).Keeps (fun m ↦ Bounded m.store) Quiet
      (Justified host fun m ↦ Bounded m.store) (fun c _ ↦ c.free = true)
      (WhereStored host HasRoom) fun _ _ _ ↦ True :=
    keeps_of (fun c m i hm hc hstored hroom ↦ hm.exec i hc (hroom hstored))
      (fun id checked m i hm _ _ ↦ hm.quiet (quiet_of_free i rfl m))
      fun change m m' hm h ↦ hm.quiet (quiet_of_change h)
  have hend : Bounded s.shared.store :=
    hkeeps.run (readable_iff_bounded.mp hstart) hroom hrun
  exact ⟨readable_iff_bounded.mpr hend, start_of_bounded hend⟩

/-- A task without a profile. -/
def plainTask : TaskInput := { wanTask "" with routeProfileID := none }

/-- The task is created. -/
def plainRun : List (Action Request String Input Change) :=
  requestRun (.createTask (some plainTask)) (List.replicate 5 (servedInput "task"))

theorem readable_empty : Readable emptyMemory.store :=
  readable_iff_bounded.mpr ⟨by decide, by decide⟩

theorem stores_stay_readable_one :
    ∃ s, smallRun plainRun = some s ∧
      (Readable s.shared.store ∧ ∀ env calls used scheduler,
        (Scheduling.start env calls used ⟨s.shared.store, scheduler⟩).error ≠
          some (.list .tooMany)) := by
  obtain ⟨s, hs⟩ := Option.isSome_iff_exists.mp
    (show (smallRun plainRun).isSome = true by decide +kernel)
  exact ⟨s, hs, stores_stay_readable smallHost readable_empty (by decide +kernel) hs⟩

/-! ## A store that is too full -/

/-- An identity that is longer than the ones before. -/
def nextID (n : ℕ) : String := String.ofList (List.replicate (n + 5) 'x')

theorem length_nextID (n : ℕ) : (nextID n).length = n + 5 := by simp [nextID]

/-- The stored task is duplicated under a new identity. -/
def duplicateRun (n : ℕ) : List (Action Request String Input Change) :=
  requestRun (.duplicateTask "task") [servedInput "", servedInput (nextID n)]

/-- The task and `n` copies of it are stored. -/
structure Crowded (source : Task) (n : ℕ) (s : State Call.Answer Memory Reply) : Prop where
  idle : s.holder = none
  source : s.shared.store.getTask "task" = .ok source
  count : taskCount s.shared.store = n + 1
  -- the identities in use are shorter than the next one
  short : ∀ k row, s.shared.store.task? k = some row → k.length ≤ n + 4

/-- A row without a profile and with an identity that is not in use is inserted. -/
theorem createTask_of_fresh {s : Store} (task : Task) (uuid : String) (now : Time)
    (hencoded : (encodableMap task.customServerDefinition &&
      encodableMap task.providerOptions) = true)
    (hcheck : taskCheck task = true) (hroute : task.routeProfileID = none)
    (hfresh : s.task? (Store.newTask task uuid now).id = none) :
    ∃ s', s.createTask task uuid now = .ok (Store.newTask task uuid now, s') ∧
      s'.tasks.rows = s.tasks.rows ++ [{ Store.newTask task uuid now with deletedAt := none }] := by
  obtain ⟨tasks, hinsert⟩ := Table.exists_insert (S := taskSchema) (t := s.tasks)
    (r := { Store.newTask task uuid now with deletedAt := none }) hfresh hcheck
  obtain ⟨htasks, hresults, hroutes, hsettings⟩ := Store.consistent_iff.mp s.isConsistent
  have hfind := Table.find?_insert hinsert
  have hconsistent : consistent tasks s.routes s.results s.settings = true := by
    refine Store.consistent_iff.mpr ⟨fun k row hrow id hid ↦ ?_, fun k row hrow ↦ ?_, hroutes,
      hsettings⟩
    · rw [hfind] at hrow
      split at hrow
      · obtain rfl := Option.some.inj hrow
        exact absurd (hroute.symm.trans hid) (by simp)
      · exact htasks k row hrow id hid
    · rw [hfind]
      split
      · rfl
      · exact hresults k row hrow
  obtain ⟨s', hs'⟩ := commit_of_consistent hconsistent
  refine ⟨s', ?_, ?_⟩
  · unfold Store.createTask
    rw [hencoded, hinsert]
    simp only [Bool.not_true, Bool.false_eq_true, if_false, Store.writeTasks, hs']
  · rw [(commit_eq_ok_iff.mp hs').1, Table.rows_insert hinsert]

/-- Each run of `duplicateTask` adds one copy. -/
theorem Crowded.duplicate {source : Task} {n : ℕ} {s : State Call.Answer Memory Reply}
    (h : Crowded source n s)
    (hencoded : (encodableMap source.customServerDefinition &&
      encodableMap source.providerOptions) = true)
    (hcheck : taskCheck (copyOf source) = true) (hroute : source.routeProfileID = none) :
    ∃ t, Transition.run (system smallHost).step s (duplicateRun n) = some t ∧
      Crowded source (n + 1) t := by
  have hid : (Store.newTask (copyOf source) (nextID n) 0).id = nextID n := rfl
  have hfresh : s.shared.store.task? (nextID n) = none := by
    cases hfind : s.shared.store.task? (nextID n) with
    | none => rfl
    | some row =>
        have hshort := h.short _ row hfind
        rw [length_nextID] at hshort
        omega
  obtain ⟨store, hcreate, hrows⟩ :=
    createTask_of_fresh (copyOf source) (nextID n) 0 hencoded hcheck hroute hfresh
  have hrun : Transition.run (system smallHost).step s (duplicateRun n) =
      some ⟨⟨store, s.shared.interfaces, s.shared.origin⟩, none, s.others⟩ := by
    simp [duplicateRun, requestRun, Transition.run, System.step, system, handle, duplicateTask,
      ask, exec, serve, servedInput, h.idle, h.source, hcreate]
  obtain ⟨-, -, hwrite, -⟩ := Store.createTask_ok hcreate
  rw [hid] at hwrite
  refine ⟨_, hrun, rfl, ?_, ?_, fun k row hrow ↦ ?_⟩
  · obtain ⟨hfind, hlive⟩ := Store.getTask_eq_ok_iff.mp h.source
    refine Store.getTask_eq_ok_iff.mpr ⟨?_, hlive⟩
    have hne : nextID n ≠ "task" := by
      intro heq
      have hlength := congrArg String.length heq
      rw [length_nextID, show ("task" : String).length = 4 from rfl] at hlength
      omega
    rw [hwrite, if_neg hne]
    exact hfind
  · have hcount := h.count
    rw [taskCount] at hcount ⊢
    rw [hrows, List.filter_append, List.length_append, hcount]
    rfl
  · rw [hwrite] at hrow
    split at hrow
    · rename_i hk
      rw [← hk, length_nextID]
    · have hshort := h.short k row hrow
      omega

/-- One task is stored, and it can be duplicated. -/
def duplicable (s : State Call.Answer Memory Reply) : Bool :=
  match s.shared.store.getTask "task" with
  | .ok source => s.holder.isNone && decide (taskCount s.shared.store = 1) &&
      s.shared.store.tasks.rows.all (fun row ↦ decide (row.id.length ≤ 4)) &&
      encodableMap source.customServerDefinition && encodableMap source.providerOptions &&
      taskCheck (copyOf source) && source.routeProfileID.isNone
  | .error _ => false

theorem exists_crowded (n : ℕ) : ∃ actions source s, smallRun actions = some s ∧
    Crowded source n s ∧ (encodableMap source.customServerDefinition &&
      encodableMap source.providerOptions) = true ∧ taskCheck (copyOf source) = true ∧
    source.routeProfileID = none := by
  induction n with
  | zero =>
      have hrun : (smallRun plainRun).any duplicable = true := by decide +kernel
      obtain ⟨s, hs, hduplicable⟩ := (Option.any_eq_true _ _).mp hrun
      unfold duplicable at hduplicable
      split at hduplicable
      · rename_i source hsource
        simp only [Bool.and_eq_true, decide_eq_true_eq, Option.isNone_iff_eq_none,
          List.all_eq_true] at hduplicable
        obtain ⟨⟨⟨⟨⟨⟨hidle, hcount⟩, hshort⟩, hdefinition⟩, hoptions⟩, hcheck⟩, hroute⟩ :=
          hduplicable
        refine ⟨plainRun, source, s, hs, ⟨hidle, hsource, hcount, fun k row hrow ↦ ?_⟩, ?_,
          hcheck, hroute⟩
        · rw [← Store.task?_id hrow]
          exact hshort row (Table.mem_of_find? hrow)
        · rw [hdefinition, hoptions, Bool.and_true]
      · cases hduplicable
  | succ n ih =>
      obtain ⟨actions, source, s, hs, hcrowded, hencoded, hcheck, hroute⟩ := ih
      obtain ⟨t, ht, hcrowded'⟩ := hcrowded.duplicate hencoded hcheck hroute
      exact ⟨actions ++ duplicateRun n, source, t,
        (Transition.run_append_iff _).mpr ⟨s, hs, ht⟩, hcrowded', hencoded, hcheck, hroute⟩

/-- After 1000 duplications of a task the reads fail. -/
theorem stores_stay_readable_crowded :
    ∃ actions s, smallRun actions = some s ∧ taskCount s.shared.store = 1001 ∧
      s.shared.store.listTasks = .error .tooMany ∧
      s.shared.store.configuration = .error .tooMany ∧
      ∀ results, s.shared.store.getDashboardResults ≠ .ok results := by
  obtain ⟨actions, source, s, hs, hcrowded, -⟩ := exists_crowded 1000
  have hcount := hcrowded.count
  have hlist : s.shared.store.listTasks = .error .tooMany := by
    rw [taskCount] at hcount
    rw [Store.listTasks, Store.capped, List.length_insertionSort, hcount, if_pos (by decide)]
  refine ⟨actions, s, hs, hcount, hlist, ?_, fun results h ↦ ?_⟩
  · rw [Store.configuration, hlist]
  · have hle := Store.getDashboardResults_ok_iff.mp ⟨results, h⟩
    rw [taskCount] at hcount
    omega

end MultiSpeed.Configuring
