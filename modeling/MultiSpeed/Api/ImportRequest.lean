import MultiSpeed.Api.TaskRequests
import MultiSpeed.Database.Replacement

/-!
# The import of a configuration

An import takes all registrations away before it asks the store, and schedules
the new tasks, or where the store refuses them the old ones, in the order of
their list.  Scheduling stops at the first task that fails.
-/

namespace MultiSpeed.Api

open Database Scheduling

/-- Every enabled task that has to be scheduled again can be, and is reached by
a served call. -/
def importHarmless (env : Scheduling.Env) (calls : Calls) (core : Core)
    (input : Option Import) : Prop :=
  ∀ document current, input = some document →
    (calls 0).serve core.store.configuration = .ok current →
    match (calls 1).serve (core.store.replaceConfiguration document.settings document.routes
        document.tasks (calls 1).stamp) with
    | .ok _ => ∀ i task, document.tasks[i]? = some task → task.enabled = true →
        env.registers task = true ∧ (calls (2 * i + 3)).served = true
    | .error _ => ∀ i task, current.tasks[i]? = some task → task.enabled = true →
        (calls (2 * i + 3)).served = true

theorem Schedulable.onlyNext {env : Scheduling.Env} {s t : Store} (hs : Schedulable env s)
    (h : OnlyNext s t) : Schedulable env t := by
  intro k row' hrow'
  obtain ⟨row, next, stamp, hrow, rfl⟩ := h.getTask_of hrow'
  exact hs k row hrow

theorem StoredMaps.onlyNext {s t : Store} (hs : StoredMaps s) (h : OnlyNext s t) :
    StoredMaps t := by
  intro k row' hrow'
  cases hrow : s.task? k with
  | none =>
      rw [h.none k hrow] at hrow'
      cases hrow'
  | some row =>
      obtain ⟨next, stamp, hnew⟩ := h.some k row hrow
      rw [hnew] at hrow'
      obtain rfl := Option.some.inj hrow'
      exact hs k row hrow

/-- `Reconcile` with a list that holds every task to be registered. -/
theorem reconcile_handled {env : Scheduling.Env} (ctx : Context) {core : Core}
    {tasks : List Task} (hcore : core.scheduler.WellFormed) (hmaps : StoredMaps core.store)
    (hnd : (tasks.map Task.id).Nodup)
    (hlive : ∀ task ∈ tasks, ∃ row, core.store.getTask task.id = .ok row)
    (hall : ∀ k, k ∉ tasks.map Task.id → wanted? core.store k = none)
    (hschedulable : Reached env ctx core.store 2 tasks → Schedulable env core.store) :
    Handled env (reconcile env ctx.calls 2 core tasks).core
      (Reached env ctx core.store 2 tasks) := by
  have hrelisted : Relisted env ctx 2 { core with scheduler := core.scheduler.clearAll } tasks
      (reconcile env ctx.calls 2 core tasks).core :=
    rescheduleAll_relisted env ctx tasks 2 hcore.clearAll hnd hlive
      fun task _ ↦ registered?_clearAll hcore task.id
  refine ⟨hrelisted.wellFormed, hmaps.onlyNext hrelisted.onlyNext, ?_, fun hreached ↦
    (hschedulable hreached).onlyNext hrelisted.onlyNext⟩
  rw [← hrelisted.agree]
  constructor
  · intro hagree task htask
    exact (hagree task.id).trans (wanted?_onlyNext hrelisted.onlyNext task.id)
  · intro hagree k
    refine Eq.trans ?_ (wanted?_onlyNext hrelisted.onlyNext k).symm
    by_cases hk : k ∈ tasks.map Task.id
    · obtain ⟨task, htask, rfl⟩ := List.mem_map.mp hk
      exact hagree task htask
    · exact (hrelisted.others k hk).trans ((registered?_clearAll hcore k).trans (hall k hk).symm)

/-! ## The tasks of the document -/

theorem replaceConfiguration_encodable {s s' : Store} {settings : Settings}
    {routes : List RouteProfile} {tasks : List Task} {now : Time}
    (h : s.replaceConfiguration settings routes tasks now = .ok s') :
    ∀ task ∈ tasks, (encodableMap task.customServerDefinition &&
      encodableMap task.providerOptions) = true := by
  unfold Store.replaceConfiguration at h
  split at h
  · cases h
  · rename_i hencodable
    rw [Bool.not_eq_true', Bool.not_eq_false, List.all_eq_true] at hencodable
    exact hencodable

/-- The row of a listed task has the columns of the document and is live. -/
theorem getTask_imported {s s' : Store} {settings : Settings} {routes : List RouteProfile}
    {tasks : List Task} {now : Time} (hnd : (tasks.map Task.id).Nodup)
    (h : s.replaceConfiguration settings routes tasks now = .ok s') {task : Task}
    (htask : task ∈ tasks) :
    s'.getTask task.id = .ok (importTaskRow task now (s.task? task.id)) := by
  have hlive : (importTaskRow task now (s.task? task.id)).live = true := by
    cases s.task? task.id <;> rfl
  exact Store.getTask_eq_ok_iff.mpr ⟨task?_listed hnd h htask, hlive⟩

theorem importTaskRow_enabled (task : Task) (now : Time) (row : Option Task) :
    (importTaskRow task now row).enabled = task.enabled := by
  cases row <;> rfl

theorem importTaskRow_registers (env : Scheduling.Env) (task : Task) (now : Time)
    (row : Option Task) : env.registers (importTaskRow task now row) = env.registers task := by
  cases row <;> rfl

theorem getTask_retired {s s' : Store} {settings : Settings} {routes : List RouteProfile}
    {tasks : List Task} {now : Time}
    (h : s.replaceConfiguration settings routes tasks now = .ok s') {k : String}
    (hk : k ∉ tasks.map Task.id) (row : Task) : s'.getTask k ≠ .ok row := by
  intro hrow
  obtain ⟨hfind, hlive⟩ := Store.getTask_eq_ok_iff.mp hrow
  rw [task?_unlisted h hk] at hfind
  obtain ⟨old, hold, rfl⟩ := Option.map_eq_some_iff.mp hfind
  unfold retiredTask Table.retired at hlive
  split at hlive
  · cases hlive
  · contradiction

theorem wanted?_of_not_live {store : Store} {k : String}
    (h : ∀ row, store.getTask k ≠ .ok row) : wanted? store k = none := by
  rw [wanted?]
  split
  · rename_i row hrow
    exact absurd hrow (h row)
  · rfl

theorem StoredMaps.replaceConfiguration {s s' : Store} {settings : Settings}
    {routes : List RouteProfile} {tasks : List Task} {now : Time} (hs : StoredMaps s)
    (hnd : (tasks.map Task.id).Nodup)
    (h : s.replaceConfiguration settings routes tasks now = .ok s') : StoredMaps s' := by
  have hencodable := replaceConfiguration_encodable h
  intro k row hrow
  by_cases hk : k ∈ tasks.map Task.id
  · obtain ⟨task, htask, rfl⟩ := List.mem_map.mp hk
    rw [task?_listed hnd h htask] at hrow
    obtain rfl := Option.some.inj hrow
    have hmaps := hencodable task htask
    cases s.task? task.id <;> exact hmaps
  · rw [task?_unlisted h hk] at hrow
    obtain ⟨old, hold, rfl⟩ := Option.map_eq_some_iff.mp hrow
    have hmaps := hs k old hold
    unfold retiredTask Table.retired
    split <;> exact hmaps

/-! ## The listed tasks of the store -/

theorem listTasks_nodup {s : Store} {items : List Task} (h : s.listTasks = .ok items) :
    (items.map Task.id).Nodup := by
  rw [Store.capped_ok h]
  have hperm := (List.perm_insertionSort Store.taskOrder (s.tasks.rows.filter Task.live)).map
    Task.id
  rw [hperm.nodup_iff]
  exact s.tasks.keys_nodup.sublist (List.filter_sublist.map Task.id)

theorem getTask_listed {s : Store} {items : List Task} (h : s.listTasks = .ok items)
    {task : Task} (htask : task ∈ items) : s.getTask task.id = .ok task :=
  Store.getTask_eq_ok_iff.mpr ((Store.mem_listTasks h).mp htask)

theorem wanted?_unlisted {s : Store} {items : List Task} (h : s.listTasks = .ok items)
    {k : String} (hk : k ∉ items.map Task.id) : wanted? s k = none := by
  refine wanted?_of_not_live fun row hrow ↦ hk ?_
  obtain rfl := Store.getTask_id hrow
  exact List.mem_map_of_mem ((Store.mem_listTasks h).mpr (Store.getTask_eq_ok_iff.mp hrow))

/-- Which calls have to be served, read from the list. -/
theorem reached_iff {env : Scheduling.Env} {ctx : Context} {store : Store} {tasks : List Task}
    (hrows : ∀ task ∈ tasks, ∃ row, store.getTask task.id = .ok row ∧
      row.enabled = task.enabled ∧ env.registers row = env.registers task) :
    Reached env ctx store 2 tasks ↔
      ∀ i task, tasks[i]? = some task → task.enabled = true →
        env.registers task = true ∧ (ctx.calls (2 * i + 3)).served = true := by
  have hindex : ∀ i, 2 + 2 * i + 1 = 2 * i + 3 := by omega
  refine forall₂_congr fun i task ↦ imp_congr_right fun htask ↦ ?_
  obtain ⟨row, hrow, hon, hregisters⟩ := hrows task (List.mem_of_getElem? htask)
  rw [wanted?_of_getTask hrow, registrable_of_getTask hrow, hon, hregisters, hindex]
  cases task.enabled <;> simp

/-- The condition, once the document and the current configuration are known. -/
private theorem importHarmless_iff {env : Scheduling.Env} {calls : Calls} {core : Core}
    {document : Import} {current : ConfigurationSnapshot}
    (hcurrent : (calls 0).serve core.store.configuration = .ok current) :
    importHarmless env calls core (some document) ↔
      match (calls 1).serve (core.store.replaceConfiguration document.settings document.routes
          document.tasks (calls 1).stamp) with
      | .ok _ => ∀ i task, document.tasks[i]? = some task → task.enabled = true →
          env.registers task = true ∧ (calls (2 * i + 3)).served = true
      | .error _ => ∀ i task, current.tasks[i]? = some task → task.enabled = true →
          (calls (2 * i + 3)).served = true := by
  constructor
  · exact fun h ↦ h document current rfl hcurrent
  · intro h document' current' hdocument hcurrent'
    obtain rfl := Option.some.inj hdocument
    rw [hcurrent] at hcurrent'
    obtain rfl := Except.ok.inj hcurrent'
    exact h

theorem importConfiguration_handled {env : Scheduling.Env} {core : Core}
    (hcore : Synced env core) (ctx : Context) (input : Option Import) :
    Handled env (importConfiguration env ctx.calls core input).1
      (importHarmless env ctx.calls core input) := by
  unfold importConfiguration
  split
  · exact hcore.handled fun document current hdocument ↦ by cases hdocument
  · rename_i document
    split
    · rename_i e hrefused
      refine hcore.handled fun document current _ hcurrent ↦ ?_
      rw [hrefused] at hcurrent
      cases hcurrent
    · rename_i current hcurrent
      rw [importHarmless_iff hcurrent]
      have hlist := Store.configuration_tasks (Call.serve_eq_ok_iff.mp hcurrent).2
      have hpaused : ({ core with scheduler := core.scheduler.clearAll } : Core).scheduler.WellFormed :=
        hcore.wellFormed.clearAll
      dsimp only [reconcile, rescheduleAll]
      split
      · -- refused: the old tasks are scheduled again
        rename_i e hreplace
        rw [hreplace]
        have hrows : ∀ task ∈ current.tasks, ∃ row, core.store.getTask task.id = .ok row ∧
            row.enabled = task.enabled ∧ env.registers row = env.registers task :=
          fun task htask ↦ ⟨task, getTask_listed hlist htask, rfl, rfl⟩
        have hhandled := reconcile_handled ctx hpaused hcore.maps (listTasks_nodup hlist)
          (fun task htask ↦ ⟨task, getTask_listed hlist htask⟩)
          (fun k hk ↦ wanted?_unlisted hlist hk) fun _ ↦ hcore.schedulable
        refine hhandled.congr ((reached_iff hrows).trans ?_)
        refine forall₂_congr fun i task ↦ imp_congr_right fun htask ↦ imp_congr_right fun hon ↦ ?_
        have hpossible := hcore.schedulable task.id task
          (getTask_listed hlist (List.mem_of_getElem? htask))
        rw [schedulable, hon, Bool.not_true, Bool.false_or] at hpossible
        exact and_iff_right hpossible
      · -- stored: the tasks of the document are scheduled
        rename_i store hreplace
        rw [hreplace]
        obtain ⟨-, hstored⟩ := Call.serve_eq_ok_iff.mp hreplace
        have hrows : ∀ task ∈ document.tasks, ∃ row, store.getTask task.id = .ok row ∧
            row.enabled = task.enabled ∧ env.registers row = env.registers task :=
          fun task htask ↦ ⟨_, getTask_imported document.distinct hstored htask,
            importTaskRow_enabled task _ _, importTaskRow_registers env task _ _⟩
        have hschedulable : Reached env ctx store 2 document.tasks → Schedulable env store := by
          intro hreached k row hrow
          have hk : k ∈ document.tasks.map Task.id := by
            by_contra hk
            exact getTask_retired hstored hk row hrow
          obtain ⟨task, htask, rfl⟩ := List.mem_map.mp hk
          obtain ⟨i, hi⟩ := List.mem_iff_getElem?.mp htask
          obtain ⟨row', hrow', hon, hregisters⟩ := hrows task htask
          rw [hrow'] at hrow
          obtain rfl := Except.ok.inj hrow
          cases henabled : row'.enabled with
          | false => exact schedulable_of_disabled henabled
          | true =>
              have hpossible := ((reached_iff hrows).mp hreached i task hi (hon.symm.trans henabled)).1
              rw [schedulable, henabled, hregisters, hpossible]
              rfl
        have hwritten : (⟨store, core.scheduler.clearAll⟩ : Core).scheduler.WellFormed := hpaused
        have hhandled := reconcile_handled ctx hwritten
          (hcore.maps.replaceConfiguration document.distinct hstored) document.distinct
          (fun task htask ↦ ⟨_, getTask_imported document.distinct hstored htask⟩)
          (fun k hk ↦ wanted?_of_not_live (getTask_retired hstored hk)) hschedulable
        split <;> exact hhandled.congr (reached_iff hrows)

end MultiSpeed.Api
