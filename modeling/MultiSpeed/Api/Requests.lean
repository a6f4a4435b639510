import MultiSpeed.Api.ImportRequest

/-!
# Sequences of requests

The requests follow one another under `configurationMu`.  Between two of them
the callbacks of the scheduler run, and results are written.
-/

namespace MultiSpeed.Api

open Database Scheduling

inductive Action where
  | request (request : Request) (ctx : Context)
  /-- A step of another component. -/
  | environment (action : Scheduling.Action)

/-- The statements on `results`. -/
def writesResults : Statement → Bool
  | .createResult .. | .updateResult .. | .deleteResult .. | .deleteResults ..
  | .deleteResultsBefore .. => true
  | .createTask .. | .updateTask .. | .deleteTask .. | .replaceConfiguration .. => false

/-- What happens next to the requests: callbacks and writes of results. -/
def unlocked : Scheduling.Action → Bool
  | .statement statement => writesResults statement
  | .fire _ | .advance .. => true
  | .reschedule .. | .remove .. | .reconcile .. => false

def step (env : Scheduling.Env) (s : Scheduling.State) : Action → Option Scheduling.State
  | .request request ctx => some { s with core := (handle env ctx.calls s.core request).1 }
  | .environment action => if unlocked action then Scheduling.step env s action else none

/-- The condition under which a request leaves the schedule in line with the
database. -/
def harmless (env : Scheduling.Env) (calls : Calls) (core : Core) : Request → Prop
  | .create input uuid => createHarmless calls core input uuid
  | .update id input => updateHarmless env calls core id input
  | .delete id => deleteHarmless calls core id
  | .duplicate _ _ => True
  | .importConfiguration input => importHarmless env calls core input

def Harmless (env : Scheduling.Env) (s : Scheduling.State) : Action → Prop
  | .request request ctx => harmless env ctx.calls s.core request
  | .environment _ => True

theorem handle_handled {env : Scheduling.Env} {core : Core} (hcore : Synced env core)
    (ctx : Context) (request : Request) :
    Handled env (handle env ctx.calls core request).1 (harmless env ctx.calls core request) := by
  cases request with
  | create input uuid => exact createTask_handled hcore ctx input uuid
  | update id input => exact updateTask_handled hcore ctx id input
  | delete id => exact deleteTask_handled hcore ctx id
  | duplicate id uuid => exact duplicateTask_handled hcore ctx id uuid
  | importConfiguration input => exact importConfiguration_handled hcore ctx input

theorem Handled.synced {env : Scheduling.Env} {core : Core} {condition : Prop}
    (h : Handled env core condition) (hcondition : condition) : Synced env core :=
  ⟨h.wellFormed, h.agree.mpr hcondition, h.maps, h.schedulable hcondition⟩

/-! ## The start -/

/-- The registration of one task is as it should be, and can be repeated. -/
def Settled (env : Scheduling.Env) (core : Core) (k : String) : Prop :=
  registered? core.scheduler k = wanted? core.store k ∧
    ∀ row, core.store.getTask k = .ok row → schedulable env row = true

theorem settled_rescheduled {env : Scheduling.Env} {core : Core} {taskID : String}
    {out : Outcome} (hcore : core.scheduler.WellFormed) (h : Rescheduled env core taskID out)
    (hnone : out.error = none) {k : String} (hk : taskID = k ∨ Settled env core k) :
    Settled env out.core k := by
  refine ⟨?_, fun row' hrow' ↦ ?_⟩
  · rw [registered?_rescheduled hcore h, hnone, wanted?_onlyNext h.onlyNext]
    rcases hk with rfl | hk
    · rw [if_pos rfl]
      rfl
    · split
      · rfl
      · exact hk.1
  · obtain ⟨row, next, stamp, hrow, rfl⟩ := h.onlyNext.getTask_of hrow'
    rcases hk with rfl | hk
    · cases h with
      | failed => cases hnone
      | disabled loaded off stored =>
          rw [loaded] at hrow
          obtain rfl := Except.ok.inj hrow
          exact schedulable_of_disabled off
      | registered loaded on registers stored =>
          rw [loaded] at hrow
          obtain rfl := Except.ok.inj hrow
          rw [schedulable]
          exact (congrArg _ registers).trans (Bool.or_true _)
    · exact hk.2 row hrow

theorem settled_rescheduleAll {env : Scheduling.Env} {calls : Calls} {k : String} :
    ∀ (tasks : List Task) (used : ℕ) {core : Core}, core.scheduler.WellFormed →
      (rescheduleAll env calls used core tasks).error = none →
      (k ∈ tasks.map Task.id ∨ Settled env core k) →
      Settled env (rescheduleAll env calls used core tasks).core k
  | [], _, _, _, _, hk => hk.resolve_left (by simp)
  | task :: rest, used, core, hcore, hnone, hk => by
      have hspec := rescheduleLocked_spec env calls hcore used task.id
      rw [rescheduleAll] at hnone ⊢
      revert hspec hnone
      generalize rescheduleLocked env calls used core task.id = out
      intro hnone hspec
      split at hnone
      · cases hnone
      · rename_i hdone
        refine settled_rescheduleAll rest out.used (hspec.wellFormed hcore) hnone ?_
        rw [List.map_cons, List.mem_cons] at hk
        rcases hk with (rfl | hk) | hk
        · exact .inr (settled_rescheduled hcore hspec hdone (.inl rfl))
        · exact .inl hk
        · exact .inr (settled_rescheduled hcore hspec hdone (.inr hk))

/-- A start without error brings the schedule in line with the database. -/
theorem start_synced {env : Scheduling.Env} {calls : Calls} {store : Store}
    (hmaps : StoredMaps store) (hstart : (start env calls 0 ⟨store, .new⟩).error = none) :
    Synced env (start env calls 0 ⟨store, .new⟩).core := by
  have hnew := Scheduler.wellFormed_new
  unfold start at hstart ⊢
  split
  · rename_i e hlist
    rw [hlist] at hstart
    cases hstart
  · rename_i tasks hlist
    rw [hlist] at hstart
    have hmem : ∀ task, task ∈ tasks ↔
        store.task? task.id = some task ∧ task.enabled = true ∧ task.live = true :=
      fun _ ↦ Store.mem_listEnabledTasks (Call.serve_eq_ok_iff.mp hlist).2
    have hsettled : ∀ k, Settled env
        (rescheduleAll env calls 1 ⟨store, .new⟩ tasks).core k := by
      intro k
      refine settled_rescheduleAll tasks 1 hnew hstart ?_
      by_cases hk : k ∈ tasks.map Task.id
      · exact .inl hk
      · have hoff : ∀ row, store.getTask k = .ok row → row.enabled = false := by
          intro row hrow
          obtain ⟨hfind, hlive⟩ := Store.getTask_eq_ok_iff.mp hrow
          obtain rfl := Store.getTask_id hrow
          by_contra hon
          exact hk (List.mem_map_of_mem ((hmem row).mpr ⟨hfind, by simpa using hon, hlive⟩))
        refine .inr ⟨?_, fun row hrow ↦ schedulable_of_disabled (hoff row hrow)⟩
        have hwanted : wanted? store k = none := by
          rw [wanted?]
          split
          · rename_i row hrow
            rw [hoff row hrow]
            rfl
          · rfl
        exact hwanted.symm
    have hnewCore : (⟨store, .new⟩ : Core).scheduler.WellFormed ∧
        OnlyNext store (⟨store, .new⟩ : Core).store := ⟨hnew, .refl store⟩
    obtain ⟨hwell, honly⟩ := rescheduleAll_induction
      (P := fun core ↦ core.scheduler.WellFormed ∧ OnlyNext store core.store)
      (fun core used taskID hcore ↦
        have hspec := rescheduleLocked_spec env calls hcore.1 used taskID
        ⟨hspec.wellFormed hcore.1, hcore.2.trans hspec.onlyNext⟩)
      tasks 1 hnewCore
    exact ⟨hwell, fun k ↦ (hsettled k).1, hmaps.onlyNext honly, fun k ↦ (hsettled k).2⟩

/-! ## Steps of the other components -/

theorem writesResults_same {s s' : Store} {statement : Statement}
    (hresults : writesResults statement = true) (h : statement.execute s = .ok s') :
    Store.SameExceptResults s s' := by
  cases statement with
  | createTask | updateTask | deleteTask | replaceConfiguration => cases hresults
  | createResult result uuid now =>
      obtain ⟨⟨created, s''⟩, hcreate, rfl⟩ := Database.Except.map_ok h
      obtain ⟨-, -, -, -, hsame⟩ := Store.createResult_ok hcreate
      exact hsame
  | updateResult result =>
      obtain ⟨-, -, -, hsame⟩ := Store.updateResult_ok h
      exact hsame
  | deleteResult id => exact (Store.deleteResult_ok h).same
  | deleteResults ids => exact (Store.deleteResults_ok h).same
  | deleteResultsBefore cutoff batchSize => exact (Store.deleteResultsBefore_ok h).same

theorem writesResults_task? {s s' : Store} {statement : Statement}
    (hresults : writesResults statement = true) (h : statement.execute s = .ok s') (k : String) :
    s'.task? k = s.task? k :=
  (writesResults_same hresults h).task? k

theorem Synced.sameTasks {env : Scheduling.Env} {core : Core} {store : Store}
    (hcore : Synced env core) (h : ∀ k, store.task? k = core.store.task? k) :
    Synced env { core with store := store } := by
  refine ⟨hcore.wellFormed, fun k ↦ ?_, fun k row hrow ↦ ?_, fun k row hrow ↦ ?_⟩
  · exact (hcore.agree k).trans (wanted?_congr (h k)).symm
  · exact hcore.maps k row ((h k).symm.trans hrow)
  · exact hcore.schedulable k row ((getTask_congr (h k)).symm.trans hrow)

theorem Synced.setLocalFire {env : Scheduling.Env} {core : Core} (hcore : Synced env core)
    (taskID : String) (localKey : ℤ) :
    Synced env { core with scheduler := core.scheduler.setLocalFire taskID localKey } :=
  ⟨hcore.wellFormed.setLocalFire taskID localKey, hcore.agree, hcore.maps, hcore.schedulable⟩

/-- A callback writes both activations of a row. -/
theorem Synced.updateTaskSchedule {env : Scheduling.Env} {core : Core} {store : Store}
    {taskID : String} {last next : Option Time} {stamp : Time} (hcore : Synced env core)
    (h : core.store.updateTaskSchedule taskID last next stamp = .ok store) :
    Synced env { core with store := store } := by
  obtain ⟨row, hfind, hlive, hwrite, -⟩ := Store.updateTaskSchedule_ok h
  have hrow : core.store.getTask taskID = .ok row := Store.getTask_eq_ok_iff.mpr ⟨hfind, hlive⟩
  have hrow' : store.getTask taskID = .ok (Store.assignSchedule last next stamp row) :=
    (getTask_write hwrite).trans (if_pos hlive)
  have htouch := touches_write hcore.wellFormed hwrite fun hmaps ↦ hmaps taskID row hfind
  refine (htouch.handled hcore (iff_of_true ?_ trivial) fun _ row' hnew ↦ ?_).synced trivial
  · rw [hcore.agree, wanted?_of_getTask hrow, wanted?_of_getTask hrow']
    rfl
  · rw [hrow'] at hnew
    obtain rfl := Except.ok.inj hnew
    exact hcore.schedulable taskID row hrow

theorem Synced.advanced {env : Scheduling.Env} {core core' : Core} (hcore : Synced env core)
    {input : Input} {index : ℕ} {c : Callback} {phase : Phase} {events : List Event}
    (h : Advanced input core index c core' phase events) : Synced env core' := by
  cases h with
  | quiet | queued => exact hcore
  | unsaved => exact hcore.setLocalFire _ _
  | persisted at_ valid loaded new later stored =>
      exact (hcore.updateTaskSchedule stored).setLocalFire _ _

theorem Synced.environment {env : Scheduling.Env} {s t : Scheduling.State}
    {action : Scheduling.Action} (hcore : Synced env s.core) (hunlocked : unlocked action = true)
    (h : Scheduling.step env s action = some t) : Synced env t.core := by
  cases step_spec h with
  | refused statement => exact hcore
  | executed executed => exact hcore.sameTasks (writesResults_task? hunlocked executed)
  | operated operated => cases operated <;> cases hunlocked
  | fired registered => exact hcore
  | advanced at_ advanced => exact hcore.advanced advanced

/-- A step keeps the invariant unless it is a request that loses a call it
depends on. -/
theorem Synced.step {env : Scheduling.Env} {s t : Scheduling.State} {action : Action}
    (hcore : Synced env s.core) (hharmless : Harmless env s action)
    (h : step env s action = some t) : Synced env t.core := by
  cases action with
  | request request ctx =>
      obtain rfl := Option.some.inj h
      exact (handle_handled hcore ctx request).synced hharmless
  | environment action =>
      rw [Api.step] at h
      split at h
      · rename_i hunlocked
        exact hcore.environment hunlocked h
      · cases h

/-- After a start without error the schedule agrees with the database in every
state that requests reach which keep to their condition, and a further request
leaves them in agreement exactly if it keeps to its own. -/
theorem schedule_matches_tasks {env : Scheduling.Env} {calls : Calls} {store : Store}
    {s : Scheduling.State} {actions : List Action} (hmaps : StoredMaps store)
    (hstart : (start env calls 0 ⟨store, .new⟩).error = none)
    (hharmless : Transition.Guarded (step env) (Harmless env)
      ⟨(start env calls 0 ⟨store, .new⟩).core, [], []⟩ actions)
    (hrun : Transition.run (step env) ⟨(start env calls 0 ⟨store, .new⟩).core, [], []⟩ actions =
      some s) :
    Synchronized s.core ∧ ∀ request (ctx : Context),
      Synchronized (handle env ctx.calls s.core request).1 ↔
        harmless env ctx.calls s.core request := by
  have hcore : Synced env s.core :=
    Transition.guarded_run_invariant (step env) (P := fun s ↦ Synced env s.core)
      (fun _ _ _ hs hg hstep ↦ hs.step hg hstep) (start_synced hmaps hstart) hharmless hrun
  refine ⟨(agree_iff hcore.wellFormed).mp hcore.agree, fun request ctx ↦ ?_⟩
  have hhandled := handle_handled hcore ctx request
  rw [← agree_iff hhandled.wellFormed]
  exact hhandled.agree

/-! ## Two requests, and one that is cancelled -/

/-- The scheduler started on the database with one task. -/
def oneTaskScheduled : Scheduling.State :=
  ⟨(start minutely (servedAt 0) 0 ⟨oneTask, .new⟩).core, [], []⟩

/-- A request for a second task like the first. -/
def createSecond : Request := .create (fun _ ↦ some { scheduledTask with id := "" }) "second"

/-- The task is disabled with a context that is done after the row is written, and
a second task is created. -/
def twoRequests : List Action :=
  [.request (.update "task" fun existing _ ↦ some { existing with enabled := false })
      (.served 3),
    .request createSecond (.background 0)]

theorem storedMaps_oneTask : StoredMaps oneTask := by
  intro k row hrow
  have hmem := Table.mem_of_find? hrow
  obtain rfl : row = scheduledTask := by simpa [oneTask] using hmem
  rfl

theorem schedule_matches_tasks_two :
    ∃ s, Transition.run (step minutely) oneTaskScheduled twoRequests = some s ∧
      Synchronized s.core := by
  have hstart : (start minutely (servedAt 0) 0 ⟨oneTask, .new⟩).error.isNone = true := by
    decide +kernel
  have hharmless : Transition.Guarded (step minutely) (Harmless minutely) oneTaskScheduled
      twoRequests := by
    refine ⟨?_, fun t _ ↦ ⟨fun _ _ _ _ _ ↦ rfl, fun _ _ ↦ trivial⟩⟩
    intro existing task _ hinput hon
    obtain rfl := Option.some.inj hinput
    cases hon
  exact ⟨_, rfl, (schedule_matches_tasks storedMaps_oneTask (Option.isNone_iff_eq_none.mp hstart)
    hharmless rfl).1⟩

/-- The context of a create request is done once the row is inserted.  Neither the
schedule nor the deletion that is to take the row back is served, and an enabled
task without an entry stays behind. -/
theorem cancelled_create_unscheduled :
    (start minutely (servedAt 0) 0 ⟨oneTask, .new⟩).error = none ∧
      ∃ s, Transition.run (step minutely) oneTaskScheduled
          [.request createSecond (.served 2)] = some s ∧
        (∃ task, s.core.store.getTask "second" = .ok task ∧ task.enabled = true) ∧
        "second" ∉ s.core.scheduler.entries ∧ ¬ Synchronized s.core := by
  have hstart : (start minutely (servedAt 0) 0 ⟨oneTask, .new⟩).error.isNone = true := by
    decide +kernel
  refine ⟨Option.isNone_iff_eq_none.mp hstart, _, rfl, ?_⟩
  have hwanted : (wanted? (handle minutely (Context.served 2).calls oneTaskScheduled.core
      createSecond).1.store "second").isSome = true := by decide +kernel
  have hentries : "second" ∉ (handle minutely (Context.served 2).calls oneTaskScheduled.core
      createSecond).1.scheduler.entries := by decide +kernel
  obtain ⟨spec, hspec⟩ := Option.isSome_iff_exists.mp hwanted
  obtain ⟨task, htask, hon, -⟩ := wanted?_eq_some_iff.mp hspec
  exact ⟨⟨task, htask, hon⟩, hentries, fun h ↦
    hentries ((h.registered "second").mpr ⟨task, htask, hon⟩).1⟩

end MultiSpeed.Api
