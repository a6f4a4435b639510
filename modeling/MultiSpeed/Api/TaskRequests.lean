import MultiSpeed.Api.Synchronized

/-!
# Requests for one task

Creating, updating, deleting and duplicating a task.  Each handler writes a row
and then the schedule, and repairs a failure of the second with calls of the same
context.  The conditions say which of its calls have to be served.
-/

namespace MultiSpeed.Api

open Database Scheduling

/-! ## Creating a task -/

/-- An enabled task is created only if the fourth call is served: the one that
stores its activation, or the one that deletes it again. -/
def createHarmless (calls : Calls) (core : Core) (input : Settings → Option Task)
    (uuid : String) : Prop :=
  ∀ task, input core.store.getSettings = some task → task.enabled = true →
    ∀ created, (calls 1).serve (core.store.createTask task uuid (calls 1).stamp) = .ok created →
      (calls 3).served = true

theorem createTask_encodable {s s' : Store} {task created : Task} {uuid : String} {now : Time}
    (h : s.createTask task uuid now = .ok (created, s')) :
    (encodableMap task.customServerDefinition && encodableMap task.providerOptions) = true := by
  unfold Store.createTask at h
  split at h
  · cases h
  · rename_i hencodable
    simpa using hencodable

/-- A task that was just created has no results. -/
theorem idle_of_fresh {s : Store} {id : String} (h : s.task? id = none) :
    s.taskHasActiveResults id = false := by
  rw [← Bool.not_eq_true, Store.taskHasActiveResults_iff]
  rintro ⟨k, result, hresult, rfl, -⟩
  obtain ⟨task, htask⟩ := s.task?_of_result? hresult
  rw [h] at htask
  cases htask

theorem taskHasActiveResults_congr {s t : Store} (h : Store.SameExceptTasks s t) (id : String) :
    t.taskHasActiveResults id = s.taskHasActiveResults id := by
  rw [Store.taskHasActiveResults, Store.taskHasActiveResults, h.results]

theorem deleteCall_unserved {calls : Calls} {used : ℕ} {store : Store} {id : String}
    (h : (calls used).served = false) :
    deleteCall calls used store id = (.error .unavailable, used + 1) := by
  rw [deleteCall, Call.serve, h]
  rfl

theorem deleteCall_idle {calls : Calls} {used : ℕ} {store : Store} {id : String} {row : Task}
    (hserved : (calls used).served = true) (hrow : store.getTask id = .ok row)
    (hidle : store.taskHasActiveResults id = false) :
    ∃ store', deleteCall calls used store id = (.ok store', used + 1) ∧
      ∃ now, ∀ k, store'.task? k =
        if id = k then some (Store.assignDeleted now row) else store.task? k := by
  obtain ⟨hfind, hlive⟩ := Store.getTask_eq_ok_iff.mp hrow
  obtain ⟨store', hmark⟩ : ∃ store', store.markTaskDeleted id (calls used).stamp = .ok store' :=
    Store.markTaskDeleted_isOk hfind hlive hidle
  refine ⟨store', ?_, (calls used).stamp, ?_⟩
  · rw [deleteCall, Call.serve_eq_ok_iff.mpr ⟨hserved, hmark⟩]
  · obtain ⟨-, row', hfind', -, htasks, -⟩ := Store.markTaskDeleted_ok hmark
    rw [hfind] at hfind'
    obtain rfl := Option.some.inj hfind'
    exact htasks

/-- A served deletion of a task with an active result asks for the reason. -/
theorem deleteCall_active {calls : Calls} {used : ℕ} {store : Store} {id : String}
    (hserved : (calls used).served = true) (hactive : store.taskHasActiveResults id = true) :
    ∃ e, deleteCall calls used store id = (.error e, used + 2) := by
  have hmark : store.markTaskDeleted id (calls used).stamp = .error .notFound := by
    rw [Store.markTaskDeleted, hactive, if_pos rfl]
  have hserve : (calls used).serve (store.markTaskDeleted id (calls used).stamp) =
      .error .notFound := by
    rw [Call.serve, hserved, hmark]
    rfl
  rw [deleteCall, hserve]
  dsimp only
  split
  · exact ⟨_, rfl⟩
  · exact ⟨_, rfl⟩

/-- After a deletion nothing is wanted for the task. -/
theorem touches_deletion {core : Core} {store : Store} {taskID : String} {row : Task}
    {now : Time} (hcore : core.scheduler.WellFormed)
    (hrow : core.store.getTask taskID = .ok row)
    (hwrite : ∀ k, store.task? k =
      if taskID = k then some (Store.assignDeleted now row) else core.store.task? k) :
    Touches taskID core { core with store := store } ∧ wanted? store taskID = none ∧
      ∀ row', store.getTask taskID ≠ .ok row' := by
  have hget := getTask_write hwrite
  refine ⟨touches_write hcore hwrite fun hmaps ↦ ?_, ?_, fun row' hrow' ↦ ?_⟩
  · exact hmaps taskID row (Store.getTask_eq_ok_iff.mp hrow).1
  · rw [wanted?, hget]
    rfl
  · rw [hget] at hrow'
    cases hrow'

/-- From the created row to the end of the handler. -/
theorem scheduleCreated_handled {env : Scheduling.Env} {core : Core} (hcore : Synced env core)
    (ctx : Context) {task created : Task} {uuid : String} {now : Time} {store : Store}
    (hcreated : core.store.createTask task uuid now = .ok (created, store)) :
    Handled env (scheduleCreated env ctx.calls { core with store := store } created.id).1
      (task.enabled = true → (ctx.calls 3).served = true) := by
  obtain ⟨rfl, hfresh, hwrite, hsame⟩ := Store.createTask_ok hcreated
  obtain ⟨row, hrow, hon⟩ : ∃ row, store.getTask (Store.newTask task uuid now).id = .ok row ∧
      row.enabled = task.enabled := ⟨_, getTask_write hwrite, rfl⟩
  rw [← hon]
  have hmaps : (encodableMap task.customServerDefinition &&
      encodableMap task.providerOptions) = true := createTask_encodable hcreated
  have hinsert : Touches (Store.newTask task uuid now).id core { core with store := store } :=
    touches_write hcore.wellFormed hwrite fun _ ↦ hmaps
  have hhandled := attempt_handled ctx hcore hinsert hrow 2
  have hspec := rescheduleLocked_spec env ctx.calls hinsert.wellFormed 2
    (Store.newTask task uuid now).id
  have hattempt : Attempt env ctx.calls 2 row (rescheduleLocked env ctx.calls 2
      { core with store := store } (Store.newTask task uuid now).id) :=
    rescheduleLocked_attempt env ctx.calls 2 hrow
  unfold scheduleCreated
  revert hhandled hspec hattempt
  generalize rescheduleLocked env ctx.calls 2 { core with store := store }
    (Store.newTask task uuid now).id = out
  intro hhandled hspec hattempt
  dsimp only
  -- a deletion that is not served leaves what the attempt left
  have hlost : ∀ e, out.error = some e → (ctx.calls out.used).served = false →
      (ctx.calls 3).served = false →
      Handled env (ignoreError out.core
        (deleteCall ctx.calls out.used out.core.store (Store.newTask task uuid now).id).1)
        (row.enabled = true → (ctx.calls 3).served = true) := by
    intro e he hrefused hthree
    rw [deleteCall_unserved hrefused]
    refine hhandled.congr (imp_congr_right fun _ ↦ ?_)
    simp [hthree]
  cases hattempt with
  | stored read possible written succeeded count =>
      rw [succeeded]
      refine hhandled.congr (imp_congr_right fun hon ↦ and_iff_right ?_)
      rwa [schedulable, hon, Bool.not_true, Bool.false_or] at possible
  | unread refused failed count =>
      obtain ⟨e, he⟩ := Option.isSome_iff_exists.mp failed
      rw [he]
      exact hlost e he (ctx.unserved_of_le (by omega) refused)
        (ctx.unserved_of_le (by omega) refused)
  | unstored possible refused failed count =>
      obtain ⟨e, he⟩ := Option.isSome_iff_exists.mp failed
      rw [he]
      exact hlost e he (ctx.unserved_of_le (by omega) refused) refused
  | unschedulable read refused failed count =>
      obtain ⟨e, he⟩ := Option.isSome_iff_exists.mp failed
      rw [he]
      cases hthree : (ctx.calls 3).served with
      | false => exact hthree ▸ hlost e he (by rw [count]; exact hthree) hthree
      | true =>
          have hidle : out.core.store.taskHasActiveResults (Store.newTask task uuid now).id =
              false := by
            rw [taskHasActiveResults_congr hspec.onlyNext.same, taskHasActiveResults_congr hsame]
            exact idle_of_fresh hfresh
          obtain ⟨next, stamp, hrow'⟩ := hspec.onlyNext.getTask hrow
          have hserved : (ctx.calls out.used).served = true := by rw [count]; exact hthree
          obtain ⟨store', hdelete, now', hwrite'⟩ := deleteCall_idle hserved hrow' hidle
          have hreach := hinsert.trans (touches_reschedule hinsert.wellFormed hspec)
          obtain ⟨hdeletion, hwanted, hgone⟩ := touches_deletion hreach.wellFormed hrow' hwrite'
          rw [hdelete]
          refine (hreach.trans hdeletion).handled hcore (iff_of_true ?_ fun _ ↦ rfl)
            fun _ row hrow ↦ absurd hrow (hgone row)
          have hnone := registered?_rescheduled hinsert.wellFormed hspec
            (Store.newTask task uuid now).id
          rw [if_pos rfl, failed, if_pos rfl] at hnone
          exact hnone.trans hwanted.symm

theorem createTask_handled {env : Scheduling.Env} {core : Core} (hcore : Synced env core)
    (ctx : Context) (input : Settings → Option Task) (uuid : String) :
    Handled env (createTask env ctx.calls core input uuid).1
      (createHarmless ctx.calls core input uuid) := by
  unfold createTask
  split
  · rename_i e hsettings
    refine hcore.handled fun task _ _ created hcreated ↦ ?_
    have hserved := ctx.served_of_le (by omega : 0 ≤ 1) (Call.serve_eq_ok_iff.mp hcreated).1
    rw [Call.serve_eq_ok_iff.mpr ⟨hserved, rfl⟩] at hsettings
    cases hsettings
  · rename_i settings hsettings
    obtain rfl := Except.ok.inj (Call.serve_eq_ok_iff.mp hsettings).2
    split
    · rename_i hnone
      refine hcore.handled fun task htask ↦ ?_
      rw [hnone] at htask
      cases htask
    · rename_i task htask
      split
      · rename_i e hrefused
        refine hcore.handled fun task' htask' _ created hcreated ↦ ?_
        rw [htask] at htask'
        obtain rfl := Option.some.inj htask'
        rw [hrefused] at hcreated
        cases hcreated
      · rename_i created store hcreated
        have hcondition : createHarmless ctx.calls core input uuid ↔
            (task.enabled = true → (ctx.calls 3).served = true) := by
          constructor
          · exact fun h hon ↦ h task htask hon _ hcreated
          · intro h task' htask' hon _ _
            rw [htask] at htask'
            obtain rfl := Option.some.inj htask'
            exact h hon
        rw [hcondition]
        exact scheduleCreated_handled hcore ctx (Call.serve_eq_ok_iff.mp hcreated).2

/-! ## Updating a task -/

/-- An enabled task is stored only if its activation is stored too.  Where it
cannot be scheduled the existing task is restored and, if enabled, scheduled. -/
def updateHarmless (env : Scheduling.Env) (calls : Calls) (core : Core) (id : String)
    (input : Task → Settings → Option Task) : Prop :=
  ∀ existing task, core.store.getTask id = .ok existing →
    input existing core.store.getSettings = some task → task.enabled = true →
    ∀ store, (calls 2).serve (core.store.updateTask { task with id := id } (calls 2).stamp) =
        .ok store →
      (calls (if env.registers task || !existing.enabled then 4 else 6)).served = true

theorem updateTask_encodable {s s' : Store} {task : Task} {now : Time}
    (h : s.updateTask task now = .ok s') :
    (encodableMap task.customServerDefinition && encodableMap task.providerOptions) = true := by
  unfold Store.updateTask at h
  split at h
  · cases h
  · rename_i hencodable
    simpa using hencodable

/-- What was stored once can be stored again. -/
theorem updateTask_isOk {s : Store} {task row : Task} (now : Time)
    (hrow : s.getTask task.id = .ok row)
    (hmaps : (encodableMap task.customServerDefinition &&
      encodableMap task.providerOptions) = true)
    (hcheck : taskCheck task = true)
    (hroute : ∀ p ∈ task.routeProfileID, (s.route? p).isSome) :
    ∃ s', s.updateTask task now = .ok s' := by
  obtain ⟨hfind, hlive⟩ := Store.getTask_eq_ok_iff.mp hrow
  rw [Store.updateTask, hmaps]
  exact Store.updateLiveTask_isOk hfind hlive hcheck hroute

/-- From the stored row to the end of the handler. -/
theorem scheduleUpdated_handled {env : Scheduling.Env} {core : Core} (hcore : Synced env core)
    (ctx : Context) {existing task : Task} {now : Time} {store : Store}
    (hexisting : core.store.getTask existing.id = .ok existing) (hid : task.id = existing.id)
    (hupdated : core.store.updateTask task now = .ok store) :
    Handled env (scheduleUpdated env ctx.calls { core with store := store } existing).1
      (task.enabled = true →
        (ctx.calls (if env.registers task || !existing.enabled then 4 else 6)).served = true) := by
  obtain ⟨hfind, hlive⟩ := Store.getTask_eq_ok_iff.mp hexisting
  obtain ⟨old, hold, -, hwrite, hsame⟩ := Store.updateTask_ok hupdated
  rw [hid] at hold hwrite
  obtain rfl := Option.some.inj (hfind.symm.trans hold)
  have hmaps : (encodableMap task.customServerDefinition &&
      encodableMap task.providerOptions) = true := updateTask_encodable hupdated
  have hupdate : Touches existing.id core { core with store := store } :=
    touches_write hcore.wellFormed hwrite fun _ ↦ hmaps
  obtain ⟨row, hrow, hon, hregisters⟩ : ∃ row, store.getTask existing.id = .ok row ∧
      row.enabled = task.enabled ∧ env.registers row = env.registers task :=
    ⟨_, (getTask_write hwrite).trans (if_pos hlive), rfl, rfl⟩
  rw [← hon, ← hregisters]
  have hhandled := attempt_handled ctx hcore hupdate hrow 3
  have hspec := rescheduleLocked_spec env ctx.calls hupdate.wellFormed 3 existing.id
  have hattempt : Attempt env ctx.calls 3 row (rescheduleLocked env ctx.calls 3
      { core with store := store } existing.id) := rescheduleLocked_attempt env ctx.calls 3 hrow
  unfold scheduleUpdated
  revert hhandled hspec hattempt
  generalize rescheduleLocked env ctx.calls 3 { core with store := store } existing.id = out
  intro hhandled hspec hattempt
  dsimp only
  have hreach := hupdate.trans (touches_reschedule hupdate.wellFormed hspec)
  obtain ⟨next, stamp, hrow'⟩ := hspec.onlyNext.getTask hrow
  -- once the context is done the new row stays, without a registration
  have hlost : (ctx.calls 4).served = false → (ctx.calls out.used).served = false →
      Handled env (rescheduleLocked env ctx.calls (out.used + 1)
        (ignoreError out.core ((ctx.calls out.used).serve
          (out.core.store.updateTask existing (ctx.calls out.used).stamp))) existing.id).core
        (row.enabled = true →
          (ctx.calls (if env.registers row || !existing.enabled then 4 else 6)).served = true) := by
    intro hfour hrefused
    have hlast := attempt_handled ctx hcore hreach hrow' (out.used + 1)
    rw [Call.serve, hrefused]
    refine hlast.congr (imp_congr_right fun _ ↦ ?_)
    have hsix := ctx.unserved_of_le (by omega : 4 ≤ 6) hfour
    have hlater := ctx.unserved_of_le (by omega : out.used ≤ out.used + 1 + 1) hrefused
    rw [hlater]
    split <;> simp [hfour, hsix]
  cases hattempt with
  | stored read possible written succeeded count =>
      rw [succeeded]
      refine hhandled.congr (imp_congr_right fun hon ↦ ?_)
      rw [schedulable, hon, Bool.not_true, Bool.false_or] at possible
      simp [possible]
  | unread refused failed count =>
      obtain ⟨e, he⟩ := Option.isSome_iff_exists.mp failed
      rw [he]
      exact hlost (ctx.unserved_of_le (by omega) refused) (ctx.unserved_of_le (by omega) refused)
  | unstored possible refused failed count =>
      obtain ⟨e, he⟩ := Option.isSome_iff_exists.mp failed
      rw [he]
      exact hlost refused (ctx.unserved_of_le (by omega) refused)
  | unschedulable read refused failed count =>
      obtain ⟨e, he⟩ := Option.isSome_iff_exists.mp failed
      rw [he]
      cases hfour : (ctx.calls 4).served with
      | false => exact hlost hfour (by rw [count]; exact hfour)
      | true =>
          -- the existing task is restored, and it could be scheduled
          have hcheck : taskCheck existing = true := Table.check_of_find? hfind
          have hroute : ∀ p ∈ existing.routeProfileID, (out.core.store.route? p).isSome := by
            intro p hp
            rw [hspec.onlyNext.same.route?, hsame.route?]
            exact (Store.consistent_iff.mp core.store.isConsistent).1 existing.id existing hfind p hp
          obtain ⟨restored, hrestored⟩ := updateTask_isOk (ctx.calls out.used).stamp hrow'
            (hcore.maps _ existing hfind) hcheck hroute
          obtain ⟨last, hlast, hlastLive, hrewrite, -⟩ := Store.updateTask_ok hrestored
          have hrestore : Touches existing.id out.core { out.core with store := restored } :=
            touches_write hreach.wellFormed hrewrite fun _ ↦ hcore.maps _ existing hfind
          obtain ⟨row'', hrow'', hon'', hregisters''⟩ :
              ∃ row'', restored.getTask existing.id = .ok row'' ∧
                row''.enabled = existing.enabled ∧
                env.registers row'' = env.registers existing :=
            ⟨_, (getTask_write hrewrite).trans (if_pos hlastLive), rfl, rfl⟩
          rw [Call.serve_eq_ok_iff.mpr ⟨by rw [count]; exact hfour, hrestored⟩]
          have hrestoredHandled :=
            attempt_handled ctx hcore (hreach.trans hrestore) hrow'' (out.used + 1)
          refine hrestoredHandled.congr ?_
          have hpossible := hcore.schedulable existing.id existing hexisting
          obtain ⟨hon, hnot⟩ := unschedulable_iff.mp refused
          rw [schedulable] at hpossible
          rw [hon'', hregisters'', hon, hnot, count]
          cases hold : existing.enabled with
          | false => simp [hfour]
          | true =>
              rw [hold, Bool.not_true, Bool.false_or] at hpossible
              simp [hpossible]

theorem updateTask_handled {env : Scheduling.Env} {core : Core} (hcore : Synced env core)
    (ctx : Context) (id : String) (input : Task → Settings → Option Task) :
    Handled env (updateTask env ctx.calls core id input).1
      (updateHarmless env ctx.calls core id input) := by
  unfold updateTask
  split
  · rename_i e hexisting
    refine hcore.handled fun existing task htask _ _ store hstore ↦ ?_
    have hserved := ctx.served_of_le (by omega : 0 ≤ 2) (Call.serve_eq_ok_iff.mp hstore).1
    rw [Call.serve_eq_ok_iff.mpr ⟨hserved, htask⟩] at hexisting
    cases hexisting
  · rename_i existing hexisting
    obtain ⟨-, hexisting⟩ := Call.serve_eq_ok_iff.mp hexisting
    obtain rfl := Store.getTask_id hexisting
    split
    · rename_i e hsettings
      refine hcore.handled fun _ task _ _ _ store hstore ↦ ?_
      have hserved := ctx.served_of_le (by omega : 1 ≤ 2) (Call.serve_eq_ok_iff.mp hstore).1
      rw [Call.serve_eq_ok_iff.mpr ⟨hserved, rfl⟩] at hsettings
      cases hsettings
    · rename_i settings hsettings
      obtain rfl := Except.ok.inj (Call.serve_eq_ok_iff.mp hsettings).2
      split
      · rename_i hnone
        refine hcore.handled fun existing' task htask hsome ↦ ?_
        rw [hexisting] at htask
        obtain rfl := Except.ok.inj htask
        rw [hnone] at hsome
        cases hsome
      · rename_i task htask
        dsimp only
        split
        · rename_i e hrefused
          refine hcore.handled fun existing' task' hget hsome _ store hstore ↦ ?_
          rw [hexisting] at hget
          obtain rfl := Except.ok.inj hget
          rw [htask] at hsome
          obtain rfl := Option.some.inj hsome
          rw [hrefused] at hstore
          cases hstore
        · rename_i store hstore
          have hcondition : updateHarmless env ctx.calls core existing.id input ↔
              (task.enabled = true → (ctx.calls (if env.registers { task with id := existing.id }
                || !existing.enabled then 4 else 6)).served = true) := by
            constructor
            · exact fun h hon ↦ h existing task hexisting htask hon store hstore
            · intro h existing' task' hget hsome hon _ _
              rw [hexisting] at hget
              obtain rfl := Except.ok.inj hget
              rw [htask] at hsome
              obtain rfl := Option.some.inj hsome
              exact h hon
          rw [hcondition]
          obtain ⟨-, hupdated⟩ := Call.serve_eq_ok_iff.mp hstore
          have hid : ({ task with id := existing.id } : Task).id = existing.id := rfl
          have hhandled := scheduleUpdated_handled hcore ctx hexisting hid hupdated
          exact hhandled

/-! ## Deleting a task -/

/-- A request to delete an enabled task takes its registration away first.  The
task has to be deleted then, or scheduled again where a result is active. -/
def deleteHarmless (calls : Calls) (core : Core) (id : String) : Prop :=
  ∀ existing, (calls 0).serve (core.store.getTask id) = .ok existing → existing.enabled = true →
    (calls (if core.store.taskHasActiveResults id then 4 else 1)).served = true

theorem deleteTask_handled {env : Scheduling.Env} {core : Core} (hcore : Synced env core)
    (ctx : Context) (id : String) :
    Handled env (deleteTask env ctx.calls core id).1 (deleteHarmless ctx.calls core id) := by
  unfold deleteTask
  split
  · rename_i e hrefused
    refine hcore.handled fun existing hexisting ↦ ?_
    rw [hrefused] at hexisting
    cases hexisting
  · rename_i existing hexisting
    have hcondition : deleteHarmless ctx.calls core id ↔ (existing.enabled = true →
        (ctx.calls (if core.store.taskHasActiveResults id then 4 else 1)).served = true) := by
      constructor
      · exact fun h ↦ h existing hexisting
      · intro h existing' hexisting'
        rw [hexisting] at hexisting'
        obtain rfl := Except.ok.inj hexisting'
        exact h
    rw [hcondition]
    obtain ⟨-, hrow⟩ := Call.serve_eq_ok_iff.mp hexisting
    obtain rfl := Store.getTask_id hrow
    have hremove := touches_remove hcore.wellFormed existing.id
    have hrow' : (core.remove existing.id).store.getTask existing.id = .ok existing := hrow
    have hpossible := hcore.schedulable existing.id existing hrow
    -- the registration comes back if the last call of the attempt is served
    have hback : ∀ used, ((ctx.calls (used + 1)).served = true ↔
        (ctx.calls (if core.store.taskHasActiveResults existing.id then 4 else 1)).served =
          true) →
        Handled env (rescheduleLocked env ctx.calls used (core.remove existing.id)
          existing.id).core (existing.enabled = true → (ctx.calls
            (if core.store.taskHasActiveResults existing.id then 4 else 1)).served = true) := by
      intro used hused
      refine (attempt_handled ctx hcore hremove hrow' used).congr (imp_congr_right fun hon ↦ ?_)
      rw [schedulable, hon, Bool.not_true, Bool.false_or] at hpossible
      rw [hpossible, hused]
      simp
    dsimp only
    cases hserved : (ctx.calls 1).served with
    | false =>
        rw [deleteCall_unserved hserved]
        refine hback 2 ?_
        have hthree := ctx.unserved_of_le (by omega : 1 ≤ 3) hserved
        have hfour := ctx.unserved_of_le (by omega : 1 ≤ 4) hserved
        rw [hthree]
        split <;> simp [hserved, hfour]
    | true =>
        cases hactive : core.store.taskHasActiveResults existing.id with
        | true =>
            have hactive' : (core.remove existing.id).store.taskHasActiveResults existing.id =
                true := hactive
            obtain ⟨e, hdelete⟩ := deleteCall_active hserved hactive'
            rw [hdelete]
            have hhandled := hback 3 (by rw [hactive, if_pos rfl])
            rwa [hactive] at hhandled
        | false =>
            obtain ⟨store, hdelete, now, hwrite⟩ := deleteCall_idle hserved hrow' hactive
            rw [hdelete]
            obtain ⟨hdeletion, hwanted, hgone⟩ :=
              touches_deletion hremove.wellFormed hrow' hwrite
            refine (hremove.trans hdeletion).handled hcore (iff_of_true ?_ fun _ ↦ hserved)
              fun _ row hrow ↦ absurd hrow (hgone row)
            have hnone := registered?_remove hcore.wellFormed existing.id existing.id
            rw [if_pos rfl] at hnone
            exact hnone.trans hwanted.symm

/-! ## Duplicating a task -/

/-- The copy is disabled and new, so there is nothing to register. -/
theorem duplicateTask_handled {env : Scheduling.Env} {core : Core} (hcore : Synced env core)
    (ctx : Context) (id uuid : String) :
    Handled env (duplicateTask ctx.calls core id uuid).1 True := by
  unfold duplicateTask
  split
  · exact hcore.handled trivial
  · rename_i source hsource
    split
    · exact hcore.handled trivial
    · rename_i created store hcreated
      obtain ⟨-, hcreated⟩ := Call.serve_eq_ok_iff.mp hcreated
      have hmaps : (encodableMap (copyOf source).customServerDefinition &&
          encodableMap (copyOf source).providerOptions) = true := createTask_encodable hcreated
      obtain ⟨rfl, hfresh, hwrite, hsame⟩ := Store.createTask_ok hcreated
      have hinsert := touches_write hcore.wellFormed hwrite fun _ ↦ hmaps
      have hget := getTask_write hwrite
      refine hinsert.handled hcore (iff_of_true ?_ trivial) fun _ row hrow ↦ ?_
      · have hnone : wanted? core.store (Store.newTask (copyOf source) uuid
            (ctx.calls 1).stamp).id = none := by
          rw [wanted?, Store.getTask, hfresh]
        rw [hcore.agree, hnone, wanted?, hget]
        rfl
      · rw [hget] at hrow
        obtain rfl := Except.ok.inj hrow
        exact schedulable_of_disabled rfl

end MultiSpeed.Api
