import MultiSpeed.Database.Statements
import MultiSpeed.Scheduler.System

/-!
# The handlers that change tasks

`createTask`, `updateTask`, `deleteTask`, `duplicateTask` and
`importConfiguration`, each under `configurationMu`.  A handler makes all its
store calls with the context of its request; once that is done no later call is
served.  What decoding, defaults and validation make of a request body is part of
the request.
-/

namespace MultiSpeed.Api

open Database Scheduling

/-- The calls made with the context of a request, which stays done once it is. -/
structure Context where
  calls : Calls
  cancelled : ∀ n, (calls (n + 1)).served = true → (calls n).served = true

theorem Context.served_of_le (ctx : Context) {m n : ℕ} (h : m ≤ n)
    (hserved : (ctx.calls n).served = true) : (ctx.calls m).served = true := by
  induction n, h using Nat.le_induction with
  | base => exact hserved
  | succ n _ ih => exact ih (ctx.cancelled n hserved)

theorem Context.unserved_of_le (ctx : Context) {m n : ℕ} (h : m ≤ n)
    (hrefused : (ctx.calls m).served = false) : (ctx.calls n).served = false := by
  rw [← Bool.not_eq_true] at hrefused ⊢
  exact fun hserved ↦ hrefused (ctx.served_of_le h hserved)

/-- The context of a request that is never cancelled; all clocks show `now`. -/
def Context.background (now : Time) : Context := ⟨servedAt now, fun _ _ ↦ rfl⟩

/-- A context whose first `count` calls are served. -/
def Context.served (count : ℕ) : Context where
  calls n := ⟨decide (n < count), 0, 0⟩
  cancelled n h := by
    have hlt : n + 1 < count := of_decide_eq_true h
    exact decide_eq_true (Nat.lt_of_succ_lt hlt)

/-- What `validateConfigurationDocument` returns: no identity occurs twice, and a
task refers to a profile of the document. -/
structure Import where
  settings : Settings
  routes : List RouteProfile
  tasks : List Task
  routesDistinct : (routes.map RouteProfile.id).Nodup
  distinct : (tasks.map Task.id).Nodup
  included : ∀ task ∈ tasks, ∀ id ∈ task.routeProfileID, id ∈ routes.map RouteProfile.id

inductive Request where
  /-- `none` where the body or the task is refused. -/
  | create (input : Settings → Option Task) (uuid : String)
  /-- The input reads the existing task. -/
  | update (id : String) (input : Task → Settings → Option Task)
  | delete (id : String)
  | duplicate (id uuid : String)
  | importConfiguration (input : Option Import)

inductive Reply where
  | done
  /-- The body or its contents are refused before any write. -/
  | invalid
  /-- The answer of `handleStoreError`; `active` is the status 409. -/
  | store (cause : StoreError)
  /-- 422, `INVALID_SCHEDULE` -/
  | invalidSchedule (cause : SchedulerError)
  /-- 409, `CONFIGURATION_IMPORT_ACTIVE` -/
  | importActive
  /-- 500, `CONFIGURATION_IMPORT_FAILED` -/
  | importFailed (cause : SchedulerError)

/-- `DeleteTask`, which asks for the reason only where no row is affected; the
second component counts the calls. -/
def deleteCall (calls : Calls) (used : ℕ) (store : Store) (id : String) :
    Except StoreError Store × ℕ :=
  match (calls used).serve (store.markTaskDeleted id (calls used).stamp) with
  | .ok store => (.ok store, used + 1)
  | .error .notFound =>
      match (calls (used + 1)).serve (.ok (store.deleteTaskReason id)) with
      | .ok reason => (.error reason, used + 2)
      | .error e => (.error e, used + 2)
  | .error e => (.error e, used + 1)

/-- A statement whose error is ignored. -/
def ignoreError (core : Core) : Except StoreError Store → Core
  | .ok store => { core with store := store }
  | .error _ => core

variable (env : Scheduling.Env) (calls : Calls)

/-- The end of `createTask`: the new task is scheduled or deleted again. -/
def scheduleCreated (core : Core) (taskID : String) : Core × Reply :=
  let out := rescheduleLocked env calls 2 core taskID
  match out.error with
  | none => (out.core, .done)
  | some e =>
      (ignoreError out.core (deleteCall calls out.used out.core.store taskID).1,
        .invalidSchedule e)

def createTask (core : Core) (input : Settings → Option Task) (uuid : String) : Core × Reply :=
  match (calls 0).serve (.ok core.store.getSettings) with
  | .error e => (core, .store e)
  | .ok settings =>
      match input settings with
      | none => (core, .invalid)
      | some task =>
          match (calls 1).serve (core.store.createTask task uuid (calls 1).stamp) with
          | .error e => (core, .store e)
          | .ok (task, store) => scheduleCreated env calls { core with store := store } task.id

/-- The end of `updateTask`: the task is scheduled, or the existing one is restored. -/
def scheduleUpdated (core : Core) (existing : Task) : Core × Reply :=
  let out := rescheduleLocked env calls 3 core existing.id
  match out.error with
  | none => (out.core, .done)
  | some e =>
      let restored := ignoreError out.core ((calls out.used).serve
        (out.core.store.updateTask existing (calls out.used).stamp))
      ((rescheduleLocked env calls (out.used + 1) restored existing.id).core,
        .invalidSchedule e)

def updateTask (core : Core) (id : String) (input : Task → Settings → Option Task) :
    Core × Reply :=
  match (calls 0).serve (core.store.getTask id) with
  | .error e => (core, .store e)
  | .ok existing =>
      match (calls 1).serve (.ok core.store.getSettings) with
      | .error e => (core, .store e)
      | .ok settings =>
          match input existing settings with
          | none => (core, .invalid)
          | some task =>
              let task := { task with id := id }
              match (calls 2).serve (core.store.updateTask task (calls 2).stamp) with
              | .error e => (core, .store e)
              | .ok store => scheduleUpdated env calls { core with store := store } existing

def deleteTask (core : Core) (id : String) : Core × Reply :=
  match (calls 0).serve (core.store.getTask id) with
  | .error e => (core, .store e)
  | .ok existing =>
      let removed := core.remove id
      match deleteCall calls 1 removed.store id with
      | (.ok store, _) => ({ removed with store := store }, .done)
      | (.error e, used) => ((rescheduleLocked env calls used removed existing.id).core, .store e)

/-- The copy `duplicateTask` creates. -/
def copyOf (source : Task) : Task :=
  { source with
    id := ""
    name := (source.name ++ utf8 " copy").take 120
    enabled := false
    createdAt := zeroTime
    updatedAt := zeroTime
    lastScheduledAt := none
    nextScheduledAt := none }

def duplicateTask (core : Core) (id uuid : String) : Core × Reply :=
  match (calls 0).serve (core.store.getTask id) with
  | .error e => (core, .store e)
  | .ok source =>
      match (calls 1).serve (core.store.createTask (copyOf source) uuid (calls 1).stamp) with
      | .error e => (core, .store e)
      | .ok (_, store) => ({ core with store := store }, .done)

def importConfiguration (core : Core) (input : Option Import) : Core × Reply :=
  match input with
  | none => (core, .invalid)
  | some document =>
      match (calls 0).serve core.store.configuration with
      | .error e => (core, .store e)
      | .ok current =>
          -- pausing makes no store call
          let paused := (reconcile env calls 1 core []).core
          match (calls 1).serve (paused.store.replaceConfiguration document.settings
              document.routes document.tasks (calls 1).stamp) with
          | .error e =>
              ((reconcile env calls 2 paused current.tasks).core,
                if e = .active then .importActive else .store e)
          | .ok store =>
              let out := reconcile env calls 2 { paused with store := store } document.tasks
              match out.error with
              | none => (out.core, .done)
              | some e => (out.core, .importFailed e)

def handle (core : Core) : Request → Core × Reply
  | .create input uuid => createTask env calls core input uuid
  | .update id input => updateTask env calls core id input
  | .delete id => deleteTask env calls core id
  | .duplicate id uuid => duplicateTask calls core id uuid
  | .importConfiguration input => importConfiguration env calls core input

end MultiSpeed.Api
