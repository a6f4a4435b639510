import MultiSpeed.Api.Requests
import MultiSpeed.Api.Validation
import MultiSpeed.Lib.Program

/-!
# The handlers that write the configuration

The handlers of `tasks.go`, `routes.go`, `settings_system.go` and `configuration.go`
as programs of calls: statements of the store, reads of the interface snapshot, and
what the scheduler, the providers and the network answer.  All but `validateTask` hold
`configurationMu` from their first call on; an import has checked its document by then.
Runs, the scheduler's callbacks, the acknowledgement of the terms and the refreshes of
the interfaces act in between.
-/

namespace MultiSpeed.Configuring

open Api Concurrent Database Execution Network

/-! ## The shared state -/

/-- A validation that was carried out: the profile and the answers it got. -/
structure Checked where
  profile : RouteProfile
  answers : Answers

/-- The outcome. -/
@[irreducible] def Checked.record (host : Host) (checked : Checked) : RouteValidation :=
  Network.validate host.execution host.lower checked.answers checked.profile

/-- A profile as it is read. -/
structure Stored where
  profile : RouteProfile
  /-- The validation its record stems from. -/
  origin : Option Checked

/-- The store and the interface snapshot.  `origin` is a history variable: for each
profile the validation that produced the stored record. -/
structure Memory where
  store : Store
  interfaces : List NetworkInterface
  origin : String → Option Checked

def Memory.setOrigin (m : Memory) (id : String) (origin : Option Checked) : Memory :=
  { m with origin := fun k ↦ if id = k then origin else m.origin k }

/-- The outcome of `preflightTaskProviderTarget` that is an error. -/
inductive PreflightFailure where
  /-- `PROVIDER_UNAVAILABLE`; `runtime` is set where the runtime is what is missing. -/
  | unavailable (runtime : Bool)
  | refused (message : Text)

/-- What the world answers to a call. -/
structure Input where
  /-- The context is not done and the database answers. -/
  served : Bool
  now : Time
  uuid : String
  answers : Answers
  preflight : Option PreflightFailure
  scheduled : Option Scheduling.SchedulerError

/-! ## Calls -/

inductive Call where
  | getTask (id : String)
  | getSettings
  | getRouteProfile (id : String)
  | configuration
  | createTask (task : Task)
  | updateTask (task : Task)
  | markTaskDeleted (id : String)
  | deleteTaskReason (id : String)
  | createRouteProfile (profile : RouteProfile)
  /-- `origin` is that of the record the profile carries. -/
  | updateRouteProfile (profile : RouteProfile) (origin : Option Checked)
  | updateRouteValidation (id : String) (checked : Checked)
  | markRouteDeleted (id : String)
  | deleteRouteReason (id : String)
  | updateSettings (settings : Settings)
  | replaceConfiguration (settings : Settings) (routes : List RouteProfile) (tasks : List Task)
  /-- `ValidateSource` -/
  | validateSource (interfaceName sourceIP : String)
  /-- `preflightTaskProviderTarget` -/
  | preflight (task : Task)
  /-- `RouteValidator.Validate` -/
  | validateRoute (profile : RouteProfile)
  /-- `Reschedule`, `Remove` or `Reconcile`, whose writes are those of the callbacks. -/
  | schedule

/-- What a call returns. -/
@[reducible] def Call.Answer : Call → Type
  | .getTask _ => Except StoreError Task
  | .getSettings => Except StoreError Settings
  | .getRouteProfile _ => Except StoreError Stored
  | .configuration => Except StoreError ConfigurationSnapshot
  | .createTask _ => Except StoreError Task
  | .updateTask _ => Except StoreError Unit
  | .markTaskDeleted _ => Except StoreError Unit
  | .deleteTaskReason _ => Except StoreError StoreError
  | .createRouteProfile _ => Except StoreError RouteProfile
  | .updateRouteProfile .. => Except StoreError Unit
  | .updateRouteValidation .. => Except StoreError Unit
  | .markRouteDeleted _ => Except StoreError Unit
  | .deleteRouteReason _ => Except StoreError StoreError
  | .updateSettings _ => Except StoreError Unit
  | .replaceConfiguration .. => Except StoreError Unit
  | .validateSource .. => Option String
  | .preflight _ => Option PreflightFailure
  | .validateRoute _ => Checked
  | .schedule => Option Scheduling.SchedulerError

namespace Memory

def getRouteProfile (m : Memory) (id : String) : Except StoreError Stored :=
  (m.store.getRouteProfile id).map fun profile ↦ ⟨profile, m.origin id⟩

/-- A statement that returns no row. -/
def write (m : Memory) (served : Bool) (answer : Except StoreError Store) :
    Memory × Except StoreError Unit :=
  match serve served answer with
  | .ok store => ({ m with store := store }, .ok ())
  | .error e => (m, .error e)

end Memory

variable (host : Host)

def exec (i : Input) : (c : Call) → Memory → Memory × c.Answer
  | .getTask id, m => (m, serve i.served (m.store.getTask id))
  | .getSettings, m => (m, serve i.served (.ok m.store.getSettings))
  | .getRouteProfile id, m => (m, serve i.served (m.getRouteProfile id))
  | .configuration, m => (m, serve i.served m.store.configuration)
  | .createTask task, m =>
      match serve i.served (m.store.createTask task i.uuid i.now) with
      | .ok (task, store) => ({ m with store := store }, .ok task)
      | .error e => (m, .error e)
  | .updateTask task, m => m.write i.served (m.store.updateTask task i.now)
  | .markTaskDeleted id, m => m.write i.served (m.store.markTaskDeleted id i.now)
  | .deleteTaskReason id, m => (m, serve i.served (.ok (m.store.deleteTaskReason id)))
  | .createRouteProfile profile, m =>
      match serve i.served (m.store.createRouteProfile profile i.uuid i.now) with
      | .ok (profile, store) =>
          (({ m with store := store } : Memory).setOrigin profile.id none, .ok profile)
      | .error e => (m, .error e)
  | .updateRouteProfile profile origin, m =>
      match serve i.served (m.store.updateRouteProfile profile i.now) with
      | .ok store => (({ m with store := store } : Memory).setOrigin profile.id origin, .ok ())
      | .error e => (m, .error e)
  | .updateRouteValidation id checked, m =>
      match serve i.served (m.store.updateRouteValidation id (checked.record host) i.now) with
      | .ok store => (({ m with store := store } : Memory).setOrigin id (some checked), .ok ())
      | .error e => (m, .error e)
  | .markRouteDeleted id, m => m.write i.served (m.store.markRouteDeleted id i.now)
  | .deleteRouteReason id, m => (m, serve i.served (.ok (m.store.deleteRouteReason id)))
  | .updateSettings settings, m => m.write i.served (m.store.updateSettings settings)
  | .replaceConfiguration settings routes tasks, m =>
      match serve i.served (m.store.replaceConfiguration settings routes tasks i.now) with
      | .ok store =>
          ({ m with
            store := store
            origin := fun k ↦ if k ∈ routes.map RouteProfile.id then none else m.origin k },
            .ok ())
      | .error e => (m, .error e)
  | .validateSource interfaceName sourceIP, m =>
      (m, Network.validateSource host.execution m.interfaces interfaceName sourceIP)
  | .preflight _, m => (m, i.preflight)
  | .validateRoute profile, m =>
      (m, ⟨profile, { i.answers with interfaces := m.interfaces }⟩)
  | .schedule, m => (m, i.scheduled)

/-! ## The handlers -/

inductive Reply where
  | done
  /-- 400, `INVALID_JSON` -/
  | invalidJSON
  /-- 422 with a code -/
  | invalid (code : String) (cause : Rejection)
  /-- 422; the target of the task is refused by the provider's preflight. -/
  | preflight (code : String) (cause : PreflightFailure)
  /-- 422; the validation has not succeeded. -/
  | unsuccessful (validation : RouteValidation)
  | store (cause : StoreError)
  /-- 500, `INTERNAL_ERROR` -/
  | internal (cause : Scheduling.SchedulerError)
  /-- 422, `INVALID_SCHEDULE` -/
  | invalidSchedule (cause : Scheduling.SchedulerError)
  /-- 409, `CONFIGURATION_IMPORT_ACTIVE` -/
  | importActive
  /-- 500, `CONFIGURATION_IMPORT_FAILED` -/
  | importFailed (cause : Scheduling.SchedulerError)

abbrev Handler := Program Call.Answer

abbrev ask (c : Call) : Handler c.Answer := Program.perform c

/-- `DeleteTask` -/
def deleteTaskRow (id : String) : Handler (Except StoreError Unit) := do
  match ← ask (.markTaskDeleted id) with
  | .error .notFound =>
      match ← ask (.deleteTaskReason id) with
      | .ok reason => pure (.error reason)
      | .error e => pure (.error e)
  | answer => pure answer

/-- `DeleteRouteProfile` -/
def deleteRouteRow (id : String) : Handler (Except StoreError Unit) := do
  match ← ask (.markRouteDeleted id) with
  | .error .notFound =>
      match ← ask (.deleteRouteReason id) with
      | .ok reason => pure (.error reason)
      | .error e => pure (.error e)
  | answer => pure answer

/-- `validateTaskModel`: the task with the canonical spelling of its source. -/
def validateTaskModel (task : Task) : Handler (Except Rejection Task) :=
  match validateTaskFields host.net task with
  | .error e => pure (.error e)
  | .ok (ip, task) => do
      match ← ask (.validateSource task.interfaceName task.sourceIP) with
      | some message => pure (.error (.text message))
      | none =>
          match validateTaskTargetAndSchedule host task with
          | some e => pure (.error e)
          | none =>
              match task.routeProfileID with
              | none => pure (.ok task)
              | some id =>
                  match ← ask (.getRouteProfile id) with
                  | .error e => pure (.error (.within "route profile" (.store e)))
                  | .ok stored =>
                      if stored.profile.interfaceName ≠ task.interfaceName ∨
                          host.net.parseIP stored.profile.sourceIP ≠ some ip then
                        pure (.error (.text
                          "route profile must use the same interface and source IP as the task"))
                      else pure (.ok task)

def effectiveRouteProfile (task : Task) : Handler (Except Rejection RouteProfile) := do
  match task.routeProfileID with
  | none => pure ((routeProfileForTask host.net task none).mapError .text)
  | some id =>
      match ← ask (.getRouteProfile id) with
      | .error e => pure (.error (.store e))
      | .ok stored =>
          pure ((routeProfileForTask host.net task (some stored.profile)).mapError .text)

/-- `preflightTaskPath`; a failure is answered with the code of the handler. -/
def preflightTaskPath (code : String) (task : Task) : Handler (Except Reply Checked) := do
  match ← ask (.preflight task) with
  | some e => pure (.error (.preflight code e))
  | none =>
      match ← effectiveRouteProfile host task with
      | .error e => pure (.error (.invalid code e))
      | .ok profile =>
          let checked ← ask (.validateRoute profile)
          pure (.ok checked)

/-- `requireEnabledTaskPreflight`: the answer to a task that may not be enabled. -/
def requireEnabledTaskPreflight (task : Task) : Handler (Option Reply) := do
  match ← preflightTaskPath host "TASK_PREFLIGHT_FAILED" task with
  | .error (.preflight code e) =>
      match task.provider, e with
      -- the CLI of this provider is installed separately
      | .ookla, .unavailable true => pure none
      | _, e => pure (some (.preflight code e))
  | .error reply => pure (some reply)
  | .ok checked =>
      if (checked.record host).success then pure none
      else pure (some (.unsuccessful (checked.record host)))

/-- The condition `task.Enabled && !requireEnabledTaskPreflight(...)`. -/
def preflightIfEnabled (task : Task) : Handler (Option Reply) :=
  if task.enabled then requireEnabledTaskPreflight host task else pure none

def createTask (body : Option TaskInput) : Handler Reply :=
  match body with
  | none => pure .invalidJSON
  | some input => do
      match ← ask .getSettings with
      | .error e => pure (.store e)
      | .ok settings =>
          match ← validateTaskModel host (applyTaskDefaults (input.model none) settings) with
          | .error e => pure (.invalid "INVALID_TASK" e)
          | .ok task =>
              match ← preflightIfEnabled host task with
              | some reply => pure reply
              | none =>
                  match ← ask (.createTask task) with
                  | .error e => pure (.store e)
                  | .ok task =>
                      match ← ask .schedule with
                      | some e =>
                          let _ ← deleteTaskRow task.id
                          pure (.invalidSchedule e)
                      | none =>
                          let _ ← ask (.getTask task.id)
                          pure .done

def updateTask (id : String) (body : Option TaskInput) : Handler Reply := do
  match ← ask (.getTask id) with
  | .error e => pure (.store e)
  | .ok existing =>
      match body with
      | none => pure .invalidJSON
      | some input =>
          let task := { input.model (some existing) with
            id := id
            createdAt := existing.createdAt
            lastScheduledAt := existing.lastScheduledAt
            nextScheduledAt := existing.nextScheduledAt }
          match ← ask .getSettings with
          | .error e => pure (.store e)
          | .ok settings =>
              match ← validateTaskModel host (applyTaskDefaults task settings) with
              | .error e => pure (.invalid "INVALID_TASK" e)
              | .ok task =>
                  match ← preflightIfEnabled host task with
                  | some reply => pure reply
                  | none =>
                      match ← ask (.updateTask task) with
                      | .error e => pure (.store e)
                      | .ok _ =>
                          match ← ask .schedule with
                          | some e =>
                              let _ ← ask (.updateTask existing)
                              let _ ← ask .schedule
                              pure (.invalidSchedule e)
                          | none =>
                              let _ ← ask (.getTask id)
                              pure .done

def deleteTask (id : String) : Handler Reply := do
  match ← ask (.getTask id) with
  | .error e => pure (.store e)
  | .ok _ =>
      match ← ask .schedule with
      | some e => pure (.internal e)
      | none =>
          match ← deleteTaskRow id with
          | .error e =>
              let _ ← ask .schedule
              pure (.store e)
          | .ok _ => pure .done

def duplicateTask (id : String) : Handler Reply := do
  match ← ask (.getTask id) with
  | .error e => pure (.store e)
  | .ok source =>
      match ← ask (.createTask (copyOf source)) with
      | .error e => pure (.store e)
      | .ok _ => pure .done

/-- `validateTask`, which does not hold the mutex. -/
def validateTask (id : String) : Handler Reply := do
  match ← ask (.getTask id) with
  | .error e => pure (.store e)
  | .ok task =>
      match ← validateTaskModel host task with
      | .error e => pure (.invalid "TASK_VALIDATION_FAILED" e)
      | .ok task =>
          match ← preflightTaskPath host "TASK_VALIDATION_FAILED" task with
          | .error reply => pure reply
          | .ok checked =>
              match task.routeProfileID with
              | some profileID =>
                  let _ ← ask (.updateRouteValidation profileID checked)
                  pure (if (checked.record host).success then .done
                    else .unsuccessful (checked.record host))
              | none =>
                  pure (if (checked.record host).success then .done
                    else .unsuccessful (checked.record host))

/-- `validateRouteModel` -/
def validateRouteModel (profile : RouteProfile) : Handler (Option Rejection) :=
  match validateRouteFields host.net profile with
  | some e => pure (some e)
  | none => do
      match ← ask (.validateSource profile.interfaceName profile.sourceIP) with
      | some message => pure (some (.text message))
      | none => pure none

def createRouteProfile (body : Option RouteProfileInput) : Handler Reply :=
  match body with
  | none => pure .invalidJSON
  | some input => do
      let profile := applyRouteDefaults host.net input.model
      match ← validateRouteModel host profile with
      | some e => pure (.invalid "INVALID_ROUTE_PROFILE" e)
      | none =>
          match ← ask (.createRouteProfile profile) with
          | .error e => pure (.store e)
          | .ok _ => pure .done

/-- The profile of an update: the input with the identity and the record that are stored. -/
def RouteProfileInput.over (input : RouteProfileInput) (id : String) (existing : RouteProfile) :
    RouteProfile :=
  applyRouteDefaults host.net { input.model with
    id := id
    createdAt := existing.createdAt
    lastValidationAt := existing.lastValidationAt
    lastValidationSucceeded := existing.lastValidationSucceeded
    lastValidationSnapshot := existing.lastValidationSnapshot }

def updateRouteProfile (id : String) (body : Option RouteProfileInput) : Handler Reply := do
  match ← ask (.getRouteProfile id) with
  | .error e => pure (.store e)
  | .ok existing =>
      match body with
      | none => pure .invalidJSON
      | some input =>
          let profile := RouteProfileInput.over host input id existing.profile
          match ← validateRouteModel host profile with
          | some e => pure (.invalid "INVALID_ROUTE_PROFILE" e)
          | none =>
              match ← ask (.updateRouteProfile profile existing.origin) with
              | .error e => pure (.store e)
              | .ok _ => pure .done

def deleteRouteProfile (id : String) : Handler Reply := do
  match ← deleteRouteRow id with
  | .error e => pure (.store e)
  | .ok _ => pure .done

def validateRouteProfile (id : String) : Handler Reply := do
  match ← ask (.getRouteProfile id) with
  | .error e => pure (.store e)
  | .ok stored =>
      let checked ← ask (.validateRoute stored.profile)
      match ← ask (.updateRouteValidation stored.profile.id checked) with
      | .error e => pure (.store e)
      | .ok _ =>
          pure (if (checked.record host).success then .done
            else .unsuccessful (checked.record host))

def updateSettings (body : Option Settings) : Handler Reply :=
  match body with
  | none => pure .invalidJSON
  | some settings =>
      match validateSettings host settings with
      | some e => pure (.invalid "INVALID_SETTINGS" e)
      | none => do
          match ← ask (.updateSettings settings) with
          | .error e => pure (.store e)
          | .ok _ =>
              match ← ask .getSettings with
              | .error e => pure (.store e)
              | .ok _ => pure .done

/-- `importConfiguration`; `interfaces` are the snapshots the checks of the document
have seen. -/
def importConfiguration (interfaces : ℕ → List NetworkInterface)
    (body : Option DecodedDocument) : Handler Reply :=
  match body with
  | none => pure .invalidJSON
  | some document =>
      match validateConfigurationDocument host interfaces document.toConfigurationDocument with
      | .error e => pure (.invalid "INVALID_CONFIGURATION" e)
      | .ok (settings, routes, tasks) => do
          match ← ask .configuration with
          | .error e => pure (.store e)
          | .ok _ =>
              match ← ask .schedule with
              | some e => pure (.importFailed e)
              | none =>
                  match ← ask (.replaceConfiguration settings routes tasks) with
                  | .error e =>
                      let _ ← ask .schedule
                      pure (if e = .active then .importActive else .store e)
                  | .ok _ =>
                      match ← ask .schedule with
                      | some e => pure (.importFailed e)
                      | none => pure .done

/-! ## The system -/

/-- The requests that hold `configurationMu`.  A body is `none` where it is no JSON. -/
inductive Request where
  | createTask (body : Option TaskInput)
  | updateTask (id : String) (body : Option TaskInput)
  | deleteTask (id : String)
  | duplicateTask (id : String)
  | createRouteProfile (body : Option RouteProfileInput)
  | updateRouteProfile (id : String) (body : Option RouteProfileInput)
  | deleteRouteProfile (id : String)
  | validateRouteProfile (id : String)
  | updateSettings (body : Option Settings)
  | importConfiguration (interfaces : ℕ → List NetworkInterface) (body : Option DecodedDocument)

def handle : Request → Handler Reply
  | .createTask body => createTask host body
  | .updateTask id body => updateTask host id body
  | .deleteTask id => deleteTask id
  | .duplicateTask id => duplicateTask id
  | .createRouteProfile body => createRouteProfile host body
  | .updateRouteProfile id body => updateRouteProfile host id body
  | .deleteRouteProfile id => deleteRouteProfile id
  | .validateRouteProfile id => validateRouteProfile host id
  | .updateSettings body => updateSettings host body
  | .importConfiguration interfaces body => importConfiguration host interfaces body

/-- What changes the shared state beside the handlers. -/
inductive Change where
  /-- A statement on `results`. -/
  | results (statement : Statement)
  /-- `UpdateTaskSchedule` -/
  | schedule (taskID : String) (last next : Option Time) (now : Time)
  /-- `SetOoklaEULAAcceptance` -/
  | acceptance (accepted : Bool) (now : Time)
  /-- The snapshot is refreshed. -/
  | interfaces (items : List NetworkInterface)

def Memory.change (m : Memory) : Change → Option Memory
  | .results statement =>
      if writesResults statement then
        (statement.execute m.store).toOption.map fun store ↦ { m with store := store }
      else none
  | .schedule taskID last next now =>
      (m.store.updateTaskSchedule taskID last next now).toOption.map
        fun store ↦ { m with store := store }
  | .acceptance accepted now =>
      (m.store.setOoklaEULAAcceptance accepted now).toOption.map
        fun store ↦ { m with store := store }
  | .interfaces items => some { m with interfaces := items }

/-- The requests of the API; a free request is the identity of a task to validate. -/
def system : System Call.Answer Memory Input Reply Request String Change where
  exec := exec host
  serial := handle host
  free := validateTask host
  outside change m := m.change change

end MultiSpeed.Configuring
