import Mathlib.Data.Finset.Basic
import MultiSpeed.Execution.Run

/-!
# The sections of `execute`

A worker runs one job at a time.  Between two accesses to the store or to the
run limiter it is suspended in a `Phase`.  A phase carries the result the worker
has in memory together with the facts its later writes rest on: the identity,
the persisted status, and for the last write that it is a legal end.
-/

namespace MultiSpeed

/-- The changes of status the execution manager makes. -/
def ResultStatus.moves : ResultStatus → ResultStatus → Bool
  | .queued, .validating | .validating, .running => true
  | .running, .succeeded | .running, .failed | .running, .cancelled => true
  | .queued, .failed | .queued, .skipped => true
  | .validating, .failed | .validating, .skipped => true
  | _, _ => false

namespace Execution

open Database Providers

structure Job where
  resultID : String
  task : Task
  routeProfile : Option RouteProfile

/-- The libraries and the version of the application.  `quote` is the verb `%q`. -/
structure Env where
  net : Net
  version : String
  quote : String → String

/-! ## The run limiter -/

structure RunLimiter where
  runningTotal : ℕ
  tasks : Finset String
  wans : Finset String

namespace RunLimiter

def new : RunLimiter := ⟨0, ∅, ∅⟩

/-- The limit `Acquire` applies. -/
def clampLimit (globalLimit : ℤ) : ℤ :=
  if globalLimit < 1 then 1 else if 16 < globalLimit then 16 else globalLimit

def allowed (l : RunLimiter) (taskID wan : String) (globalLimit : ℤ) (separateWAN : Bool) :
    Bool :=
  decide (taskID ∉ l.tasks) && decide (wan ∉ l.wans) &&
    decide ((l.runningTotal : ℤ) < clampLimit globalLimit) &&
    (separateWAN || l.runningTotal = 0)

/-- One turn of the loop of `Acquire`. -/
def acquire (l : RunLimiter) (taskID wan : String) (globalLimit : ℤ) (separateWAN : Bool) :
    Option RunLimiter :=
  if l.allowed taskID wan globalLimit separateWAN then
    some ⟨l.runningTotal + 1, insert taskID l.tasks, insert wan l.wans⟩
  else none

def release (l : RunLimiter) (taskID wan : String) : RunLimiter :=
  ⟨l.runningTotal - 1, l.tasks.erase taskID, l.wans.erase wan⟩

end RunLimiter

/-! ## What a worker has in memory -/

/-- The result of a job under the status it is to be persisted with. -/
structure RunResult (job : Job) (status : ResultStatus) where
  result : Result
  id : result.id = job.resultID
  status_eq : result.status = status

/-- The last write to the row of a job, whose persisted status is `stored`. -/
structure TerminalWrite (job : Job) where
  stored : ResultStatus
  result : Result
  id : result.id = job.resultID
  moves : stored.moves result.status = true
  terminal : result.status.terminal = true
  finished : result.finishedAt.isSome = true

/-- `finishFailure`, up to its write. -/
def finishFailure {job : Job} (stored : ResultStatus) (result : Result)
    (id : result.id = job.resultID) (status : ResultStatus)
    (legal : stored.moves status = true ∧ status.terminal = true) (message : Text)
    (now : Time) : TerminalWrite job :=
  ⟨stored, failedResult result status message now, id, legal.1, legal.2, rfl⟩

/-- `GetResult`. -/
def loadResult (store : Store) (id : String) :
    Except StoreError { result : Result // result.id = id } :=
  match h : store.getResult id with
  | .error e => .error e
  | .ok result => .ok ⟨result, Store.result?_id (Store.getResult_eq_ok_iff.mp h)⟩

theorem loadResult_isOk {store : Store} {id : String} {row : Result}
    (h : store.result? id = some row) : ∃ result, loadResult store id = .ok result := by
  have hget : store.getResult id = .ok row := Store.getResult_eq_ok_iff.mpr h
  unfold loadResult
  split
  · rename_i e he
    rw [hget] at he
    cases he
  · exact ⟨_, rfl⟩

/-- The timeout of a run in seconds. -/
def runTimeout (task : Task) (settings : Settings) : ℤ :=
  if task.timeoutSeconds < 5 then settings.defaultTaskTimeout else task.timeoutSeconds

inductive Phase where
  | idle
  /-- Before the settings are read. -/
  | received (job : Job)
  /-- In `Acquire`; parked after the first refusal. -/
  | acquiring (job : Job) (settings : Settings) (parked : Bool)
  /-- Before the result is read. -/
  | admitted (job : Job) (settings : Settings)
  /-- Before the validating state is persisted. -/
  | loaded (job : Job) (timeout : ℤ) (started : Time) (result : RunResult job .validating)
  | validating (job : Job) (timeout : ℤ) (started : Time) (result : RunResult job .validating)
  /-- Before the running state is persisted. -/
  | available (job : Job) (timeout : ℤ) (started : Time) (result : RunResult job .running)
  | running (job : Job) (timeout : ℤ) (started : Time) (result : RunResult job .running)
  /-- In `failUnloaded`, before the result is read. -/
  | unloaded (job : Job) (acquired : Bool) (message : String)
  /-- Before `persistTerminal`. -/
  | closing (job : Job) (acquired : Bool) (write : TerminalWrite job)
  /-- Before the deferred functions of `execute`. -/
  | leaving (job : Job) (acquired : Bool)

/-- The job whose row a worker is to close, with the status persisted for it. -/
def Phase.job? : Phase → Option (Job × ResultStatus)
  | .idle | .leaving _ _ => none
  | .received job | .acquiring job _ _ | .admitted job _ | .loaded job _ _ _
  | .unloaded job _ _ => some (job, .queued)
  | .validating job _ _ _ | .available job _ _ _ => some (job, .validating)
  | .running job _ _ _ => some (job, .running)
  | .closing job _ write => some (job, write.stored)

@[simp] theorem Phase.job?_leaving (job : Job) (acquired : Bool) :
    (Phase.leaving job acquired).job? = none := rfl

/-! ## The sections -/

inductive ContextError where
  | canceled
  | deadlineExceeded

/-- The answers a section of `execute` gets. -/
structure WorkerInput where
  /-- The store call of the section is served. -/
  served : Bool
  now : Time
  /-- The manager's context is done while the worker waits for capacity. -/
  cancelled : Bool
  validation : RouteValidation
  available : Bool
  availabilityMessage : Text
  value : ProviderResult
  runError : Option Text
  contextError : Option ContextError
  /-- The order in which a map is ranged over. -/
  choice : ℕ

/-- `Registry.Get`, which knows the three providers `main` registers. -/
def registryGet (env : Env) : ProviderID → Except String Unit
  | .other name => .error ("provider " ++ env.quote name ++ ": unsupported provider")
  | .ookla | .librespeed | .cloudflare => .ok ()

/-- From the persisted validating state to the next access to the store. -/
def validate (env : Env) (input : WorkerInput) (job : Job) (timeout : ℤ) (started : Time)
    (result : RunResult job .validating) : Phase :=
  match routeProfileForTask env.net job.task job.routeProfile with
  | .error message =>
      .closing job true (finishFailure .validating result.result result.id .failed ⟨rfl, rfl⟩
        (utf8 message) input.now)
  | .ok _ =>
      let validated : Result := { result.result with
        routeValidationSnapshot := some (routeSnapshot input.validation)
        detectedPublicIP := input.validation.detectedPublicIP }
      if !input.validation.success then
        .closing job true (finishFailure .validating validated result.id .failed ⟨rfl, rfl⟩
          (utf8 "Route validation failed: " ++ input.validation.message) input.now)
      else
        match registryGet env job.task.provider with
        | .error message =>
            .closing job true (finishFailure .validating validated result.id .failed ⟨rfl, rfl⟩
              (utf8 message) input.now)
        | .ok _ =>
            if !input.available then
              .closing job true (finishFailure .validating validated result.id .skipped
                ⟨rfl, rfl⟩ input.availabilityMessage input.now)
            else
              .available job timeout started
                ⟨{ validated with status := .running }, result.id, rfl⟩

/-- The status of a run whose provider returned an error. -/
def failureStatus : Option ContextError → ResultStatus
  | some .canceled => .cancelled
  | _ => .failed

theorem failureStatus_legal (contextError : Option ContextError) :
    ResultStatus.running.moves (failureStatus contextError) = true ∧
      (failureStatus contextError).terminal = true := by
  rcases contextError with _ | _ | _ <;> exact ⟨rfl, rfl⟩

/-- The message of a run whose provider returned an error. -/
def failureMessage (timeout : ℤ) (message : Text) : Option ContextError → Text
  | some .deadlineExceeded =>
      utf8 ("test exceeded its " ++ durationText timeout ++ " timeout: ") ++ message
  | _ => message

/-- From the return of the provider to `persistTerminal`. -/
def conclude (input : WorkerInput) {job : Job} (timeout : ℤ) (started : Time)
    (result : RunResult job .running) : TerminalWrite job :=
  match input.runError with
  | none =>
      match validateProviderResult input.choice input.value with
      | some message =>
          finishFailure .running result.result result.id .failed ⟨rfl, rfl⟩
            (utf8 ("Provider returned invalid metrics: " ++ message)) input.now
      | none =>
          ⟨.running,
            succeededResult (applyProviderResult result.result input.value) started input.now,
            result.id, rfl, rfl, rfl⟩
  | some message =>
      finishFailure .running
        (applyProviderResult result.result (safePartialProviderResult input.value)) result.id
        (failureStatus input.contextError) (failureStatus_legal input.contextError)
        (failureMessage timeout message input.contextError) input.now

/-- The next section of a worker that has a job. -/
def Phase.advance (env : Env) (input : WorkerInput) (store : Store) (limiter : RunLimiter) :
    Phase → Option (Store × RunLimiter × Phase)
  | .idle => none
  | .received job =>
      match serve input.served (.ok store.getSettings) with
      | .error _ =>
          some (store, limiter,
            .unloaded job false "Application settings could not be loaded.")
      | .ok settings => some (store, limiter, .acquiring job settings false)
  | .acquiring job settings parked =>
      if parked && input.cancelled then
        some (store, limiter,
          .unloaded job false "Execution was cancelled while waiting for capacity.")
      else
        match limiter.acquire job.task.id
            (wanPathKey env.net job.task.interfaceName job.task.sourceIP)
            settings.globalConcurrency settings.allowSeparateWANConcurrency with
        | some limiter => some (store, limiter, .admitted job settings)
        | none => if parked then none else some (store, limiter, .acquiring job settings true)
  | .admitted job settings =>
      match serve input.served (loadResult store job.resultID) with
      | .error _ =>
          some (store, limiter,
            .unloaded job true "The queued result could not be loaded for execution.")
      | .ok row =>
          some (store, limiter, .loaded job (runTimeout job.task settings) input.now
            ⟨{ row.1 with startedAt := some input.now, status := .validating }, row.2, rfl⟩)
  | .loaded job timeout started result =>
      match serve input.served (store.updateResult result.result) with
      | .error _ =>
          some (store, limiter, .closing job true (finishFailure .queued result.result result.id
            .failed ⟨rfl, rfl⟩ (utf8 "The validating state could not be persisted.") input.now))
      | .ok store => some (store, limiter, .validating job timeout started result)
  | .validating job timeout started result =>
      some (store, limiter, validate env input job timeout started result)
  | .available job timeout started result =>
      match serve input.served (store.updateResult result.result) with
      | .error _ =>
          some (store, limiter, .closing job true (finishFailure .validating result.result
            result.id .failed ⟨rfl, rfl⟩ (utf8 "The running state could not be persisted.")
            input.now))
      | .ok store => some (store, limiter, .running job timeout started result)
  | .running job timeout started result =>
      some (store, limiter, .closing job true (conclude input timeout started result))
  | .unloaded job acquired message =>
      match serve input.served (loadResult store job.resultID) with
      | .error _ => some (store, limiter, .leaving job acquired)
      | .ok row =>
          some (store, limiter, .closing job acquired (finishFailure .queued row.1 row.2 .failed
            ⟨rfl, rfl⟩ (utf8 message) input.now))
  | .closing job acquired write =>
      match serve input.served (store.updateResult write.result) with
      | .error _ => some (store, limiter, .leaving job acquired)
      | .ok store => some (store, limiter, .leaving job acquired)
  | .leaving job acquired =>
      some (store, if acquired then
          limiter.release job.task.id
            (wanPathKey env.net job.task.interfaceName job.task.sourceIP)
        else limiter, .idle)

/-! ## What a section does to the row -/

/-- The writes and reads the end of a job depends on are served. -/
def Phase.endServed (input : WorkerInput) (store : Store) : Phase → Bool
  | .closing _ _ write => (serve input.served (store.updateResult write.result)).isOk
  | .unloaded _ _ _ => input.served
  | _ => true

/-- A section leaves the row alone, moves it on, closes it, or gives it up. -/
inductive Worked (input : WorkerInput) (store : Store) (phase : Phase) :
    Store → Phase → Prop where
  | kept {phase' : Phase} (job : phase'.job? = phase.job?) :
      Worked input store phase store phase'
  | moved {job : Job} {stored status : ResultStatus} {result : RunResult job status}
      {store' : Store} {phase' : Phase} (held : phase.job? = some (job, stored))
      (moves : stored.moves status = true) (active : status.active = true)
      (written : store.updateResult result.result = .ok store')
      (held' : phase'.job? = some (job, status)) : Worked input store phase store' phase'
  | finished {job : Job} {acquired : Bool} {write : TerminalWrite job} {store' : Store}
      (at_ : phase = .closing job acquired write)
      (written : store.updateResult write.result = .ok store') :
      Worked input store phase store' (.leaving job acquired)
  | dropped {job : Job} {stored : ResultStatus} {acquired : Bool}
      (held : phase.job? = some (job, stored))
      (lost : phase.endServed input store = true → store.result? job.resultID = none) :
      Worked input store phase store (.leaving job acquired)

theorem job?_validate (env : Env) (input : WorkerInput) (job : Job) (timeout : ℤ)
    (started : Time) (result : RunResult job .validating) :
    (validate env input job timeout started result).job? = some (job, .validating) := by
  unfold validate
  split
  · rfl
  · dsimp only
    split
    · rfl
    · split
      · rfl
      · split <;> rfl

theorem conclude_stored (input : WorkerInput) {job : Job} (timeout : ℤ) (started : Time)
    (result : RunResult job .running) :
    (conclude input timeout started result).stored = .running := by
  unfold conclude
  split
  · split <;> rfl
  · rfl

theorem advance_worked {env : Env} {input : WorkerInput} {store store' : Store}
    {limiter limiter' : RunLimiter} {phase phase' : Phase}
    (h : phase.advance env input store limiter = some (store', limiter', phase')) :
    Worked input store phase store' phase' := by
  cases phase with
  | idle => cases h
  | received job =>
      rw [Phase.advance] at h
      split at h
      · obtain ⟨rfl, -, rfl⟩ := by simpa using h
        exact .kept rfl
      · obtain ⟨rfl, -, rfl⟩ := by simpa using h
        exact .kept rfl
  | acquiring job settings parked =>
      rw [Phase.advance] at h
      split at h
      · obtain ⟨rfl, -, rfl⟩ := by simpa using h
        exact .kept rfl
      · split at h
        · obtain ⟨rfl, -, rfl⟩ := by simpa using h
          exact .kept rfl
        · split at h
          · cases h
          · obtain ⟨rfl, -, rfl⟩ := by simpa using h
            exact .kept rfl
  | admitted job settings =>
      rw [Phase.advance] at h
      split at h
      · obtain ⟨rfl, -, rfl⟩ := by simpa using h
        exact .kept rfl
      · obtain ⟨rfl, -, rfl⟩ := by simpa using h
        exact .kept rfl
  | loaded job timeout started result =>
      rw [Phase.advance] at h
      split at h
      · obtain ⟨rfl, -, rfl⟩ := by simpa using h
        exact .kept rfl
      · rename_i written hwritten
        obtain ⟨rfl, -, rfl⟩ := by simpa using h
        exact .moved rfl rfl rfl (serve_eq_ok_iff.mp hwritten).2 rfl
  | validating job timeout started result =>
      rw [Phase.advance] at h
      obtain ⟨rfl, -, rfl⟩ := by simpa using h
      exact .kept (job?_validate env input job timeout started result)
  | available job timeout started result =>
      rw [Phase.advance] at h
      split at h
      · obtain ⟨rfl, -, rfl⟩ := by simpa using h
        exact .kept rfl
      · rename_i written hwritten
        obtain ⟨rfl, -, rfl⟩ := by simpa using h
        exact .moved rfl rfl rfl (serve_eq_ok_iff.mp hwritten).2 rfl
  | running job timeout started result =>
      rw [Phase.advance] at h
      obtain ⟨rfl, -, rfl⟩ := by simpa using h
      have hstored := conclude_stored input timeout started result
      refine .kept ?_
      simp only [Phase.job?, hstored]
  | unloaded job acquired message =>
      rw [Phase.advance] at h
      split at h
      · rename_i e hrefused
        obtain ⟨rfl, -, rfl⟩ := by simpa using h
        refine .dropped rfl fun hserved ↦ ?_
        cases hrow : store.result? job.resultID with
        | none => rfl
        | some row =>
            obtain ⟨loaded, hloaded⟩ := loadResult_isOk hrow
            have hanswer : serve input.served (loadResult store job.resultID) = .ok loaded :=
              serve_eq_ok_iff.mpr ⟨hserved, hloaded⟩
            rw [hanswer] at hrefused
            cases hrefused
      · obtain ⟨rfl, -, rfl⟩ := by simpa using h
        exact .kept rfl
  | closing job acquired write =>
      rw [Phase.advance] at h
      split at h
      · rename_i e hrefused
        obtain ⟨rfl, -, rfl⟩ := by simpa using h
        refine .dropped rfl fun hserved ↦ ?_
        rw [Phase.endServed, hrefused] at hserved
        cases hserved
      · rename_i written hwritten
        obtain ⟨rfl, -, rfl⟩ := by simpa using h
        exact .finished rfl (serve_eq_ok_iff.mp hwritten).2
  | leaving job acquired =>
      rw [Phase.advance] at h
      obtain ⟨rfl, -, rfl⟩ := by simpa using h
      exact .kept rfl

end Execution

end MultiSpeed
