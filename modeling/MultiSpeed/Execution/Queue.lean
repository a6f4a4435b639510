import MultiSpeed.Database.Configuration
import MultiSpeed.Execution.Worker

/-!
# The sections of `Queue`

A call reads the task and its route profile, takes `queueMu`, and under the
mutex creates the row and sends the job.  The channel is bounded, and a job that
does not fit leaves a skipped row.
-/

namespace MultiSpeed.Execution

open Database

def queueCapacity : ℕ := 64

/-- What a call has read before it takes the mutex. -/
structure Snapshot where
  task : Task
  routeProfile : Option RouteProfile
  queuedAt : Time

def Snapshot.job (snapshot : Snapshot) (resultID : String) : Job :=
  ⟨resultID, snapshot.task, snapshot.routeProfile⟩

/-- The task of a job owns its maps. -/
def clonedTask (task : Task) : Task :=
  { task with
    customServerDefinition := cloneOptions task.customServerDefinition
    providerOptions := cloneOptions task.providerOptions }

inductive QueueError where
  | store (cause : StoreError)
  /-- `disabled task cannot be scheduled` -/
  | disabled
  /-- `load route profile` -/
  | routeProfile (cause : StoreError)
  /-- `execution queue is full` -/
  | full
  /-- `execution queue is full and its skipped state could not be persisted` -/
  | unpersisted (cause : StoreError)

inductive QueuePhase where
  /-- Before the task is read. -/
  | started
  /-- Before the route profile is read. -/
  | loaded (task : Task) (routeProfileID : String)
  /-- Before `queueMu` is taken. -/
  | waiting (snapshot : Snapshot)
  | locked (snapshot : Snapshot)
  /-- Before the skipped row is created. -/
  | skipping (snapshot : Snapshot) (finished : Time)
  /-- Before the queued row is created. -/
  | creating (snapshot : Snapshot)
  /-- Before the job is sent. -/
  | created (snapshot : Snapshot) (result : Result)
  /-- The channel was full; before `persistTerminal`. -/
  | overflow (snapshot : Snapshot) (result : Result) (finished : Time)
  | returned (result : Option Result) (error : Option QueueError)

/-- The sections between the lock and the deferred unlock of `queueMu`. -/
def QueuePhase.holdsLock : QueuePhase → Bool
  | .locked _ | .skipping _ _ | .creating _ | .created _ _ | .overflow _ _ _ => true
  | .started | .loaded _ _ | .waiting _ | .returned _ _ => false

/-- The job whose row a call has created and not handed on. -/
def QueuePhase.job? : QueuePhase → Option (Job × ResultStatus)
  | .created snapshot result | .overflow snapshot result _ =>
      some (snapshot.job result.id, .queued)
  | _ => none

@[simp] theorem QueuePhase.job?_created (snapshot : Snapshot) (result : Result) :
    (QueuePhase.created snapshot result).job? = some (snapshot.job result.id, .queued) := rfl

@[simp] theorem QueuePhase.job?_overflow (snapshot : Snapshot) (result : Result)
    (finished : Time) : (QueuePhase.overflow snapshot result finished).job? =
      some (snapshot.job result.id, .queued) := rfl

@[simp] theorem QueuePhase.job?_returned (result : Option Result) (error : Option QueueError) :
    (QueuePhase.returned result error).job? = none := rfl

structure QueueCall where
  taskID : String
  trigger : TriggerType
  scheduledAt : Option Time
  phase : QueuePhase

structure QueueInput where
  served : Bool
  now : Time
  uuid : String

/-- The result of a call before it has an identity. -/
def QueueCall.result (env : Env) (c : QueueCall) (snapshot : Snapshot) : Result :=
  queuedResult env.version snapshot.task c.trigger c.scheduledAt snapshot.queuedAt

def overlapMessage : String :=
  "A previous execution of this task is still active and prevent-overlap is enabled."

/-- The write of a call that found the channel full. -/
def overflowWrite (snapshot : Snapshot) (result : Result) (finished : Time) :
    TerminalWrite (snapshot.job result.id) :=
  ⟨.queued, skippedResult result finished "The bounded execution queue is full.", rfl, rfl, rfl,
    rfl⟩

/-- The next section of a call, where `length` jobs are in the channel: the
store, the job it sends and the phase it reaches. -/
def QueueCall.advance (env : Env) (input : QueueInput) (store : Store) (length : ℕ)
    (c : QueueCall) : Option (Store × Option Job × QueuePhase) :=
  match c.phase with
  | .started =>
      match serve input.served (store.getTask c.taskID) with
      | .error e => some (store, none, .returned none (some (.store e)))
      | .ok task =>
          if c.trigger = .scheduled && !task.enabled then
            some (store, none, .returned none (some .disabled))
          else
            match task.routeProfileID with
            | some id => some (store, none, .loaded task id)
            | none => some (store, none, .waiting ⟨clonedTask task, none, input.now⟩)
  | .loaded task id =>
      match serve input.served (store.getRouteProfile id) with
      | .error e => some (store, none, .returned none (some (.routeProfile e)))
      | .ok profile => some (store, none, .waiting ⟨clonedTask task, some profile, input.now⟩)
  | .waiting snapshot => some (store, none, .locked snapshot)
  | .locked snapshot =>
      if snapshot.task.preventOverlap then
        match serve input.served (.ok (store.taskHasActiveResults snapshot.task.id)) with
        | .error e => some (store, none, .returned none (some (.store e)))
        | .ok active =>
            some (store, none,
              if active then .skipping snapshot input.now else .creating snapshot)
      else some (store, none, .creating snapshot)
  | .skipping snapshot finished =>
      match serve input.served (store.createResult
          (skippedResult (c.result env snapshot) finished overlapMessage) input.uuid
          input.now) with
      | .error e => some (store, none, .returned none (some (.store e)))
      | .ok (result, store) => some (store, none, .returned (some result) none)
  | .creating snapshot =>
      match serve input.served
          (store.createResult (c.result env snapshot) input.uuid input.now) with
      | .error e => some (store, none, .returned none (some (.store e)))
      | .ok (result, store) => some (store, none, .created snapshot result)
  | .created snapshot result =>
      if length < queueCapacity then
        some (store, some (snapshot.job result.id), .returned (some result) none)
      else some (store, none, .overflow snapshot result input.now)
  | .overflow snapshot result finished =>
      let write := overflowWrite snapshot result finished
      match serve input.served (store.updateResult write.result) with
      | .error e => some (store, none, .returned (some write.result) (some (.unpersisted e)))
      | .ok store => some (store, none, .returned (some write.result) (some .full))
  | .returned _ _ => none

/-! ## What a section does to the row -/

/-- The write a call that found the channel full depends on is served. -/
def QueueCall.endServed (input : QueueInput) (store : Store) (c : QueueCall) : Bool :=
  match c.phase with
  | .overflow snapshot result finished =>
      (serve input.served
        (store.updateResult (overflowWrite snapshot result finished).result)).isOk
  | _ => true

/-- A section leaves the rows alone, creates one, sends its job, closes its row,
or gives it up. -/
inductive Called (input : QueueInput) (store : Store) (c : QueueCall) :
    Store → Option Job → QueuePhase → Prop where
  | kept {phase : QueuePhase} (job : phase.job? = c.phase.job?) :
      Called input store c store none phase
  | recorded {result created : Result} {uuid : String} {now : Time} {store' : Store}
      (status : result.status = .skipped) (finished : result.finishedAt.isSome = true)
      (idle : c.phase.job? = none)
      (inserted : store.createResult result uuid now = .ok (created, store')) :
      Called input store c store' none (.returned (some created) none)
  | opened {snapshot : Snapshot} {result created : Result} {uuid : String} {now : Time}
      {store' : Store} (status : result.status = .queued) (idle : c.phase.job? = none)
      (inserted : store.createResult result uuid now = .ok (created, store')) :
      Called input store c store' none (.created snapshot created)
  | sent {snapshot : Snapshot} {result : Result} (at_ : c.phase = .created snapshot result) :
      Called input store c store (some (snapshot.job result.id)) (.returned (some result) none)
  | finished {snapshot : Snapshot} {result : Result} {finished : Time} {store' : Store}
      (at_ : c.phase = .overflow snapshot result finished)
      (written : store.updateResult (overflowWrite snapshot result finished).result =
        .ok store') :
      Called input store c store' none
        (.returned (some (overflowWrite snapshot result finished).result) (some .full))
  | dropped {snapshot : Snapshot} {result : Result} {finished : Time} {e : StoreError}
      (at_ : c.phase = .overflow snapshot result finished) 
      (lost : c.endServed input store = false) :
      Called input store c store none
        (.returned (some (overflowWrite snapshot result finished).result)
          (some (.unpersisted e)))

theorem advance_called {env : Env} {input : QueueInput} {store store' : Store} {length : ℕ}
    {c : QueueCall} {sent : Option Job} {phase : QueuePhase}
    (h : c.advance env input store length = some (store', sent, phase)) :
    Called input store c store' sent phase := by
  obtain ⟨taskID, trigger, scheduledAt, current⟩ := c
  cases current with
  | started =>
      simp only [QueueCall.advance] at h
      split at h
      · obtain ⟨rfl, rfl, rfl⟩ := by simpa using h
        exact .kept rfl
      · split at h
        · obtain ⟨rfl, rfl, rfl⟩ := by simpa using h
          exact .kept rfl
        · split at h
          · obtain ⟨rfl, rfl, rfl⟩ := by simpa using h
            exact .kept rfl
          · obtain ⟨rfl, rfl, rfl⟩ := by simpa using h
            exact .kept rfl
  | loaded task id =>
      simp only [QueueCall.advance] at h
      split at h
      · obtain ⟨rfl, rfl, rfl⟩ := by simpa using h
        exact .kept rfl
      · obtain ⟨rfl, rfl, rfl⟩ := by simpa using h
        exact .kept rfl
  | waiting snapshot =>
      simp only [QueueCall.advance] at h
      obtain ⟨rfl, rfl, rfl⟩ := by simpa using h
      exact .kept rfl
  | locked snapshot =>
      simp only [QueueCall.advance] at h
      split at h
      · split at h
        · obtain ⟨rfl, rfl, rfl⟩ := by simpa using h
          exact .kept rfl
        · obtain ⟨rfl, rfl, rfl⟩ := by simpa using h
          refine .kept ?_
          split <;> rfl
      · obtain ⟨rfl, rfl, rfl⟩ := by simpa using h
        exact .kept rfl
  | skipping snapshot finished =>
      simp only [QueueCall.advance] at h
      split at h
      · obtain ⟨rfl, rfl, rfl⟩ := by simpa using h
        exact .kept rfl
      · rename_i created written hcreated
        obtain ⟨rfl, rfl, rfl⟩ := by simpa using h
        exact .recorded rfl rfl rfl (serve_eq_ok_iff.mp hcreated).2
  | creating snapshot =>
      simp only [QueueCall.advance] at h
      split at h
      · obtain ⟨rfl, rfl, rfl⟩ := by simpa using h
        exact .kept rfl
      · rename_i created written hcreated
        obtain ⟨rfl, rfl, rfl⟩ := by simpa using h
        exact .opened rfl rfl (serve_eq_ok_iff.mp hcreated).2
  | created snapshot result =>
      simp only [QueueCall.advance] at h
      split at h
      · obtain ⟨rfl, rfl, rfl⟩ := by simpa using h
        exact .sent rfl
      · obtain ⟨rfl, rfl, rfl⟩ := by simpa using h
        exact .kept rfl
  | overflow snapshot result finished =>
      simp only [QueueCall.advance] at h
      split at h
      · rename_i e hrefused
        obtain ⟨rfl, rfl, rfl⟩ := by simpa using h
        refine .dropped rfl ?_
        simp only [QueueCall.endServed, hrefused]
        rfl
      · rename_i written hwritten
        obtain ⟨rfl, rfl, rfl⟩ := by simpa using h
        exact .finished rfl (serve_eq_ok_iff.mp hwritten).2
  | returned result error => cases h

/-- A call that finds the channel full closes its row as skipped and returns an
error, unless the write is refused. -/
theorem overflow_returns {env : Env} {input : QueueInput} {store store' : Store} {length : ℕ}
    {c : QueueCall} {snapshot : Snapshot} {result : Result} {finished : Time}
    {sent : Option Job} {phase : QueuePhase}
    (hphase : c.phase = .overflow snapshot result finished) (hserved : c.endServed input store = true)
    (h : c.advance env input store length = some (store', sent, phase)) :
    (∃ returned, phase = .returned (some returned) (some .full)) ∧
      ∃ row, store'.result? result.id = some row ∧ row.status = .skipped ∧
        row.finishedAt.isSome = true := by
  obtain ⟨written, hwritten⟩ : ∃ written, serve input.served
      (store.updateResult (overflowWrite snapshot result finished).result) = .ok written := by
    simp only [QueueCall.endServed, hphase] at hserved
    cases hwrite : serve input.served
        (store.updateResult (overflowWrite snapshot result finished).result) with
    | ok written => exact ⟨written, rfl⟩
    | error e =>
        rw [hwrite] at hserved
        cases hserved
  simp only [QueueCall.advance, hphase, hwritten] at h
  obtain ⟨rfl, rfl, rfl⟩ := by simpa using h
  obtain ⟨row, -, hrows, -⟩ := Store.updateResult_ok (serve_eq_ok_iff.mp hwritten).2
  have hrow := hrows (overflowWrite snapshot result finished).result.id
  rw [if_pos rfl] at hrow
  exact ⟨⟨_, rfl⟩, _, hrow, rfl, rfl⟩

end MultiSpeed.Execution
