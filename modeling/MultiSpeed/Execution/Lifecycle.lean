import MultiSpeed.Lib.Ledger
import MultiSpeed.Execution.Manager
import Mathlib.Algebra.Order.Group.Multiset
import Mathlib.Tactic.Abel

/-!
# The lifecycle of a result

The manager refines a ledger: its rows are the results, the owner of a row is its
task, and its jobs are those on the channel, with a `Queue` call, or with a
worker.  What holds of a sound ledger holds of every run of the manager.
-/

namespace MultiSpeed.Execution

open Database

def lifecycle : Lifecycle ResultStatus where
  active := ResultStatus.active
  opens status := status = .queued ∨ status = .skipped
  moves before after := before.moves after = true
  interrupted := .cancelled

def entry (result : Result) : LedgerRow String ResultStatus :=
  ⟨result.taskID, result.status, result.finishedAt.isSome⟩

def jobKey (job : Job × ResultStatus) : String × ResultStatus := (job.1.resultID, job.2)

/-- The jobs of a list that come with nothing persisted but the queued row. -/
def queuedJobs (jobs : List Job) : Multiset (Job × ResultStatus) :=
  (jobs.map fun job ↦ (job, ResultStatus.queued) : List (Job × ResultStatus))

/-- The jobs whose rows are still to be closed. -/
def State.jobs (s : State) : Multiset (Job × ResultStatus) :=
  queuedJobs s.channel + (s.calls.filterMap fun c ↦ c.phase.job? : List (Job × ResultStatus)) +
    (s.workers.filterMap Phase.job? : List (Job × ResultStatus))

def ledgerOf (store : Store) (jobs : Multiset (Job × ResultStatus)) :
    Ledger String String ResultStatus where
  row id := (store.result? id).map entry
  live id := ∃ task, store.task? id = some task ∧ task.live = true
  jobs := jobs.map jobKey

def State.ledger (s : State) : Ledger String String ResultStatus := ledgerOf s.store s.jobs

/-! ## The statements -/

/-- A write to one row, read through the ledger. -/
theorem row_write {store store' : Store} {id : String} {result : Result}
    (h : ∀ k, store'.result? k = if id = k then some result else store.result? k) (k : String) :
    (store'.result? k).map entry =
      if id = k then some (entry result) else (store.result? k).map entry := by
  rw [h k]
  split <;> rfl

theorem live_same {store store' : Store} (h : Store.SameExceptResults store store')
    (jobs jobs' : Multiset (Job × ResultStatus)) :
    (ledgerOf store' jobs').live = (ledgerOf store jobs).live := by
  funext id
  simp only [ledgerOf, h.task?]

theorem environment_step {store store' : Store} (jobs : Multiset (Job × ResultStatus))
    (hresults : ∀ k, store'.result? k = store.result? k)
    (hlive : ∀ k row, store.result? k = some row → row.status.active = true →
      ∀ task, store.task? row.taskID = some task → task.live = true →
        ∃ task', store'.task? row.taskID = some task' ∧ task'.live = true) :
    Ledger.Step lifecycle (ledgerOf store jobs) (ledgerOf store' jobs) := by
  refine .environment ?_ ?_ rfl
  · funext k
    simp only [ledgerOf, hresults]
  · rintro k r hr hactive ⟨task, htask, hlivetask⟩
    obtain ⟨row, hrow, rfl⟩ := Option.map_eq_some_iff.mp hr
    exact hlive k row hrow hactive task htask hlivetask

/-- A statement that keeps the rows of live tasks live. -/
theorem tasks_step {store store' : Store} (jobs : Multiset (Job × ResultStatus))
    (hsame : Store.SameExceptTasks store store')
    (hlive : ∀ id task, store.task? id = some task → task.live = true →
      ∃ task', store'.task? id = some task' ∧ task'.live = true) :
    Ledger.Step lifecycle (ledgerOf store jobs) (ledgerOf store' jobs) :=
  environment_step jobs hsame.result? fun _ row _ _ task htask ↦ hlive row.taskID task htask

theorem deletion_step {store store' : Store} (jobs : Multiset (Job × ResultStatus))
    (h : Store.DeletesTerminal store store') :
    Ledger.Step lifecycle (ledgerOf store jobs) (ledgerOf store' jobs) := by
  refine .deleted (fun k ↦ ?_) (live_same h.same jobs jobs) rfl
  change (store'.result? k).map entry = (store.result? k).map entry ∨ _
  cases hnew : store'.result? k with
  | some row =>
      left
      rw [h.kept k row hnew]
  | none =>
      right
      refine ⟨by simp [ledgerOf, hnew], fun r hr ↦ ?_⟩
      obtain ⟨row, hrow, rfl⟩ := Option.map_eq_some_iff.mp hr
      exact ResultStatus.active_eq_false_iff.mpr (h.terminal k row hrow hnew)

private theorem live_of_write {store store' : Store} {id : String} {row' : Task}
    (hwrite : ∀ k, store'.task? k = if id = k then some row' else store.task? k)
    (hlive : row'.live = true) (k : String) (task : Task)
    (htask : store.task? k = some task) (htasklive : task.live = true) :
    ∃ task', store'.task? k = some task' ∧ task'.live = true := by
  rw [hwrite k]
  split
  · exact ⟨row', rfl, hlive⟩
  · exact ⟨task, htask, htasklive⟩

theorem statement_step {statement : Statement} {store store' : Store}
    (jobs : Multiset (Job × ResultStatus)) (hexternal : external statement = true)
    (h : statement.execute store = .ok store') :
    Ledger.Step lifecycle (ledgerOf store jobs) (ledgerOf store' jobs) := by
  cases statement with
  | createTask task uuid now =>
      obtain ⟨⟨created, written⟩, hcreate, rfl⟩ := Database.Except.map_ok h
      obtain ⟨-, hfree, htasks, hsame⟩ := Store.createTask_ok hcreate
      refine tasks_step jobs hsame fun id row hrow hlive ↦ ⟨row, ?_, hlive⟩
      rw [htasks id, if_neg, hrow]
      rintro rfl
      rw [hfree] at hrow
      cases hrow
  | updateTask task now =>
      obtain ⟨row, -, hlive, htasks, hsame⟩ := Store.updateTask_ok h
      exact tasks_step jobs hsame (live_of_write htasks hlive)
  | deleteTask id now =>
      obtain ⟨hidle, row, -, -, htasks, hsame⟩ :=
        Store.markTaskDeleted_ok (Store.deleteTask_eq_ok_iff.mp h)
      refine environment_step jobs hsame.result? fun k result hresult hactive task htask hlive ↦ ?_
      have hother : id ≠ result.taskID := by
        rintro rfl
        have hbusy : store.taskHasActiveResults result.taskID = true :=
          Store.taskHasActiveResults_iff.mpr ⟨k, result, hresult, rfl, hactive⟩
        rw [hidle] at hbusy
        cases hbusy
      exact ⟨task, by rw [htasks, if_neg hother, htask], hlive⟩
  | createResult result uuid now => cases hexternal
  | updateResult result => cases hexternal
  | deleteResult id => exact deletion_step jobs (Store.deleteResult_ok h)
  | deleteResults ids => exact deletion_step jobs (Store.deleteResults_ok h)
  | deleteResultsBefore cutoff batchSize =>
      exact deletion_step jobs (Store.deleteResultsBefore_ok h)
  | replaceConfiguration settings routes tasks now =>
      obtain ⟨hidle, hresults, -, -, -⟩ := Store.replaceConfiguration_ok h
      refine environment_step jobs (fun k ↦ by rw [Store.result?, hresults, Store.result?]) ?_
      intro k row hrow hactive
      have hnone := Table.any_eq_false_iff.mp hidle k row hrow
      rw [hactive] at hnone
      cases hnone

theorem schedule_step {id : String} {last next : Option Time} {now : Time}
    {store store' : Store} (jobs : Multiset (Job × ResultStatus))
    (h : store.updateTaskSchedule id last next now = .ok store') :
    Ledger.Step lifecycle (ledgerOf store jobs) (ledgerOf store' jobs) := by
  obtain ⟨row, -, hlive, htasks, hsame⟩ := Store.updateTaskSchedule_ok h
  exact tasks_step jobs hsame (live_of_write htasks hlive)

theorem configure_step {routes : RouteTable} {settings : Settings} {store store' : Store}
    (jobs : Multiset (Job × ResultStatus))
    (h : Database.commit store.tasks routes store.results settings = .ok store') :
    Ledger.Step lifecycle (ledgerOf store jobs) (ledgerOf store' jobs) := by
  obtain ⟨htasks, -, hresults, -⟩ := commit_eq_ok_iff.mp h
  refine environment_step jobs (fun k ↦ by rw [Store.result?, hresults, Store.result?]) ?_
  intro k row _ _ task htask hlive
  exact ⟨task, by rw [Store.task?, htasks]; exact htask, hlive⟩

theorem recovery_restarts {store store' : Store} {now : Time}
    (jobs : Multiset (Job × ResultStatus))
    (h : store.recoverInterruptedResults now = .ok store') :
    Ledger.Restarted lifecycle (ledgerOf store jobs) (ledgerOf store' 0) := by
  obtain ⟨hrows, hsame⟩ := Store.recoverInterruptedResults_ok h
  refine ⟨fun k ↦ ?_, live_same hsame jobs 0, rfl⟩
  change (store'.result? k).map entry = ((store.result? k).map entry).map _
  rw [hrows k]
  cases store.result? k with
  | none => rfl
  | some row =>
      change some (entry (if row.status.active = true then _ else row)) =
        some (if row.status.active = true then _ else entry row)
      split <;> rfl

/-! ## The sections -/

/-- A row the manager creates, read through the ledger. -/
private theorem created_rows {store store' : Store} {result created : Result} {uuid : String}
    {now : Time} (h : store.createResult result uuid now = .ok (created, store'))
    (jobs jobs' : Multiset (Job × ResultStatus)) :
    (entry created).status = result.status ∧ (entry created).closed = result.finishedAt.isSome ∧
      (ledgerOf store jobs).row created.id = none ∧
      (ledgerOf store jobs).live (entry created).owner ∧
      (∀ k, (ledgerOf store' jobs').row k =
        if created.id = k then some (entry created) else (ledgerOf store jobs).row k) ∧
      (ledgerOf store' jobs').live = (ledgerOf store jobs).live := by
  obtain ⟨hcreated, hfresh, hlive, hrows, hsame⟩ := Store.createResult_ok h
  refine ⟨by rw [hcreated]; rfl, by rw [hcreated]; rfl, ?_, hlive, ?_,
    live_same hsame jobs jobs'⟩
  · change (store.result? created.id).map entry = none
    rw [hfresh]
    rfl
  · have hwritten := row_write hrows
    exact hwritten

/-- A row the manager overwrites, read through the ledger. -/
private theorem updated_rows {store store' : Store} {result : Result}
    (h : store.updateResult result = .ok store') (jobs jobs' : Multiset (Job × ResultStatus)) :
    ∃ old new : LedgerRow String ResultStatus, (ledgerOf store jobs).row result.id = some old ∧
      new.owner = old.owner ∧ new.status = result.status ∧
      new.closed = result.finishedAt.isSome ∧
      (∀ k, (ledgerOf store' jobs').row k =
        if result.id = k then some new else (ledgerOf store jobs).row k) ∧
      (ledgerOf store' jobs').live = (ledgerOf store jobs).live := by
  obtain ⟨row, hrow, hrows, hsame⟩ := Store.updateResult_ok h
  refine ⟨entry row, entry (Store.assignResult result row), ?_, rfl, rfl, rfl, row_write hrows,
    live_same hsame jobs jobs'⟩
  change (store.result? result.id).map entry = _
  rw [hrow]
  rfl

private theorem held_jobs {job : Job} {stored : ResultStatus} {held : Option (Job × ResultStatus)}
    (h : held = some (job, stored)) (rest : Multiset (Job × ResultStatus)) :
    ((held.toList : Multiset (Job × ResultStatus)) + rest).map jobKey =
      (job.resultID, stored) ::ₘ rest.map jobKey := by
  subst h
  simp [jobKey]

private theorem no_jobs {held : Option (Job × ResultStatus)} (h : held = none)
    (rest : Multiset (Job × ResultStatus)) :
    (held.toList : Multiset (Job × ResultStatus)) + rest = rest := by
  subst h
  simp

theorem called_step {input : QueueInput} {store store' : Store} {c : QueueCall}
    {sent : Option Job} {phase : QueuePhase} (h : Called input store c store' sent phase)
    (rest : Multiset (Job × ResultStatus)) :
    Ledger.Step lifecycle (ledgerOf store (c.phase.job?.toList + rest))
        (ledgerOf store' (phase.job?.toList + (queuedJobs sent.toList + rest))) ∨
      Ledger.Dropped (ledgerOf store (c.phase.job?.toList + rest))
        (ledgerOf store' (phase.job?.toList + (queuedJobs sent.toList + rest))) ∧
          c.endServed input store = false := by
  have hnone : queuedJobs (none : Option Job).toList + rest = rest := by simp [queuedJobs]
  cases h with
  | kept job =>
      left
      rw [hnone, job]
      exact .environment rfl (fun _ _ _ _ hlive ↦ hlive) rfl
  | @recorded result created uuid now _ status finished idle inserted =>
      left
      rw [hnone, no_jobs idle, no_jobs (QueuePhase.job?_returned _ _)]
      obtain ⟨hstatus, hclosed, hfresh, -, hrows, hlive⟩ := created_rows inserted rest rest
      refine .recorded hfresh (.inr ?_) ?_ ?_ hrows hlive rfl
      · rw [hstatus, status]
      · rw [hstatus, status]
        rfl
      · rw [hclosed, finished]
  | @opened snapshot result created uuid now _ status idle inserted =>
      left
      rw [hnone, no_jobs idle]
      obtain ⟨hstatus, -, hfresh, hlive, hrows, hsame⟩ :=
        created_rows inserted rest ((QueuePhase.created snapshot created).job?.toList + rest)
      rw [status] at hstatus
      refine .opened hfresh (.inl hstatus) ?_ hlive hrows hsame ?_
      · rw [hstatus]
        rfl
      · rw [hstatus]
        exact held_jobs (QueuePhase.job?_created snapshot created) rest
  | @sent snapshot result at_ =>
      left
      refine .environment rfl (fun _ _ _ _ hlive ↦ hlive) ?_
      rw [at_, no_jobs (QueuePhase.job?_returned _ _)]
      rfl
  | @finished snapshot result finished _ at_ written =>
      left
      rw [hnone, at_, no_jobs (QueuePhase.job?_returned _ _)]
      obtain ⟨old, new, hold, howner, hstatus, hclosed, hrows, hlive⟩ :=
        updated_rows written
          ((QueuePhase.overflow snapshot result finished).job?.toList + rest) rest
      have hheld := held_jobs (QueuePhase.job?_overflow snapshot result finished) rest
      refine .finished hheld hold ?_ ?_ ?_ howner hrows hlive
      · rw [hstatus]
        rfl
      · rw [hstatus]
        rfl
      · rw [hclosed]
        rfl
  | @dropped snapshot result finished e at_ lost =>
      right
      rw [hnone, at_, no_jobs (QueuePhase.job?_returned _ _)]
      have hheld := held_jobs (QueuePhase.job?_overflow snapshot result finished) rest
      exact ⟨⟨rfl, rfl, _, hheld⟩, lost⟩

theorem worked_step {input : WorkerInput} {store store' : Store} {phase phase' : Phase}
    (h : Worked input store phase store' phase') (rest : Multiset (Job × ResultStatus)) :
    Ledger.Step lifecycle (ledgerOf store (phase.job?.toList + rest))
        (ledgerOf store' (phase'.job?.toList + rest)) ∨
      Ledger.Dropped (ledgerOf store (phase.job?.toList + rest))
        (ledgerOf store' (phase'.job?.toList + rest)) ∧
          ∃ job stored, phase.job? = some (job, stored) ∧
            (phase.endServed input store = true → store.result? job.resultID = none) := by
  cases h with
  | kept job =>
      left
      rw [job]
      exact .environment rfl (fun _ _ _ _ hlive ↦ hlive) rfl
  | @moved job stored status result _ _ held moves active written held' =>
      left
      obtain ⟨old, new, hold, howner, hstatus, -, hrows, hlive⟩ :=
        updated_rows written (phase.job?.toList + rest) (phase'.job?.toList + rest)
      rw [result.status_eq] at hstatus
      have hbefore := held_jobs held rest
      have hafter := held_jobs held' rest
      rw [← result.id] at hbefore hafter
      refine .moved hbefore hold ?_ ?_ howner hrows hlive ?_
      · rw [hstatus]
        exact moves
      · rw [hstatus]
        exact active
      · rw [hstatus]
        exact hafter
  | @finished job acquired write _ at_ written =>
      left
      rw [no_jobs (Phase.job?_leaving job acquired)]
      obtain ⟨old, new, hold, howner, hstatus, hclosed, hrows, hlive⟩ :=
        updated_rows written (phase.job?.toList + rest) rest
      have hclosing : phase.job? = some (job, write.stored) := by
        rw [at_]
        rfl
      have hbefore := held_jobs hclosing rest
      rw [← write.id] at hbefore
      refine .finished hbefore hold ?_ ?_ ?_ howner hrows hlive
      · rw [hstatus]
        exact write.moves
      · rw [hstatus]
        exact ResultStatus.active_eq_false_iff.mpr write.terminal
      · rw [hclosed]
        exact write.finished
  | @dropped job stored acquired held lost =>
      right
      rw [no_jobs (Phase.job?_leaving job acquired)]
      exact ⟨⟨rfl, rfl, _, held_jobs held rest⟩, job, stored, held, lost⟩

/-! ## The manager refines a ledger -/

/-- The calls the end of a job depends on are served: the write of `persistTerminal`
and the read of `failUnloaded`. -/
def endServed (s : State) : Action → Bool
  | .call index input => (s.calls[index]?).all fun c ↦ c.endServed input s.store
  | .work worker input => (s.workers[worker]?).all fun phase ↦ phase.endServed input s.store
  | _ => true

inductive Refined (s : State) (action : Action) (t : State) : Prop where
  | stepped (step : Ledger.Step lifecycle s.ledger t.ledger)
  | dropped (dropped : Ledger.Dropped s.ledger t.ledger) (lost : endServed s action = false)
  | restarted {now : Time} (at_ : action = .restart now)
      (restarted : Ledger.Restarted lifecycle s.ledger t.ledger)

@[simp] theorem queuedJobs_append (jobs jobs' : List Job) :
    queuedJobs (jobs ++ jobs') = queuedJobs jobs + queuedJobs jobs' := by
  simp [queuedJobs]

@[simp] theorem jobs_start (store : Store) : (State.start store).jobs = 0 := by
  simp [State.jobs, State.start, queuedJobs, Phase.job?]

theorem jobs_called {s : State} {index : ℕ} {c : QueueCall} (at_ : s.calls[index]? = some c) :
    ∃ rest, s.jobs = c.phase.job?.toList + rest ∧
      ∀ (store : Store) (sent : Option Job) (phase : QueuePhase) (lock : Option ℕ),
        State.jobs { s with
          store := store
          channel := s.channel ++ sent.toList
          calls := s.calls.set index { c with phase := phase }
          lock := lock
          sent := s.sent ++ sent.toList } =
            phase.job?.toList + (queuedJobs sent.toList + rest) := by
  obtain ⟨calls, hbefore, hafter⟩ :=
    List.exists_filterMap_set (fun c : QueueCall ↦ c.phase.job?) at_
  refine ⟨queuedJobs s.channel + calls + (s.workers.filterMap Phase.job? : List _), ?_,
    fun store sent phase lock ↦ ?_⟩
  · rw [State.jobs, hbefore]
    abel
  · rw [State.jobs, queuedJobs_append, hafter]
    abel

theorem jobs_received {s : State} {worker : ℕ} {job : Job} {rest : List Job}
    (at_ : s.workers[worker]? = some .idle) (head : s.channel = job :: rest) :
    State.jobs { s with
      channel := rest
      workers := s.workers.set worker (.received job)
      received := s.received ++ [(worker, job)] } = s.jobs := by
  obtain ⟨workers, hbefore, hafter⟩ := List.exists_filterMap_set Phase.job? at_
  have hs : s.jobs = queuedJobs [job] + (queuedJobs rest +
      (s.calls.filterMap fun c ↦ c.phase.job? : List _) + workers) := by
    rw [State.jobs, hbefore, head, ← List.singleton_append, queuedJobs_append]
    simp only [Phase.job?, Option.toList_none, Multiset.coe_nil]
    abel
  rw [hs, State.jobs, hafter]
  simp only [Phase.job?, Option.toList_some, queuedJobs, List.map_cons, List.map_nil]
  abel

theorem jobs_worked {s : State} {worker : ℕ} {phase : Phase}
    (at_ : s.workers[worker]? = some phase) :
    ∃ rest, s.jobs = phase.job?.toList + rest ∧
      ∀ (store : Store) (limiter : RunLimiter) (phase' : Phase),
        State.jobs { s with
          store := store
          workers := s.workers.set worker phase'
          limiter := limiter } = phase'.job?.toList + rest := by
  obtain ⟨workers, hbefore, hafter⟩ := List.exists_filterMap_set Phase.job? at_
  refine ⟨queuedJobs s.channel + (s.calls.filterMap fun c ↦ c.phase.job? : List _) + workers,
    ?_, fun store limiter phase' ↦ ?_⟩
  · rw [State.jobs, hbefore]
    abel
  · rw [State.jobs, hafter]
    abel

theorem step_refines {env : Env} {s t : State} {action : Action}
    (hsound : Ledger.Sound lifecycle s.ledger) (h : step env s action = some t) :
    Refined s action t := by
  have hstepped := step_spec h
  cases hstepped with
  | refused statement => exact .stepped (.environment rfl (fun _ _ _ _ hlive ↦ hlive) rfl)
  | queued taskID trigger scheduledAt =>
      refine .stepped (.environment rfl (fun _ _ _ _ hlive ↦ hlive) ?_)
      simp [State.ledger, ledgerOf, State.jobs, QueuePhase.job?]
  | @called index input c store sent phase at_ free advanced =>
      obtain ⟨rest, hs, ht⟩ := jobs_called at_
      have hrefined := called_step (advance_called advanced) rest
      have ht := ht store sent phase (lockAfter index c.phase phase s.lock)
      rcases hrefined with hstep | ⟨hdropped, hlost⟩
      · refine .stepped ?_
        rw [State.ledger, State.ledger, hs, ht]
        exact hstep
      · refine .dropped ?_ ?_
        · rw [State.ledger, State.ledger, hs, ht]
          exact hdropped
        · simp only [endServed, at_, Option.all_some, hlost]
  | @received worker job rest at_ head =>
      refine .stepped (.environment rfl (fun _ _ _ _ hlive ↦ hlive) ?_)
      change Multiset.map jobKey (State.jobs _) = Multiset.map jobKey s.jobs
      rw [jobs_received at_ head]
  | @worked worker input phase phase' store limiter at_ advanced =>
      obtain ⟨rest, hs, ht⟩ := jobs_worked at_
      have hrefined := worked_step (advance_worked advanced) rest
      have ht := ht store limiter phase'
      rcases hrefined with hstep | ⟨hdropped, job, stored, hheld, hlost⟩
      · refine .stepped ?_
        rw [State.ledger, State.ledger, hs, ht]
        exact hstep
      · refine .dropped ?_ ?_
        · rw [State.ledger, State.ledger, hs, ht]
          exact hdropped
        · -- the row of a job is there as long as the job is held
          have hmem : (job.resultID, stored) ∈ s.ledger.jobs := by
            change _ ∈ s.jobs.map jobKey
            rw [hs, held_jobs hheld]
            exact Multiset.mem_cons_self _ _
          obtain ⟨-, r, hrow, -⟩ := hsound.known _ _ hmem
          obtain ⟨row, hresult, -⟩ := Option.map_eq_some_iff.mp hrow
          simp only [endServed, at_, Option.all_some]
          by_contra hserved
          rw [hlost (by simpa using hserved)] at hresult
          cases hresult
  | executed allowed executed => exact .stepped (statement_step s.jobs allowed executed)
  | scheduled executed => exact .stepped (schedule_step s.jobs executed)
  | configured executed => exact .stepped (configure_step s.jobs executed)
  | @restarted now store recovered =>
      refine .restarted rfl ?_
      rw [State.ledger, State.ledger, jobs_start]
      exact recovery_restarts s.jobs recovered

/-! ## Every run -/

/-- What the results of a database satisfy before the manager starts on it. -/
structure RowsSound (store : Store) : Prop where
  finished : ∀ k row, store.result? k = some row → row.status.terminal = true →
    row.finishedAt.isSome = true
  live : ∀ k row, store.result? k = some row → row.status.active = true →
    ∃ task, store.task? row.taskID = some task ∧ task.live = true

/-- A manager over such a database, before its recovery. -/
def Initial (s : State) : Prop := ∃ store, RowsSound store ∧ s = .start store

theorem sound_start {store : Store} (h : RowsSound store) :
    Ledger.Sound lifecycle (State.start store).ledger := by
  refine ⟨fun k r hr hended ↦ ?_, fun k r hr hactive ↦ ?_, fun k status hmem ↦ ?_, ?_⟩
  · obtain ⟨row, hrow, rfl⟩ := Option.map_eq_some_iff.mp hr
    exact h.finished k row hrow (ResultStatus.active_eq_false_iff.mp hended)
  · obtain ⟨row, hrow, rfl⟩ := Option.map_eq_some_iff.mp hr
    exact h.live k row hrow hactive
  · simp [State.ledger, ledgerOf] at hmem
  · simp [State.ledger, ledgerOf]

theorem rows_of_sound {s : State} (h : Ledger.Sound lifecycle s.ledger) : RowsSound s.store := by
  have hrow : ∀ {k row}, s.store.result? k = some row → s.ledger.row k = some (entry row) := by
    intro k row hrow
    change (s.store.result? k).map entry = _
    rw [hrow]
    rfl
  refine ⟨fun k row hk hterminal ↦ ?_, fun k row hk hactive ↦ ?_⟩
  · exact h.closed k (entry row) (hrow hk) (ResultStatus.active_eq_false_iff.mpr hterminal)
  · exact h.live k (entry row) (hrow hk) hactive

theorem Refined.sound {s t : State} {action : Action}
    (hsound : Ledger.Sound lifecycle s.ledger) (h : Refined s action t) :
    Ledger.Sound lifecycle t.ledger := by
  cases h with
  | stepped step => exact hsound.step step
  | dropped dropped lost => exact hsound.dropped dropped
  | restarted at_ restarted => exact (hsound.restarted restarted rfl).1

theorem reachable_sound {env : Env} {s : State}
    (hs : Transition.Reachable (step env) Initial s) : Ledger.Sound lifecycle s.ledger := by
  refine Transition.Reachable.invariant
    (P := fun s : State ↦ Ledger.Sound lifecycle s.ledger) ?_ ?_ hs
  · rintro s ⟨store, hrows, rfl⟩
    exact sound_start hrows
  · intro s action t hsound hstep
    exact (step_refines hsound hstep).sound hsound

end MultiSpeed.Execution
