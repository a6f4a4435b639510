import MultiSpeed.Lib.Transition
import MultiSpeed.Database.Statements
import MultiSpeed.Execution.Queue

/-!
# The execution manager as a transition system

Any number of `Queue` calls and 16 workers over one database, next to the
statements of the API, the scheduler and the retention loop.  One step is one
section between two accesses to shared state.  A restart may come at any time: a
new process recovers the interrupted results and starts a new manager.
-/

namespace MultiSpeed.Execution

open Database

structure State where
  store : Store
  channel : List Job
  calls : List QueueCall
  /-- The call that holds `queueMu`. -/
  lock : Option ℕ
  workers : List Phase
  limiter : RunLimiter
  /-- The jobs put on the channel since the start, and the workers that took them. -/
  sent : List Job
  received : List (ℕ × Job)

/-- `New` and `Start`. -/
def State.start (store : Store) : State :=
  ⟨store, [], [], none, List.replicate 16 .idle, .new, [], []⟩

inductive Action where
  | queue (taskID : String) (trigger : TriggerType) (scheduledAt : Option Time)
  | call (index : ℕ) (input : QueueInput)
  | receive (worker : ℕ)
  | work (worker : ℕ) (input : WorkerInput)
  | statement (statement : Statement)
  /-- `UpdateTaskSchedule`. -/
  | schedule (id : String) (last next : Option Time) (now : Time)
  /-- A statement on route profiles or settings. -/
  | configure (routes : RouteTable) (settings : Settings)
  | restart (now : Time)

/-- A statement the database may refuse. -/
def Action.isStatement : Action → Bool
  | .statement _ | .schedule _ _ _ _ | .configure _ _ => true
  | _ => false

/-- `CreateResult` and `UpdateResult` are called by the manager only. -/
def external : Statement → Bool
  | .createResult _ _ _ | .updateResult _ => false
  | _ => true

/-- A call waits as long as another one holds the mutex. -/
def blocked (lock : Option ℕ) : QueuePhase → Bool
  | .waiting _ => lock.isSome
  | _ => false

def lockAfter (index : ℕ) (before after : QueuePhase) (lock : Option ℕ) : Option ℕ :=
  if after.holdsLock then some index else if before.holdsLock then none else lock

/-- The state after a statement; a refused one changes nothing. -/
def State.commit (s : State) : Except StoreError Store → State
  | .ok store => { s with store := store }
  | .error _ => s

def step (env : Env) (s : State) : Action → Option State
  | .queue taskID trigger scheduledAt =>
      some { s with calls := s.calls ++ [⟨taskID, trigger, scheduledAt, .started⟩] }
  | .call index input =>
      match s.calls[index]? with
      | none => none
      | some c =>
          if blocked s.lock c.phase then none
          else
            match c.advance env input s.store s.channel.length with
            | none => none
            | some (store, sent, phase) =>
                some { s with
                  store := store
                  channel := s.channel ++ sent.toList
                  calls := s.calls.set index { c with phase := phase }
                  lock := lockAfter index c.phase phase s.lock
                  sent := s.sent ++ sent.toList }
  | .receive worker =>
      match s.workers[worker]?, s.channel with
      | some .idle, job :: rest =>
          some { s with
            channel := rest
            workers := s.workers.set worker (.received job)
            received := s.received ++ [(worker, job)] }
      | _, _ => none
  | .work worker input =>
      match s.workers[worker]? with
      | none => none
      | some phase =>
          match phase.advance env input s.store s.limiter with
          | none => none
          | some (store, limiter, phase) =>
              some { s with
                store := store
                workers := s.workers.set worker phase
                limiter := limiter }
  | .statement statement =>
      if external statement then some (s.commit (statement.execute s.store)) else none
  | .schedule id last next now => some (s.commit (s.store.updateTaskSchedule id last next now))
  | .configure routes settings =>
      some (s.commit (Database.commit s.store.tasks routes s.store.results settings))
  | .restart now =>
      match s.store.recoverInterruptedResults now with
      | .ok store => some (.start store)
      | .error _ => none

/-- One case for each kind of step. -/
inductive Stepped (env : Env) (s : State) : Action → State → Prop where
  | refused {action : Action} (statement : action.isStatement = true) : Stepped env s action s
  | queued (taskID : String) (trigger : TriggerType) (scheduledAt : Option Time) :
      Stepped env s (.queue taskID trigger scheduledAt)
        { s with calls := s.calls ++ [⟨taskID, trigger, scheduledAt, .started⟩] }
  | called {index : ℕ} {input : QueueInput} {c : QueueCall} {store : Store}
      {sent : Option Job} {phase : QueuePhase} (at_ : s.calls[index]? = some c)
      (free : blocked s.lock c.phase = false)
      (advanced : c.advance env input s.store s.channel.length = some (store, sent, phase)) :
      Stepped env s (.call index input) { s with
        store := store
        channel := s.channel ++ sent.toList
        calls := s.calls.set index { c with phase := phase }
        lock := lockAfter index c.phase phase s.lock
        sent := s.sent ++ sent.toList }
  | received {worker : ℕ} {job : Job} {rest : List Job} (at_ : s.workers[worker]? = some .idle)
      (head : s.channel = job :: rest) :
      Stepped env s (.receive worker) { s with
        channel := rest
        workers := s.workers.set worker (.received job)
        received := s.received ++ [(worker, job)] }
  | worked {worker : ℕ} {input : WorkerInput} {phase phase' : Phase} {store : Store}
      {limiter : RunLimiter} (at_ : s.workers[worker]? = some phase)
      (advanced : phase.advance env input s.store s.limiter = some (store, limiter, phase')) :
      Stepped env s (.work worker input) { s with
        store := store
        workers := s.workers.set worker phase'
        limiter := limiter }
  | executed {statement : Statement} {store : Store} (allowed : external statement = true)
      (executed : statement.execute s.store = .ok store) :
      Stepped env s (.statement statement) { s with store := store }
  | scheduled {id : String} {last next : Option Time} {now : Time} {store : Store}
      (executed : s.store.updateTaskSchedule id last next now = .ok store) :
      Stepped env s (.schedule id last next now) { s with store := store }
  | configured {routes : RouteTable} {settings : Settings} {store : Store}
      (executed : Database.commit s.store.tasks routes s.store.results settings = .ok store) :
      Stepped env s (.configure routes settings) { s with store := store }
  | restarted {now : Time} {store : Store}
      (recovered : s.store.recoverInterruptedResults now = .ok store) :
      Stepped env s (.restart now) (.start store)

theorem step_spec {env : Env} {s t : State} {action : Action}
    (h : step env s action = some t) : Stepped env s action t := by
  cases action with
  | queue taskID trigger scheduledAt =>
      obtain rfl := Option.some.inj h
      exact .queued taskID trigger scheduledAt
  | call index input =>
      simp only [step] at h
      split at h
      · cases h
      · rename_i c hc
        split at h
        · cases h
        · rename_i hfree
          split at h
          · cases h
          · rename_i store sent phase hadvance
            obtain rfl := Option.some.inj h
            exact .called hc (by simpa using hfree) hadvance
  | receive worker =>
      simp only [step] at h
      split at h
      · rename_i job rest hworker hchannel
        obtain rfl := Option.some.inj h
        exact .received hworker hchannel
      · cases h
  | work worker input =>
      simp only [step] at h
      split at h
      · cases h
      · rename_i phase hphase
        split at h
        · cases h
        · rename_i store limiter phase' hadvance
          obtain rfl := Option.some.inj h
          exact .worked hphase hadvance
  | statement statement =>
      simp only [step] at h
      split at h
      · rename_i hallowed
        obtain rfl := Option.some.inj h
        cases hexecute : statement.execute s.store with
        | ok store => exact .executed hallowed hexecute
        | error e => exact .refused rfl
      · cases h
  | schedule id last next now =>
      obtain rfl := Option.some.inj h
      cases hexecute : s.store.updateTaskSchedule id last next now with
      | ok store => exact .scheduled hexecute
      | error e => exact .refused rfl
  | configure routes settings =>
      obtain rfl := Option.some.inj h
      cases hexecute : Database.commit s.store.tasks routes s.store.results settings with
      | ok store => exact .configured hexecute
      | error e => exact .refused rfl
  | restart now =>
      simp only [step] at h
      split at h
      · rename_i store hrecover
        obtain rfl := Option.some.inj h
        exact .restarted hrecover
      · cases h

/-- A section of a call whose phase is known. -/
theorem call_spec {env : Env} {s t : State} {index : ℕ} {input : QueueInput} {c : QueueCall}
    (hcall : s.calls[index]? = some c) (h : step env s (.call index input) = some t) :
    ∃ store sent phase,
      c.advance env input s.store s.channel.length = some (store, sent, phase) ∧
      t.store = store ∧ t.sent = s.sent ++ sent.toList ∧
      t.calls[index]? = some { c with phase := phase } := by
  cases step_spec h with
  | refused statement => cases statement
  | @called _ _ _ store sent phase at_ free advanced =>
      rw [hcall] at at_
      obtain rfl := Option.some.inj at_
      have hlt := (List.getElem?_eq_some_iff.mp hcall).1
      exact ⟨store, sent, phase, advanced, rfl, rfl, List.getElem?_set_self hlt⟩

end MultiSpeed.Execution
