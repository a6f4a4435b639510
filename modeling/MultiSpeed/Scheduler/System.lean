import MultiSpeed.Lib.Transition
import MultiSpeed.Database.Statements
import MultiSpeed.Scheduler.Fire

/-!
# The scheduler as a transition system

Any number of callbacks, suspended between the sections of `fire`, next to the
operations of the scheduler and the statements of the other components.  One
step is one section under the mutex, one read of the store, one operation, or
one statement; the clocks, the served calls, the random delays and the choice of
the next step are part of the action and so arbitrary.  The log is a history
variable: which callback persisted which instant, and which it queued.
-/

namespace MultiSpeed.Scheduling

open Database

/-- Where a callback is suspended. -/
inductive Phase where
  /-- Before the first generation check. -/
  | started
  /-- Before the task is read. -/
  | checked
  /-- Before the schedule is persisted. -/
  | prepared (p : Prepared)
  /-- In the random delay. -/
  | jitter (p : Prepared)
  /-- Before the run is queued. -/
  | waited (p : Prepared)
  | finished

/-- The run a callback has persisted and not yet queued. -/
def Phase.pending : Phase → Option Prepared
  | .jitter p | .waited p => some p
  | .started | .checked | .prepared _ | .finished => none

structure Callback where
  taskID : String
  generation : UInt64
  /-- The place of the generation in the count. -/
  issued : ℕ
  phase : Phase

inductive Event where
  | persisted (callback : ℕ) (taskID : String) (scheduledAt : Time)
  | queued (callback : ℕ) (taskID : String) (scheduledAt : Time)
  deriving DecidableEq

structure State where
  core : Core
  callbacks : List Callback
  log : List Event

/-- The answers a section of a callback gets. -/
structure Input where
  first : Call
  second : Call
  now : Time
  random : Option UInt64
  elapsed : Bool

inductive Action where
  | statement (statement : Statement)
  | reschedule (taskID : String) (calls : Calls)
  | remove (taskID : String)
  | reconcile (tasks : List Task) (calls : Calls)
  /-- The cron loop starts the function of an entry. -/
  | fire (entryID : ℕ)
  /-- A callback runs its next section. -/
  | advance (index : ℕ) (input : Input)

/-- The next section of a callback: the core it leaves, the phase it reaches and
what it did. -/
def Callback.advance (env : Env) (input : Input) (index : ℕ) (core : Core) (c : Callback) :
    Option (Core × Phase × List Event) :=
  match c.phase with
  | .started =>
      some (core, if core.scheduler.isCurrentGenerationLocked c.taskID c.generation then
        .checked else .finished, [])
  | .checked =>
      match prepare env input.first input.now core.store c.taskID with
      | none => some (core, .finished, [])
      | some p => some (core, .prepared p, [])
  | .prepared p =>
      let out := persistLocked input.first input.second core c.taskID c.generation p
      match out.1 with
      | .persisted => some (out.2, .jitter p, [.persisted index c.taskID p.scheduled])
      | _ => some (out.2, .finished, [])
  | .jitter p =>
      some (core, if waits p.randomJitterSeconds input.random input.elapsed then .waited p
        else .finished, [])
  | .waited p =>
      if core.scheduler.isCurrentGenerationLocked c.taskID c.generation then
        some (core, .finished, [.queued index c.taskID p.scheduled])
      else some (core, .finished, [])
  | .finished => none

def step (env : Env) (s : State) : Action → Option State
  | .statement statement =>
      match statement.execute s.core.store with
      | .ok store => some { s with core := { s.core with store := store } }
      | .error _ => some s
  | .reschedule taskID calls =>
      some { s with core := (rescheduleLocked env calls 0 s.core taskID).core }
  | .remove taskID => some { s with core := s.core.remove taskID }
  | .reconcile tasks calls =>
      some { s with core := (reconcile env calls 0 s.core tasks).core }
  | .fire entryID =>
      match s.core.scheduler.cron.entries.find? fun e ↦ e.id = entryID with
      | none => none
      | some e =>
          some { s with
            callbacks := s.callbacks ++ [⟨e.taskID, e.generation, e.issued, .started⟩] }
  | .advance index input =>
      match s.callbacks[index]? with
      | none => none
      | some c =>
          match c.advance env input index s.core with
          | none => none
          | some (core, phase, events) =>
              some {
                core := core
                callbacks := s.callbacks.set index { c with phase := phase }
                log := s.log ++ events }

/-- A new scheduler over any database, before its first operation. -/
def Initial (s : State) : Prop :=
  s.core.scheduler = .new ∧ s.callbacks = [] ∧ s.log = []

/-! ## What a section of a callback does -/

/-- The four kinds of sections: those that only move the callback on, a failed
attempt to persist, and the two that leave a trace. -/
inductive Advanced (input : Input) (core : Core) (index : ℕ) (c : Callback) :
    Core → Phase → List Event → Prop where
  | quiet {phase : Phase} (running : c.phase ≠ .finished)
      (pending : phase.pending = none ∨ phase.pending = c.phase.pending) :
      Advanced input core index c core phase []
  | unsaved {p : Prepared} (at_ : c.phase = .prepared p)
      (valid : core.scheduler.isCurrentGenerationLocked c.taskID c.generation = true)
      (unserved : input.second.served = false) :
      Advanced input core index c ⟨core.store, core.scheduler.setLocalFire c.taskID p.localKey⟩
        .finished []
  | persisted {p : Prepared} {current : Task} {store : Store} {stamp : Time}
      (at_ : c.phase = .prepared p)
      (valid : core.scheduler.isCurrentGenerationLocked c.taskID c.generation = true)
      (loaded : core.store.getTask c.taskID = .ok current)
      (new : duplicateLocalTime core.scheduler c.taskID p current = false)
      (later : outOfOrder p current = false)
      (stored : core.store.updateTaskSchedule c.taskID (some p.scheduled) (some p.next)
        stamp = .ok store) :
      Advanced input core index c ⟨store, core.scheduler.setLocalFire c.taskID p.localKey⟩
        (.jitter p) [.persisted index c.taskID p.scheduled]
  | queued {p : Prepared} (at_ : c.phase = .waited p)
      (valid : core.scheduler.isCurrentGenerationLocked c.taskID c.generation = true) :
      Advanced input core index c core .finished [.queued index c.taskID p.scheduled]

theorem advance_spec {env : Env} {input : Input} {index : ℕ} {core core' : Core}
    {c : Callback} {phase : Phase} {events : List Event}
    (h : c.advance env input index core = some (core', phase, events)) :
    Advanced input core index c core' phase events := by
  have hrunning : c.phase ≠ .finished := by
    intro hfinished
    simp [Callback.advance, hfinished] at h
  unfold Callback.advance at h
  split at h
  · obtain ⟨rfl, rfl, rfl⟩ := by simpa using h
    refine .quiet hrunning (.inl ?_)
    split <;> rfl
  · split at h
    · obtain ⟨rfl, rfl, rfl⟩ := by simpa using h
      exact .quiet hrunning (.inl rfl)
    · obtain ⟨rfl, rfl, rfl⟩ := by simpa using h
      exact .quiet hrunning (.inl rfl)
  · rename_i p hphase
    have hspec := persistLocked_spec input.first input.second core c.taskID c.generation p
    revert h hspec
    generalize persistLocked input.first input.second core c.taskID c.generation p = out
    intro h hspec
    cases hspec with
    | persistFailed valid loaded new later unserved =>
        obtain ⟨rfl, rfl, rfl⟩ := by simpa using h
        exact .unsaved hphase valid unserved
    | persisted valid loaded new later stored =>
        obtain ⟨rfl, rfl, rfl⟩ := by simpa using h
        exact .persisted hphase valid loaded new later stored
    | stale | reloadFailed | duplicate | outOfOrder =>
        obtain ⟨rfl, rfl, rfl⟩ := by simpa using h
        exact .quiet hrunning (.inl rfl)
  · rename_i p hphase
    obtain ⟨rfl, rfl, rfl⟩ := by simpa using h
    refine .quiet hrunning ?_
    rw [hphase]
    split
    · exact .inr rfl
    · exact .inl rfl
  · rename_i p hphase
    split at h
    · rename_i hvalid
      obtain ⟨rfl, rfl, rfl⟩ := by simpa using h
      exact .queued hphase hvalid
    · obtain ⟨rfl, rfl, rfl⟩ := by simpa using h
      exact .quiet hrunning (.inl rfl)
  · cases h

/-! ## What a step does -/

/-- The operations of the scheduler, as a relation between cores. -/
inductive Operated (env : Env) (core : Core) : Action → Core → Prop where
  | reschedule (taskID : String) (calls : Calls) :
      Operated env core (.reschedule taskID calls)
        (rescheduleLocked env calls 0 core taskID).core
  | remove (taskID : String) : Operated env core (.remove taskID) (core.remove taskID)
  | reconcile (tasks : List Task) (calls : Calls) :
      Operated env core (.reconcile tasks calls) (reconcile env calls 0 core tasks).core

/-- One case for each kind of step. -/
inductive Stepped (env : Env) (s : State) : Action → State → Prop where
  | refused (statement : Statement) : Stepped env s (.statement statement) s
  | executed {statement : Statement} {store : Store}
      (executed : statement.execute s.core.store = .ok store) :
      Stepped env s (.statement statement) { s with core := { s.core with store := store } }
  | operated {action : Action} {core : Core} (operated : Operated env s.core action core) :
      Stepped env s action { s with core := core }
  | fired {e : CronEntry} (registered : e ∈ s.core.scheduler.cron.entries) :
      Stepped env s (.fire e.id) { s with
        callbacks := s.callbacks ++ [⟨e.taskID, e.generation, e.issued, .started⟩] }
  | advanced {index : ℕ} {input : Input} {c : Callback} {core : Core} {phase : Phase}
      {events : List Event} (at_ : s.callbacks[index]? = some c)
      (advanced : Advanced input s.core index c core phase events) :
      Stepped env s (.advance index input) {
        core := core
        callbacks := s.callbacks.set index { c with phase := phase }
        log := s.log ++ events }

theorem step_spec {env : Env} {s t : State} {action : Action}
    (h : step env s action = some t) : Stepped env s action t := by
  cases action with
  | statement statement =>
      unfold step at h
      dsimp only at h
      split at h
      · rename_i store hstore
        obtain rfl := Option.some.inj h
        exact .executed hstore
      · obtain rfl := Option.some.inj h
        exact .refused statement
  | reschedule taskID calls =>
      obtain rfl := Option.some.inj h
      exact .operated (.reschedule taskID calls)
  | remove taskID =>
      obtain rfl := Option.some.inj h
      exact .operated (.remove taskID)
  | reconcile tasks calls =>
      obtain rfl := Option.some.inj h
      exact .operated (.reconcile tasks calls)
  | fire entryID =>
      unfold step at h
      dsimp only at h
      split at h
      · cases h
      · rename_i e he
        obtain rfl := Option.some.inj h
        obtain rfl : e.id = entryID := by simpa using List.find?_some he
        exact .fired (List.mem_of_find?_eq_some he)
  | advance index input =>
      unfold step at h
      dsimp only at h
      split at h
      · cases h
      · rename_i c hc
        split at h
        · cases h
        · rename_i core phase events hadvance
          obtain rfl := Option.some.inj h
          exact .advanced hc (advance_spec hadvance)

/-- What removals and rescheduling keep, every operation keeps. -/
theorem Operated.induction {env : Env} {P : Core → Prop}
    (hremove : ∀ core taskID, P core → P (core.remove taskID))
    (hreschedule : ∀ core taskID out, P core → Rescheduled env core taskID out → P out.core)
    (hwell : ∀ core, P core → core.scheduler.WellFormed)
    {core core' : Core} {action : Action} (hcore : P core)
    (h : Operated env core action core') : P core' := by
  have hlocked : ∀ calls core used taskID, P core →
      P (rescheduleLocked env calls used core taskID).core :=
    fun calls core used taskID hP ↦ hreschedule core taskID _ hP
      (rescheduleLocked_spec env calls (hwell core hP) used taskID)
  cases h with
  | reschedule taskID calls => exact hlocked calls core 0 taskID hcore
  | remove taskID => exact hremove core taskID hcore
  | reconcile tasks calls => exact reconcile_induction hremove (hlocked calls) 0 tasks hcore

theorem getElem?_set_callback {callbacks : List Callback} {index i : ℕ} {c c' : Callback}
    {phase : Phase} (h : (callbacks.set index { c with phase := phase })[i]? = some c') :
    (i = index ∧ c' = { c with phase := phase }) ∨ (i ≠ index ∧ callbacks[i]? = some c') := by
  rw [List.getElem?_set] at h
  split at h
  · rename_i hi
    split at h
    · exact .inl ⟨hi.symm, (Option.some.inj h).symm⟩
    · cases h
  · rename_i hi
    exact .inr ⟨Ne.symm hi, h⟩

/-! ## A scheduler that knows UTC and one expression -/

/-- The libraries as they answer for the expression `* * * * *` in UTC. -/
def minutely : Env where
  loadLocation name := if name = "UTC" then some ⟨fun _ ↦ 0⟩ else none
  parse spec :=
    if spec = "* * * * *" ∨ spec = "CRON_TZ=UTC * * * * *" then
      some ⟨fun _ t ↦ (t / 60000000000 + 1) * 60000000000⟩
    else none

/-- Every call is served, and all clocks show the same time. -/
def servedAt (now : Time) : Calls := fun _ ↦ ⟨true, now, now⟩

/-- A section whose calls are served and whose timer elapses. -/
def inputAt (now : Time) : Input := ⟨⟨true, now, now⟩, ⟨true, now, now⟩, now, none, true⟩

/-- A new scheduler over the database with one task. -/
def oneTaskStart : State := ⟨⟨oneTask, .new⟩, [], []⟩

/-- The task is registered, and its first callback has persisted its run and waited. -/
def waitingRun : List Action :=
  [.reschedule "task" (servedAt 0), .fire 1, .advance 0 (inputAt 60000000000),
    .advance 0 (inputAt 60000000000), .advance 0 (inputAt 60000000000),
    .advance 0 (inputAt 60000000000)]

/-- The state after a run that begins there. -/
def minutelyRun (actions : List Action) : State :=
  (Transition.run (step minutely) oneTaskStart actions).getD oneTaskStart

end MultiSpeed.Scheduling
