import MultiSpeed.Scheduler.Reschedule

/-!
# Firing

The sections of `fire`.  Between them a callback holds no lock and other
callbacks and operations may run: it checks its generation, prepares its run
from a first read of the task, persists the schedule under the mutex, waits out
a random delay, and queues the run under the mutex.
-/

namespace MultiSpeed.Scheduling

open Database

/-- What a callback has computed when it asks for the mutex. -/
structure Prepared where
  location : Location
  randomJitterSeconds : ℤ
  scheduled : Time
  localKey : ℤ
  next : Time

/-- The read-only preparation.  The clock is read after the task is loaded. -/
def prepare (env : Env) (load : Call) (now : Time) (store : Store) (taskID : String) :
    Option Prepared :=
  match load.serve (store.getTask taskID) with
  | .error _ => none
  | .ok task =>
      if !task.enabled then none
      else
        match env.loadLocation task.timezone with
        | none => none
        | some location =>
            match env.parse task.cronExpression with
            | none => none
            | some parsedSchedule =>
                some {
                  location := location
                  randomJitterSeconds := task.randomJitterSeconds
                  scheduled := now
                  localKey := location.localMinute now
                  next := parsedSchedule.next location now }

theorem prepare_eq_some_iff {env : Env} {load : Call} {now : Time} {store : Store}
    {taskID : String} {p : Prepared} :
    prepare env load now store taskID = some p ↔
      load.served = true ∧ ∃ task location schedule, store.getTask taskID = .ok task ∧
        task.enabled = true ∧ env.loadLocation task.timezone = some location ∧
        env.parse task.cronExpression = some schedule ∧
        p = ⟨location, task.randomJitterSeconds, now, location.localMinute now,
          schedule.next location now⟩ := by
  unfold prepare
  constructor
  · intro h
    split at h
    · cases h
    · rename_i task hload
      obtain ⟨hserved, hload⟩ := Call.serve_eq_ok_iff.mp hload
      split at h
      · cases h
      · rename_i hon
        split at h
        · cases h
        · rename_i location hlocation
          split at h
          · cases h
          · rename_i schedule hschedule
            exact ⟨hserved, task, location, schedule, hload, by simpa using hon, hlocation,
              hschedule, (Option.some.inj h).symm⟩
  · rintro ⟨hserved, task, location, schedule, hload, hon, hlocation, hschedule, rfl⟩
    rw [Call.serve_eq_ok_iff.mpr ⟨hserved, hload⟩]
    simp [hon, hlocation, hschedule]

/-- A local minute that was the last to fire is not run again: neither the one
in memory nor the one the stored activation lies in. -/
def duplicateLocalTime (scheduler : Scheduler) (taskID : String) (p : Prepared)
    (current : Task) : Bool :=
  decide (scheduler.localFire.lookup taskID = some p.localKey) ||
    decide (current.lastScheduledAt.map p.location.localMinute = some p.localKey)

/-- `scheduled` is not after the stored activation. -/
def outOfOrder (p : Prepared) (current : Task) : Bool :=
  current.lastScheduledAt.any fun last ↦ decide (p.scheduled ≤ last)

/-- How the section that persists the schedule ends. -/
inductive Verdict where
  | stale
  | reloadFailed
  | duplicate
  | outOfOrder
  | persistFailed
  | persisted
  deriving DecidableEq, Repr

def Scheduler.setLocalFire (s : Scheduler) (taskID : String) (localKey : ℤ) : Scheduler :=
  { s with localFire := s.localFire.insert taskID localKey }

/-- The first locked section of `fire`. -/
def persistLocked (reload update : Call) (core : Core) (taskID : String)
    (generation : UInt64) (p : Prepared) : Verdict × Core :=
  if !core.scheduler.isCurrentGenerationLocked taskID generation then (.stale, core)
  else
    match reload.serve (core.store.getTask taskID) with
    | .error _ => (.reloadFailed, core)
    | .ok current =>
        if duplicateLocalTime core.scheduler taskID p current then (.duplicate, core)
        else if Scheduling.outOfOrder p current then (.outOfOrder, core)
        else
          let scheduler := core.scheduler.setLocalFire taskID p.localKey
          match update.serve (core.store.updateTaskSchedule taskID (some p.scheduled)
              (some p.next) update.stamp) with
          | .error _ => (.persistFailed, ⟨core.store, scheduler⟩)
          | .ok store => (.persisted, ⟨store, scheduler⟩)

/-- `randomDelay`, in seconds; `random` is the answer of `cryptorand.Read`. -/
def randomDelay (maxSeconds : ℤ) (random : Option UInt64) : ℤ :=
  if maxSeconds ≤ 0 then 0
  else
    match random with
    | none => 0
    | some data =>
        (data.toNat : ℤ) % ((if 3600 < maxSeconds then 3600 else maxSeconds) + 1)

/-- The wait for the delay: `elapsed` is `false` when the scheduler is stopped
before the timer. -/
def waits (maxSeconds : ℤ) (random : Option UInt64) (elapsed : Bool) : Bool :=
  !(decide (0 < randomDelay maxSeconds random) && !elapsed)

theorem waits_of_elapsed (maxSeconds : ℤ) (random : Option UInt64) :
    waits maxSeconds random true = true := by
  simp [waits]

/-- The answers one run of `fire` gets. -/
structure FireInput where
  now : Time
  load : Call
  reload : Call
  update : Call
  random : Option UInt64
  elapsed : Bool

/-- `fire` without anything in between: the core it leaves and the instant it
queued, if it reached the queue call. -/
def fire (env : Env) (input : FireInput) (core : Core) (taskID : String)
    (generation : UInt64) : Core × Option Time :=
  if !core.scheduler.isCurrentGenerationLocked taskID generation then (core, none)
  else
    match prepare env input.load input.now core.store taskID with
    | none => (core, none)
    | some p =>
        let out := persistLocked input.reload input.update core taskID generation p
        match out.1 with
        | .persisted =>
            if !waits p.randomJitterSeconds input.random input.elapsed then (out.2, none)
            else if !out.2.scheduler.isCurrentGenerationLocked taskID generation then
              (out.2, none)
            else (out.2, some p.scheduled)
        | _ => (out.2, none)

/-! ## What the locked section does -/

/-- The ways the first locked section can end. -/
inductive PersistCase (update : Call) (core : Core) (taskID : String) (generation : UInt64)
    (p : Prepared) : Verdict × Core → Prop where
  | stale (old : core.scheduler.isCurrentGenerationLocked taskID generation = false) :
      PersistCase update core taskID generation p (.stale, core)
  | reloadFailed : PersistCase update core taskID generation p (.reloadFailed, core)
  | duplicate {current : Task} (loaded : core.store.getTask taskID = .ok current)
      (again : duplicateLocalTime core.scheduler taskID p current = true) :
      PersistCase update core taskID generation p (.duplicate, core)
  | outOfOrder {current : Task} (loaded : core.store.getTask taskID = .ok current)
      (new : duplicateLocalTime core.scheduler taskID p current = false)
      (early : Scheduling.outOfOrder p current = true) :
      PersistCase update core taskID generation p (.outOfOrder, core)
  | persistFailed {current : Task}
      (valid : core.scheduler.isCurrentGenerationLocked taskID generation = true)
      (loaded : core.store.getTask taskID = .ok current)
      (new : duplicateLocalTime core.scheduler taskID p current = false)
      (later : Scheduling.outOfOrder p current = false)
      (unserved : update.served = false) :
      PersistCase update core taskID generation p
        (.persistFailed, ⟨core.store, core.scheduler.setLocalFire taskID p.localKey⟩)
  | persisted {current : Task} {store : Store} {stamp : Time}
      (valid : core.scheduler.isCurrentGenerationLocked taskID generation = true)
      (loaded : core.store.getTask taskID = .ok current)
      (new : duplicateLocalTime core.scheduler taskID p current = false)
      (later : Scheduling.outOfOrder p current = false)
      (stored : core.store.updateTaskSchedule taskID (some p.scheduled) (some p.next) stamp =
        .ok store) :
      PersistCase update core taskID generation p
        (.persisted, ⟨store, core.scheduler.setLocalFire taskID p.localKey⟩)

theorem persistLocked_spec (reload update : Call) (core : Core) (taskID : String)
    (generation : UInt64) (p : Prepared) :
    PersistCase update core taskID generation p
      (persistLocked reload update core taskID generation p) := by
  unfold persistLocked
  dsimp only
  split
  · rename_i hold
    exact .stale (by simpa using hold)
  · rename_i hvalid
    split
    · exact .reloadFailed
    · rename_i current hloaded
      obtain ⟨-, hloaded⟩ := Call.serve_eq_ok_iff.mp hloaded
      split
      · rename_i hagain
        exact .duplicate hloaded hagain
      · rename_i hnew
        split
        · rename_i hearly
          exact .outOfOrder hloaded (by simpa using hnew) hearly
        · rename_i hlater
          split
          · rename_i e hfailed
            obtain ⟨hrow, hlive⟩ := Store.getTask_eq_ok_iff.mp hloaded
            obtain ⟨store, hstored⟩ := Store.updateTaskSchedule_isOk (some p.scheduled)
              (some p.next) update.stamp hrow hlive
            have hunserved : update.served = false := by
              by_contra hserved
              rw [Call.serve_eq_ok_iff.mpr ⟨by simpa using hserved, hstored⟩] at hfailed
              cases hfailed
            exact .persistFailed (by simpa using hvalid) hloaded (by simpa using hnew)
              (by simpa using hlater) hunserved
          · rename_i store hstored
            exact .persisted (by simpa using hvalid) hloaded (by simpa using hnew)
              (by simpa using hlater) (Call.serve_eq_ok_iff.mp hstored).2

/-- With all its calls served, the section runs to one of four ends. -/
theorem persistLocked_of_served (reload update : Call) (hreload : reload.served = true)
    (hupdate : update.served = true) {core : Core} {taskID : String} {generation : UInt64}
    (p : Prepared) {current : Task}
    (hvalid : core.scheduler.isCurrentGenerationLocked taskID generation = true)
    (hloaded : core.store.getTask taskID = .ok current) :
    (persistLocked reload update core taskID generation p).1 =
      if duplicateLocalTime core.scheduler taskID p current then .duplicate
      else if outOfOrder p current then .outOfOrder else .persisted := by
  obtain ⟨hrow, hlive⟩ := Store.getTask_eq_ok_iff.mp hloaded
  obtain ⟨store, hstored⟩ := Store.updateTaskSchedule_isOk (some p.scheduled)
    (some p.next) update.stamp hrow hlive
  unfold persistLocked
  rw [hvalid, Call.serve_eq_ok_iff.mpr ⟨hreload, hloaded⟩,
    Call.serve_eq_ok_iff.mpr ⟨hupdate, hstored⟩]
  simp only [Bool.not_true, Bool.false_eq_true, if_false]
  split
  · rfl
  · split <;> rfl

theorem Scheduler.WellFormed.setLocalFire {s : Scheduler} (hs : s.WellFormed)
    (taskID : String) (localKey : ℤ) : (s.setLocalFire taskID localKey).WellFormed :=
  ⟨hs.counter, hs.ids_le, hs.ids_inj, hs.keys, hs.registered, hs.entry, hs.stamped⟩

end MultiSpeed.Scheduling
