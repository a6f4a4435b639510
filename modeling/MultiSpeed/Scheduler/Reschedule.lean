import MultiSpeed.Database.Tasks
import MultiSpeed.Scheduler.Memory

/-!
# Rescheduling

`Reschedule`, `Remove`, `Reconcile` and `Start`: the operations that bring the
scheduler's memory in line with the persisted tasks.  Each runs under the
scheduler mutex and calls the store with a context.  A `Calls` value is the
sequence of answers such a context gets: whether a call is served at all, and
what the clocks read.
-/

namespace MultiSpeed.Scheduling

open Database

/-- One call into the store. -/
structure Call where
  /-- The context is not done and the database answers. -/
  served : Bool
  /-- The clock of the caller before the call. -/
  now : Time
  /-- The clock the store stamps the row with. -/
  stamp : Time

/-- The calls made with one context, in order. -/
abbrev Calls := ℕ → Call

def Call.serve {α : Type} (call : Call) (answer : Except StoreError α) :
    Except StoreError α := Database.serve call.served answer

theorem Call.serve_eq_ok_iff {α : Type} {call : Call} {answer : Except StoreError α} {a : α} :
    call.serve answer = .ok a ↔ call.served = true ∧ answer = .ok a :=
  Database.serve_eq_ok_iff

/-- The database and the memory of the scheduler. -/
structure Core where
  store : Store
  scheduler : Scheduler

inductive SchedulerError where
  /-- `load current task schedule` -/
  | load (cause : StoreError)
  /-- `timezone "name"` -/
  | timezone (name : String)
  /-- `cron expression` -/
  | cronExpression
  /-- The error of `AddFunc`. -/
  | addFunc
  /-- The error of `UpdateTaskSchedule`. -/
  | persist (cause : StoreError)
  /-- `reconcile task id`, and `schedule task id` of `Start` -/
  | task (id : String) (cause : SchedulerError)
  /-- The error of `ListEnabledTasks`. -/
  | list (cause : StoreError)

/-- The end of an operation: `used` counts the calls made with its context. -/
structure Outcome where
  core : Core
  used : ℕ
  error : Option SchedulerError

/-- The expression handed to `AddFunc`. -/
def cronSpec (task : Task) : String :=
  "CRON_TZ=" ++ task.timezone ++ " " ++ task.cronExpression

variable (env : Env) (calls : Calls)

/-- `rescheduleLocked`.  Of the task it is given only the identity is used: the
row is loaded again. -/
def rescheduleLocked (used : ℕ) (core : Core) (taskID : String) : Outcome :=
  let scheduler := core.scheduler.unschedule taskID
  match (calls used).serve (core.store.getTask taskID) with
  | .error e => ⟨⟨core.store, scheduler⟩, used + 1, some (.load e)⟩
  | .ok task =>
      let call := calls (used + 1)
      let lastScheduledAt := task.lastScheduledAt
      if !task.enabled then
        match call.serve
            (core.store.updateTaskSchedule task.id lastScheduledAt none call.stamp) with
        | .error e => ⟨⟨core.store, scheduler⟩, used + 2, some (.persist e)⟩
        | .ok store => ⟨⟨store, scheduler⟩, used + 2, none⟩
      else
        match env.loadLocation task.timezone with
        | none => ⟨⟨core.store, scheduler⟩, used + 1, some (.timezone task.timezone)⟩
        | some location =>
            match env.parse task.cronExpression with
            | none => ⟨⟨core.store, scheduler⟩, used + 1, some .cronExpression⟩
            | some parsedSchedule =>
                let drawn := scheduler.drawGeneration task.id
                match env.parse (cronSpec task) with
                | none =>
                    ⟨⟨core.store, drawn.deleteGeneration task.id⟩, used + 1, some .addFunc⟩
                | some _ =>
                    let added := drawn.addFunc task.id (cronSpec task)
                    let next := parsedSchedule.next location call.now
                    match call.serve (core.store.updateTaskSchedule task.id
                        lastScheduledAt (some next) call.stamp) with
                    | .error e =>
                        ⟨⟨core.store, added.withdraw task.id⟩, used + 2, some (.persist e)⟩
                    | .ok store => ⟨⟨store, added⟩, used + 2, none⟩

/-- `Remove`; it makes no store call. -/
def Core.remove (core : Core) (taskID : String) : Core :=
  { core with scheduler := core.scheduler.remove taskID }

/-- The loop that reschedules the listed tasks until one fails. -/
def rescheduleAll : ℕ → Core → List Task → Outcome
  | used, core, [] => ⟨core, used, none⟩
  | used, core, task :: rest =>
      let out := rescheduleLocked env calls used core task.id
      match out.error with
      | some e => { out with error := some (.task task.id e) }
      | none => rescheduleAll out.used out.core rest

/-- `Reconcile`. -/
def reconcile (used : ℕ) (core : Core) (tasks : List Task) : Outcome :=
  rescheduleAll env calls used { core with scheduler := core.scheduler.clearAll } tasks

/-- `Start`, before the cron loop runs. -/
def start (used : ℕ) (core : Core) : Outcome :=
  match (calls used).serve core.store.listEnabledTasks with
  | .error e => ⟨core, used + 1, some (.list e)⟩
  | .ok tasks => rescheduleAll env calls (used + 1) core tasks

/-! ## What rescheduling does -/

/-- A task can be registered: its zone loads, its expression parses, and so
does the expression with the zone in front. -/
def Env.registers (env : Env) (task : Task) : Bool :=
  (env.loadLocation task.timezone).isSome && (env.parse task.cronExpression).isSome &&
    (env.parse (cronSpec task)).isSome

/-- The task has lost its registration and nothing else has changed. -/
structure Cleared (taskID : String) (s s' : Scheduler) : Prop where
  wellFormed : s'.WellFormed
  entries : ∀ k, s'.entries.lookup k = if taskID = k then none else s.entries.lookup k
  generations : ∀ k, s'.generations.lookup k =
    if taskID = k then none else s.generations.lookup k
  cron : ∀ e, e ∈ s'.cron.entries ↔ e ∈ s.cron.entries ∧ e.taskID ≠ taskID
  localFire : s'.localFire = s.localFire
  issued : s.issued < s'.issued

theorem cleared_unschedule {s : Scheduler} (hs : s.WellFormed) (taskID : String) :
    Cleared taskID s (s.unschedule taskID) where
  wellFormed := hs.unschedule taskID
  entries := s.unschedule_entries taskID
  generations := s.unschedule_generations taskID
  cron _ := hs.mem_unschedule
  localFire := s.unschedule_localFire taskID
  issued := by simp

theorem Cleared.nextGenerationLocked {taskID : String} {s s' : Scheduler}
    (h : Cleared taskID s s') : Cleared taskID s s'.nextGenerationLocked where
  wellFormed := h.wellFormed.nextGenerationLocked
  entries := h.entries
  generations := h.generations
  cron := h.cron
  localFire := h.localFire
  issued := Nat.lt_succ_of_lt h.issued

theorem Cleared.free {taskID : String} {s s' : Scheduler} (h : Cleared taskID s s') :
    s'.entries.lookup taskID = none := by
  simp [h.entries]

theorem Cleared.current {taskID : String} {s s' : Scheduler} (h : Cleared taskID s s') :
    s'.generations.lookup taskID = none := by
  simp [h.generations]

/-- A registration that is taken back leaves the task cleared. -/
theorem Cleared.withdraw_register {taskID : String} {s s' : Scheduler}
    (h : Cleared taskID s s') (spec : String) :
    Cleared taskID s ((s'.register taskID spec).withdraw taskID) := by
  have hs := h.wellFormed.register h.free spec
  refine ⟨hs.withdraw taskID, fun k ↦ ?_, fun k ↦ ?_, fun e ↦ ?_, ?_, ?_⟩
  · rw [Scheduler.withdraw_entries, Scheduler.register_entries, h.entries]
    split <;> rfl
  · rw [Scheduler.withdraw_generations, Scheduler.register_generations, h.generations]
    split <;> rfl
  · rw [hs.mem_withdraw, Scheduler.mem_register, h.cron]
    constructor
    · rintro ⟨he | rfl, hne⟩
      · exact he
      · exact absurd rfl hne
    · exact fun he ↦ ⟨.inl he, he.2⟩
  · rw [Scheduler.withdraw_localFire, Scheduler.register_localFire, h.localFire]
  · rw [Scheduler.withdraw_issued, Scheduler.register_issued]
    exact Nat.lt_succ_of_lt h.issued

/-- The three ways a call of `rescheduleLocked` can end: it fails and leaves the
task without a registration and the store alone; the task is disabled and its
next activation is cleared; or the task is registered under a new generation and
its next activation is stored. -/
inductive Rescheduled (core : Core) (taskID : String) : Outcome → Prop where
  | failed {scheduler : Scheduler} {used : ℕ} {error : SchedulerError}
      (cleared : Cleared taskID core.scheduler scheduler) :
      Rescheduled core taskID ⟨⟨core.store, scheduler⟩, used, some error⟩
  | disabled {task : Task} {store : Store} {stamp : Time} {used : ℕ}
      (loaded : core.store.getTask taskID = .ok task) (off : task.enabled = false)
      (stored : core.store.updateTaskSchedule taskID task.lastScheduledAt none stamp =
        .ok store) :
      Rescheduled core taskID ⟨⟨store, core.scheduler.unschedule taskID⟩, used, none⟩
  | registered {task : Task} {store : Store} {next stamp : Time} {used : ℕ}
      (loaded : core.store.getTask taskID = .ok task) (on : task.enabled = true)
      (registers : env.registers task = true)
      (stored : core.store.updateTaskSchedule taskID task.lastScheduledAt (some next) stamp =
        .ok store) :
      Rescheduled core taskID
        ⟨⟨store, (core.scheduler.unschedule taskID).register taskID (cronSpec task)⟩, used,
          none⟩

theorem rescheduleLocked_spec {core : Core} (hcore : core.scheduler.WellFormed) (used : ℕ)
    (taskID : String) :
    Rescheduled env core taskID (rescheduleLocked env calls used core taskID) := by
  have hcleared := cleared_unschedule hcore taskID
  unfold rescheduleLocked
  dsimp only
  split
  · exact .failed hcleared
  · rename_i task hload
    obtain ⟨-, hload⟩ := Call.serve_eq_ok_iff.mp hload
    obtain rfl := Store.getTask_id hload
    split
    · rename_i hoff
      split
      · exact .failed hcleared
      · rename_i store hstored
        exact .disabled hload (by simpa using hoff) (Call.serve_eq_ok_iff.mp hstored).2
    · rename_i hon
      split
      · exact .failed hcleared
      · rename_i location hlocation
        split
        · exact .failed hcleared
        · rename_i schedule hschedule
          split
          · rw [Scheduler.drawGeneration_deleteGeneration hcleared.current]
            exact .failed hcleared.nextGenerationLocked
          · rename_i spec hspec
            split
            · exact .failed (hcleared.withdraw_register (cronSpec task))
            · rename_i store hstored
              exact .registered hload (by simpa using hon)
                (by simp [Env.registers, hlocation, hschedule, hspec])
                (Call.serve_eq_ok_iff.mp hstored).2

/-- With its calls served, an enabled task that can be registered is registered. -/
theorem rescheduleLocked_of_registers (used : ℕ) {core : Core} {taskID : String} {task : Task}
    (hload : (calls used).served = true) (hstore : (calls (used + 1)).served = true)
    (htask : core.store.getTask taskID = .ok task) (hon : task.enabled = true)
    (hregisters : env.registers task = true) :
    ∃ store next stamp, rescheduleLocked env calls used core taskID =
        ⟨⟨store, (core.scheduler.unschedule taskID).register taskID (cronSpec task)⟩,
          used + 2, none⟩ ∧
      core.store.updateTaskSchedule taskID task.lastScheduledAt (some next) stamp =
        .ok store := by
  obtain rfl := Store.getTask_id htask
  obtain ⟨hrow, hlive⟩ := Store.getTask_eq_ok_iff.mp htask
  simp only [Env.registers, Bool.and_eq_true, Option.isSome_iff_exists] at hregisters
  obtain ⟨⟨⟨location, hlocation⟩, schedule, hschedule⟩, spec, hspec⟩ := hregisters
  obtain ⟨store, hstored⟩ := Store.updateTaskSchedule_isOk task.lastScheduledAt
    (some (schedule.next location (calls (used + 1)).now)) (calls (used + 1)).stamp hrow hlive
  refine ⟨store, _, _, ?_, hstored⟩
  simp only [rescheduleLocked, Call.serve_eq_ok_iff.mpr ⟨hload, htask⟩, hon, hlocation,
    hschedule, hspec, Call.serve_eq_ok_iff.mpr ⟨hstore, hstored⟩, Bool.not_true,
    Bool.false_eq_true, if_false]
  rfl

variable {env calls}

theorem Rescheduled.wellFormed {core : Core} {taskID : String} {out : Outcome}
    (hcore : core.scheduler.WellFormed) (h : Rescheduled env core taskID out) :
    out.core.scheduler.WellFormed := by
  cases h with
  | failed cleared => exact cleared.wellFormed
  | disabled => exact hcore.unschedule taskID
  | registered =>
      exact (hcore.unschedule taskID).register (cleared_unschedule hcore taskID).free _

/-- The second store differs from the first in next activations and update
times of task rows only. -/
structure OnlyNext (s t : Store) : Prop where
  none : ∀ k, s.task? k = none → t.task? k = none
  some : ∀ k row, s.task? k = some row → ∃ next stamp,
    t.task? k = some (Store.assignSchedule row.lastScheduledAt next stamp row)
  same : Store.SameExceptTasks s t

theorem OnlyNext.refl (s : Store) : OnlyNext s s :=
  ⟨fun _ h ↦ h, fun _ row h ↦ ⟨row.nextScheduledAt, row.updatedAt, h⟩, .refl s⟩

theorem OnlyNext.trans {s t u : Store} (h : OnlyNext s t) (h' : OnlyNext t u) :
    OnlyNext s u := by
  refine ⟨fun k hk ↦ h'.none k (h.none k hk), fun k row hrow ↦ ?_, h.same.trans h'.same⟩
  obtain ⟨next, stamp, hmiddle⟩ := h.some k row hrow
  obtain ⟨next', stamp', hlast⟩ := h'.some k _ hmiddle
  exact ⟨next', stamp', hlast⟩

/-- A live row stays live, and its configuration is that of the old row. -/
theorem OnlyNext.getTask {s t : Store} (h : OnlyNext s t) {taskID : String} {row : Task}
    (hrow : s.getTask taskID = .ok row) : ∃ next stamp,
      t.getTask taskID = .ok (Store.assignSchedule row.lastScheduledAt next stamp row) := by
  obtain ⟨hrow, hlive⟩ := Store.getTask_eq_ok_iff.mp hrow
  obtain ⟨next, stamp, hrow'⟩ := h.some taskID row hrow
  exact ⟨next, stamp, Store.getTask_eq_ok_iff.mpr ⟨hrow', hlive⟩⟩

theorem OnlyNext.getTask_of {s t : Store} (h : OnlyNext s t) {taskID : String} {row' : Task}
    (hrow' : t.getTask taskID = .ok row') : ∃ row next stamp, s.getTask taskID = .ok row ∧
      row' = Store.assignSchedule row.lastScheduledAt next stamp row := by
  obtain ⟨hfind, hlive⟩ := Store.getTask_eq_ok_iff.mp hrow'
  cases hrow : s.task? taskID with
  | none =>
      rw [h.none taskID hrow] at hfind
      cases hfind
  | some row =>
      obtain ⟨next, stamp, hnew⟩ := h.some taskID row hrow
      obtain rfl := Option.some.inj (hfind.symm.trans hnew)
      exact ⟨row, next, stamp, Store.getTask_eq_ok_iff.mpr ⟨hrow, hlive⟩, rfl⟩

/-- Rescheduling writes back the last activation it has read. -/
theorem Rescheduled.onlyNext {core : Core} {taskID : String} {out : Outcome}
    (h : Rescheduled env core taskID out) : OnlyNext core.store out.core.store := by
  have hwrite : ∀ {task : Task} {store : Store} {next : Option Time} {stamp : Time},
      core.store.getTask taskID = .ok task →
      core.store.updateTaskSchedule taskID task.lastScheduledAt next stamp = .ok store →
      OnlyNext core.store store := by
    intro task store next stamp hload hstored
    obtain ⟨row, hrow, -, htasks, hsame⟩ := Store.updateTaskSchedule_ok hstored
    obtain rfl : row = task :=
      Option.some.inj (hrow.symm.trans (Store.getTask_eq_ok_iff.mp hload).1)
    refine ⟨fun k hk ↦ ?_, fun k old hold ↦ ?_, hsame⟩
    · rw [htasks k, if_neg, hk]
      rintro rfl
      rw [hk] at hrow
      cases hrow
    · rw [htasks k]
      split
      · rename_i hk
        subst hk
        obtain rfl := Option.some.inj (hrow.symm.trans hold)
        exact ⟨next, stamp, rfl⟩
      · exact ⟨old.nextScheduledAt, old.updatedAt, hold⟩
  cases h with
  | failed => exact .refl _
  | disabled loaded _ stored => exact hwrite loaded stored
  | registered loaded _ _ stored => exact hwrite loaded stored

theorem Rescheduled.localFire {core : Core} {taskID : String} {out : Outcome}
    (h : Rescheduled env core taskID out) :
    out.core.scheduler.localFire = core.scheduler.localFire := by
  cases h with
  | failed cleared => exact cleared.localFire
  | disabled => exact core.scheduler.unschedule_localFire taskID
  | registered => exact core.scheduler.unschedule_localFire taskID

/-! ## Induction rules -/

/-- What rescheduling one task keeps, rescheduling a list of tasks keeps. -/
theorem rescheduleAll_induction {P : Core → Prop}
    (hstep : ∀ core used taskID, P core →
      P (rescheduleLocked env calls used core taskID).core) :
    ∀ (tasks : List Task) (used : ℕ) {core : Core}, P core →
      P (rescheduleAll env calls used core tasks).core
  | [], _, _, hcore => hcore
  | task :: rest, used, core, hcore => by
      have hhead := hstep core used task.id hcore
      unfold rescheduleAll
      dsimp only
      split
      · exact hhead
      · exact rescheduleAll_induction hstep rest _ hhead

/-- What removals and rescheduling keep, `Reconcile` keeps. -/
theorem reconcile_induction {P : Core → Prop}
    (hremove : ∀ core taskID, P core → P (core.remove taskID))
    (hstep : ∀ core used taskID, P core →
      P (rescheduleLocked env calls used core taskID).core)
    (used : ℕ) {core : Core} (tasks : List Task) (hcore : P core) :
    P (reconcile env calls used core tasks).core :=
  rescheduleAll_induction hstep tasks used
    (Scheduler.clearAll_induction (P := fun s ↦ P ⟨core.store, s⟩)
      (fun s taskID hs ↦ hremove ⟨core.store, s⟩ taskID hs) hcore).1

variable (env calls) in
/-- `Reconcile` changes next activations and update times only. -/
theorem reconcile_onlyNext (used : ℕ) {core : Core} (hcore : core.scheduler.WellFormed)
    (tasks : List Task) :
    (reconcile env calls used core tasks).core.scheduler.WellFormed ∧
      OnlyNext core.store (reconcile env calls used core tasks).core.store := by
  refine reconcile_induction (P := fun next ↦ next.scheduler.WellFormed ∧
    OnlyNext core.store next.store) ?_ ?_ used tasks ⟨hcore, .refl _⟩
  · rintro next taskID ⟨hwell, honly⟩
    exact ⟨hwell.remove taskID, honly⟩
  · rintro next used taskID ⟨hwell, honly⟩
    have hspec := rescheduleLocked_spec env calls hwell used taskID
    exact ⟨hspec.wellFormed hwell, honly.trans hspec.onlyNext⟩

end MultiSpeed.Scheduling
