import MultiSpeed.Scheduler.LastScheduled
import MultiSpeed.Scheduler.LocalTime

/-!
# Fires before and after a restart

A restarted scheduler knows the stored activations but not the local minutes the
old one remembered.  The two suppress the same fires as long as no fire after the
stored activation can meet a remembered minute that is not the activation's own,
read in the task's zone.  An edit of the zone breaks this: it leaves the
remembered minute, taken from the old zone, where it is.
-/

namespace MultiSpeed.Scheduling

open Database Transition

/-- A fire at `now` is persisted and queued when its calls are served. -/
def runs (env : Env) (core : Core) (taskID : String) (now : Time) : Bool :=
  match core.store.getTask taskID with
  | .error _ => false
  | .ok row =>
      match env.loadLocation row.timezone with
      | none => false
      | some location =>
          row.enabled && (env.parse row.cronExpression).isSome &&
            !suppresses core taskID location row now

theorem runs_iff {env : Env} {core : Core} {taskID : String} {now : Time} :
    runs env core taskID now = true ↔
      ∃ row location, core.store.getTask taskID = .ok row ∧
        env.loadLocation row.timezone = some location ∧ row.enabled = true ∧
        (env.parse row.cronExpression).isSome = true ∧
        suppresses core taskID location row now = false := by
  unfold runs
  constructor
  · intro h
    split at h
    · cases h
    · rename_i row hload
      split at h
      · cases h
      · rename_i location hzone
        simp only [Bool.and_eq_true, Bool.not_eq_true'] at h
        exact ⟨row, location, hload, hzone, h.1.1, h.1.2, h.2⟩
  · rintro ⟨row, location, hload, hzone, hon, hparse, hkeep⟩
    simp [hload, hzone, hon, hparse, hkeep]

theorem fire_served_eq {env : Env} {core : Core} {taskID : String} {generation : UInt64}
    (hcurrent : core.scheduler.generations.lookup taskID = some generation) (now : Time) :
    (fire env (.served now) core taskID generation).2 =
      if runs env core taskID now then some now else none := by
  by_cases hruns : runs env core taskID now = true
  · obtain ⟨row, location, hload, hzone, hon, hparse, hkeep⟩ := runs_iff.mp hruns
    have harmed : Armed env core taskID generation location row :=
      ⟨hcurrent, hload, hon, hzone, hparse⟩
    obtain ⟨-, -, -, -, hsome⟩ := fire_served harmed hkeep
    rw [hsome, if_pos hruns]
  · rw [if_neg hruns]
    cases hp : prepare env (FireInput.served now).load now core.store taskID with
    | none =>
        have hvalid := Scheduler.isCurrentGenerationLocked_iff.mpr hcurrent
        have hp' : prepare env (FireInput.served now).load (FireInput.served now).now
            core.store taskID = none := hp
        simp [fire, hvalid, hp']
    | some p =>
        obtain ⟨-, row, location, schedule, hload, hon, hzone, hparse, -⟩ :=
          prepare_eq_some_iff.mp hp
        have hparsed : (env.parse row.cronExpression).isSome = true := by simp [hparse]
        have harmed : Armed env core taskID generation location row :=
          ⟨hcurrent, hload, hon, hzone, hparsed⟩
        have hdrop : suppresses core taskID location row now = true := by
          by_contra hkeep
          exact hruns (runs_iff.mpr
            ⟨row, location, hload, hzone, hon, hparsed, by simpa using hkeep⟩)
        rw [fire_of_suppresses harmed hdrop]

/-! ## Remembered and stored minutes -/

/-- An instant after `last` lies in the local minute `key`, and `last` does not. -/
def Shadows (location : Location) (last : Time) (key : ℤ) : Prop :=
  location.localMinute last ≠ key ∧ ∃ now, last < now ∧ location.localMinute now = key

/-- A remembered local minute suppresses nothing that the stored activation does
not suppress, in the zone of the task. -/
def State.Agrees (env : Env) (taskID : String) (s : State) : Prop :=
  ∀ key, s.core.scheduler.localFire.lookup taskID = some key →
    ∃ row last, s.core.store.task? taskID = some row ∧ row.lastScheduledAt = some last ∧
      ∀ location, env.loadLocation row.timezone = some location →
        ¬ Shadows location last key

/-- A step that keeps the memory and the database in agreement on a task.  A
statement that moves the task to another zone finds there no later instant in
the remembered minute, unless the last activation lies in it too.  A callback
persists with its call served, under a zone of which the same holds. -/
def KeepsLocalMinute (env : Env) (taskID : String) (s : State) : Action → Prop
  | .statement statement =>
      ∀ row key last timezone location, s.core.store.task? taskID = some row →
        s.core.scheduler.localFire.lookup taskID = some key →
        row.lastScheduledAt = some last → timezone ∈ statement.timezones taskID →
        timezone ≠ row.timezone → env.loadLocation timezone = some location →
        ¬ Shadows location last key
  | .advance index input =>
      ∀ c p, s.callbacks[index]? = some c → c.taskID = taskID → c.phase = .prepared p →
        input.second.served = true ∧
        ∀ row location, s.core.store.task? taskID = some row →
          env.loadLocation row.timezone = some location →
          ¬ Shadows location p.scheduled p.localKey
  | _ => True

theorem agrees_of_onlyNext {env : Env} {taskID : String} {s : State} {core : Core}
    (hs : s.Agrees env taskID) (hstore : OnlyNext s.core.store core.store)
    (hlocal : ∀ key, core.scheduler.localFire.lookup taskID = some key →
      s.core.scheduler.localFire.lookup taskID = some key) :
    State.Agrees env taskID { s with core := core } := by
  intro key hkey
  obtain ⟨row, last, hrow, hlast, hzone⟩ := hs key (hlocal key hkey)
  obtain ⟨next, stamp, hrow'⟩ := hstore.some taskID row hrow
  exact ⟨_, last, hrow', hlast, hzone⟩

/-- Operations forget remembered minutes or leave them. -/
theorem Operated.localFire {env : Env} {core core' : Core} {action : Action}
    (hcore : core.scheduler.WellFormed) (h : Operated env core action core')
    {taskID : String} {key : ℤ} (hkey : core'.scheduler.localFire.lookup taskID = some key) :
    core.scheduler.localFire.lookup taskID = some key := by
  refine (h.induction (P := fun next ↦ next.scheduler.WellFormed ∧
    ∀ key, next.scheduler.localFire.lookup taskID = some key →
      core.scheduler.localFire.lookup taskID = some key) ?_ ?_ (fun _ hP ↦ hP.1)
    ⟨hcore, fun _ h ↦ h⟩).2 key hkey
  · rintro next k ⟨hwell, hlocal⟩
    refine ⟨hwell.remove k, fun key hkey ↦ ?_⟩
    have hlookup := next.scheduler.remove_localFire k taskID
    rw [Core.remove, hlookup] at hkey
    split at hkey
    · cases hkey
    · exact hlocal key hkey
  · rintro next k out ⟨hwell, hlocal⟩ hout
    refine ⟨hout.wellFormed hwell, fun key hkey ↦ ?_⟩
    rw [hout.localFire] at hkey
    exact hlocal key hkey

theorem setLocalFire_lookup_ne {s : Scheduler} {taskID k : String} {key : ℤ}
    (h : taskID ≠ k) : (s.setLocalFire taskID key).localFire.lookup k =
      s.localFire.lookup k := by
  simp [Scheduler.setLocalFire, AList.lookup_insert_ne (Ne.symm h)]

theorem State.Agrees.step {env : Env} {taskID : String} {s t : State} {action : Action}
    (hwell : s.core.scheduler.WellFormed) (hs : s.Agrees env taskID)
    (hguard : KeepsLocalMinute env taskID s action) (h : step env s action = some t) :
    t.Agrees env taskID := by
  cases step_spec h with
  | refused => exact hs
  | executed executed =>
      intro key hkey
      obtain ⟨row, last, hrow, hlast, hzone⟩ := hs key hkey
      obtain ⟨row', hrow', hkeeps, htimezone⟩ := Statement.execute_task? executed hrow
      refine ⟨row', last, hrow', hkeeps.lastScheduledAt.trans hlast, fun location hload ↦ ?_⟩
      by_cases hsame : row'.timezone = row.timezone
      · exact hzone location (hsame ▸ hload)
      · have hlisted := htimezone.resolve_left hsame
        exact hguard row key last row'.timezone location hrow hkey hlast hlisted hsame hload
  | operated operated =>
      exact agrees_of_onlyNext hs (operated.onlyNext hwell)
        fun key hkey ↦ operated.localFire hwell hkey
  | fired => exact hs
  | @advanced index input c core phase events at_ advanced =>
      cases advanced with
      | quiet => exact hs
      | queued => exact hs
      | @unsaved p hphase valid unserved =>
          by_cases htask : c.taskID = taskID
          · have hserved := (hguard c p at_ htask hphase).1
            rw [hserved] at unserved
            cases unserved
          · intro key hkey
            rw [setLocalFire_lookup_ne htask] at hkey
            exact hs key hkey
      | @persisted p current store stamp hphase valid loaded new later stored =>
          obtain ⟨hcurrent, -, htasks⟩ := persisted_row loaded later stored
          by_cases htask : c.taskID = taskID
          · subst htask
            intro key hkey
            obtain rfl : p.localKey = key := by
              simpa [Scheduler.setLocalFire] using hkey
            refine ⟨_, p.scheduled, (htasks c.taskID).trans (if_pos rfl), rfl, ?_⟩
            intro location hload
            exact (hguard c p at_ rfl hphase).2 current location hcurrent hload
          · intro key hkey
            rw [setLocalFire_lookup_ne htask] at hkey
            obtain ⟨row, last, hrow, hlast, hzone⟩ := hs key hkey
            exact ⟨row, last, (htasks taskID).trans (by rw [if_neg htask, hrow]), hlast, hzone⟩

theorem agrees_of_guarded {env : Env} {taskID : String} {s₀ s : State} {as : List Action}
    (hinit : Initial s₀) (hguard : Guarded (step env) (KeepsLocalMinute env taskID) s₀ as)
    (hrun : run (step env) s₀ as = some s) : s.Agrees env taskID := by
  refine (guarded_run_invariant (step env)
    (P := fun s ↦ s.core.scheduler.WellFormed ∧ s.Agrees env taskID)
    (G := KeepsLocalMinute env taskID) ?_ ⟨wellFormed_of_initial hinit, ?_⟩ hguard hrun).2
  · rintro s a t ⟨hwell, hs⟩ hg h
    have hlife : lifeStep env s (.act a) = some t := h
    exact ⟨(lifeStep_advances hwell hlife).1, hs.step hwell hg h⟩
  · intro key hkey
    simp [hinit.1, Scheduler.new] at hkey

/-! ## The fresh scheduler -/

/-- A new scheduler over the same database after it has rescheduled some tasks. -/
def fresh (env : Env) (calls : Calls) (store : Store) (tasks : List Task) : Core :=
  (rescheduleAll env calls 0 ⟨store, .new⟩ tasks).core

theorem fresh_spec (env : Env) (calls : Calls) (store : Store) (tasks : List Task) :
    OnlyNext store (fresh env calls store tasks).store ∧
      (fresh env calls store tasks).scheduler.localFire = ∅ := by
  refine (rescheduleAll_induction (P := fun core ↦ core.scheduler.WellFormed ∧
    OnlyNext store core.store ∧ core.scheduler.localFire = ∅) ?_ tasks 0
    ⟨Scheduler.wellFormed_new, .refl store, rfl⟩).2
  rintro core used taskID ⟨hwell, hstore, hlocal⟩
  have hspec := rescheduleLocked_spec env calls hwell used taskID
  exact ⟨hspec.wellFormed hwell, hstore.trans hspec.onlyNext, hspec.localFire.trans hlocal⟩

/-- Without remembered minutes the stored activation decides alone. -/
theorem suppresses_fresh {env : Env} {taskID : String} {s : State}
    (hs : s.Agrees env taskID) {core : Core} (hlocal : core.scheduler.localFire = ∅)
    {row : Task} {location : Location} (hload : s.core.store.getTask taskID = .ok row)
    (hzone : env.loadLocation row.timezone = some location) (next : Option Time)
    (stamp now : Time) :
    suppresses core taskID location
        (Store.assignSchedule row.lastScheduledAt next stamp row) now =
      suppresses s.core taskID location row now := by
  have hrow := (Store.getTask_eq_ok_iff.mp hload).1
  by_cases hkey : s.core.scheduler.localFire.lookup taskID = some (location.localMinute now)
  · obtain ⟨row', last, hrow', hlast, hshadow⟩ := hs _ hkey
    obtain rfl := Option.some.inj (hrow.symm.trans hrow')
    by_cases hlater : last < now
    · have hsame : location.localMinute last = location.localMinute now := by
        by_contra hne
        exact hshadow location hzone ⟨hne, now, hlater, rfl⟩
      simp [suppresses, Store.assignSchedule, hlast, hsame]
    · have hearly : now ≤ last := not_lt.mp hlater
      simp [suppresses, Store.assignSchedule, hlast, hearly]
  · simp [suppresses, Store.assignSchedule, hlocal, hkey]

/-- Where the remembered minutes agree with the stored ones, a fire runs after a
restart exactly when it runs before. -/
theorem runs_fresh {env : Env} {taskID : String} {s : State} (hs : s.Agrees env taskID)
    (calls : Calls) (tasks : List Task) (now : Time) :
    runs env (fresh env calls s.core.store tasks) taskID now =
      runs env s.core taskID now := by
  obtain ⟨hstore, hlocal⟩ := fresh_spec env calls s.core.store tasks
  rw [Bool.eq_iff_iff, runs_iff, runs_iff]
  constructor
  · rintro ⟨row', location, hload', hzone, hon, hparse, hkeep⟩
    obtain ⟨row, next, stamp, hload, rfl⟩ := hstore.getTask_of hload'
    rw [suppresses_fresh hs hlocal hload hzone] at hkeep
    exact ⟨row, location, hload, hzone, hon, hparse, hkeep⟩
  · rintro ⟨row, location, hload, hzone, hon, hparse, hkeep⟩
    obtain ⟨next, stamp, hload'⟩ := hstore.getTask hload
    refine ⟨_, location, hload', hzone, hon, hparse, ?_⟩
    rw [suppresses_fresh hs hlocal hload hzone]
    exact hkeep

/-- In every state of a run whose steps keep the remembered minute of the task
true, the next fire of the task is decided as a fresh scheduler decides it. -/
theorem restart_transparent {env : Env} {taskID : String} {s₀ s : State} {as : List Action}
    (hinit : Initial s₀) (hguard : Guarded (step env) (KeepsLocalMinute env taskID) s₀ as)
    (hrun : run (step env) s₀ as = some s) (calls : Calls) (tasks : List Task)
    {g g' : UInt64} (hcurrent : s.core.scheduler.generations.lookup taskID = some g)
    (hcurrent' : (fresh env calls s.core.store tasks).scheduler.generations.lookup taskID =
      some g') (now : Time) :
    (fire env (.served now) (fresh env calls s.core.store tasks) taskID g').2 =
      (fire env (.served now) s.core taskID g).2 := by
  rw [fire_served_eq hcurrent, fire_served_eq hcurrent',
    runs_fresh (agrees_of_guarded hinit hguard hrun)]

/-- A task that has run in UTC and stays there. -/
theorem restart_transparent_minutely :
    let s := minutelyRun waitingRun
    (fire minutely (.served 120000000000)
        (fresh minutely (servedAt 0) s.core.store [scheduledTask]) "task" 2).2 =
      (fire minutely (.served 120000000000) s.core "task" 2).2 := by
  intro s
  have hguard : Guarded (step minutely) (KeepsLocalMinute minutely "task") oneTaskStart
      waitingRun := by
    refine ⟨trivial, fun t ht ↦ ?_⟩
    obtain rfl := Option.some.inj ht
    refine ⟨trivial, fun t ht ↦ ?_⟩
    obtain rfl := Option.some.inj ht
    refine ⟨fun c p hc _ hp ↦ ?_, fun t ht ↦ ?_⟩
    · obtain rfl := Option.some.inj hc
      cases hp
    obtain rfl := Option.some.inj ht
    refine ⟨fun c p hc _ hp ↦ ?_, fun t ht ↦ ?_⟩
    · obtain rfl := Option.some.inj hc
      cases hp
    obtain rfl := Option.some.inj ht
    refine ⟨fun c p hc _ hp ↦ ?_, fun t ht ↦ ?_⟩
    · obtain rfl := Option.some.inj hc
      obtain rfl := Phase.prepared.inj hp
      refine ⟨rfl, fun row location hrow hzone hshadow ↦ hshadow.1 ?_⟩
      obtain rfl := Option.some.inj hrow
      obtain rfl := Option.some.inj hzone
      rfl
    obtain rfl := Option.some.inj ht
    refine ⟨fun c p hc _ hp ↦ ?_, fun t ht ↦ trivial⟩
    obtain rfl := Option.some.inj hc
    cases hp
  exact @restart_transparent minutely "task" oneTaskStart s waitingRun ⟨rfl, rfl, rfl⟩ hguard
    rfl (servedAt 0) [scheduledTask] 2 2 rfl rfl 120000000000

/-! ## An edit of the zone -/

/-- The libraries as they answer for `0 12 * * *` in UTC and four hours west of it. -/
def noonEnv : Env where
  loadLocation name :=
    if name = "UTC" then some ⟨fun _ ↦ 0⟩
    else if name = "Etc/GMT+4" then some ⟨fun _ ↦ -14400⟩ else none
  parse spec :=
    if spec = "0 12 * * *" ∨ spec = "CRON_TZ=UTC 0 12 * * *" ∨
        spec = "CRON_TZ=Etc/GMT+4 0 12 * * *" then
      some ⟨fun location t ↦ firstMatch location (fun minute ↦ minute % 1440 = 720) 2880
        ((t / 60000000000 + 1) * 60000000000)⟩
    else none

def noonTask : Task := { scheduledTask with cronExpression := "0 12 * * *" }

def noonStore : Store where
  tasks := ⟨[noonTask], by simp, by decide⟩
  routes := Table.empty
  results := Table.empty
  settings := migratedSettings
  isConsistent := by decide

/-- The task runs at noon UTC, is moved to the western zone and rescheduled. -/
def noonRun : List Action :=
  [.reschedule "task" (servedAt 0), .fire 1, .advance 0 (inputAt 43200000000000),
    .advance 0 (inputAt 43200000000000), .advance 0 (inputAt 43200000000000),
    .advance 0 (inputAt 43200000000000), .advance 0 (inputAt 43200000000000),
    .statement (.updateTask { noonTask with timezone := "Etc/GMT+4" } 46800000000000),
    .reschedule "task" (servedAt 46800000000000)]

/-- The calls of a callback are served. -/
def ServedAdvance : Action → Prop
  | .advance _ input => input.first.served = true ∧ input.second.served = true
  | _ => True

/-- Noon in the new zone is suppressed by the memory of noon in the old one, and
a fresh scheduler would run it. -/
theorem zone_edit_suppresses :
    ¬ ∀ (env : Env) (taskID : String) (s₀ s : State) (as : List Action) (calls : Calls)
        (tasks : List Task) (g g' : UInt64) (now : Time),
      Initial s₀ → (∀ a ∈ as, ServedAdvance a) → run (step env) s₀ as = some s →
      s.core.scheduler.generations.lookup taskID = some g →
      (fresh env calls s.core.store tasks).scheduler.generations.lookup taskID = some g' →
      (fire env (.served now) (fresh env calls s.core.store tasks) taskID g').2 =
        (fire env (.served now) s.core taskID g).2 := by
  intro hclaim
  have hserved : ∀ a ∈ noonRun, ServedAdvance a := by
    simp [noonRun, ServedAdvance, inputAt]
  have hrun : run (step noonEnv) ⟨⟨noonStore, .new⟩, [], []⟩ noonRun =
      some ((run (step noonEnv) ⟨⟨noonStore, .new⟩, [], []⟩ noonRun).getD oneTaskStart) := rfl
  have heq := hclaim noonEnv "task" _ _ noonRun (servedAt 46800000000000) [noonTask] 4 2
    57600000000000 ⟨rfl, rfl, rfl⟩ hserved hrun rfl rfl
  revert heq
  decide +kernel

end MultiSpeed.Scheduling
