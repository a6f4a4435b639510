import MultiSpeed.Api.Registration

/-!
# Requests and the schedule

After a request the scheduler's memory agrees with the database, or a call of the
request was lost at a place from which the handler does not recover.  For each
handler the condition is stated and shown to be exact.
-/

namespace MultiSpeed.Api

open Database Scheduling

/-- The memory of the scheduler agrees with the database: the tasks with a cron
entry and a generation are the live enabled ones, and each entry was added with
the expression and the zone of the stored task. -/
structure Synchronized (core : Core) : Prop where
  registered : ∀ taskID, taskID ∈ core.scheduler.entries ∧ taskID ∈ core.scheduler.generations ↔
    ∃ task, core.store.getTask taskID = .ok task ∧ task.enabled = true
  spec : ∀ e ∈ core.scheduler.cron.entries,
    ∃ task, core.store.getTask e.taskID = .ok task ∧ e.spec = cronSpec task

/-- Both maps agree. -/
def Agree (core : Core) : Prop :=
  ∀ k, registered? core.scheduler k = wanted? core.store k

theorem wanted?_eq_some_iff {store : Store} {k spec : String} :
    wanted? store k = some spec ↔
      ∃ task, store.getTask k = .ok task ∧ task.enabled = true ∧ cronSpec task = spec := by
  unfold wanted?
  cases store.getTask k with
  | error e => simp
  | ok task => cases hon : task.enabled <;> simp [hon]

theorem agree_iff {core : Core} (hcore : core.scheduler.WellFormed) :
    Agree core ↔ Synchronized core := by
  constructor
  · intro hagree
    refine ⟨fun k ↦ ?_, fun e he ↦ ?_⟩
    · rw [← hcore.keys k, and_self, mem_entries_iff hcore k, hagree k]
      constructor
      · rintro ⟨spec, hspec⟩
        obtain ⟨task, htask, hon, -⟩ := wanted?_eq_some_iff.mp hspec
        exact ⟨task, htask, hon⟩
      · rintro ⟨task, htask, hon⟩
        exact ⟨_, wanted?_eq_some_iff.mpr ⟨task, htask, hon, rfl⟩⟩
    · have hspec := (registered?_eq_some_iff hcore).mpr ⟨e, he, rfl, rfl⟩
      rw [hagree] at hspec
      obtain ⟨task, htask, -, hcron⟩ := wanted?_eq_some_iff.mp hspec
      exact ⟨task, htask, hcron.symm⟩
  · intro hsync k
    apply Option.ext
    intro spec
    constructor
    · intro hspec
      obtain ⟨e, he, rfl, rfl⟩ := (registered?_eq_some_iff hcore).mp hspec
      obtain ⟨task, htask, hcron⟩ := hsync.spec e he
      have hmem := (mem_entries_iff hcore e.taskID).mpr ⟨_, hspec⟩
      obtain ⟨task', htask', hon⟩ := (hsync.registered _).mp ⟨hmem, (hcore.keys _).mp hmem⟩
      rw [htask] at htask'
      obtain rfl := Except.ok.inj htask'
      exact wanted?_eq_some_iff.mpr ⟨task, htask, hon, hcron.symm⟩
    · intro hspec
      obtain ⟨task, htask, hon, rfl⟩ := wanted?_eq_some_iff.mp hspec
      have hmem := ((hsync.registered k).mpr ⟨task, htask, hon⟩).1
      obtain ⟨spec, hregistered⟩ := (mem_entries_iff hcore k).mp hmem
      obtain ⟨e, he, rfl, rfl⟩ := (registered?_eq_some_iff hcore).mp hregistered
      obtain ⟨task', htask', hcron⟩ := hsync.spec e he
      rw [htask] at htask'
      obtain rfl := Except.ok.inj htask'
      rw [hregistered, hcron]

/-- Stored maps are JSON. -/
def StoredMaps (store : Store) : Prop :=
  ∀ k row, store.task? k = some row →
    (encodableMap row.customServerDefinition && encodableMap row.providerOptions) = true

/-- Every live task can be rescheduled. -/
def Schedulable (env : Scheduling.Env) (store : Store) : Prop :=
  ∀ k row, store.getTask k = .ok row → schedulable env row = true

/-- The invariant of requests none of which loses a call it depends on. -/
structure Synced (env : Scheduling.Env) (core : Core) : Prop where
  wellFormed : core.scheduler.WellFormed
  agree : Agree core
  maps : StoredMaps core.store
  schedulable : Schedulable env core.store

/-- What is shown of a request: whatever happens, its end keeps what does not
depend on its calls, and the maps agree exactly under its condition. -/
structure Handled (env : Scheduling.Env) (core : Core) (condition : Prop) : Prop where
  wellFormed : core.scheduler.WellFormed
  maps : StoredMaps core.store
  agree : Agree core ↔ condition
  schedulable : condition → Schedulable env core.store

theorem Handled.congr {env : Scheduling.Env} {core : Core} {condition condition' : Prop}
    (h : Handled env core condition) (hiff : condition ↔ condition') :
    Handled env core condition' :=
  ⟨h.wellFormed, h.maps, h.agree.trans hiff, fun hc ↦ h.schedulable (hiff.mpr hc)⟩

theorem Synced.handled {env : Scheduling.Env} {core : Core} {condition : Prop}
    (h : Synced env core) (hcondition : condition) : Handled env core condition :=
  ⟨h.wellFormed, h.maps, iff_of_true h.agree hcondition, fun _ ↦ h.schedulable⟩

/-! ## Steps that touch one task -/

/-- From one core to the other only one task and its registration change. -/
structure Touches (taskID : String) (core core' : Core) : Prop where
  wellFormed : core'.scheduler.WellFormed
  registered : ∀ k, taskID ≠ k →
    registered? core'.scheduler k = registered? core.scheduler k
  tasks : ∀ k, taskID ≠ k → core'.store.task? k = core.store.task? k
  maps : StoredMaps core.store → StoredMaps core'.store

theorem Touches.trans {taskID : String} {a b c : Core} (h : Touches taskID a b)
    (h' : Touches taskID b c) : Touches taskID a c :=
  ⟨h'.wellFormed, fun k hk ↦ (h'.registered k hk).trans (h.registered k hk),
    fun k hk ↦ (h'.tasks k hk).trans (h.tasks k hk), fun hmaps ↦ h'.maps (h.maps hmaps)⟩

theorem getTask_congr {s t : Store} {k : String} (h : t.task? k = s.task? k) :
    t.getTask k = s.getTask k := by
  rw [Store.getTask, Store.getTask, h]

theorem wanted?_congr {s t : Store} {k : String} (h : t.task? k = s.task? k) :
    wanted? t k = wanted? s k := by
  rw [wanted?, wanted?, getTask_congr h]

/-- Only the touched task decides. -/
theorem Touches.handled {env : Scheduling.Env} {taskID : String} {core core' : Core}
    {condition : Prop} (hcore : Synced env core) (h : Touches taskID core core')
    (hagree : registered? core'.scheduler taskID = wanted? core'.store taskID ↔ condition)
    (hschedulable : condition → ∀ row, core'.store.getTask taskID = .ok row →
      schedulable env row = true) : Handled env core' condition := by
  refine ⟨h.wellFormed, h.maps hcore.maps, ⟨fun hall ↦ hagree.mp (hall taskID), ?_⟩, ?_⟩
  · intro hcondition k
    by_cases hk : taskID = k
    · exact hk ▸ hagree.mpr hcondition
    · rw [h.registered k hk, wanted?_congr (h.tasks k hk)]
      exact hcore.agree k
  · intro hcondition k row hrow
    by_cases hk : taskID = k
    · exact hschedulable hcondition row (hk ▸ hrow)
    · rw [getTask_congr (h.tasks k hk)] at hrow
      exact hcore.schedulable k row hrow

theorem touches_write {core : Core} {store : Store} {taskID : String} {row : Task}
    (hcore : core.scheduler.WellFormed)
    (hwrite : ∀ k, store.task? k = if taskID = k then some row else core.store.task? k)
    (hmaps : StoredMaps core.store →
      (encodableMap row.customServerDefinition && encodableMap row.providerOptions) = true) :
    Touches taskID core { core with store := store } := by
  refine ⟨hcore, fun _ _ ↦ rfl, fun k hk ↦ ?_, fun h k other hother ↦ ?_⟩
  · exact (hwrite k).trans (if_neg hk)
  · rw [hwrite k] at hother
    split at hother
    · obtain rfl := Option.some.inj hother
      exact hmaps h
    · exact h k other hother

theorem touches_reschedule {env : Scheduling.Env} {core : Core} {taskID : String}
    {out : Outcome} (hcore : core.scheduler.WellFormed)
    (h : Rescheduled env core taskID out) : Touches taskID core out.core := by
  refine ⟨h.wellFormed hcore, fun k hk ↦ ?_, fun k hk ↦ ?_, fun hmaps k row' hrow' ↦ ?_⟩
  · rw [registered?_rescheduled hcore h, if_neg hk]
  · cases h with
    | failed => rfl
    | disabled loaded off stored =>
        obtain ⟨row, -, -, htasks, -⟩ := Store.updateTaskSchedule_ok stored
        rw [htasks k, if_neg hk]
    | registered loaded on registers stored =>
        obtain ⟨row, -, -, htasks, -⟩ := Store.updateTaskSchedule_ok stored
        rw [htasks k, if_neg hk]
  · cases hrow : core.store.task? k with
    | none =>
        rw [h.onlyNext.none k hrow] at hrow'
        cases hrow'
    | some row =>
        obtain ⟨next, stamp, hnew⟩ := h.onlyNext.some k row hrow
        rw [hnew] at hrow'
        obtain rfl := Option.some.inj hrow'
        exact hmaps k row hrow

theorem touches_remove {core : Core} (hcore : core.scheduler.WellFormed) (taskID : String) :
    Touches taskID core (core.remove taskID) := by
  refine ⟨hcore.remove taskID, fun k hk ↦ ?_, fun _ _ ↦ rfl, id⟩
  exact (registered?_remove hcore taskID k).trans (if_neg hk)

theorem getTask_write {s t : Store} {taskID : String} {row : Task}
    (hwrite : ∀ k, t.task? k = if taskID = k then some row else s.task? k) :
    t.getTask taskID = if row.live then .ok row else .error .notFound := by
  rw [Store.getTask, hwrite, if_pos rfl]

/-! ## The end of an attempt -/

section

variable {env : Scheduling.Env} {core : Core} {taskID : String} {out : Outcome} {row : Task}

theorem agree_of_stored (hcore : core.scheduler.WellFormed)
    (h : Rescheduled env core taskID out) (hnone : out.error = none) :
    registered? out.core.scheduler taskID = wanted? out.core.store taskID := by
  rw [registered?_rescheduled hcore h, if_pos rfl, hnone, wanted?_onlyNext h.onlyNext]
  rfl

/-- After a failed attempt the maps agree only on a disabled task. -/
theorem agree_of_failed_iff (hcore : core.scheduler.WellFormed)
    (h : Rescheduled env core taskID out) (hfailed : out.error.isSome = true)
    (hrow : core.store.getTask taskID = .ok row) :
    registered? out.core.scheduler taskID = wanted? out.core.store taskID ↔
      row.enabled = false := by
  rw [registered?_rescheduled hcore h, if_pos rfl, hfailed, if_pos rfl,
    wanted?_onlyNext h.onlyNext, wanted?_of_getTask hrow]
  cases row.enabled <;> simp

theorem schedulable_of_attempt (h : Rescheduled env core taskID out)
    (hrow : core.store.getTask taskID = .ok row) (hpossible : schedulable env row = true)
    (row' : Task) (hrow' : out.core.store.getTask taskID = .ok row') :
    schedulable env row' = true := by
  obtain ⟨next, stamp, hnew⟩ := h.onlyNext.getTask hrow
  rw [hnew] at hrow'
  obtain rfl := Except.ok.inj hrow'
  exact hpossible

theorem schedulable_of_disabled (h : row.enabled = false) : schedulable env row = true := by
  rw [schedulable, h]
  rfl

theorem unschedulable_iff :
    schedulable env row = false ↔ row.enabled = true ∧ env.registers row = false := by
  rw [schedulable, Bool.or_eq_false_iff, Bool.not_eq_false']

/-- A last attempt brings the maps together if it registers what has to be
registered. -/
theorem attempt_handled (ctx : Context) {base : Core} (hbase : Synced env base)
    (htouch : Touches taskID base core) (hrow : core.store.getTask taskID = .ok row)
    (used : ℕ) :
    Handled env (rescheduleLocked env ctx.calls used core taskID).core
      (row.enabled = true → env.registers row = true ∧ (ctx.calls (used + 1)).served = true) := by
  have hspec := rescheduleLocked_spec env ctx.calls htouch.wellFormed used taskID
  have hattempt := rescheduleLocked_attempt env ctx.calls used hrow
  revert hspec hattempt
  generalize rescheduleLocked env ctx.calls used core taskID = out
  intro hspec hattempt
  have hreach := htouch.trans (touches_reschedule htouch.wellFormed hspec)
  have hfailed : out.error.isSome = true →
      (env.registers row = false ∨ (ctx.calls (used + 1)).served = false) →
      Handled env out.core (row.enabled = true →
        env.registers row = true ∧ (ctx.calls (used + 1)).served = true) := by
    intro hfailed hreason
    have hcondition : (row.enabled = true →
        env.registers row = true ∧ (ctx.calls (used + 1)).served = true) ↔
        row.enabled = false := by
      rcases hreason with hreason | hreason <;> simp [hreason]
    rw [hcondition]
    refine hreach.handled hbase ?_ fun hoff ↦ ?_
    · exact agree_of_failed_iff htouch.wellFormed hspec hfailed hrow
    · exact schedulable_of_attempt hspec hrow (schedulable_of_disabled hoff)
  cases hattempt with
  | stored read possible written succeeded count =>
      have hregisters : row.enabled = true → env.registers row = true := by
        intro hon
        rwa [schedulable, hon, Bool.not_true, Bool.false_or] at possible
      refine hreach.handled hbase (iff_of_true ?_ fun hon ↦ ⟨hregisters hon, written⟩) fun _ ↦ ?_
      · exact agree_of_stored htouch.wellFormed hspec succeeded
      · exact schedulable_of_attempt hspec hrow possible
  | unread refused failed count =>
      exact hfailed failed (.inr (ctx.unserved_of_le (Nat.le_succ used) refused))
  | unstored possible refused failed count => exact hfailed failed (.inr refused)
  | unschedulable read refused failed count =>
      exact hfailed failed (.inl (unschedulable_iff.mp refused).2)

end

end MultiSpeed.Api
