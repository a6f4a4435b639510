import MultiSpeed.Api.Handlers

/-!
# What is registered and what should be

Two maps from tasks to cron expressions: the registered one, read from the
scheduler's memory, and the wanted one, read from the database.  Every operation
of the scheduler is described by what it does to the first map; rescheduling
leaves the second alone.
-/

namespace MultiSpeed.Api

open Database Scheduling

/-- The expression the cron entry of a task was added with. -/
def registered? (s : Scheduler) (k : String) : Option String :=
  (s.cron.entries.find? fun e ↦ e.taskID = k).map CronEntry.spec

/-- The expression a live enabled task is to be registered with. -/
def wanted? (store : Store) (k : String) : Option String :=
  match store.getTask k with
  | .ok task => if task.enabled then some (cronSpec task) else none
  | .error _ => none

theorem registered?_eq_some_iff {s : Scheduler} (hs : s.WellFormed) {k spec : String} :
    registered? s k = some spec ↔ ∃ e ∈ s.cron.entries, e.taskID = k ∧ e.spec = spec := by
  unfold registered?
  rw [Option.map_eq_some_iff]
  constructor
  · rintro ⟨e, he, rfl⟩
    exact ⟨e, List.mem_of_find?_eq_some he, by simpa using List.find?_some he, rfl⟩
  · rintro ⟨e, he, hk, rfl⟩
    cases hfind : s.cron.entries.find? fun e ↦ e.taskID = k with
    | none =>
        have hnone := List.find?_eq_none.mp hfind e he
        simp [hk] at hnone
    | some e' =>
        have hk' : e'.taskID = k := by simpa using List.find?_some hfind
        have hsame := hs.entry_unique (List.mem_of_find?_eq_some hfind) he (hk'.trans hk.symm)
        exact ⟨e', rfl, by rw [hsame]⟩

theorem registered?_eq_none_iff {s : Scheduler} {k : String} :
    registered? s k = none ↔ ∀ e ∈ s.cron.entries, e.taskID ≠ k := by
  simp [registered?, List.find?_eq_none]

/-- A task has a cron entry and a generation exactly if it is registered. -/
theorem mem_entries_iff {s : Scheduler} (hs : s.WellFormed) (k : String) :
    k ∈ s.entries ↔ ∃ spec, registered? s k = some spec := by
  constructor
  · intro hk
    obtain ⟨id, hid⟩ := Option.isSome_iff_exists.mp (AList.lookup_isSome.mpr hk)
    obtain ⟨e, he, -, htask⟩ := hs.entry k id hid
    exact ⟨e.spec, (registered?_eq_some_iff hs).mpr ⟨e, he, htask, rfl⟩⟩
  · rintro ⟨spec, hspec⟩
    obtain ⟨e, he, rfl, -⟩ := (registered?_eq_some_iff hs).mp hspec
    rw [← AList.lookup_isSome, (hs.registered e he).1]
    rfl

/-! ## The operations of the scheduler -/

theorem registered?_of_cleared {s s' : Scheduler} {taskID : String}
    (hcron : ∀ e, e ∈ s'.cron.entries ↔ e ∈ s.cron.entries ∧ e.taskID ≠ taskID)
    (hs : s.WellFormed) (hs' : s'.WellFormed) (k : String) :
    registered? s' k = if taskID = k then none else registered? s k := by
  split
  · rename_i hk
    subst hk
    exact registered?_eq_none_iff.mpr fun e he ↦ ((hcron e).mp he).2
  · rename_i hk
    apply Option.ext
    intro spec
    rw [registered?_eq_some_iff hs', registered?_eq_some_iff hs]
    constructor
    · rintro ⟨e, he, htask, hspec⟩
      exact ⟨e, ((hcron e).mp he).1, htask, hspec⟩
    · rintro ⟨e, he, htask, hspec⟩
      exact ⟨e, (hcron e).mpr ⟨he, fun heq ↦ hk (heq.symm.trans htask)⟩, htask, hspec⟩

theorem registered?_remove {s : Scheduler} (hs : s.WellFormed) (taskID k : String) :
    registered? (s.remove taskID) k = if taskID = k then none else registered? s k :=
  registered?_of_cleared (fun _ ↦ hs.mem_remove) hs (hs.remove taskID) k

theorem registered?_clearAll {s : Scheduler} (hs : s.WellFormed) (k : String) :
    registered? s.clearAll k = none := by
  have hempty := (Scheduler.clearAll_induction (P := fun _ ↦ True) (fun _ _ h ↦ h)
    (s := s) trivial).2.2
  refine registered?_eq_none_iff.mpr fun e he ↦ ?_
  have hentry := (hs.clearAll.registered e he).1
  rw [hempty] at hentry
  cases hentry

theorem registered?_register {s : Scheduler} (hs : s.WellFormed) (taskID spec k : String) :
    registered? ((s.unschedule taskID).register taskID spec) k =
      if taskID = k then some spec else registered? s k := by
  have hcleared := cleared_unschedule hs taskID
  have hs' := hcleared.wellFormed.register hcleared.free spec
  split
  · rename_i hk
    subst hk
    exact (registered?_eq_some_iff hs').mpr
      ⟨_, (Scheduler.mem_register _ _ _).mpr (.inr rfl), rfl, rfl⟩
  · rename_i hk
    apply Option.ext
    intro spec'
    rw [registered?_eq_some_iff hs', registered?_eq_some_iff hs]
    constructor
    · rintro ⟨e, he, htask, hspec⟩
      rcases (Scheduler.mem_register _ _ _).mp he with he | rfl
      · exact ⟨e, ((hcleared.cron e).mp he).1, htask, hspec⟩
      · exact absurd htask hk
    · rintro ⟨e, he, htask, hspec⟩
      have hkept := (hcleared.cron e).mpr ⟨he, fun heq ↦ hk (heq.symm.trans htask)⟩
      exact ⟨e, (Scheduler.mem_register _ _ _).mpr (.inl hkept), htask, hspec⟩

/-! ## Rescheduling -/

theorem wanted?_onlyNext {s t : Store} (h : OnlyNext s t) (k : String) :
    wanted? t k = wanted? s k := by
  unfold wanted?
  cases hs : s.getTask k with
  | ok row =>
      obtain ⟨next, stamp, ht⟩ := h.getTask hs
      rw [ht]
      rfl
  | error e =>
      cases ht : t.getTask k with
      | ok row' =>
          obtain ⟨row, -, -, hrow, -⟩ := h.getTask_of ht
          rw [hs] at hrow
          cases hrow
      | error e' => rfl

/-- Rescheduling a task registers it as wanted, or takes its registration away
and reports an error. -/
theorem registered?_rescheduled {env : Scheduling.Env} {core : Core} {taskID : String}
    {out : Outcome} (hcore : core.scheduler.WellFormed) (h : Rescheduled env core taskID out)
    (k : String) : registered? out.core.scheduler k =
      if taskID = k then (if out.error.isSome then none else wanted? core.store k)
      else registered? core.scheduler k := by
  have hcleared := cleared_unschedule hcore taskID
  cases h with
  | failed cleared =>
      rw [registered?_of_cleared cleared.cron hcore cleared.wellFormed k]
      rfl
  | @disabled task store stamp used loaded off stored =>
      rw [registered?_of_cleared hcleared.cron hcore hcleared.wellFormed k]
      split
      · rename_i hk
        subst hk
        simp [wanted?, loaded, off]
      · rfl
  | @registered task store next stamp used loaded on registers stored =>
      rw [registered?_register hcore]
      split
      · rename_i hk
        subst hk
        simp [wanted?, loaded, on]
      · rfl

/-- The task can be rescheduled if its calls are served. -/
def schedulable (env : Scheduling.Env) (task : Task) : Bool :=
  !task.enabled || env.registers task

/-- How rescheduling a task that has a live row ends, by the calls that are served. -/
inductive Attempt (env : Scheduling.Env) (calls : Calls) (used : ℕ) (task : Task) :
    Outcome → Prop where
  | unread {out : Outcome} (refused : (calls used).served = false) (failed : out.error.isSome)
      (count : out.used = used + 1) : Attempt env calls used task out
  | unschedulable {out : Outcome} (read : (calls used).served = true)
      (refused : schedulable env task = false) (failed : out.error.isSome)
      (count : out.used = used + 1) : Attempt env calls used task out
  | unstored {out : Outcome} (possible : schedulable env task = true)
      (refused : (calls (used + 1)).served = false) (failed : out.error.isSome)
      (count : out.used = used + 2) : Attempt env calls used task out
  | stored {out : Outcome} (read : (calls used).served = true)
      (possible : schedulable env task = true) (written : (calls (used + 1)).served = true)
      (succeeded : out.error = none) (count : out.used = used + 2) :
      Attempt env calls used task out

theorem rescheduleLocked_attempt (env : Scheduling.Env) (calls : Calls) (used : ℕ)
    {core : Core} {taskID : String} {task : Task} (htask : core.store.getTask taskID = .ok task) :
    Attempt env calls used task (rescheduleLocked env calls used core taskID) := by
  obtain rfl := Store.getTask_id htask
  obtain ⟨hrow, hlive⟩ := Store.getTask_eq_ok_iff.mp htask
  have hstore : ∀ next, ∃ store, core.store.updateTaskSchedule task.id task.lastScheduledAt next
      (calls (used + 1)).stamp = .ok store :=
    fun next ↦ Store.updateTaskSchedule_isOk _ next _ hrow hlive
  unfold rescheduleLocked
  dsimp only
  cases hread : (calls used).served with
  | false =>
      rw [Call.serve, hread]
      exact .unread hread rfl rfl
  | true =>
      rw [Call.serve_eq_ok_iff.mpr ⟨hread, htask⟩]
      dsimp only
      split
      · rename_i hoff
        have hpossible : schedulable env task = true := by
          rw [schedulable, hoff, Bool.true_or]
        obtain ⟨store, hstored⟩ := hstore none
        cases hwritten : (calls (used + 1)).served with
        | false =>
            rw [Call.serve, hwritten]
            exact .unstored hpossible hwritten rfl rfl
        | true =>
            rw [Call.serve_eq_ok_iff.mpr ⟨hwritten, hstored⟩]
            exact .stored hread hpossible hwritten rfl rfl
      · rename_i hon
        have hschedulable : schedulable env task = env.registers task := by
          rw [schedulable, Bool.eq_false_iff.mpr hon, Bool.false_or]
        split
        · rename_i hlocation
          exact .unschedulable hread (by simp [hschedulable, Env.registers, hlocation]) rfl rfl
        · rename_i location hlocation
          split
          · rename_i hschedule
            exact .unschedulable hread (by simp [hschedulable, Env.registers, hschedule]) rfl rfl
          · rename_i schedule hschedule
            split
            · rename_i hspec
              exact .unschedulable hread (by simp [hschedulable, Env.registers, hspec]) rfl rfl
            · rename_i spec hspec
              have hpossible : schedulable env task = true := by
                simp [hschedulable, Env.registers, hlocation, hschedule, hspec]
              obtain ⟨store, hstored⟩ :=
                hstore (some (schedule.next location (calls (used + 1)).now))
              cases hwritten : (calls (used + 1)).served with
              | false =>
                  rw [Call.serve, hwritten]
                  exact .unstored hpossible hwritten rfl rfl
              | true =>
                  rw [Call.serve_eq_ok_iff.mpr ⟨hwritten, hstored⟩]
                  exact .stored hread hpossible hwritten rfl rfl

/-! ## Rescheduling a list of tasks -/

/-- The stored task can be registered. -/
def registrable (env : Scheduling.Env) (store : Store) (k : String) : Bool :=
  match store.getTask k with
  | .ok task => env.registers task
  | .error _ => false

theorem registrable_onlyNext (env : Scheduling.Env) {s t : Store} (h : OnlyNext s t)
    (k : String) : registrable env t k = registrable env s k := by
  unfold registrable
  cases hs : s.getTask k with
  | ok row =>
      obtain ⟨next, stamp, ht⟩ := h.getTask hs
      rw [ht]
      rfl
  | error e =>
      cases ht : t.getTask k with
      | ok row' =>
          obtain ⟨row, -, -, hrow, -⟩ := h.getTask_of ht
          rw [hs] at hrow
          cases hrow
      | error e' => rfl

/-- Each enabled task of the list can be registered and is reached by a served
call; a task takes two calls. -/
def Reached (env : Scheduling.Env) (ctx : Context) (store : Store) (used : ℕ)
    (tasks : List Task) : Prop :=
  ∀ i task, tasks[i]? = some task → wanted? store task.id ≠ none →
    registrable env store task.id = true ∧ (ctx.calls (used + 2 * i + 1)).served = true

/-- What a call of `rescheduleAll` leaves behind. -/
structure Relisted (env : Scheduling.Env) (ctx : Context) (used : ℕ) (core : Core)
    (tasks : List Task) (core' : Core) : Prop where
  wellFormed : core'.scheduler.WellFormed
  onlyNext : OnlyNext core.store core'.store
  others : ∀ k, k ∉ tasks.map Task.id →
    registered? core'.scheduler k = registered? core.scheduler k
  agree : (∀ task ∈ tasks, registered? core'.scheduler task.id = wanted? core.store task.id) ↔
    Reached env ctx core.store used tasks

theorem wanted?_of_getTask {store : Store} {k : String} {task : Task}
    (h : store.getTask k = .ok task) :
    wanted? store k = if task.enabled then some (cronSpec task) else none := by
  rw [wanted?, h]

theorem registrable_of_getTask {env : Scheduling.Env} {store : Store} {k : String} {task : Task}
    (h : store.getTask k = .ok task) : registrable env store k = env.registers task := by
  rw [registrable, h]

/-- After a failed first attempt nothing of the list is registered. -/
private theorem relisted_failed {env : Scheduling.Env} {ctx : Context} {used : ℕ} {core : Core}
    {head : Task} {rest : List Task} {out : Outcome} {row : Task}
    (hrow : core.store.getTask head.id = .ok row) (hcore : core.scheduler.WellFormed)
    (hclear : ∀ task ∈ head :: rest, registered? core.scheduler task.id = none)
    (hspec : Rescheduled env core head.id out)
    (hattempt : Attempt env ctx.calls used row out) (hfailed : out.error.isSome = true) :
    Relisted env ctx used core (head :: rest) out.core := by
  have hregistered := registered?_rescheduled hcore hspec
  refine ⟨hspec.wellFormed hcore, hspec.onlyNext, fun k hk ↦ ?_, ?_⟩
  · have hne : head.id ≠ k := fun heq ↦ hk (by simp [heq])
    rw [hregistered k, if_neg hne]
  · have hnone : ∀ task ∈ head :: rest, registered? out.core.scheduler task.id = none := by
      intro task htask
      rw [hregistered, hfailed]
      split
      · rfl
      · exact hclear task htask
    constructor
    · intro hagree i task htask hwanted
      have hmem := List.mem_of_getElem? htask
      exact absurd ((hagree task hmem).symm.trans (hnone task hmem)) hwanted
    · intro hreached task htask
      rw [hnone task htask]
      by_contra hwanted
      obtain ⟨i, hi⟩ := List.mem_iff_getElem?.mp htask
      have hserved := (hreached i task hi (Ne.symm hwanted)).2
      cases hattempt with
      | unread refused failed count =>
          rw [ctx.served_of_le (by omega) hserved] at refused
          cases refused
      | unschedulable read refused failed count =>
          -- the first task itself is enabled and cannot be registered
          rw [schedulable, Bool.or_eq_false_iff, Bool.not_eq_false'] at refused
          have hhead : wanted? core.store head.id ≠ none := by
            rw [wanted?_of_getTask hrow, refused.1]
            simp
          have hregisters := (hreached 0 head rfl hhead).1
          rw [registrable_of_getTask hrow, refused.2] at hregisters
          cases hregisters
      | unstored possible refused failed count =>
          rw [ctx.served_of_le (by omega) hserved] at refused
          cases refused
      | stored read possible written succeeded count =>
          rw [succeeded] at hfailed
          cases hfailed

theorem rescheduleAll_relisted (env : Scheduling.Env) (ctx : Context) :
    ∀ (tasks : List Task) (used : ℕ) {core : Core}, core.scheduler.WellFormed →
      (tasks.map Task.id).Nodup →
      (∀ task ∈ tasks, ∃ row, core.store.getTask task.id = .ok row) →
      (∀ task ∈ tasks, registered? core.scheduler task.id = none) →
      Relisted env ctx used core tasks (rescheduleAll env ctx.calls used core tasks).core
  | [], used, core, hcore, _, _, _ => by
      refine ⟨hcore, .refl _, fun _ _ ↦ rfl, fun _ i task htask ↦ ?_, fun _ task htask ↦ ?_⟩
      · simp at htask
      · simp at htask
  | head :: rest, used, core, hcore, hnd, hlive, hclear => by
      obtain ⟨row, hrow⟩ := hlive head (by simp)
      rw [List.map_cons, List.nodup_cons] at hnd
      have hspec := rescheduleLocked_spec env ctx.calls hcore used head.id
      have hattempt := rescheduleLocked_attempt env ctx.calls used hrow
      rw [rescheduleAll]
      revert hspec hattempt
      generalize rescheduleLocked env ctx.calls used core head.id = out
      intro hspec hattempt
      split
      · rename_i e he
        have hfailed : out.error.isSome = true := by rw [he, Option.isSome_some]
        have hrelisted := relisted_failed hrow hcore hclear hspec hattempt hfailed
        exact hrelisted
      · rename_i hnone
        have hregistered := registered?_rescheduled hcore hspec
        have hother : ∀ task ∈ rest, head.id ≠ task.id := fun task htask heq ↦
          hnd.1 (heq ▸ List.mem_map_of_mem htask)
        have ih := rescheduleAll_relisted env ctx rest out.used (hspec.wellFormed hcore) hnd.2
          (fun task htask ↦ by
            obtain ⟨row', hrow'⟩ := hlive task (by simp [htask])
            obtain ⟨next, stamp, hnew⟩ := hspec.onlyNext.getTask hrow'
            exact ⟨_, hnew⟩)
          (fun task htask ↦ by
            rw [hregistered, if_neg (hother task htask)]
            exact hclear task (by simp [htask]))
        have hhead : registered? (rescheduleAll env ctx.calls out.used out.core rest).core.scheduler
            head.id = wanted? core.store head.id := by
          rw [ih.others head.id hnd.1, hregistered, if_pos rfl, hnone]
          rfl
        have hlater : Reached env ctx out.core.store out.used rest ↔
            ∀ i task, rest[i]? = some task → wanted? core.store task.id ≠ none →
              registrable env core.store task.id = true ∧
                (ctx.calls (used + 2 * (i + 1) + 1)).served = true := by
          have hcount : out.used = used + 2 := by
            cases hattempt with
            | stored read possible written succeeded count => exact count
            | unread refused failed count | unschedulable read refused failed count
            | unstored possible refused failed count =>
                rw [hnone] at failed
                cases failed
          have hindex : ∀ i, out.used + 2 * i + 1 = used + 2 * (i + 1) + 1 := by omega
          simp only [Reached, wanted?_onlyNext hspec.onlyNext,
            registrable_onlyNext env hspec.onlyNext, hindex]
        refine ⟨ih.wellFormed, hspec.onlyNext.trans ih.onlyNext, fun k hk ↦ ?_, ?_, ?_⟩
        · rw [List.map_cons, List.mem_cons, not_or] at hk
          rw [ih.others k hk.2, hregistered, if_neg (Ne.symm hk.1)]
        · intro hagree i task htask hwanted
          cases i with
          | zero =>
              obtain rfl : head = task := by simpa using htask
              rw [wanted?_of_getTask hrow] at hwanted
              cases hattempt with
              | stored read possible written succeeded count =>
                  refine ⟨?_, written⟩
                  rw [registrable_of_getTask hrow]
                  cases hon : row.enabled with
                  | false => simp [hon] at hwanted
                  | true => simpa [schedulable, hon] using possible
              | unread refused failed count | unschedulable read refused failed count
              | unstored possible refused failed count =>
                  rw [hnone] at failed
                  cases failed
          | succ i =>
              have hrest := ih.agree.mp fun task htask ↦ by
                rw [wanted?_onlyNext hspec.onlyNext]
                exact hagree task (by simp [htask])
              exact hlater.mp hrest i task (by simpa using htask) hwanted
        · intro hreached task htask
          rcases List.mem_cons.mp htask with rfl | htask
          · exact hhead
          · have hrest := ih.agree.mpr (hlater.mpr fun i task htask ↦
              hreached (i + 1) task (by simpa using htask))
            rw [hrest task htask, wanted?_onlyNext hspec.onlyNext]

end MultiSpeed.Api
