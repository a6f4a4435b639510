import MultiSpeed.Scheduler.Generations

/-!
# The last activation

`last_scheduled_at` has one writer that changes it: the first locked section of
a callback, and that section refuses an instant that is not after the stored
one.  Every other write keeps the column, and rescheduling writes back the value
it has just read.  The values a task goes through therefore increase, and so no
instant is persisted twice, by whatever callback.  All of this also holds over
restarts of the process, which lose the memory and the callbacks but not the
database.
-/

namespace MultiSpeed.Scheduling

open Database Transition

inductive LifeAction where
  | act (action : Action)
  /-- The process ends with all its callbacks and a new scheduler is made. -/
  | restart

def lifeStep (env : Env) (s : State) : LifeAction → Option State
  | .act action => step env s action
  | .restart =>
      some {
        core := ⟨s.core.store, .new⟩
        callbacks := s.callbacks.map fun c ↦ { c with phase := .finished }
        log := s.log }

/-! ## Stored activations never go back -/

/-- Every stored task is still stored, with no earlier activation. -/
def Advances (s t : Store) : Prop :=
  ∀ taskID row, s.task? taskID = some row → ∃ row', t.task? taskID = some row' ∧
    ∀ x ∈ row.lastScheduledAt, ∃ y ∈ row'.lastScheduledAt, x ≤ y

theorem Advances.refl (s : Store) : Advances s s :=
  fun _ row hrow ↦ ⟨row, hrow, fun x hx ↦ ⟨x, hx, le_refl x⟩⟩

theorem Advances.trans {s t u : Store} (h : Advances s t) (h' : Advances t u) :
    Advances s u := by
  intro taskID row hrow
  obtain ⟨middle, hmiddle, hle⟩ := h taskID row hrow
  obtain ⟨row', hrow', hle'⟩ := h' taskID middle hmiddle
  refine ⟨row', hrow', fun x hx ↦ ?_⟩
  obtain ⟨y, hy, hxy⟩ := hle x hx
  obtain ⟨z, hz, hyz⟩ := hle' y hy
  exact ⟨z, hz, hxy.trans hyz⟩

theorem OnlyNext.advances {s t : Store} (h : OnlyNext s t) : Advances s t := by
  intro taskID row hrow
  obtain ⟨next, stamp, hrow'⟩ := h.some taskID row hrow
  exact ⟨_, hrow', fun x hx ↦ ⟨x, hx, le_refl x⟩⟩

theorem advances_of_execute {s t : Store} {statement : Statement}
    (h : statement.execute s = .ok t) : Advances s t := by
  intro taskID row hrow
  obtain ⟨row', hrow', hedited⟩ := Statement.execute_task? h hrow
  exact ⟨row', hrow', fun x hx ↦ ⟨x, hedited.keeps.lastScheduledAt ▸ hx, le_refl x⟩⟩

/-- The row after its schedule was persisted: its activation was not after the
new one before, and is the new one now. -/
theorem persisted_row {core : Core} {c : Callback} {p : Prepared} {current : Task}
    {store : Store} {stamp : Time} (loaded : core.store.getTask c.taskID = .ok current)
    (later : outOfOrder p current = false)
    (stored : core.store.updateTaskSchedule c.taskID (some p.scheduled) (some p.next) stamp =
      .ok store) :
    core.store.task? c.taskID = some current ∧
      (∀ last ∈ current.lastScheduledAt, last < p.scheduled) ∧
      ∀ k, store.task? k = if c.taskID = k then
        some (Store.assignSchedule (some p.scheduled) (some p.next) stamp current)
        else core.store.task? k := by
  obtain ⟨row, hrow, -, htasks, -⟩ := Store.updateTaskSchedule_ok stored
  have hcurrent := (Store.getTask_eq_ok_iff.mp loaded).1
  obtain rfl := Option.some.inj (hrow.symm.trans hcurrent)
  refine ⟨hcurrent, fun last hlast ↦ ?_, htasks⟩
  have hnot : ¬ p.scheduled ≤ last := by
    intro hle
    simp [outOfOrder, Option.mem_def.mp hlast, hle] at later
  exact not_le.mp hnot

theorem Advanced.advances {input : Input} {core core' : Core} {index : ℕ} {c : Callback}
    {phase : Phase} {events : List Event} (h : Advanced input core index c core' phase events) :
    Advances core.store core'.store := by
  cases h with
  | quiet => exact .refl _
  | unsaved => exact .refl _
  | queued => exact .refl _
  | persisted at_ valid loaded new later stored =>
      obtain ⟨hcurrent, hlater, htasks⟩ := persisted_row loaded later stored
      intro k row hrow
      dsimp only
      rw [htasks k]
      split
      · rename_i hk
        subst hk
        obtain rfl := Option.some.inj (hcurrent.symm.trans hrow)
        exact ⟨_, rfl, fun x hx ↦ ⟨_, rfl, (hlater x hx).le⟩⟩
      · exact ⟨row, hrow, fun x hx ↦ ⟨x, hx, le_refl x⟩⟩

theorem lifeStep_advances {env : Env} {s t : State} {action : LifeAction}
    (hs : s.core.scheduler.WellFormed) (h : lifeStep env s action = some t) :
    t.core.scheduler.WellFormed ∧ Advances s.core.store t.core.store := by
  cases action with
  | restart =>
      obtain rfl := Option.some.inj h
      exact ⟨Scheduler.wellFormed_new, .refl _⟩
  | act action =>
      cases step_spec h with
      | refused => exact ⟨hs, .refl _⟩
      | executed executed => exact ⟨hs, advances_of_execute executed⟩
      | operated operated =>
          exact ⟨(operated.wellFormed hs).1, (operated.onlyNext hs).advances⟩
      | fired => exact ⟨hs, .refl _⟩
      | advanced at_ advanced => exact ⟨advanced.wellFormed hs, advanced.advances⟩

theorem wellFormed_of_initial {s : State} (hs : Initial s) : s.core.scheduler.WellFormed := by
  rw [hs.1]
  exact Scheduler.wellFormed_new

theorem wellFormed_of_lifeReachable {env : Env} {s : State}
    (hs : Reachable (lifeStep env) Initial s) : s.core.scheduler.WellFormed :=
  hs.invariant (P := fun s ↦ s.core.scheduler.WellFormed) (fun _ h ↦ wellFormed_of_initial h)
    fun _ _ _ hs h ↦ (lifeStep_advances hs h).1

/-! ## The log -/

/-- The instants for which a run of the task was queued. -/
def queuedTimes (taskID : String) (log : List Event) : List Time :=
  log.filterMap fun
    | .queued _ k scheduledAt => if k = taskID then some scheduledAt else none
    | .persisted .. => none

theorem mem_queuedTimes {taskID : String} {log : List Event} {x : Time} :
    x ∈ queuedTimes taskID log ↔ ∃ i, Event.queued i taskID x ∈ log := by
  unfold queuedTimes
  rw [List.mem_filterMap]
  constructor
  · rintro ⟨e, he, hx⟩
    cases e with
    | persisted i k y => simp at hx
    | queued i k y =>
        obtain ⟨rfl, rfl⟩ : k = taskID ∧ y = x := by simpa using hx
        exact ⟨i, he⟩
  · rintro ⟨i, hi⟩
    exact ⟨_, hi, by simp⟩

/-- Whatever a callback queues, it has persisted before. -/
def Ordered (log : List Event) : Prop :=
  ∀ before after i taskID x, log = before ++ .queued i taskID x :: after →
    Event.persisted i taskID x ∈ before

theorem Ordered.mem {log : List Event} (h : Ordered log) {i : ℕ} {taskID : String} {x : Time}
    (hmem : Event.queued i taskID x ∈ log) : Event.persisted i taskID x ∈ log := by
  obtain ⟨before, after, rfl⟩ := List.append_of_mem hmem
  exact List.mem_append_left _ (h before after i taskID x rfl)

theorem Ordered.snoc {log : List Event} (h : Ordered log) {e : Event}
    (he : ∀ i taskID x, e = .queued i taskID x → Event.persisted i taskID x ∈ log) :
    Ordered (log ++ [e]) := by
  intro before after i taskID x heq
  rcases List.eq_nil_or_concat after with rfl | ⟨rest, last, rfl⟩
  · obtain ⟨rfl, hlast⟩ := List.append_inj' heq rfl
    exact he i taskID x (List.singleton_inj.mp hlast)
  · rw [List.concat_eq_append, ← List.cons_append, ← List.append_assoc] at heq
    obtain ⟨hlog, -⟩ := List.append_inj' heq rfl
    exact h before rest i taskID x hlog

/-- What the log records of the callbacks and of the database. -/
structure State.Recorded (s : State) : Prop where
  stored : ∀ i taskID x, Event.persisted i taskID x ∈ s.log →
    ∃ row last, s.core.store.task? taskID = some row ∧ row.lastScheduledAt = some last ∧
      x ≤ last
  unique : ∀ i j taskID x, Event.persisted i taskID x ∈ s.log →
    Event.persisted j taskID x ∈ s.log → i = j
  ordered : Ordered s.log
  pending : ∀ i c p, s.callbacks[i]? = some c → c.phase.pending = some p →
    Event.persisted i c.taskID p.scheduled ∈ s.log
  done : ∀ i taskID x, Event.queued i taskID x ∈ s.log →
    ∃ c, s.callbacks[i]? = some c ∧ c.phase = .finished
  nodup : ∀ taskID, (queuedTimes taskID s.log).Nodup

theorem recorded_of_initial {s : State} (hs : Initial s) : s.Recorded := by
  obtain ⟨-, hcallbacks, hlog⟩ := hs
  refine ⟨?_, ?_, ?_, ?_, ?_, ?_⟩
  · intro i taskID x hx
    simp [hlog] at hx
  · intro i j taskID x hx
    simp [hlog] at hx
  · intro before after i taskID x heq
    simp [hlog] at heq
  · intro i c p hc
    simp [hcallbacks] at hc
  · intro i taskID x hx
    simp [hlog] at hx
  · intro taskID
    simp [hlog, queuedTimes]

/-- A change of the database that moves no activation back keeps the record. -/
theorem State.Recorded.of_advances {s : State} (hs : s.Recorded) {core : Core}
    (h : Advances s.core.store core.store) : State.Recorded { s with core := core } := by
  refine ⟨fun i taskID x hx ↦ ?_, hs.unique, hs.ordered, hs.pending, hs.done, hs.nodup⟩
  obtain ⟨row, last, hrow, hlast, hle⟩ := hs.stored i taskID x hx
  obtain ⟨row', hrow', hadvance⟩ := h taskID row hrow
  obtain ⟨last', hlast', hle'⟩ := hadvance last hlast
  exact ⟨row', last', hrow', hlast', hle.trans hle'⟩

/-- A section that leaves no trace keeps the record. -/
theorem State.Recorded.quiet {s : State} (hs : s.Recorded) {index : ℕ} {c : Callback}
    (hc : s.callbacks[index]? = some c) {phase : Phase} (hopen : c.phase ≠ .finished)
    (hphase : phase.pending = none ∨ phase.pending = c.phase.pending) :
    State.Recorded { s with callbacks := s.callbacks.set index { c with phase := phase } } := by
  refine ⟨hs.stored, hs.unique, hs.ordered, ?_, ?_, hs.nodup⟩
  · intro i c' p hi hp
    rcases getElem?_set_callback hi with ⟨rfl, rfl⟩ | ⟨-, hi⟩
    · rcases hphase with hnone | hsame
      · simp [hnone] at hp
      · exact hs.pending i c p hc (hsame ▸ hp)
    · exact hs.pending i c' p hi hp
  · intro i taskID x hx
    obtain ⟨c', hi, hfinished⟩ := hs.done i taskID x hx
    have hne : index ≠ i := by
      rintro rfl
      obtain rfl := Option.some.inj (hc.symm.trans hi)
      exact hopen hfinished
    exact ⟨c', by rw [List.getElem?_set_ne hne]; exact hi, hfinished⟩

/-- The trace of a callback that persists: the new instant is after everything
persisted for the task so far. -/
theorem State.Recorded.persisted {s : State} (hs : s.Recorded) {index : ℕ} {c : Callback}
    (hc : s.callbacks[index]? = some c) {p : Prepared} (hphase : c.phase = .prepared p)
    {current : Task} {store : Store} {scheduler : Scheduler} {stamp : Time}
    (loaded : s.core.store.getTask c.taskID = .ok current)
    (later : outOfOrder p current = false)
    (stored : s.core.store.updateTaskSchedule c.taskID (some p.scheduled) (some p.next)
      stamp = .ok store) :
    State.Recorded ⟨⟨store, scheduler⟩, s.callbacks.set index { c with phase := .jitter p },
      s.log ++ [.persisted index c.taskID p.scheduled]⟩ := by
  obtain ⟨hcurrent, hlater, htasks⟩ := persisted_row loaded later stored
  have hfresh : ∀ i x, Event.persisted i c.taskID x ∈ s.log → x < p.scheduled := by
    intro i x hx
    obtain ⟨row, last, hrow, hlast, hle⟩ := hs.stored i c.taskID x hx
    obtain rfl := Option.some.inj (hcurrent.symm.trans hrow)
    exact hle.trans_lt (hlater last hlast)
  refine ⟨?_, ?_, ?_, ?_, ?_, ?_⟩
  · intro i taskID x hx
    dsimp only
    rw [htasks taskID]
    rcases List.mem_append.mp hx with hx | hx
    · split
      · rename_i hk
        subst hk
        exact ⟨_, p.scheduled, rfl, rfl, (hfresh i x hx).le⟩
      · exact hs.stored i taskID x hx
    · obtain ⟨rfl, rfl, rfl⟩ : i = index ∧ taskID = c.taskID ∧ x = p.scheduled := by
        simpa using hx
      exact ⟨_, p.scheduled, if_pos rfl, rfl, le_refl _⟩
  · intro i j taskID x hi hj
    rcases List.mem_append.mp hi with hold | hnew <;>
      rcases List.mem_append.mp hj with hold' | hnew'
    · exact hs.unique i j taskID x hold hold'
    · obtain ⟨-, rfl, rfl⟩ : j = index ∧ taskID = c.taskID ∧ x = p.scheduled := by
        simpa using hnew'
      exact absurd (hfresh i _ hold) (lt_irrefl _)
    · obtain ⟨-, rfl, rfl⟩ : i = index ∧ taskID = c.taskID ∧ x = p.scheduled := by
        simpa using hnew
      exact absurd (hfresh j _ hold') (lt_irrefl _)
    · obtain ⟨hi, -⟩ : i = index ∧ taskID = c.taskID ∧ x = p.scheduled := by
        simpa using hnew
      obtain ⟨hj, -⟩ : j = index ∧ taskID = c.taskID ∧ x = p.scheduled := by
        simpa using hnew'
      exact hi.trans hj.symm
  · apply hs.ordered.snoc
    intro i taskID x heq
    cases heq
  · intro i c' q hi hq
    rcases getElem?_set_callback hi with ⟨rfl, rfl⟩ | ⟨-, hi⟩
    · obtain rfl := Option.some.inj hq
      exact List.mem_append_right _ (List.mem_singleton.mpr rfl)
    · exact List.mem_append_left _ (hs.pending i c' q hi hq)
  · intro i taskID x hx
    have hold : Event.queued i taskID x ∈ s.log := by simpa using hx
    obtain ⟨c', hi, hfinished⟩ := hs.done i taskID x hold
    have hne : index ≠ i := by
      rintro rfl
      obtain rfl := Option.some.inj (hc.symm.trans hi)
      rw [hphase] at hfinished
      cases hfinished
    exact ⟨c', by rw [List.getElem?_set_ne hne]; exact hi, hfinished⟩
  · intro taskID
    have hsame : queuedTimes taskID (s.log ++ [.persisted index c.taskID p.scheduled]) =
        queuedTimes taskID s.log := by
      simp [queuedTimes]
    rw [hsame]
    exact hs.nodup taskID

/-- The trace of a callback that queues its run: nobody has queued the instant
before, since nobody else has persisted it. -/
theorem State.Recorded.queued {s : State} (hs : s.Recorded) {index : ℕ} {c : Callback}
    (hc : s.callbacks[index]? = some c) {p : Prepared} (hphase : c.phase = .waited p) :
    State.Recorded ⟨s.core, s.callbacks.set index { c with phase := .finished },
      s.log ++ [.queued index c.taskID p.scheduled]⟩ := by
  have hpersisted : Event.persisted index c.taskID p.scheduled ∈ s.log :=
    hs.pending index c p hc (by rw [hphase]; rfl)
  have hindex : index < s.callbacks.length := (List.getElem?_eq_some_iff.mp hc).1
  refine ⟨?_, ?_, ?_, ?_, ?_, ?_⟩
  · intro i taskID x hx
    exact hs.stored i taskID x (by simpa using hx)
  · intro i j taskID x hi hj
    exact hs.unique i j taskID x (by simpa using hi) (by simpa using hj)
  · apply hs.ordered.snoc
    intro i taskID x heq
    cases heq
    exact hpersisted
  · intro i c' q hi hq
    rcases getElem?_set_callback hi with ⟨-, rfl⟩ | ⟨-, hi⟩
    · cases hq
    · exact List.mem_append_left _ (hs.pending i c' q hi hq)
  · intro i taskID x hx
    rcases List.mem_append.mp hx with hx | hx
    · obtain ⟨c', hi, hfinished⟩ := hs.done i taskID x hx
      by_cases hne : index = i
      · subst hne
        exact ⟨_, List.getElem?_set_self hindex, rfl⟩
      · exact ⟨c', by rw [List.getElem?_set_ne hne]; exact hi, hfinished⟩
    · obtain ⟨rfl, -⟩ : i = index ∧ taskID = c.taskID ∧ x = p.scheduled := by simpa using hx
      exact ⟨_, List.getElem?_set_self hindex, rfl⟩
  · intro taskID
    by_cases hk : c.taskID = taskID
    · subst hk
      have hsnoc : queuedTimes c.taskID (s.log ++ [.queued index c.taskID p.scheduled]) =
          queuedTimes c.taskID s.log ++ [p.scheduled] := by
        simp [queuedTimes]
      rw [hsnoc, List.nodup_append]
      refine ⟨hs.nodup c.taskID, List.nodup_singleton _, ?_⟩
      rintro x hx y hy rfl
      obtain rfl := List.mem_singleton.mp hy
      obtain ⟨j, hj⟩ := mem_queuedTimes.mp hx
      obtain rfl := hs.unique j index c.taskID p.scheduled (hs.ordered.mem hj) hpersisted
      obtain ⟨c', hi, hfinished⟩ := hs.done j c.taskID p.scheduled hj
      obtain rfl := Option.some.inj (hc.symm.trans hi)
      rw [hphase] at hfinished
      cases hfinished
    · have hsame : queuedTimes taskID (s.log ++ [.queued index c.taskID p.scheduled]) =
          queuedTimes taskID s.log := by
        simp [queuedTimes, hk]
      rw [hsame]
      exact hs.nodup taskID

theorem State.Recorded.step {env : Env} {s t : State} {action : LifeAction}
    (hwell : s.core.scheduler.WellFormed) (hs : s.Recorded)
    (h : lifeStep env s action = some t) : t.Recorded := by
  have hadvances := (lifeStep_advances hwell h).2
  cases action with
  | restart =>
      obtain rfl := Option.some.inj h
      refine ⟨hs.stored, hs.unique, hs.ordered, ?_, ?_, hs.nodup⟩
      · intro i c p hc hp
        rw [List.getElem?_map] at hc
        obtain ⟨old, -, rfl⟩ := Option.map_eq_some_iff.mp hc
        cases hp
      · intro i taskID x hx
        obtain ⟨c, hc, -⟩ := hs.done i taskID x hx
        exact ⟨_, by rw [List.getElem?_map, hc]; rfl, rfl⟩
  | act action =>
      cases step_spec h with
      | refused => exact hs
      | executed => exact hs.of_advances hadvances
      | operated => exact hs.of_advances hadvances
      | fired =>
          refine ⟨hs.stored, hs.unique, hs.ordered, ?_, ?_, hs.nodup⟩
          · intro i c p hc hp
            rw [List.getElem?_append] at hc
            split at hc
            · exact hs.pending i c p hc hp
            · obtain rfl := List.mem_singleton.mp (List.mem_of_getElem? hc)
              cases hp
          · intro i taskID x hx
            obtain ⟨c, hc, hfinished⟩ := hs.done i taskID x hx
            exact ⟨c, List.getElem?_append_left (List.getElem?_eq_some_iff.mp hc).1 ▸ hc,
              hfinished⟩
      | advanced at_ advanced =>
          cases advanced with
          | quiet running pending =>
              rw [List.append_nil]
              exact hs.quiet at_ running pending
          | unsaved hphase =>
              have hquiet := hs.quiet at_ (by simp [hphase])
                (.inl (rfl : Phase.finished.pending = none))
              rw [List.append_nil]
              exact hquiet.of_advances hadvances
          | persisted hphase valid loaded new later stored =>
              exact hs.persisted at_ hphase loaded later stored
          | queued hphase => exact hs.queued at_ hphase

theorem recorded_of_lifeReachable {env : Env} {s : State}
    (hs : Reachable (lifeStep env) Initial s) : s.Recorded :=
  (hs.invariant (P := fun s ↦ s.core.scheduler.WellFormed ∧ s.Recorded)
    (fun _ h ↦ ⟨wellFormed_of_initial h, recorded_of_initial h⟩)
    fun _ _ _ hs h ↦ ⟨(lifeStep_advances hs.1 h).1, hs.2.step hs.1 h⟩).2

/-- Over every run, restarts included: stored activations only move forward and
are never cleared; a persisted instant is what the row then holds; what a
callback queues it has persisted before; and no instant is queued twice for one
task. -/
theorem lastScheduledAt_increases {env : Env} {s : State}
    (hs : Reachable (lifeStep env) Initial s) :
    (∀ t actions, run (lifeStep env) s actions = some t →
      Advances s.core.store t.core.store) ∧
    (∀ t action i taskID x, lifeStep env s action = some t →
      t.log = s.log ++ [.persisted i taskID x] →
      ∃ row, t.core.store.task? taskID = some row ∧ row.lastScheduledAt = some x) ∧
    Ordered s.log ∧ ∀ taskID, (queuedTimes taskID s.log).Nodup := by
  have hwell := wellFormed_of_lifeReachable hs
  have hrecorded := recorded_of_lifeReachable hs
  refine ⟨fun t actions hrun ↦ ?_, fun t action i taskID x h hlog ↦ ?_, hrecorded.ordered,
    hrecorded.nodup⟩
  · exact run_relation (lifeStep env) (P := fun s ↦ s.core.scheduler.WellFormed)
      (R := fun s t ↦ Advances s.core.store t.core.store) (fun _ ↦ .refl _)
      (fun _ _ _ h h' ↦ h.trans h') (fun _ _ _ h hstep ↦ (lifeStep_advances h hstep).1)
      (fun _ _ _ h hstep ↦ (lifeStep_advances h hstep).2) hwell hrun
  · cases action with
    | restart =>
        obtain rfl := Option.some.inj h
        simp at hlog
    | act action =>
        cases step_spec h with
        | advanced at_ advanced =>
            cases advanced with
            | persisted hphase valid loaded new later stored =>
                obtain ⟨-, rfl, rfl⟩ : _ ∧ _ = taskID ∧ _ = x := by simpa using hlog
                obtain ⟨-, -, htasks⟩ := persisted_row loaded later stored
                exact ⟨_, (htasks _).trans (if_pos rfl), rfl⟩
            | quiet => simp at hlog
            | unsaved => simp at hlog
            | queued => simp at hlog
        | refused => simp at hlog
        | executed => simp at hlog
        | operated => simp at hlog
        | fired => simp at hlog

/-- The first callback of the task runs to its end. -/
theorem lastScheduledAt_increases_queued :
    let s := minutelyRun (waitingRun ++ [.advance 0 (inputAt 60000000000)])
    queuedTimes "task" s.log = [60000000000] ∧ Ordered s.log ∧
      ∀ taskID, (queuedTimes taskID s.log).Nodup := by
  intro s
  have hs : Reachable (lifeStep minutely) Initial s :=
    ⟨oneTaskStart, (waitingRun ++ [Action.advance 0 (inputAt 60000000000)]).map .act,
      ⟨rfl, rfl, rfl⟩, rfl⟩
  exact ⟨rfl, (lastScheduledAt_increases hs).2.2⟩

end MultiSpeed.Scheduling
