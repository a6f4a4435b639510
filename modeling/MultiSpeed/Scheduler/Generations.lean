import MultiSpeed.Scheduler.System

/-!
# Generations

After `Reschedule`, `Remove` or `Reconcile` has returned, the task's current
generation, if it has one, was drawn during that call or later.  A callback that
was registered before therefore finds its own generation outdated, unless the
64-bit counter has meanwhile gone through a whole period.
-/

namespace MultiSpeed.Scheduling

open Database Transition

/-! ## Stamps -/

/-- The scheduler's memory is well formed, and every callback carries a
generation that has been drawn. -/
structure State.Stamped (s : State) : Prop where
  wellFormed : s.core.scheduler.WellFormed
  callbacks : ∀ c ∈ s.callbacks, 0 < c.issued ∧ c.issued ≤ s.core.scheduler.issued ∧
    IsGeneration c.issued c.generation

theorem Advanced.wellFormed {input : Input} {core core' : Core} {index : ℕ} {c : Callback}
    {phase : Phase} {events : List Event} (h : Advanced input core index c core' phase events)
    (hcore : core.scheduler.WellFormed) : core'.scheduler.WellFormed := by
  cases h with
  | quiet => exact hcore
  | unsaved => exact hcore.setLocalFire _ _
  | persisted => exact hcore.setLocalFire _ _
  | queued => exact hcore

theorem Advanced.issued {input : Input} {core core' : Core} {index : ℕ} {c : Callback}
    {phase : Phase} {events : List Event} (h : Advanced input core index c core' phase events) :
    core'.scheduler.issued = core.scheduler.issued := by
  cases h <;> rfl

theorem Advanced.generations {input : Input} {core core' : Core} {index : ℕ} {c : Callback}
    {phase : Phase} {events : List Event} (h : Advanced input core index c core' phase events) :
    core'.scheduler.generations = core.scheduler.generations := by
  cases h <;> rfl

theorem Rescheduled.issued {env : Env} {core : Core} {taskID : String} {out : Outcome}
    (h : Rescheduled env core taskID out) :
    core.scheduler.issued ≤ out.core.scheduler.issued := by
  cases h with
  | failed cleared => exact cleared.issued.le
  | disabled => simp
  | registered => simp only [Scheduler.register_issued, Scheduler.unschedule_issued]; omega

theorem Operated.wellFormed {env : Env} {core core' : Core} {action : Action}
    (hcore : core.scheduler.WellFormed) (h : Operated env core action core') :
    core'.scheduler.WellFormed ∧ core.scheduler.issued ≤ core'.scheduler.issued := by
  refine h.induction (P := fun next ↦ next.scheduler.WellFormed ∧
    core.scheduler.issued ≤ next.scheduler.issued) ?_ ?_ (fun _ hP ↦ hP.1) ⟨hcore, le_refl _⟩
  · rintro next taskID ⟨hwell, hle⟩
    refine ⟨hwell.remove taskID, hle.trans ?_⟩
    simp [Core.remove]
  · rintro next taskID out ⟨hwell, hle⟩ hout
    exact ⟨hout.wellFormed hwell, hle.trans hout.issued⟩

theorem Operated.onlyNext {env : Env} {core core' : Core} {action : Action}
    (hcore : core.scheduler.WellFormed) (h : Operated env core action core') :
    OnlyNext core.store core'.store := by
  refine (h.induction (P := fun next ↦ next.scheduler.WellFormed ∧
    OnlyNext core.store next.store) ?_ ?_ (fun _ hP ↦ hP.1) ⟨hcore, .refl _⟩).2
  · rintro next taskID ⟨hwell, honly⟩
    exact ⟨hwell.remove taskID, honly⟩
  · rintro next taskID out ⟨hwell, honly⟩ hout
    exact ⟨hout.wellFormed hwell, honly.trans hout.onlyNext⟩

theorem State.Stamped.step {env : Env} {s t : State} {action : Action} (hs : s.Stamped)
    (h : step env s action = some t) :
    t.Stamped ∧ s.core.scheduler.issued ≤ t.core.scheduler.issued := by
  cases step_spec h with
  | refused => exact ⟨hs, le_refl _⟩
  | executed => exact ⟨⟨hs.wellFormed, hs.callbacks⟩, le_refl _⟩
  | operated operated =>
      obtain ⟨hwell, hle⟩ := operated.wellFormed hs.wellFormed
      refine ⟨⟨hwell, fun c hc ↦ ?_⟩, hle⟩
      obtain ⟨hpos, hissued, hgen⟩ := hs.callbacks c hc
      exact ⟨hpos, hissued.trans hle, hgen⟩
  | fired registered =>
      refine ⟨⟨hs.wellFormed, fun c hc ↦ ?_⟩, le_refl _⟩
      rcases List.mem_append.mp hc with hc | hc
      · exact hs.callbacks c hc
      · obtain rfl := List.mem_singleton.mp hc
        exact hs.wellFormed.stamped _ registered
  | advanced at_ advanced =>
      refine ⟨⟨advanced.wellFormed hs.wellFormed, fun c' hc' ↦ ?_⟩, advanced.issued.ge⟩
      dsimp only
      rw [advanced.issued]
      obtain ⟨i, hi⟩ := List.mem_iff_getElem?.mp hc'
      rcases getElem?_set_callback hi with ⟨-, rfl⟩ | ⟨-, hi⟩
      · have hold := hs.callbacks _ (List.mem_of_getElem? at_)
        exact hold
      · exact hs.callbacks c' (List.mem_of_getElem? hi)

theorem stamped_of_reachable {env : Env} {s : State} (hs : Reachable (step env) Initial s) :
    s.Stamped := by
  refine hs.invariant (P := State.Stamped) ?_ (fun s a t hs h ↦ (hs.step h).1)
  rintro s ⟨hnew, hcallbacks, -⟩
  exact ⟨hnew ▸ Scheduler.wellFormed_new, fun c hc ↦ by simp [hcallbacks] at hc⟩

/-! ## New generations -/

/-- The current generation of a task, if any, is not among the first `n` drawn. -/
def Scheduler.Newer (n : ℕ) (taskID : String) (s : Scheduler) : Prop :=
  n ≤ s.issued ∧ ∀ g, s.generations.lookup taskID = some g →
    ∃ i, n < i ∧ i ≤ s.issued ∧ IsGeneration i g

theorem Scheduler.newer_of_none {n : ℕ} {taskID : String} {s : Scheduler} (hn : n ≤ s.issued)
    (h : s.generations.lookup taskID = none) : s.Newer n taskID :=
  ⟨hn, fun g hg ↦ by rw [h] at hg; cases hg⟩

/-- Later memories that hold the same generation, or none, are newer as well. -/
theorem Scheduler.Newer.later {n : ℕ} {taskID : String} {s s' : Scheduler}
    (h : s.Newer n taskID) (hissued : s.issued ≤ s'.issued)
    (hgen : ∀ g, s'.generations.lookup taskID = some g →
      s.generations.lookup taskID = some g) : s'.Newer n taskID := by
  refine ⟨h.1.trans hissued, fun g hg ↦ ?_⟩
  obtain ⟨i, hlt, hle, hi⟩ := h.2 g (hgen g hg)
  exact ⟨i, hlt, hle.trans hissued, hi⟩

theorem Scheduler.Newer.remove {n : ℕ} {taskID : String} {s : Scheduler}
    (h : s.Newer n taskID) (k : String) : (s.remove k).Newer n taskID := by
  refine h.later (by simp) fun g hg ↦ ?_
  rw [remove_generations] at hg
  split at hg
  · cases hg
  · exact hg

/-- Rescheduling leaves every other task with the generation it had. -/
theorem Rescheduled.generations_of_ne {env : Env} {core : Core} {taskID k : String}
    {out : Outcome} (h : Rescheduled env core taskID out) (hk : taskID ≠ k) :
    out.core.scheduler.generations.lookup k = core.scheduler.generations.lookup k := by
  cases h with
  | failed cleared => rw [cleared.generations, if_neg hk]
  | disabled => rw [Scheduler.unschedule_generations, if_neg hk]
  | registered =>
      rw [Scheduler.register_generations, if_neg hk, Scheduler.unschedule_generations, if_neg hk]

/-- Rescheduling leaves the task itself without a generation or with the one it
drew, and every other task with the one it had. -/
theorem Rescheduled.newer {env : Env} {core : Core} {taskID k : String} {out : Outcome}
    {n : ℕ} (hcore : core.scheduler.WellFormed) (hn : n ≤ core.scheduler.issued)
    (hother : taskID ≠ k → core.scheduler.Newer n k) (h : Rescheduled env core taskID out) :
    out.core.scheduler.Newer n k := by
  have hissued := h.issued
  by_cases hk : taskID = k
  · subst hk
    cases h with
    | failed cleared => exact Scheduler.newer_of_none (hn.trans hissued) cleared.current
    | disabled =>
        exact Scheduler.newer_of_none (hn.trans hissued)
          (cleared_unschedule hcore taskID).current
    | registered =>
        refine ⟨hn.trans hissued, fun g hg ↦ ?_⟩
        rw [Scheduler.register_generations, if_pos rfl] at hg
        obtain rfl := Option.some.inj hg
        refine ⟨core.scheduler.issued + 2, by omega, by simp, ?_⟩
        have hcounter := (hcore.unschedule taskID).nextGenerationLocked.counter
        simpa using hcounter
  · refine (hother hk).later hissued fun g hg ↦ ?_
    rwa [h.generations_of_ne hk] at hg

theorem Operated.newer {env : Env} {core core' : Core} {action : Action} {k : String} {n : ℕ}
    (hcore : core.scheduler.WellFormed) (hnew : core.scheduler.Newer n k)
    (h : Operated env core action core') : core'.scheduler.Newer n k := by
  refine (h.induction (P := fun next ↦ next.scheduler.WellFormed ∧ next.scheduler.Newer n k)
    ?_ ?_ (fun _ hP ↦ hP.1) ⟨hcore, hnew⟩).2
  · rintro next taskID ⟨hwell, hnew⟩
    exact ⟨hwell.remove taskID, hnew.remove taskID⟩
  · rintro next taskID out ⟨hwell, hnew⟩ hout
    exact ⟨hout.wellFormed hwell, hout.newer hwell hnew.1 fun _ ↦ hnew⟩

theorem State.Stamped.newer_step {env : Env} {s t : State} {action : Action} {k : String}
    {n : ℕ} (hs : s.Stamped) (hnew : s.core.scheduler.Newer n k)
    (h : Scheduling.step env s action = some t) : t.core.scheduler.Newer n k := by
  cases step_spec h with
  | refused => exact hnew
  | executed => exact hnew
  | operated operated => exact operated.newer hs.wellFormed hnew
  | fired => exact hnew
  | advanced at_ advanced =>
      exact hnew.later advanced.issued.ge fun g hg ↦ by rwa [advanced.generations] at hg

theorem State.Stamped.newer_run {env : Env} {s t : State} {as : List Action} {k : String}
    {n : ℕ} (hs : s.Stamped) (hnew : s.core.scheduler.Newer n k)
    (h : run (Scheduling.step env) s as = some t) : t.core.scheduler.Newer n k :=
  (run_invariant (Scheduling.step env)
    (P := fun s ↦ s.Stamped ∧ s.core.scheduler.Newer n k)
    (fun _ _ _ hs h ↦ ⟨(hs.1.step h).1, hs.1.newer_step hs.2 h⟩) ⟨hs, hnew⟩ h).2

/-! ## Superseding operations -/

/-- The calls after which older callbacks of a task are outdated. -/
inductive Supersedes (taskID : String) : Action → Prop where
  | reschedule (calls : Calls) : Supersedes taskID (.reschedule taskID calls)
  | remove : Supersedes taskID (.remove taskID)
  | reconcile (tasks : List Task) (calls : Calls) : Supersedes taskID (.reconcile tasks calls)

theorem Scheduler.WellFormed.clearAll_generations {s : Scheduler} (hs : s.WellFormed)
    (taskID : String) : s.clearAll.generations.lookup taskID = none := by
  obtain ⟨-, -, hentries⟩ := Scheduler.clearAll_induction
    (P := Scheduler.WellFormed) (fun _ k h ↦ h.remove k) hs
  rw [AList.lookup_eq_none, ← hs.clearAll.keys, ← AList.lookup_eq_none]
  exact hentries taskID

theorem Scheduler.issued_clearAll (s : Scheduler) : s.issued ≤ s.clearAll.issued :=
  (Scheduler.clearAll_induction (P := fun _ ↦ True) (fun _ _ h ↦ h) trivial).2.1

theorem State.Stamped.newer_of_supersedes {env : Env} {s t : State} {action : Action}
    {taskID : String} (hs : s.Stamped) (ha : Supersedes taskID action)
    (h : Scheduling.step env s action = some t) :
    t.core.scheduler.Newer s.core.scheduler.issued taskID := by
  have hwell := hs.wellFormed
  cases ha with
  | reschedule calls =>
      obtain rfl := Option.some.inj h
      exact (rescheduleLocked_spec env calls hwell 0 taskID).newer hwell (le_refl _)
        fun hne ↦ absurd rfl hne
  | remove =>
      obtain rfl := Option.some.inj h
      refine Scheduler.newer_of_none (by simp [Core.remove]) ?_
      exact (s.core.scheduler.remove_generations taskID taskID).trans (if_pos rfl)
  | reconcile tasks calls =>
      obtain rfl := Option.some.inj h
      have hclear := Scheduler.newer_of_none s.core.scheduler.issued_clearAll
        (hwell.clearAll_generations taskID)
      refine (rescheduleAll_induction (P := fun core ↦ core.scheduler.WellFormed ∧
        core.scheduler.Newer s.core.scheduler.issued taskID) ?_ tasks 0
        ⟨hwell.clearAll, hclear⟩).2
      rintro core used k ⟨hcore, hnew⟩
      have hspec := rescheduleLocked_spec env calls hcore used k
      exact ⟨hspec.wellFormed hcore, hspec.newer hcore hnew.1 fun _ ↦ hnew⟩

/-- A callback whose generation is not current does nothing but end. -/
theorem Advanced.inert {input : Input} {core core' : Core} {index : ℕ} {c : Callback}
    {phase : Phase} {events : List Event} (h : Advanced input core index c core' phase events)
    (hold : core.scheduler.isCurrentGenerationLocked c.taskID c.generation = false) :
    core' = core ∧ events = [] := by
  cases h with
  | quiet => exact ⟨rfl, rfl⟩
  | unsaved at_ valid => simp [hold] at valid
  | persisted at_ valid => simp [hold] at valid
  | queued at_ valid => simp [hold] at valid

/-- A superseding operation on the task has returned before `s`, at a time when
the generation with place `issued` had already been drawn. -/
def Superseded (env : Env) (taskID : String) (issued : ℕ) (s : State) : Prop :=
  ∃ s₁ s₂ action as, Reachable (step env) Initial s₁ ∧ Supersedes taskID action ∧
    step env s₁ action = some s₂ ∧ run (step env) s₂ as = some s ∧
    issued ≤ s₁.core.scheduler.issued

/-- Within one period of the counter, the generation of a superseded callback
is not the current one. -/
theorem not_current_of_superseded {env : Env} {s : State} {index : ℕ} {c : Callback}
    (hc : s.callbacks[index]? = some c) (hold : Superseded env c.taskID c.issued s)
    (hnear : s.core.scheduler.issued < c.issued + generationPeriod) :
    s.core.scheduler.isCurrentGenerationLocked c.taskID c.generation = false := by
  obtain ⟨s₁, s₂, action, as, hreach, hsupersedes, hstep, hrun, hissued⟩ := hold
  have h₁ := stamped_of_reachable hreach
  have h₂ := (h₁.step hstep).1
  have hnew := h₂.newer_run (h₁.newer_of_supersedes hsupersedes hstep) hrun
  have hs := stamped_of_reachable ((hreach.snoc hstep).append hrun)
  obtain ⟨hpos, -, hgen⟩ := hs.callbacks c (List.mem_of_getElem? hc)
  rw [Bool.eq_false_iff, Ne, Scheduler.isCurrentGenerationLocked_iff]
  intro hcurrent
  obtain ⟨i, hlt, hle, hi⟩ := hnew.2 _ hcurrent
  exact hgen.ne hi hpos (by omega) (by omega) rfl

/-- The keys of both maps coincide whenever the mutex is free, and a callback
that was registered before a superseding operation neither writes to the store
nor queues a run, as long as fewer generations than 64 bits can tell apart have
been drawn since its registration. -/
theorem generations_guard (env : Env) :
    (∀ s, Reachable (step env) Initial s → ∀ taskID,
      taskID ∈ s.core.scheduler.entries ↔ taskID ∈ s.core.scheduler.generations) ∧
    (∀ s t index input c, s.callbacks[index]? = some c →
      Superseded env c.taskID c.issued s →
      s.core.scheduler.issued < c.issued + generationPeriod →
      step env s (.advance index input) = some t →
      t.core.store = s.core.store ∧ t.log = s.log) := by
  refine ⟨fun s hs ↦ (stamped_of_reachable hs).wellFormed.keys, ?_⟩
  intro s t index input c hc hold hnear h
  have hcurrent := not_current_of_superseded hc hold hnear
  cases step_spec h with
  | advanced at_ advanced =>
      obtain rfl := Option.some.inj (hc.symm.trans at_)
      obtain ⟨rfl, rfl⟩ := advanced.inert hcurrent
      exact ⟨rfl, List.append_nil _⟩
  | operated operated => cases operated

/-- A callback that has waited out its delay when the task is removed. -/
theorem generations_guard_removed :
    let s := minutelyRun (waitingRun ++ [.remove "task"])
    let t := minutelyRun (waitingRun ++ [.remove "task", .advance 0 (inputAt 60000000000)])
    t.core.store = s.core.store ∧ t.log = s.log := by
  intro s t
  have hwaiting : Reachable (step minutely) Initial (minutelyRun waitingRun) :=
    ⟨oneTaskStart, waitingRun, ⟨rfl, rfl, rfl⟩, rfl⟩
  exact (generations_guard minutely).2 s t 0 (inputAt 60000000000) _ rfl
    ⟨_, s, .remove "task", [], hwaiting, .remove, rfl, rfl, by decide⟩ (by decide) rfl

/-! ## A whole period -/

theorem run_replicate_remove (env : Env) (taskID : String) (n : ℕ) (s : State) :
    ∃ t, run (step env) s (List.replicate n (.remove taskID)) = some t ∧
      t.core.store = s.core.store ∧ t.callbacks = s.callbacks ∧ t.log = s.log ∧
      t.core.scheduler.issued = s.core.scheduler.issued + n := by
  induction n generalizing s with
  | zero => exact ⟨s, rfl, rfl, rfl, rfl, rfl⟩
  | succ n ih =>
      obtain ⟨t, hrun, hstore, hcallbacks, hlog, hissued⟩ :=
        ih { s with core := s.core.remove taskID }
      refine ⟨t, ?_, hstore, hcallbacks, hlog, ?_⟩
      · rw [List.replicate_succ, run_cons_of_step (step env) rfl]
        exact hrun
      · simp only [hissued, Core.remove, Scheduler.remove_issued]
        omega

/-- A task whose row is live and enabled gets the generation drawn by the
rescheduling. -/
theorem generation_of_registers {env : Env} (now : Time) {core : Core} {taskID : String}
    {task : Task} (hcore : core.scheduler.WellFormed)
    (htask : core.store.getTask taskID = .ok task) (hon : task.enabled = true)
    (hregisters : env.registers task = true) :
    ∃ g, (rescheduleLocked env (servedAt now) 0 core taskID).core.scheduler.generations.lookup
        taskID = some g ∧ IsGeneration (core.scheduler.issued + 2) g := by
  obtain ⟨store, next, stamp, hout, -⟩ := rescheduleLocked_of_registers env (servedAt now)
    0 rfl rfl htask hon hregisters
  refine ⟨(core.scheduler.unschedule taskID).nextGenerationLocked.nextGeneration, ?_, ?_⟩
  · rw [hout, Scheduler.register_generations, if_pos rfl]
  · simpa using (hcore.unschedule taskID).nextGenerationLocked.counter

/-- After one whole period of the counter, a callback that was registered before
a removal of its task queues its run. -/
theorem superseded_callback_queues :
    ¬ ∀ env : Env,
      (∀ s, Reachable (step env) Initial s → ∀ taskID,
        taskID ∈ s.core.scheduler.entries ↔ taskID ∈ s.core.scheduler.generations) ∧
      (∀ s t index input c, s.callbacks[index]? = some c →
        Superseded env c.taskID c.issued s →
        step env s (.advance index input) = some t →
        t.core.store = s.core.store ∧ t.log = s.log) := by
  intro hclaim
  have hwaiting : Reachable (step minutely) Initial (minutelyRun waitingRun) :=
    ⟨oneTaskStart, waitingRun, ⟨rfl, rfl, rfl⟩, rfl⟩
  have hremove : step minutely (minutelyRun waitingRun) (.remove "task") =
      some (minutelyRun (waitingRun ++ [.remove "task"])) := rfl
  obtain ⟨c, p, hc, htask, hplace, hphase⟩ : ∃ c p,
      (minutelyRun (waitingRun ++ [.remove "task"])).callbacks[0]? = some c ∧
        c.taskID = "task" ∧ c.issued = 2 ∧ c.phase = .waited p := ⟨_, _, rfl, rfl, rfl, rfl⟩
  -- The removals leave two generations of the period to the last rescheduling.
  obtain ⟨s₃, hremoves, hstore, hcallbacks, hlog, hissued⟩ :=
    run_replicate_remove minutely "task" (generationPeriod - 3)
      (minutelyRun (waitingRun ++ [.remove "task"]))
  have hreach : Reachable (step minutely) Initial s₃ := (hwaiting.snoc hremove).append hremoves
  have hwell := (stamped_of_reachable hreach).wellFormed
  obtain ⟨row, hrow, hon, hregisters⟩ : ∃ row,
      s₃.core.store.getTask "task" = .ok row ∧ row.enabled = true ∧
        minutely.registers row = true := by
    rw [hstore]
    exact ⟨_, rfl, rfl, rfl⟩
  obtain ⟨g, hlookup, hg⟩ := generation_of_registers 0 hwell hrow hon hregisters
  have hfirst : (minutelyRun (waitingRun ++ [.remove "task"])).core.scheduler.issued = 3 := rfl
  have hperiod : s₃.core.scheduler.issued + 2 = 2 + generationPeriod := by
    rw [hissued, hfirst]
    decide
  rw [hperiod] at hg
  set s₄ : State :=
    { s₃ with core := (rescheduleLocked minutely (servedAt 0) 0 s₃.core "task").core } with hs₄
  have hlast : step minutely s₃ (.reschedule "task" (servedAt 0)) = some s₄ := rfl
  have hreach₄ := hreach.snoc hlast
  have hc₄ : s₄.callbacks[0]? = some c := by
    rw [← hc, ← hcallbacks]
  have hgen : g = c.generation := by
    have hstamp := (stamped_of_reachable hreach₄).callbacks c (List.mem_of_getElem? hc₄)
    apply UInt64.toNat_inj.mp
    rw [hg, hstamp.2.2, hplace, CyclicCounter.value_add_period (by decide)]
  have hcurrent : s₄.core.scheduler.isCurrentGenerationLocked c.taskID c.generation = true := by
    rw [Scheduler.isCurrentGenerationLocked_iff, htask, ← hgen]
    exact hlookup
  have hqueue : step minutely s₄ (.advance 0 (inputAt 0)) = some
      ⟨s₄.core, s₄.callbacks.set 0 { c with phase := .finished },
        s₄.log ++ [.queued 0 c.taskID p.scheduled]⟩ := by
    simp only [step, hc₄, Callback.advance, hphase, hcurrent, if_true]
  have hsuperseded : Superseded minutely c.taskID c.issued s₄ := by
    refine ⟨_, _, .remove "task", _, hwaiting, htask ▸ .remove, hremove,
      (run_snoc_iff _).mpr ⟨s₃, hremoves, hlast⟩, ?_⟩
    rw [hplace]
    decide
  have hsame := ((hclaim minutely).2 s₄ _ 0 (inputAt 0) c hc₄ hsuperseded hqueue).2
  simp at hsame

end MultiSpeed.Scheduling
