import MultiSpeed.Api.Sections
import MultiSpeed.Execution.Run
import MultiSpeed.Scheduler.Generations

/-!
# Deletions, imports and waiting callbacks

A callback that has persisted its run waits out a delay and then queues the run,
if its generation is still the current one.  A deletion or an import takes the
registrations away before it knows whether the database accepts the change; where
it does not, the tasks are registered again, under new generations.
-/

namespace MultiSpeed.Api.Refusal

open Database Scheduling Transition

/-- A request in service, next to the callbacks. -/
structure State where
  scheduling : Scheduling.State
  next : Section
  /-- The handler has taken the registrations away. -/
  down : Bool

inductive Action where
  /-- The handler makes its next call. -/
  | handler
  | other (action : Scheduling.Action)

/-- The steps that do not wait for `configurationMu`. -/
def concurrent : Scheduling.Action → Bool
  | .statement _ | .fire _ | .advance _ _ => true
  | .reschedule _ _ | .remove _ | .reconcile _ _ => false

def takesDown : Section → Bool
  | .remove _ _ | .pause _ _ => true
  | _ => false

def step (env : Scheduling.Env) (calls : Calls) (s : State) : Action → Option State
  | .handler =>
      match s.next.advance env calls s.scheduling.core with
      | none => none
      | some (core, next) =>
          some ⟨{ s.scheduling with core := core }, next, s.down || takesDown s.next⟩
  | .other action =>
      if concurrent action then
        match Scheduling.step env s.scheduling action with
        | none => none
        | some scheduling => some { s with scheduling := scheduling }
      else none

/-- The tasks whose registration a request takes away. -/
def affects : Request → String → Prop
  | .delete id, k => id = k
  | .importConfiguration _, _ => True
  | _, _ => False

/-- The answer is 409 because a result is active. -/
def refused : Section → Bool
  | .answered (.store .active) | .answered .importActive => true
  | _ => false

/-- The callback queues its run if its wait ends now. -/
def current (s : Scheduling.State) (c : Callback) : Bool :=
  s.core.scheduler.isCurrentGenerationLocked c.taskID c.generation

/-- A callback that waited with `p` in the first state still waits in the second. -/
def Waits (arrival now : Scheduling.State) (index : ℕ) (c : Callback) (p : Prepared) : Prop :=
  arrival.callbacks[index]? = some c ∧ c.phase.pending = some p ∧
    ∃ phase, phase.pending = some p ∧ now.callbacks[index]? = some { c with phase := phase }

/-- If the wait of a callback ends in this step, then the callback queues its run
exactly if it would have done so when the request arrived. -/
def EndsAsBefore (env : Scheduling.Env) (calls : Calls) (arrival : Scheduling.State) (s : State)
    (action : Action) : Prop :=
  ∀ t index input c p, action = .other (.advance index input) →
    step env calls s action = some t → Waits arrival s.scheduling index c p →
    s.scheduling.callbacks[index]? = some { c with phase := .waited p } →
    t.scheduling.log = s.scheduling.log ++
      if current arrival c then [.queued index c.taskID p.scheduled] else []

/-! ## The sections of a handler -/

/-- What a section does to the scheduler's memory. -/
inductive Moved (env : Scheduling.Env) (core : Core) : Section → Core → Prop where
  | same {next : Section} {core' : Core} (up : takesDown next = false)
      (memory : core'.scheduler = core.scheduler) : Moved env core next core'
  | removed (id : String) (existing : Task) :
      Moved env core (.remove id existing) (core.remove id)
  | rescheduled (calls : Calls) (existing : Task) (used : ℕ) (cause : StoreError) :
      Moved env core (.reschedule existing used cause)
        (rescheduleLocked env calls used core existing.id).core
  | paused (calls : Calls) (document : Import) (current : ConfigurationSnapshot) :
      Moved env core (.pause document current) (reconcile env calls 1 core []).core
  | restored (calls : Calls) (current : ConfigurationSnapshot) (cause : StoreError) :
      Moved env core (.restore current cause) (reconcile env calls 2 core current.tasks).core
  | activated (calls : Calls) (document : Import) :
      Moved env core (.activate document) (reconcile env calls 2 core document.tasks).core

/-- The sections that come before and after the registrations are taken away. -/
def Serves (request : Request) (down : Bool) : Section → Prop
  | .load id => request = .delete id ∧ down = false
  | .remove id existing => request = .delete id ∧ existing.id = id ∧ down = false
  | .delete id existing | .explain id existing =>
      request = .delete id ∧ existing.id = id ∧ down = true
  | .reschedule existing _ _ => request = .delete existing.id ∧ down = true
  | .read document | .pause document _ =>
      request = .importConfiguration (some document) ∧ down = false
  | .replace document _ | .activate document =>
      request = .importConfiguration (some document) ∧ down = true
  | .restore _ _ => (∃ document, request = .importConfiguration (some document)) ∧ down = true
  | .answered _ => True

theorem Serves.up_of_takesDown {request : Request} {down : Bool} {next : Section}
    (h : Serves request down next) (htakes : takesDown next = true) : down = false := by
  cases next with
  | remove id existing => exact h.2.2
  | pause document current => exact h.2
  | load | delete | explain | reschedule | read | replace | restore | activate | answered =>
      cases htakes

theorem serves_first {request : Request} {first : Section} (h : Section.first request = some first) :
    Serves request false first := by
  cases request with
  | delete id =>
      obtain rfl := Option.some.inj h
      exact ⟨rfl, rfl⟩
  | importConfiguration input =>
      cases input with
      | none => cases h
      | some document =>
          obtain rfl := Option.some.inj h
          exact ⟨rfl, rfl⟩
  | create | update | duplicate => cases h

theorem advance_spec {env : Scheduling.Env} {calls : Calls} {core core' : Core}
    {next next' : Section} {request : Request} {down : Bool} (hserves : Serves request down next)
    (h : next.advance env calls core = some (core', next')) :
    Moved env core next core' ∧ Serves request (down || takesDown next) next' := by
  cases next with
  | load id =>
      obtain ⟨rfl, rfl⟩ := hserves
      simp only [Section.advance] at h
      split at h
      · obtain ⟨rfl, rfl⟩ := by simpa using h
        exact ⟨.same rfl rfl, trivial⟩
      · rename_i existing hload
        obtain ⟨rfl, rfl⟩ := by simpa using h
        exact ⟨.same rfl rfl, rfl, Store.getTask_id (Call.serve_eq_ok_iff.mp hload).2, rfl⟩
  | remove id existing =>
      obtain ⟨rfl, hid, rfl⟩ := hserves
      obtain ⟨rfl, rfl⟩ := by simpa [Section.advance] using h
      exact ⟨.removed id existing, rfl, hid, rfl⟩
  | delete id existing =>
      obtain ⟨rfl, rfl, rfl⟩ := hserves
      simp only [Section.advance] at h
      split at h
      · obtain ⟨rfl, rfl⟩ := by simpa using h
        exact ⟨.same rfl rfl, trivial⟩
      · obtain ⟨rfl, rfl⟩ := by simpa using h
        exact ⟨.same rfl rfl, rfl, rfl, rfl⟩
      · obtain ⟨rfl, rfl⟩ := by simpa using h
        exact ⟨.same rfl rfl, rfl, rfl⟩
  | explain id existing =>
      obtain ⟨rfl, rfl, rfl⟩ := hserves
      simp only [Section.advance] at h
      split at h
      · obtain ⟨rfl, rfl⟩ := by simpa using h
        exact ⟨.same rfl rfl, rfl, rfl⟩
      · obtain ⟨rfl, rfl⟩ := by simpa using h
        exact ⟨.same rfl rfl, rfl, rfl⟩
  | reschedule existing used cause =>
      obtain ⟨rfl, rfl⟩ := by simpa [Section.advance] using h
      exact ⟨.rescheduled calls existing used cause, trivial⟩
  | read document =>
      obtain ⟨rfl, rfl⟩ := hserves
      simp only [Section.advance] at h
      split at h
      · obtain ⟨rfl, rfl⟩ := by simpa using h
        exact ⟨.same rfl rfl, trivial⟩
      · obtain ⟨rfl, rfl⟩ := by simpa using h
        exact ⟨.same rfl rfl, rfl, rfl⟩
  | pause document current =>
      obtain ⟨rfl, rfl⟩ := hserves
      obtain ⟨rfl, rfl⟩ := by simpa [Section.advance] using h
      exact ⟨.paused calls document current, rfl, rfl⟩
  | replace document current =>
      obtain ⟨rfl, rfl⟩ := hserves
      simp only [Section.advance] at h
      split at h
      · obtain ⟨rfl, rfl⟩ := by simpa using h
        exact ⟨.same rfl rfl, ⟨document, rfl⟩, rfl⟩
      · obtain ⟨rfl, rfl⟩ := by simpa using h
        exact ⟨.same rfl rfl, rfl, rfl⟩
  | restore current cause =>
      obtain ⟨rfl, rfl⟩ := by simpa [Section.advance] using h
      exact ⟨.restored calls current cause, trivial⟩
  | activate document =>
      simp only [Section.advance] at h
      split at h
      · obtain ⟨rfl, rfl⟩ := by simpa using h
        exact ⟨.activated calls document, trivial⟩
      · obtain ⟨rfl, rfl⟩ := by simpa using h
        exact ⟨.activated calls document, trivial⟩
  | answered reply => cases h

/-! ## Generations -/

/-- The memory has gone on: it is well formed, and no generation is drawn twice. -/
structure Later (s s' : Scheduler) : Prop where
  wellFormed : s'.WellFormed
  issued : s.issued ≤ s'.issued
  newer : ∀ n k, s.Newer n k → s'.Newer n k

theorem Later.refl {s : Scheduler} (hs : s.WellFormed) : Later s s :=
  ⟨hs, le_refl _, fun _ _ h ↦ h⟩

theorem Later.remove {s s' : Scheduler} (h : Later s s') (taskID : String) :
    Later s (s'.remove taskID) := by
  refine ⟨h.wellFormed.remove taskID, h.issued.trans ?_, fun n k hn ↦ (h.newer n k hn).remove taskID⟩
  rw [Scheduler.remove_issued]
  exact Nat.le_succ _

theorem Later.rescheduled {env : Scheduling.Env} {s : Scheduler} {core : Core} {taskID : String}
    {out : Outcome} (h : Later s core.scheduler) (hout : Rescheduled env core taskID out) :
    Later s out.core.scheduler := by
  refine ⟨hout.wellFormed h.wellFormed, h.issued.trans hout.issued, fun n k hn ↦ ?_⟩
  have hnew := h.newer n k hn
  exact hout.newer h.wellFormed hnew.1 fun _ ↦ hnew

theorem Later.reconciled (env : Scheduling.Env) (calls : Calls) (used : ℕ) {core : Core}
    (hcore : core.scheduler.WellFormed) (tasks : List Task) :
    Later core.scheduler (reconcile env calls used core tasks).core.scheduler := by
  refine reconcile_induction (P := fun next ↦ Later core.scheduler next.scheduler)
    (fun next taskID h ↦ h.remove taskID) ?_ used tasks (.refl hcore)
  intro next used taskID h
  exact h.rescheduled (rescheduleLocked_spec env calls h.wellFormed used taskID)

theorem Moved.later {env : Scheduling.Env} {core core' : Core} {next : Section}
    (hcore : core.scheduler.WellFormed) (h : Moved env core next core') :
    Later core.scheduler core'.scheduler := by
  cases h with
  | same up memory =>
      rw [memory]
      exact .refl hcore
  | removed id existing => exact (Later.refl hcore).remove id
  | rescheduled calls existing used cause =>
      exact (Later.refl hcore).rescheduled (rescheduleLocked_spec env calls hcore used existing.id)
  | paused calls document current => exact .reconciled env calls 1 hcore []
  | restored calls current cause => exact .reconciled env calls 2 hcore current.tasks
  | activated calls document => exact .reconciled env calls 2 hcore document.tasks

/-- Tasks the request does not affect keep their generations, and before the
registrations are taken away all tasks do. -/
theorem Moved.generations {env : Scheduling.Env} {core core' : Core} {next : Section}
    {request : Request} {down : Bool} {k : String} (hcore : core.scheduler.WellFormed)
    (hserves : Serves request down next) (h : Moved env core next core')
    (hk : (down || takesDown next) = false ∨ ¬ affects request k) :
    core'.scheduler.generations.lookup k = core.scheduler.generations.lookup k := by
  cases h with
  | same up memory => rw [memory]
  | removed id existing =>
      obtain ⟨rfl, -, -⟩ := hserves
      rcases hk with hk | hk
      · simp [takesDown] at hk
      · exact (Scheduler.remove_generations _ _ _).trans (if_neg hk)
  | rescheduled calls existing used cause =>
      obtain ⟨rfl, rfl⟩ := hserves
      rcases hk with hk | hk
      · cases hk
      · exact (rescheduleLocked_spec env calls hcore used existing.id).generations_of_ne hk
  | paused calls document current =>
      obtain ⟨rfl, rfl⟩ := hserves
      rcases hk with hk | hk
      · cases hk
      · exact absurd trivial hk
  | restored calls current cause =>
      obtain ⟨⟨document, rfl⟩, rfl⟩ := hserves
      rcases hk with hk | hk
      · cases hk
      · exact absurd trivial hk
  | activated calls document =>
      obtain ⟨rfl, rfl⟩ := hserves
      rcases hk with hk | hk
      · cases hk
      · exact absurd trivial hk

/-- Once the registrations are taken away, an affected task has no generation of
before. -/
theorem Moved.newer {env : Scheduling.Env} {core core' : Core} {next : Section}
    {request : Request} {down : Bool} {k : String} (hcore : core.scheduler.WellFormed)
    (hserves : Serves request down next) (h : Moved env core next core')
    (htakes : takesDown next = true) (hk : affects request k) :
    core'.scheduler.Newer core.scheduler.issued k := by
  cases h with
  | same up memory =>
      rw [htakes] at up
      cases up
  | removed id existing =>
      obtain ⟨rfl, -, -⟩ := hserves
      obtain rfl : id = k := hk
      apply Scheduler.newer_of_none
      · exact ((Later.refl hcore).remove id).issued
      · exact (Scheduler.remove_generations _ _ _).trans (if_pos rfl)
  | paused calls document current =>
      exact Scheduler.newer_of_none core.scheduler.issued_clearAll (hcore.clearAll_generations k)
  | rescheduled | restored | activated => cases htakes

/-! ## The callbacks -/

/-- A callback in its wait goes on waiting for the same run, or it ends. -/
theorem advance_pending {env : Scheduling.Env} {input : Input} {index : ℕ} {core core' : Core}
    {c : Callback} {phase : Phase} {events : List Event} {p : Prepared}
    (h : c.advance env input index core = some (core', phase, events))
    (hp : c.phase.pending = some p) : phase.pending = some p ∨ phase = .finished := by
  cases hphase : c.phase with
  | jitter q =>
      rw [hphase] at hp
      obtain rfl : q = p := Option.some.inj hp
      simp only [Callback.advance, hphase] at h
      obtain ⟨-, rfl, -⟩ := by simpa using h
      split
      · exact .inl rfl
      · exact .inr rfl
  | waited q =>
      simp only [Callback.advance, hphase] at h
      split at h
      · obtain ⟨-, rfl, -⟩ := by simpa using h
        exact .inr rfl
      · obtain ⟨-, rfl, -⟩ := by simpa using h
        exact .inr rfl
  | started | checked | prepared | finished =>
      rw [hphase] at hp
      cases hp

/-- What a step of the scheduler makes of a callback. -/
theorem callback_step {env : Scheduling.Env} {s t : Scheduling.State} {action : Scheduling.Action}
    (h : Scheduling.step env s action = some t) {index : ℕ} {c : Callback}
    (hc : s.callbacks[index]? = some c) : ∃ phase,
      t.callbacks[index]? = some { c with phase := phase } ∧
        (∀ p, c.phase.pending = some p → phase.pending = some p ∨ phase = .finished) ∧
        (c.phase = .finished → phase = .finished) := by
  cases action with
  | advance i input =>
      simp only [Scheduling.step] at h
      split at h
      · cases h
      · rename_i c' hc'
        split at h
        · cases h
        · rename_i core phase events hadvance
          obtain rfl := Option.some.inj h
          by_cases hi : i = index
          · subst hi
            obtain rfl : c = c' := Option.some.inj (hc.symm.trans hc')
            refine ⟨phase, ?_, fun p hp ↦ advance_pending hadvance hp, fun hfinished ↦ ?_⟩
            · exact List.getElem?_set_self (List.getElem?_eq_some_iff.mp hc).1
            · rw [Callback.advance, hfinished] at hadvance
              cases hadvance
          · refine ⟨c.phase, ?_, fun p hp ↦ .inl hp, id⟩
            rw [List.getElem?_set_ne hi]
            exact hc
  | fire entryID =>
      cases step_spec h with
      | fired registered =>
          refine ⟨c.phase, ?_, fun p hp ↦ .inl hp, id⟩
          exact (List.getElem?_append_left (List.getElem?_eq_some_iff.mp hc).1).trans hc
      | operated operated => cases operated
  | statement =>
      have hsame : t.callbacks = s.callbacks := by cases step_spec h <;> rfl
      exact ⟨c.phase, hsame ▸ hc, fun p hp ↦ .inl hp, id⟩
  | reschedule | remove | reconcile =>
      obtain rfl := Option.some.inj h
      exact ⟨c.phase, hc, fun p hp ↦ .inl hp, id⟩

/-- Without an operation of the scheduler the generations stay. -/
theorem concurrent_generations {env : Scheduling.Env} {s t : Scheduling.State}
    {action : Scheduling.Action} (hconcurrent : concurrent action = true)
    (h : Scheduling.step env s action = some t) :
    t.core.scheduler.generations = s.core.scheduler.generations := by
  cases step_spec h with
  | refused => rfl
  | executed => rfl
  | operated operated => cases operated <;> cases hconcurrent
  | fired => rfl
  | advanced at_ advanced => exact advanced.generations

/-! ## Runs of a request -/

/-- What holds from the arrival of a request on. -/
structure Served (request : Request) (arrival : Scheduling.State) (s : State) : Prop where
  stamped : s.scheduling.Stamped
  serves : Serves request s.down s.next
  kept : ∀ k, s.down = false ∨ ¬ affects request k →
    s.scheduling.core.scheduler.generations.lookup k =
      arrival.core.scheduler.generations.lookup k
  newer : s.down = true → ∀ k, affects request k →
    s.scheduling.core.scheduler.Newer arrival.core.scheduler.issued k
  issued : arrival.core.scheduler.issued ≤ s.scheduling.core.scheduler.issued
  callbacks : ∀ (index : ℕ) (c : Callback) p, arrival.callbacks[index]? = some c → c.phase.pending = some p →
    ∃ phase, s.scheduling.callbacks[index]? = some { c with phase := phase } ∧
      (phase.pending = some p ∨ phase = .finished)

theorem served_arrival {request : Request} {arrival : Scheduling.State} {first : Section}
    (harrival : arrival.Stamped) (hfirst : Section.first request = some first) :
    Served request arrival ⟨arrival, first, false⟩ where
  stamped := harrival
  serves := serves_first hfirst
  kept _ _ := rfl
  newer hdown := nomatch hdown
  issued := le_refl _
  callbacks _ c _ hc hp := ⟨c.phase, hc, .inl hp⟩

variable {env : Scheduling.Env} {calls : Calls} {request : Request}
  {arrival : Scheduling.State} {s t : State}

theorem served_step {action : Action} (hs : Served request arrival s)
    (h : step env calls s action = some t) : Served request arrival t := by
  cases action with
  | handler =>
      simp only [Refusal.step] at h
      split at h
      · cases h
      · rename_i core next hadvance
        obtain rfl := Option.some.inj h
        obtain ⟨hmoved, hserves⟩ := advance_spec hs.serves hadvance
        have hlater := hmoved.later hs.stamped.wellFormed
        refine ⟨⟨hlater.wellFormed, fun c hc ↦ ?_⟩, hserves, fun k hk ↦ ?_, fun hdown k hk ↦ ?_,
          hs.issued.trans hlater.issued, hs.callbacks⟩
        · obtain ⟨hpos, hle, hgen⟩ := hs.stamped.callbacks c hc
          exact ⟨hpos, hle.trans hlater.issued, hgen⟩
        · rw [hmoved.generations hs.stamped.wellFormed hs.serves hk]
          apply hs.kept
          rcases hk with hk | hk
          · exact .inl (Bool.or_eq_false_iff.mp hk).1
          · exact .inr hk
        · by_cases hbefore : s.down = true
          · exact hlater.newer _ _ (hs.newer hbefore k hk)
          · -- this section takes the registrations away
            have htakes : takesDown s.next = true := by simpa [hbefore] using hdown
            have hnew := hmoved.newer hs.stamped.wellFormed hs.serves htakes hk
            exact ⟨hs.issued.trans hlater.issued, fun g hg ↦ by
              obtain ⟨i, hlt, hle, hi⟩ := hnew.2 g hg
              exact ⟨i, hs.issued.trans_lt hlt, hle, hi⟩⟩
  | other action =>
      simp only [Refusal.step] at h
      split at h
      · rename_i hconcurrent
        split at h
        · cases h
        · rename_i scheduling hstep
          obtain rfl := Option.some.inj h
          obtain ⟨hstamped, hissued⟩ := hs.stamped.step hstep
          have hsame := concurrent_generations hconcurrent hstep
          refine ⟨hstamped, hs.serves, fun k hk ↦ ?_, fun hdown k hk ↦ ?_,
            hs.issued.trans hissued, fun index c p hc hp ↦ ?_⟩
          · rw [hsame]
            exact hs.kept k hk
          · refine (hs.newer hdown k hk).later hissued fun g hg ↦ ?_
            rwa [hsame] at hg
          · obtain ⟨phase, hcallback, hphase⟩ := hs.callbacks index c p hc hp
            obtain ⟨phase', hcallback', hwaits, hended⟩ := callback_step hstep hcallback
            refine ⟨phase', hcallback', ?_⟩
            rcases hphase with hphase | hphase
            · exact hwaits p hphase
            · exact .inr (hended hphase)
      · cases h

/-- A callback that waits after a step has waited before it. -/
theorem Served.waits_before {action : Action} (hs : Served request arrival s)
    (h : step env calls s action = some t) {index : ℕ} {c : Callback} {p : Prepared}
    (hwaits : Waits arrival t.scheduling index c p) : Waits arrival s.scheduling index c p := by
  obtain ⟨hc, hp, phase, hphase, hcallback⟩ := hwaits
  cases action with
  | handler =>
      simp only [Refusal.step] at h
      split at h
      · cases h
      · obtain rfl := Option.some.inj h
        exact ⟨hc, hp, phase, hphase, hcallback⟩
  | other action =>
      simp only [Refusal.step] at h
      split at h
      · split at h
        · cases h
        · rename_i scheduling hstep
          obtain rfl := Option.some.inj h
          obtain ⟨before, hbefore, hpending | hfinished⟩ := hs.callbacks index c p hc hp
          · exact ⟨hc, hp, before, hpending, hbefore⟩
          · -- a callback that has ended does not wait again
            obtain ⟨after, hafter, -, hended⟩ := callback_step hstep hbefore
            have hsame := Option.some.inj (hafter.symm.trans hcallback)
            have hphases : after = phase := congrArg Callback.phase hsame
            rw [← hphases, hended hfinished] at hphase
            cases hphase
      · cases h

/-- Where the generation of a task has stayed, its callbacks are as current as before. -/
theorem current_of_kept {now : Scheduling.State} {c : Callback}
    (hkept : now.core.scheduler.generations.lookup c.taskID =
      arrival.core.scheduler.generations.lookup c.taskID) : current now c = current arrival c := by
  rw [current, current, Scheduler.isCurrentGenerationLocked, Scheduler.isCurrentGenerationLocked,
    hkept]

/-- A callback of an affected task is outdated once the registrations are taken
away, within one period of the counter. -/
theorem Served.not_current (harrival : arrival.Stamped) (hs : Served request arrival s)
    (hdown : s.down = true) {index : ℕ} {c : Callback} (hc : arrival.callbacks[index]? = some c)
    (hk : affects request c.taskID)
    (hnear : s.scheduling.core.scheduler.issued < c.issued + generationPeriod) :
    current s.scheduling c = false := by
  obtain ⟨hpos, hle, hgen⟩ := harrival.callbacks c (List.mem_of_getElem? hc)
  rw [current, Bool.eq_false_iff, Ne, Scheduler.isCurrentGenerationLocked_iff]
  intro hcurrent
  obtain ⟨i, hlt, hi, hplace⟩ := (hs.newer hdown _ hk).2 _ hcurrent
  exact hgen.ne hplace hpos (by omega) (by omega) rfl

theorem wait_ends {index : ℕ} {input : Input} {c : Callback} {p : Prepared}
    (hc : s.scheduling.callbacks[index]? = some { c with phase := .waited p })
    (h : step env calls s (.other (.advance index input)) = some t) :
    t.scheduling.log = s.scheduling.log ++
      if current s.scheduling c then [.queued index c.taskID p.scheduled] else [] := by
  simp only [Refusal.step, concurrent, Scheduling.step, hc, Callback.advance, if_true] at h
  by_cases hcurrent : current s.scheduling c = true
  · rw [current] at hcurrent
    simp only [hcurrent, if_true] at h
    obtain rfl := Option.some.inj h
    rw [current, if_pos hcurrent]
  · rw [current] at hcurrent
    simp only [hcurrent] at h
    obtain rfl := Option.some.inj h
    rw [current, if_neg hcurrent]

/-! ## Lost and kept runs -/

/-- Where a section takes registrations away, no callback of the affected tasks
waits with a current generation; where the wait of such a callback ends later,
fewer generations than 64 bits can tell apart have been drawn since its
registration. -/
def Undisturbed (request : Request) (arrival : Scheduling.State) (s : State) : Action → Prop
  | .handler => takesDown s.next = true → ∀ index c p, Waits arrival s.scheduling index c p →
      affects request c.taskID → current s.scheduling c = false
  | .other (.advance index _) => s.down = true → ∀ c, s.scheduling.callbacks[index]? = some c →
      affects request c.taskID →
      s.scheduling.core.scheduler.issued < c.issued + generationPeriod
  | .other _ => True

/-- Waiting callbacks of the tasks without registrations were outdated before. -/
def Outdated (request : Request) (arrival : Scheduling.State) (s : State) : Prop :=
  s.down = true → ∀ index c p, Waits arrival s.scheduling index c p →
    affects request c.taskID → current arrival c = false

/-- The registrations are away from the section on that takes them. -/
theorem step_down {action : Action} (h : step env calls s action = some t) :
    t.down = true ↔ s.down = true ∨ (action = .handler ∧ takesDown s.next = true) := by
  cases action with
  | handler =>
      simp only [Refusal.step] at h
      split at h
      · cases h
      · obtain rfl := Option.some.inj h
        simp
  | other action =>
      simp only [Refusal.step] at h
      split at h
      · split at h
        · cases h
        · obtain rfl := Option.some.inj h
          simp
      · cases h

theorem outdated_step {action : Action} (hs : Served request arrival s)
    (hold : Outdated request arrival s) (hallowed : Undisturbed request arrival s action)
    (h : step env calls s action = some t) : Outdated request arrival t := by
  intro hdown index c p hwaits hk
  have hbefore := hs.waits_before h hwaits
  by_cases hup : s.down = true
  · exact hold hup index c p hbefore hk
  · obtain ⟨rfl, htakes⟩ := ((step_down h).mp hdown).resolve_left hup
    have hoff := hallowed htakes index c p hbefore hk
    rwa [current_of_kept (hs.kept c.taskID (.inl (by simpa using hup)))] at hoff

/-- In a run that is not disturbed every wait ends as if the request had not been
made. -/
theorem endsAsBefore_of_undisturbed {action : Action} (harrival : arrival.Stamped)
    (hs : Served request arrival s) (hold : Outdated request arrival s)
    (hallowed : Undisturbed request arrival s action) :
    EndsAsBefore env calls arrival s action := by
  rintro t index input c p rfl h hwaits hc
  have hcurrent : current s.scheduling c = current arrival c := by
    by_cases hdown : s.down = true
    · by_cases hk : affects request c.taskID
      · have hnear := hallowed hdown _ hc hk
        rw [hold hdown index c p hwaits hk]
        exact hs.not_current harrival hdown hwaits.1 hk hnear
      · exact current_of_kept (hs.kept c.taskID (.inr hk))
    · exact current_of_kept (hs.kept c.taskID (.inl (by simpa using hdown)))
  rw [← hcurrent]
  exact wait_ends hc h

/-- As long as the handler does not run, every wait ends as it would have done when
the request arrived. -/
theorem endsAsBefore_of_others {first : Section} {actions : List Action}
    (harrival : arrival.Stamped) (hfirst : Section.first request = some first)
    (hothers : ∀ action ∈ actions, action ≠ .handler) :
    Guarded (step env calls) (EndsAsBefore env calls arrival) ⟨arrival, first, false⟩ actions := by
  refine Guarded.imp (step env calls)
    (P := fun s ↦ Served request arrival s ∧ s.down = false) (G := fun _ a ↦ a ≠ .handler)
    ?_ ?_ ⟨served_arrival harrival hfirst, rfl⟩ (guarded_of_forall _ (fun _ ↦ hothers) _)
  · rintro s action t ⟨hs, hup⟩ hother h
    refine ⟨served_step hs h, ?_⟩
    rw [Bool.eq_false_iff, Ne, step_down h]
    rintro (hdown | ⟨rfl, -⟩)
    · rw [hup] at hdown
      cases hdown
    · exact hother rfl
  · rintro s action ⟨hs, hup⟩ - t index input c p rfl h - hc
    rw [← current_of_kept (hs.kept c.taskID (.inl hup))]
    exact wait_ends hc h

theorem served_run {first : Section} {actions : List Action} (harrival : arrival.Stamped)
    (hfirst : Section.first request = some first)
    (h : run (step env calls) ⟨arrival, first, false⟩ actions = some s) :
    Served request arrival s :=
  run_invariant (step env calls) (fun _ _ _ hs h ↦ served_step hs h)
    (served_arrival harrival hfirst) h

/-- A deletion or an import loses the runs of exactly those callbacks that wait
with a current generation when it takes the registrations of their tasks away: in
a run without such a callback every wait ends as if the request had not been
made, and such a callback does not queue its run any more. -/
theorem refused_requests_lose_runs_iff (env : Scheduling.Env) (calls : Calls) {request : Request}
    {first : Section} (hfirst : Section.first request = some first)
    {arrival : Scheduling.State}
    (harrival : Reachable (Scheduling.step env) Initial arrival) :
    (∀ actions, Guarded (step env calls) (Undisturbed request arrival)
        ⟨arrival, first, false⟩ actions →
      Guarded (step env calls) (EndsAsBefore env calls arrival)
        ⟨arrival, first, false⟩ actions) ∧
    (∀ before s t after u v index input c p,
      run (step env calls) ⟨arrival, first, false⟩ before = some s →
      takesDown s.next = true → Waits arrival s.scheduling index c p →
      affects request c.taskID → current s.scheduling c = true →
      step env calls s .handler = some t → run (step env calls) t after = some u →
      u.scheduling.callbacks[index]? = some { c with phase := .waited p } →
      u.scheduling.core.scheduler.issued < c.issued + generationPeriod →
      step env calls u (.other (.advance index input)) = some v →
      current arrival c = true ∧ v.scheduling.log = u.scheduling.log) := by
  have hstamped := stamped_of_reachable harrival
  constructor
  · intro actions hundisturbed
    refine Guarded.imp (step env calls)
      (P := fun s ↦ Served request arrival s ∧ Outdated request arrival s)
      ?_ ?_ ⟨served_arrival hstamped hfirst, fun hdown ↦ nomatch hdown⟩ hundisturbed
    · rintro s action t ⟨hs, hold⟩ hallowed h
      exact ⟨served_step hs h, outdated_step hs hold hallowed h⟩
    · rintro s action ⟨hs, hold⟩ hallowed
      exact endsAsBefore_of_undisturbed hstamped hs hold hallowed
  · intro before s t after u v index input c p hbefore htakes hwaits hk hcurrent h hafter hc
      hnear hend
    have hs := served_run hstamped hfirst hbefore
    have hup := hs.serves.up_of_takesDown htakes
    have hdown : t.down = true := (step_down h).mpr (.inr ⟨rfl, htakes⟩)
    have hu : Served request arrival u ∧ u.down = true :=
      run_invariant (step env calls) (P := fun s ↦ Served request arrival s ∧ s.down = true)
        (fun _ _ _ hs h ↦ ⟨served_step hs.1 h, (step_down h).mpr (.inl hs.2)⟩)
        ⟨served_step hs h, hdown⟩ hafter
    have hlost := hu.1.not_current hstamped hu.2 hwaits.1 hk hnear
    refine ⟨?_, ?_⟩
    · rwa [current_of_kept (hs.kept c.taskID (.inl hup))] at hcurrent
    · rw [wait_ends hc hend, hlost]
      exact List.append_nil _

/-! ## A refused deletion -/

/-- The task is registered, its callback has persisted its run and waits, and a
manual run of the task is queued. -/
def busyRun : List Scheduling.Action :=
  waitingRun.take 5 ++ [.statement (.createResult
    (Execution.queuedResult "" scheduledTask .manual none 0) "run" 0)]

/-- The task is to be deleted. -/
def deletion (actions : List Action) : Option State :=
  run (step minutely (servedAt 0)) ⟨minutelyRun busyRun, .load "task", false⟩ actions

theorem busy_reachable : Reachable (Scheduling.step minutely) Initial (minutelyRun busyRun) :=
  ⟨oneTaskStart, busyRun, ⟨rfl, rfl, rfl⟩, rfl⟩

/-- The callback ends its wait before the registration of its task is removed. -/
def endedRun : List Action :=
  [.handler, .other (.advance 0 (inputAt 60000000000)), .other (.advance 0 (inputAt 60000000000)),
    .handler, .handler, .handler, .handler]

theorem refused_requests_lose_runs_iff_ended :
    Guarded (step minutely (servedAt 0))
      (EndsAsBefore minutely (servedAt 0) (minutelyRun busyRun))
      ⟨minutelyRun busyRun, .load "task", false⟩ endedRun := by
  have hfirst : Section.first (.delete "task") = some (.load "task") := rfl
  refine (refused_requests_lose_runs_iff minutely (servedAt 0) hfirst busy_reachable).1 endedRun ?_
  refine ⟨fun htakes ↦ ?_, fun s hs ↦ ?_⟩
  · cases htakes
  obtain rfl := Option.some.inj hs
  refine ⟨fun hdown ↦ ?_, fun s hs ↦ ?_⟩
  · cases hdown
  obtain rfl := Option.some.inj hs
  refine ⟨fun hdown ↦ ?_, fun s hs ↦ ?_⟩
  · cases hdown
  obtain rfl := Option.some.inj hs
  refine ⟨fun htakes index c p hwaits hk ↦ ?_, fun s hs ↦ ?_⟩
  · -- the only callback has ended
    obtain ⟨hc, -, phase, hphase, hnow⟩ := hwaits
    cases index with
    | zero =>
        have hended := congrArg Callback.phase (Option.some.inj hnow)
        rw [← show Phase.finished = phase from hended] at hphase
        cases hphase
    | succ index => cases hc
  obtain rfl := Option.some.inj hs
  refine ⟨fun htakes ↦ ?_, fun s hs ↦ ?_⟩
  · cases htakes
  obtain rfl := Option.some.inj hs
  refine ⟨fun htakes ↦ ?_, fun s hs ↦ ?_⟩
  · cases htakes
  obtain rfl := Option.some.inj hs
  refine ⟨fun htakes ↦ ?_, fun s hs ↦ trivial⟩
  cases htakes

/-- The deletion is refused, and then the callback ends its wait. -/
def lostRun : List Action :=
  [.handler, .handler, .handler, .handler, .handler,
    .other (.advance 0 (inputAt 60000000000)), .other (.advance 0 (inputAt 60000000000))]

theorem refused_requests_lose_runs :
    ¬ ∀ (env : Scheduling.Env) (calls : Calls) (request : Request) (first : Section)
        (arrival : Scheduling.State) (actions : List Action) (t : State),
      Section.first request = some first → Reachable (Scheduling.step env) Initial arrival →
      run (step env calls) ⟨arrival, first, false⟩ actions = some t → refused t.next = true →
      Guarded (step env calls) (EndsAsBefore env calls arrival) ⟨arrival, first, false⟩
        actions := by
  intro hclaim
  obtain ⟨t, ht⟩ : ∃ t, deletion lostRun = some t := ⟨_, rfl⟩
  have hrefused : refused t.next = true := by
    obtain rfl := Option.some.inj ht
    rfl
  have hkeeps := hclaim minutely (servedAt 0) (.delete "task") (.load "task")
    (minutelyRun busyRun) lostRun t rfl busy_reachable ht hrefused
  obtain ⟨u, v, c, p, hu, hv, hc, hp, hwaited, hcurrent, hlog⟩ : ∃ u v c p,
      deletion (lostRun.take 6) = some u ∧
        step minutely (servedAt 0) u (.other (.advance 0 (inputAt 60000000000))) = some v ∧
        (minutelyRun busyRun).callbacks[0]? = some c ∧ c.phase.pending = some p ∧
        u.scheduling.callbacks[0]? = some { c with phase := .waited p } ∧
        current (minutelyRun busyRun) c = true ∧
        v.scheduling.log.length = u.scheduling.log.length :=
    ⟨_, _, _, _, rfl, rfl, rfl, rfl, rfl, rfl, rfl⟩
  have hends : EndsAsBefore minutely (servedAt 0) (minutelyRun busyRun) u
      (.other (.advance 0 (inputAt 60000000000))) :=
    Guarded.of_run (step minutely (servedAt 0)) hkeeps hu
  rw [hends v 0 (inputAt 60000000000) c p rfl hv ⟨hc, hp, .waited p, rfl, hwaited⟩ hwaited,
    hcurrent] at hlog
  simp at hlog

end MultiSpeed.Api.Refusal
