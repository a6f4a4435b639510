import MultiSpeed.Execution.Results

/-!
# Cancelled runs

The contexts of the runs beside the manager: `Cancel` and `Stop` end them at any moment
between two sections, and so does the deadline of a run.  Whatever a call makes of a
context that is done is left to its answer.  An interrupted run is recorded as cancelled
only if every call up to the provider's goes through all the same.
-/

namespace MultiSpeed.Execution

open Database Transition

deriving instance DecidableEq for ContextError

/-- The result of a run whose context has been made and not yet been left. -/
def Phase.registeredID? : Phase → Option String
  | .admitted job _ | .loaded job _ _ _ | .validating job _ _ _ | .available job _ _ _
  | .running job _ _ _ | .unloaded job true _ | .closing job true _ | .leaving job true =>
      some job.resultID
  | _ => none

/-- From the settings to the return of the provider. -/
def Phase.processing : Phase → Bool
  | .received _ | .acquiring _ _ _ | .admitted _ _ | .loaded _ _ _ _ | .validating _ _ _ _
  | .available _ _ _ _ | .running _ _ _ _ => true
  | .idle | .unloaded _ _ _ | .closing _ _ _ | .leaving _ _ => false

namespace Cancellation

structure RunContext where
  /-- `Err()` of the context the sections use: the manager's, and then the run's. -/
  error : Option ContextError
  /-- `Cancel` returned true for the run, or `Stop` was called, while it was processed. -/
  interrupted : Bool
  /-- What `provider.Run` returned. -/
  returned : Option (Option Text)

namespace RunContext

def fresh (stopped : Bool) : RunContext :=
  ⟨if stopped then some .canceled else none, false, none⟩

/-- A cancel function is called; a context that is done keeps its error. -/
def cancel (c : RunContext) (processed : Bool) : RunContext where
  error := c.error.or (some .canceled)
  interrupted := c.interrupted || processed
  returned := c.returned

/-- The provider returns. -/
def worked (c : RunContext) (input : WorkerInput) : Phase → RunContext
  | .running _ _ _ _ => { c with returned := some input.runError }
  | _ => c

end RunContext

/-- The deferred function that takes the result of a run out of the map. -/
def unregister (running : String → Option ℕ) : Phase → String → Option ℕ
  | .leaving job true => Function.update running job.resultID none
  | _ => running

/-- `stopped` tells that the manager's context is done, `running` is the map of the
cancel functions, by the worker whose run each one cancels. -/
structure System where
  manager : State
  stopped : Bool
  running : String → Option ℕ
  contexts : ℕ → RunContext

def System.start (manager : State) : System :=
  ⟨manager, false, fun _ ↦ none, fun _ ↦ .fresh false⟩

inductive Action where
  | manage (action : Execution.Action)
  /-- A worker makes the context of its run and puts its cancel function in the map. -/
  | register (worker : ℕ)
  | cancel (resultID : String)
  | stop
  /-- The deadline of a run. -/
  | expire (worker : ℕ)

namespace System

def processes (s : System) (worker : ℕ) : Bool :=
  (s.manager.workers[worker]?).any Phase.processing

def registered (s : System) (worker : ℕ) : Bool :=
  ((s.manager.workers[worker]?).bind Phase.registeredID?).any fun id ↦ s.running id = some worker

/-- What the answers of a section have to do with the contexts: `Acquire` gives up only
under a context that is done, and `execute` reads the error of the run's context. -/
def consistent (s : System) : Execution.Action → Bool
  | .work worker input =>
      match s.manager.workers[worker]? with
      | some (.acquiring _ _ _) => !input.cancelled || s.stopped
      | some (.admitted job _) => s.running job.resultID = some worker
      | some (.running _ _ _ _) => input.contextError = (s.contexts worker).error
      | _ => true
  | _ => true

def after (s : System) (manager : State) : Execution.Action → System
  | .receive worker =>
      { s with
        manager := manager
        contexts := Function.update s.contexts worker (.fresh s.stopped) }
  | .work worker input =>
      match s.manager.workers[worker]? with
      | some phase =>
          { s with
            manager := manager
            running := unregister s.running phase
            contexts := Function.update s.contexts worker
              ((s.contexts worker).worked input phase) }
      | none => { s with manager := manager }
  | .restart _ => .start manager
  | _ => { s with manager := manager }

end System

/-- `Cancel` returns true where the map has the result. -/
def step (env : Env) (s : System) : Action → Option System
  | .manage action =>
      if s.consistent action then
        (Execution.step env s.manager action).map fun manager ↦ s.after manager action
      else none
  | .register worker =>
      match s.manager.workers[worker]? with
      | some (.admitted job _) =>
          some { s with running := Function.update s.running job.resultID (some worker) }
      | _ => none
  | .cancel resultID =>
      match s.running resultID with
      | some worker =>
          some { s with
            contexts := Function.update s.contexts worker
              ((s.contexts worker).cancel (s.processes worker)) }
      | none => some s
  | .stop =>
      some { s with
        stopped := true
        contexts := fun worker ↦ (s.contexts worker).cancel (s.processes worker) }
  | .expire worker =>
      if s.registered worker ∧ (s.contexts worker).error = none then
        some { s with
          contexts := Function.update s.contexts worker
            { s.contexts worker with error := some .deadlineExceeded } }
      else none

/-- Where the store takes the last write of an interrupted run, its result is cancelled,
or succeeded after the provider had returned no error. -/
def Recorded (s : System) : Prop :=
  ∀ worker job acquired (write : TerminalWrite job) store,
    s.manager.workers[worker]? = some (.closing job acquired write) →
      (s.contexts worker).interrupted = true →
        s.manager.store.updateResult write.result = .ok store →
          ∃ row, store.result? job.resultID = some row ∧
            (row.status = .cancelled ∨
              row.status = .succeeded ∧ (s.contexts worker).returned = some none)

/-! ## What an interrupted run must not run into -/

/-- The calls of the section are answered so that the run goes on to the provider, and a
provider that returns no error returns valid metrics. -/
def passes (env : Env) (input : WorkerInput) (store : Store) : Phase → Bool
  | .received _ => input.served
  | .acquiring _ _ parked => !(parked && input.cancelled)
  | .admitted job _ => (serve input.served (loadResult store job.resultID)).isOk
  | .loaded _ _ _ result => (serve input.served (store.updateResult result.result)).isOk
  | .validating job _ _ _ =>
      (routeProfileForTask env.net job.task job.routeProfile).isOk && input.validation.success &&
        (registryGet env job.task.provider).isOk && input.available
  | .available _ _ _ result => (serve input.served (store.updateResult result.result)).isOk
  | .running _ _ _ _ =>
      input.runError.isSome || (validateProviderResult input.choice input.value).isNone
  | .idle | .unloaded _ _ _ | .closing _ _ _ | .leaving _ _ => true

/-- The deadline has not ended the run before it is interrupted, and afterwards every
section passes. -/
def Undisturbed (env : Env) (s : System) : Action → Prop
  | .manage (.work worker input) => (s.contexts worker).interrupted = true →
      ∀ phase, s.manager.workers[worker]? = some phase →
        passes env input s.manager.store phase = true
  | .cancel resultID => ∀ worker, s.running resultID = some worker →
      s.processes worker = true → (s.contexts worker).error ≠ some .deadlineExceeded
  | .stop => ∀ worker, s.processes worker = true →
      (s.contexts worker).error ≠ some .deadlineExceeded
  | _ => True

/-- An interrupted run has a cancelled context until the provider returns, and then the
right end. -/
def Marks (c : RunContext) : Phase → Prop
  | .received _ | .acquiring _ _ _ | .admitted _ _ | .loaded _ _ _ _ | .validating _ _ _ _
  | .available _ _ _ _ | .running _ _ _ _ => c.error = some .canceled
  | .unloaded _ _ _ => False
  | .closing _ _ write => write.result.status = .cancelled ∨
      write.result.status = .succeeded ∧ c.returned = some none
  | .idle | .leaving _ _ => True

/-- The run is going to be recorded as failed or skipped. -/
def Fails : Phase → Prop
  | .unloaded _ _ _ => True
  | .closing _ _ write => write.result.status = .failed ∨ write.result.status = .skipped
  | _ => False

theorem marks_of_processing {c : RunContext} {phase : Phase} (hphase : phase.processing = true)
    (h : c.error = some .canceled) : Marks c phase := by
  cases phase with
  | idle | unloaded | closing | leaving => cases hphase
  | _ => exact h

theorem Marks.error {c : RunContext} {phase : Phase} (h : Marks c phase)
    (hphase : phase.processing = true) : c.error = some .canceled := by
  cases phase with
  | idle | unloaded | closing | leaving => cases hphase
  | _ => exact h

/-- Only the contexts of runs in progress matter. -/
theorem Marks.congr {c c' : RunContext} {phase : Phase} (h : Marks c phase)
    (herror : phase.processing = true → c'.error = some .canceled)
    (hreturned : c'.returned = c.returned) : Marks c' phase := by
  cases phase with
  | closing => exact h.imp_right fun hend ↦ ⟨hend.1, hreturned.trans hend.2⟩
  | unloaded => exact h
  | idle | leaving => trivial
  | _ => exact herror rfl

variable {env : Env} {input : WorkerInput} {store store' : Store} {limiter limiter' : RunLimiter}

theorem validate_passes {job : Job} {timeout : ℤ} {started : Time}
    {result : RunResult job .validating}
    (h : passes env input store (.validating job timeout started result) = true) :
    ∃ running, validate env input job timeout started result =
      .available job timeout started running := by
  simp only [passes, Bool.and_eq_true] at h
  obtain ⟨⟨⟨hroute, hvalid⟩, hregistered⟩, havailable⟩ := h
  unfold validate
  split
  · rename_i message hmessage
    rw [hmessage] at hroute
    cases hroute
  · simp only [hvalid, Bool.not_true, Bool.false_eq_true, if_false]
    split
    · rename_i message hmessage
      rw [hmessage] at hregistered
      cases hregistered
    · simp only [havailable, Bool.not_true, Bool.false_eq_true, if_false]
      exact ⟨_, rfl⟩

theorem validate_fails {job : Job} {timeout : ℤ} {started : Time}
    {result : RunResult job .validating}
    (h : passes env input store (.validating job timeout started result) = false) :
    Fails (validate env input job timeout started result) := by
  unfold validate
  split
  · exact Or.inl rfl
  · rename_i profile hprofile
    dsimp only
    split
    · exact Or.inl rfl
    · rename_i hvalid
      split
      · exact Or.inl rfl
      · rename_i hregistered
        split
        · exact Or.inr rfl
        · rename_i havailable
          simp only [Bool.not_eq_true', Bool.not_eq_false] at hvalid havailable
          rw [passes, hprofile, hvalid, hregistered, havailable] at h
          cases h

/-- What becomes of a provider's answer under a cancelled context. -/
theorem conclude_marks {c : RunContext} {job : Job} {timeout : ℤ} {started : Time}
    {result : RunResult job .running} (hcontext : input.contextError = some .canceled)
    (h : passes env input store (.running job timeout started result) = true) :
    Marks (c.worked input (.running job timeout started result))
      (.closing job true (conclude input timeout started result)) := by
  unfold conclude
  split
  · rename_i hnone
    split
    · rename_i message hmessage
      simp [passes, hnone, hmessage] at h
    · exact Or.inr ⟨rfl, congrArg some hnone⟩
  · rename_i message hmessage
    have hstatus : failureStatus input.contextError = .cancelled := by rw [hcontext]; rfl
    exact Or.inl hstatus

theorem conclude_fails {job : Job} {timeout : ℤ} {started : Time}
    {result : RunResult job .running}
    (h : passes env input store (.running job timeout started result) = false) :
    Fails (.closing job true (conclude input timeout started result)) := by
  simp only [passes, Bool.or_eq_false_iff, Option.isSome_eq_false_iff, Option.isNone_iff_eq_none,
    Option.isNone_eq_false_iff] at h
  obtain ⟨message, hmessage⟩ := Option.isSome_iff_exists.mp h.2
  unfold conclude
  rw [h.1, hmessage]
  exact Or.inl rfl

/-- A section that passes leaves an interrupted run interrupted, or ends it well. -/
theorem advance_marks {c : RunContext} {phase phase' : Phase} (hmarks : Marks c phase)
    (hcontext : ∀ job timeout started result, phase = .running job timeout started result →
      input.contextError = c.error)
    (hpasses : passes env input store phase = true)
    (h : phase.advance env input store limiter = some (store', limiter', phase')) :
    Marks (c.worked input phase) phase' := by
  cases phase with
  | idle => cases h
  | unloaded job acquired message => exact hmarks.elim
  | closing job acquired write =>
      rw [Phase.advance] at h
      split at h
      · cases h
        trivial
      · cases h
        trivial
  | leaving job acquired =>
      cases h
      trivial
  | received job =>
      have hserved : input.served = true := hpasses
      rw [Phase.advance, hserved] at h
      cases h
      exact hmarks
  | acquiring job settings parked =>
      have hwaits : (parked && input.cancelled) = false := by
        rw [passes, Bool.not_eq_true'] at hpasses
        exact hpasses
      rw [Phase.advance, hwaits] at h
      simp only [Bool.false_eq_true, if_false] at h
      split at h
      · cases h
        exact hmarks
      · split at h
        · cases h
        · cases h
          exact hmarks
  | admitted job settings =>
      rw [Phase.advance] at h
      split at h
      · rename_i e hrefused
        rw [passes, hrefused] at hpasses
        cases hpasses
      · cases h
        exact hmarks
  | loaded job timeout started result | available job timeout started result =>
      rw [Phase.advance] at h
      split at h
      · rename_i e hrefused
        rw [passes, hrefused] at hpasses
        cases hpasses
      · cases h
        exact hmarks
  | validating job timeout started result =>
      obtain ⟨running, hrunning⟩ := validate_passes hpasses
      rw [Phase.advance, hrunning] at h
      cases h
      exact hmarks
  | running job timeout started result =>
      cases h
      exact conclude_marks ((hcontext job timeout started result rfl).trans hmarks) hpasses

/-- A section that does not pass makes the run fail. -/
theorem advance_fails {phase phase' : Phase} (hpasses : passes env input store phase = false)
    (h : phase.advance env input store limiter = some (store', limiter', phase')) :
    Fails phase' := by
  cases phase with
  | idle | unloaded | closing | leaving => cases hpasses
  | received job =>
      have hserved : input.served = false := hpasses
      rw [Phase.advance, hserved] at h
      cases h
      trivial
  | acquiring job settings parked =>
      have hgives : (parked && input.cancelled) = true := by
        rw [passes, Bool.not_eq_false'] at hpasses
        exact hpasses
      rw [Phase.advance, hgives] at h
      cases h
      trivial
  | admitted job settings =>
      rw [Phase.advance] at h
      split at h
      · cases h
        trivial
      · rename_i row hloaded
        rw [passes, hloaded] at hpasses
        cases hpasses
  | loaded job timeout started result | available job timeout started result =>
      rw [Phase.advance] at h
      split at h
      · cases h
        exact Or.inl rfl
      · rename_i written hwritten
        rw [passes, hwritten] at hpasses
        cases hpasses
  | validating job timeout started result =>
      cases h
      exact validate_fails hpasses
  | running job timeout started result =>
      cases h
      exact conclude_fails hpasses

/-! ## Every run -/

/-- Every interrupted run is marked. -/
def Marked (s : System) : Prop := ∀ worker phase, s.manager.workers[worker]? = some phase →
  (s.contexts worker).interrupted = true → Marks (s.contexts worker) phase

/-- Cancelling a run in progress whose deadline has not passed. -/
theorem marks_cancel {c : RunContext} {phase : Phase}
    (hmarks : c.interrupted = true → Marks c phase)
    (hdeadline : phase.processing = true → c.error ≠ some .deadlineExceeded)
    (hinterrupted : (c.cancel phase.processing).interrupted = true) :
    Marks (c.cancel phase.processing) phase := by
  cases hphase : phase.processing with
  | true =>
      apply marks_of_processing hphase
      have hlive := hdeadline hphase
      change c.error.or (some .canceled) = some .canceled
      rcases hc : c.error with _ | _ | _
      · rfl
      · rfl
      · exact absurd hc hlive
  | false =>
      have hbefore : c.interrupted = true := by
        simpa [RunContext.cancel, hphase] using hinterrupted
      apply (hmarks hbefore).congr
      · intro hprocessing
        rw [hphase] at hprocessing
        cases hprocessing
      · rfl

/-- A step that touches one worker. -/
theorem Marked.change {s t : System} {c : RunContext} (hs : Marked s) (worker : ℕ)
    (hother : ∀ other, other ≠ worker →
      t.manager.workers[other]? = s.manager.workers[other]? ∧ t.contexts other = s.contexts other)
    (hcontext : t.contexts worker = c)
    (hself : ∀ phase, t.manager.workers[worker]? = some phase → c.interrupted = true →
      Marks c phase) : Marked t := by
  intro other phase hphase hinterrupted
  by_cases hsame : other = worker
  · subst hsame
    rw [hcontext] at hinterrupted ⊢
    exact hself phase hphase hinterrupted
  · obtain ⟨hworkers, hcontexts⟩ := hother other hsame
    rw [hworkers] at hphase
    rw [hcontexts] at hinterrupted ⊢
    exact hs other phase hphase hinterrupted

theorem interrupted_worked (c : RunContext) (phase : Phase) :
    (c.worked input phase).interrupted = c.interrupted := by
  cases phase <;> rfl

theorem Marked.work {s : System} {manager : State} {worker : ℕ} {input : WorkerInput}
    (hs : Marked s) (hundisturbed : Undisturbed env s (.manage (.work worker input)))
    (hconsistent : s.consistent (.work worker input) = true)
    (h : Execution.step env s.manager (.work worker input) = some manager) :
    Marked (s.after manager (.work worker input)) := by
  cases step_spec h with
  | refused statement => cases statement
  | @worked _ _ phase phase' store limiter at_ advanced =>
      simp only [System.after, at_]
      apply hs.change worker
      · intro other hne
        exact ⟨List.getElem?_set_ne hne.symm, Function.update_of_ne hne _ _⟩
      · exact Function.update_self _ _ _
      · intro next hnext hinterrupted
        have hset : (s.manager.workers.set worker phase')[worker]? = some phase' :=
          List.getElem?_set_self (List.getElem?_eq_some_iff.mp at_).1
        obtain rfl := Option.some.inj (hset.symm.trans hnext)
        rw [interrupted_worked] at hinterrupted
        apply advance_marks (hs worker phase at_ hinterrupted) ?_
          (hundisturbed hinterrupted phase at_) advanced
        rintro job timeout started result rfl
        simpa [System.consistent, at_] using hconsistent

theorem Marked.receive {s : System} {manager : State} {worker : ℕ} (hs : Marked s)
    (h : Execution.step env s.manager (.receive worker) = some manager) :
    Marked (s.after manager (.receive worker)) := by
  cases step_spec h with
  | refused statement => cases statement
  | @received _ job rest at_ head =>
      apply hs.change worker
      · intro other hne
        exact ⟨List.getElem?_set_ne hne.symm, Function.update_of_ne hne _ _⟩
      · exact Function.update_self _ _ _
      · exact fun _ _ hinterrupted ↦ by cases hinterrupted

/-- Nothing has been interrupted in a process that has just started. -/
theorem marked_start (store : Store) : Marked (.start (.start store)) :=
  fun _ _ _ hinterrupted ↦ by cases hinterrupted

theorem Marked.step {s t : System} {action : Action} (hs : Marked s)
    (hundisturbed : Undisturbed env s action) (h : step env s action = some t) : Marked t := by
  cases action with
  | manage action =>
      simp only [Cancellation.step] at h
      split at h
      case isFalse => cases h
      rename_i hconsistent
      obtain ⟨manager, hmanager, rfl⟩ := Option.map_eq_some_iff.mp h
      cases action with
      | work worker input => exact hs.work hundisturbed hconsistent hmanager
      | receive worker => exact hs.receive hmanager
      | restart now =>
          cases step_spec hmanager with
          | refused statement => cases statement
          | @restarted _ store recovered => exact marked_start store
      | queue | call | statement | schedule | configure =>
          cases step_spec hmanager <;> exact hs
  | register worker =>
      simp only [Cancellation.step] at h
      split at h
      · cases h
        exact hs
      · cases h
  | cancel resultID =>
      simp only [Cancellation.step] at h
      split at h
      · rename_i worker hrunning
        cases h
        apply hs.change worker
        · exact fun other hne ↦ ⟨rfl, Function.update_of_ne hne _ _⟩
        · exact Function.update_self _ _ _
        · intro phase hphase hinterrupted
          have hprocesses : s.processes worker = phase.processing := by
            rw [System.processes, hphase, Option.any_some]
          rw [hprocesses] at hinterrupted ⊢
          apply marks_cancel (hs worker phase hphase) ?_ hinterrupted
          exact fun hprocessing ↦ hundisturbed worker hrunning (hprocesses.trans hprocessing)
      · cases h
        exact hs
  | stop =>
      cases h
      intro worker phase hphase hinterrupted
      have hprocesses : s.processes worker = phase.processing := by
        rw [System.processes, hphase, Option.any_some]
      change Marks ((s.contexts worker).cancel (s.processes worker)) phase
      change ((s.contexts worker).cancel (s.processes worker)).interrupted = true at hinterrupted
      rw [hprocesses] at hinterrupted ⊢
      apply marks_cancel (hs worker phase hphase) ?_ hinterrupted
      exact fun hprocessing ↦ hundisturbed worker (hprocesses.trans hprocessing)
  | expire worker =>
      simp only [Cancellation.step] at h
      split at h
      · rename_i hexpire
        cases h
        apply hs.change worker
        · exact fun other hne ↦ ⟨rfl, Function.update_of_ne hne _ _⟩
        · exact Function.update_self _ _ _
        · intro phase hphase hinterrupted
          -- the context of an interrupted run is done, so its deadline does nothing
          apply (hs worker phase hphase hinterrupted).congr
          · intro hprocessing
            have hcanceled := (hs worker phase hphase hinterrupted).error hprocessing
            rw [hexpire.2] at hcanceled
            cases hcanceled
          · rfl
      · cases h

/-- A process just started. -/
def Initial (s : System) : Prop := ∃ store, s = .start (.start store)

/-- The map holds runs in progress. -/
def Registered (s : System) : Prop := ∀ id worker, s.running id = some worker →
  ∃ phase, s.manager.workers[worker]? = some phase ∧ phase.registeredID? = some id

theorem registered_of_validate {job : Job} {timeout : ℤ} {started : Time}
    {result : RunResult job .validating} :
    (validate env input job timeout started result).registeredID? = some job.resultID := by
  unfold validate
  split
  · rfl
  · dsimp only
    split
    · rfl
    · split
      · rfl
      · split <;> rfl

theorem registered_advance {phase phase' : Phase} {id : String}
    (hid : phase.registeredID? = some id)
    (h : phase.advance env input store limiter = some (store', limiter', phase')) :
    phase'.registeredID? = some id ∨ ∀ running, unregister running phase id = none := by
  cases phase with
  | idle | received | acquiring => cases hid
  | admitted job settings | loaded job timeout started result
  | available job timeout started result =>
      rw [Phase.advance] at h
      split at h
      · cases h
        exact Or.inl hid
      · cases h
        exact Or.inl hid
  | validating job timeout started result =>
      cases h
      exact Or.inl (registered_of_validate.trans hid)
  | running job timeout started result =>
      cases h
      exact Or.inl hid
  | unloaded job acquired message | closing job acquired write =>
      rw [Phase.advance] at h
      split at h
      · cases h
        cases acquired with
        | true => exact Or.inl hid
        | false => cases hid
      · cases h
        cases acquired with
        | true => exact Or.inl hid
        | false => cases hid
  | leaving job acquired =>
      cases acquired with
      | true =>
          obtain rfl := Option.some.inj hid
          exact Or.inr fun running ↦ by simp [unregister]
      | false => cases hid

theorem running_of_unregister {running : String → Option ℕ} {phase : Phase} {id : String}
    {worker : ℕ} (h : unregister running phase id = some worker) : running id = some worker := by
  unfold unregister at h
  split at h
  · rename_i job
    by_cases hid : id = job.resultID
    · subst hid
      simp at h
    · rwa [Function.update_of_ne hid] at h
  · exact h

theorem Registered.step {s t : System} {action : Action} (hs : Registered s)
    (h : step env s action = some t) : Registered t := by
  cases action with
  | manage action =>
      simp only [Cancellation.step] at h
      split at h
      case isFalse => cases h
      obtain ⟨manager, hmanager, rfl⟩ := Option.map_eq_some_iff.mp h
      cases action with
      | work worker input =>
          cases step_spec hmanager with
          | refused statement => cases statement
          | @worked _ _ phase phase' store limiter at_ advanced =>
              simp only [System.after, at_]
              intro id other hrunning
              obtain ⟨before, hbefore, hid⟩ := hs id other (running_of_unregister hrunning)
              by_cases hsame : other = worker
              · subst hsame
                obtain rfl := Option.some.inj (at_.symm.trans hbefore)
                rcases registered_advance hid advanced with hkept | hleft
                · have hlt := (List.getElem?_eq_some_iff.mp at_).1
                  exact ⟨phase', List.getElem?_set_self hlt, hkept⟩
                · cases (hleft s.running).symm.trans hrunning
              · exact ⟨before, (List.getElem?_set_ne (Ne.symm hsame)).trans hbefore, hid⟩
      | receive worker =>
          cases step_spec hmanager with
          | refused statement => cases statement
          | @received _ job rest at_ head =>
              intro id other hrunning
              obtain ⟨before, hbefore, hid⟩ := hs id other hrunning
              by_cases hsame : other = worker
              · subst hsame
                obtain rfl := Option.some.inj (at_.symm.trans hbefore)
                cases hid
              · exact ⟨before, (List.getElem?_set_ne (Ne.symm hsame)).trans hbefore, hid⟩
      | restart now => exact fun id other hrunning ↦ by cases hrunning
      | queue | call | statement | schedule | configure =>
          cases step_spec hmanager <;> exact hs
  | register worker =>
      simp only [Cancellation.step] at h
      split at h
      · rename_i job settings hphase
        cases h
        intro id other hrunning
        by_cases hid : id = job.resultID
        · subst hid
          obtain rfl : worker = other := by simpa using hrunning
          exact ⟨_, hphase, rfl⟩
        · exact hs id other ((Function.update_of_ne hid _ _).symm.trans hrunning)
      · cases h
  | cancel resultID =>
      simp only [Cancellation.step] at h
      split at h
      · cases h
        exact hs
      · cases h
        exact hs
  | stop =>
      cases h
      exact hs
  | expire worker =>
      simp only [Cancellation.step] at h
      split at h
      · cases h
        exact hs
      · cases h

/-- `Cancel` returns true for a result only while a worker executes its run. -/
theorem registered_of_running {s : System} (hs : Reachable (step env) Initial s) {id : String}
    {worker : ℕ} (hrunning : s.running id = some worker) :
    ∃ phase, s.manager.workers[worker]? = some phase ∧ phase.registeredID? = some id := by
  have hregistered : Registered s := by
    apply hs.invariant (P := Registered)
    · rintro _ ⟨store, rfl⟩
      exact fun id worker hrunning ↦ by cases hrunning
    · exact fun s action t hs h ↦ hs.step h
  exact hregistered id worker hrunning

/-- In a run in which every interruption comes before the deadline and every later section
passes, interrupted results are recorded as cancelled or as having succeeded. -/
theorem interrupted_recorded {s₀ s : System} {actions : List Action} (h₀ : Initial s₀)
    (hundisturbed : Guarded (step env) (Undisturbed env) s₀ actions)
    (hrun : Transition.run (step env) s₀ actions = some s) : Recorded s := by
  obtain ⟨store, rfl⟩ := h₀
  have hmarked : Marked s := guarded_run_invariant (step env)
    (fun _ _ _ hs hundisturbed h ↦ hs.step hundisturbed h) (marked_start store) hundisturbed hrun
  intro worker job acquired write store' hclosing hinterrupted haccepted
  obtain ⟨row, -, hrows, -⟩ := Store.updateResult_ok haccepted
  have hrow := hrows job.resultID
  rw [if_pos write.id] at hrow
  exact ⟨_, hrow, hmarked worker _ hclosing hinterrupted⟩

/-! ## Runs of one task -/

instance decidableUndisturbed (s : System) : (action : Action) → Decidable (Undisturbed env s action)
  | .manage (.work worker input) =>
      match h : s.manager.workers[worker]? with
      | some phase => decidable_of_iff ((s.contexts worker).interrupted = true →
            passes env input s.manager.store phase = true)
          ⟨fun hall hint _ heq ↦ by cases h.symm.trans heq; exact hall hint,
            fun hall hint ↦ hall hint phase h⟩
      | none => isTrue fun _ _ heq ↦ by cases h.symm.trans heq
  | .cancel resultID =>
      match h : s.running resultID with
      | some worker => decidable_of_iff (s.processes worker = true →
            (s.contexts worker).error ≠ some .deadlineExceeded)
          ⟨fun hall _ heq ↦ by cases h.symm.trans heq; exact hall, fun hall ↦ hall worker h⟩
      | none => isTrue fun _ heq ↦ by cases h.symm.trans heq
  | .stop => decidable_of_iff (∀ worker < s.manager.workers.length,
        s.processes worker = true → (s.contexts worker).error ≠ some .deadlineExceeded) <| by
      refine ⟨fun hall worker hprocesses ↦ ?_, fun hall worker _ ↦ hall worker⟩
      by_cases hlt : worker < s.manager.workers.length
      · exact hall worker hlt hprocesses
      · rw [System.processes, List.getElem?_eq_none (not_lt.mp hlt)] at hprocesses
        cases hprocesses
  | .manage (.queue _ _ _) | .manage (.call _ _) | .manage (.receive _) | .manage (.statement _)
  | .manage (.schedule _ _ _ _) | .manage (.configure _ _) | .manage (.restart _)
  | .register _ | .expire _ => isTrue trivial

/-- The status under which the store takes the last write of an interrupted run. -/
def recordedStatus (s : System) (worker : ℕ) : Option ResultStatus :=
  match s.manager.workers[worker]? with
  | some (.closing job _ write) =>
      if (s.contexts worker).interrupted then
        match s.manager.store.updateResult write.result with
        | .ok store => (store.result? job.resultID).map Result.status
        | .error _ => none
      else none
  | _ => none

theorem Recorded.status {s : System} (hs : Recorded s) {worker : ℕ} {status : ResultStatus}
    (h : recordedStatus s worker = some status) : status = .cancelled ∨ status = .succeeded := by
  unfold recordedStatus at h
  split at h
  · rename_i job acquired write hclosing
    split at h
    · rename_i hinterrupted
      split at h
      · rename_i store haccepted
        obtain ⟨row, hrow, hstatus⟩ :=
          hs worker job acquired write store hclosing hinterrupted haccepted
        rw [hrow] at h
        obtain rfl := Option.some.inj h
        exact hstatus.imp_right And.left
      · cases h
    · cases h
  · cases h

def oneTaskSystem (actions : List Action) : System :=
  (Transition.run (step offline) (.start (.start oneTask)) actions).getD (.start (.start oneTask))

theorem run_oneTaskSystem {actions : List Action}
    (h : (Transition.run (step offline) (.start (.start oneTask)) actions).isSome = true) :
    Transition.run (step offline) (.start (.start oneTask)) actions =
      some (oneTaskSystem actions) := by
  obtain ⟨s, hs⟩ := Option.isSome_iff_exists.mp h
  rw [oneTaskSystem, hs]
  rfl

/-- The worker takes the run and persists the validating state. -/
def validatingRun : List Action :=
  takenRun.map .manage ++ List.replicate 2 (.manage (.work 0 (workInput true))) ++
    .register 0 :: List.replicate 2 (.manage (.work 0 (workInput true)))

/-- The context is done while the provider runs. -/
def killedInput : WorkerInput :=
  { workInput true with
    runError := some (utf8 "context canceled")
    contextError := some .canceled }

/-- The run is cancelled while its provider runs. -/
def killedRun : List Action :=
  validatingRun ++ List.replicate 2 (.manage (.work 0 (workInput true))) ++
    [.cancel "run", .manage (.work 0 killedInput)]

theorem interrupted_recorded_killed :
    recordedStatus (oneTaskSystem killedRun) 0 = some .cancelled ∧
      Recorded (oneTaskSystem killedRun) :=
  ⟨by decide +kernel, interrupted_recorded ⟨oneTask, rfl⟩ (by decide +kernel)
    (run_oneTaskSystem (by decide +kernel))⟩

/-- The context is done while the route is validated. -/
def unroutedInput : WorkerInput :=
  { workInput true with
    validation := { validRoute with success := false, message := utf8 "context canceled" } }

/-- The run is cancelled while its route is validated. -/
def unroutedRun : List Action :=
  validatingRun ++ [.cancel "run", .manage (.work 0 unroutedInput)]

/-- A run that is cancelled during the validation of its route is recorded as failed. -/
theorem interrupted_failed : ¬ ∀ actions s,
    Transition.run (step offline) (.start (.start oneTask)) actions = some s → Recorded s := by
  intro h
  have hrecorded := h unroutedRun _ (run_oneTaskSystem (by decide +kernel))
  have hfailed : recordedStatus (oneTaskSystem unroutedRun) 0 = some .failed := by decide +kernel
  rcases hrecorded.status hfailed with hstatus | hstatus
  · cases hstatus
  · cases hstatus

end Cancellation

end MultiSpeed.Execution
