import MultiSpeed.Execution.Results

/-!
# No job is lost or executed twice

From a recovered database on, and as long as the calls the end of a job depends
on are served, the active results are exactly the rows of the jobs that are on the
channel, with a `Queue` call, or with a worker.
-/

namespace MultiSpeed.Execution

open Database Transition

/-- The job a worker is executing. -/
def Phase.work? : Phase → Option Job
  | .idle => none
  | .received job | .acquiring job _ _ | .admitted job _ | .loaded job _ _ _
  | .validating job _ _ _ | .available job _ _ _ | .running job _ _ _ | .unloaded job _ _
  | .closing job _ _ | .leaving job _ => some job

theorem work?_validate (env : Env) (input : WorkerInput) (job : Job) (timeout : ℤ)
    (started : Time) (result : RunResult job .validating) :
    (validate env input job timeout started result).work? = some job := by
  unfold validate
  split
  · rfl
  · dsimp only
    split
    · rfl
    · split
      · rfl
      · split <;> rfl

theorem advance_work {env : Env} {input : WorkerInput} {store store' : Store}
    {limiter limiter' : RunLimiter} {phase phase' : Phase}
    (h : phase.advance env input store limiter = some (store', limiter', phase')) :
    phase'.work? = phase.work? ∨ phase'.work? = none := by
  cases phase with
  | idle => cases h
  | leaving job acquired =>
      rw [Phase.advance] at h
      cases h
      exact .inr rfl
  | validating job timeout started result =>
      rw [Phase.advance] at h
      cases h
      exact .inl (work?_validate env input job timeout started result)
  | received | acquiring | admitted | loaded | available | running | unloaded | closing =>
      left
      rw [Phase.advance] at h
      repeat' split at h
      all_goals
        cases h
        try rfl

/-- What was sent is what was received and what is still on the channel, and a
worker executes a job it received. -/
structure Delivered (s : State) : Prop where
  order : s.sent = s.received.map Prod.snd ++ s.channel
  taken : ∀ worker phase job, s.workers[worker]? = some phase → phase.work? = some job →
    (worker, job) ∈ s.received

theorem delivered_start (store : Store) : Delivered (.start store) := by
  refine ⟨rfl, fun worker phase job hphase hjob ↦ ?_⟩
  obtain rfl := (List.mem_replicate.mp (List.mem_of_getElem? hphase)).2
  cases hjob

theorem Delivered.step {env : Env} {s t : State} {action : Action} (hs : Delivered s)
    (h : step env s action = some t) : Delivered t := by
  have hstepped := step_spec h
  cases hstepped with
  | refused statement => exact hs
  | queued taskID trigger scheduledAt => exact ⟨hs.order, hs.taken⟩
  | @called index input c store sent phase at_ free advanced =>
      refine ⟨?_, hs.taken⟩
      change s.sent ++ sent.toList = s.received.map Prod.snd ++ (s.channel ++ sent.toList)
      rw [hs.order, List.append_assoc]
  | @received worker job rest at_ head =>
      refine ⟨?_, fun other phase job' hphase hjob ↦ ?_⟩
      · change s.sent = (s.received ++ [(worker, job)]).map Prod.snd ++ rest
        rw [hs.order, head, List.map_append, List.append_assoc]
        rfl
      · change (other, job') ∈ s.received ++ [(worker, job)]
        change (s.workers.set worker (.received job))[other]? = some phase at hphase
        rw [List.getElem?_set] at hphase
        split at hphase
        · rename_i hworker
          split at hphase
          · obtain rfl := Option.some.inj hphase
            obtain rfl := Option.some.inj hjob
            rw [hworker]
            exact List.mem_append_right _ (List.mem_singleton_self _)
          · cases hphase
        · exact List.mem_append_left _ (hs.taken other phase job' hphase hjob)
  | @worked worker input phase phase' store limiter at_ advanced =>
      refine ⟨hs.order, fun other current job hcurrent hjob ↦ ?_⟩
      change (s.workers.set worker phase')[other]? = some current at hcurrent
      rw [List.getElem?_set] at hcurrent
      split at hcurrent
      · rename_i hworker
        split at hcurrent
        · obtain rfl := Option.some.inj hcurrent
          rcases advance_work advanced with hsame | hnone
          · rw [hsame] at hjob
            exact hworker ▸ hs.taken worker phase job at_ hjob
          · rw [hnone] at hjob
            cases hjob
        · cases hcurrent
      · exact hs.taken other current job hcurrent hjob
  | executed allowed executed => exact ⟨hs.order, hs.taken⟩
  | scheduled executed => exact ⟨hs.order, hs.taken⟩
  | configured executed => exact ⟨hs.order, hs.taken⟩
  | restarted recovered => exact delivered_start _

/-! ## The invariant of a served run -/

/-- A manager that starts after the recovery of its database. -/
def Recovered (s : State) : Prop :=
  ∃ old now store, RowsSound old ∧ old.recoverInterruptedResults now = .ok store ∧
    s = .start store

/-- The identities of the results whose jobs are still to be closed. -/
def State.jobIDs (s : State) : Multiset String := s.jobs.map fun job ↦ job.1.resultID

theorem jobIDs_eq (s : State) : s.jobIDs = s.ledger.jobs.map Prod.fst := by
  rw [State.jobIDs, State.ledger, ledgerOf, Multiset.map_map]
  rfl

structure Accounted (s : State) : Prop where
  sound : Ledger.Sound lifecycle s.ledger
  complete : Ledger.Complete lifecycle s.ledger
  delivered : Delivered s

theorem accounted_recovered {s : State} (h : Recovered s) : Accounted s := by
  obtain ⟨old, now, store, hrows, hrecover, rfl⟩ := h
  have hold := sound_start hrows
  have hrestarted : Ledger.Restarted lifecycle (State.start old).ledger
      (State.start store).ledger := by
    rw [State.ledger, State.ledger, jobs_start, jobs_start]
    exact recovery_restarts 0 hrecover
  obtain ⟨hsound, hcomplete⟩ := hold.restarted hrestarted rfl
  exact ⟨hsound, hcomplete, delivered_start store⟩

theorem Accounted.step {env : Env} {s t : State} {action : Action} (hs : Accounted s)
    (hserved : endServed s action = true) (h : step env s action = some t) : Accounted t := by
  have hrefined := step_refines hs.sound h
  refine ⟨hrefined.sound hs.sound, ?_, hs.delivered.step h⟩
  cases hrefined with
  | stepped step => exact hs.complete.step step
  | dropped dropped lost =>
      rw [hserved] at lost
      cases lost
  | restarted at_ restarted => exact (hs.sound.restarted restarted rfl).2

/-- A call that finds the channel full goes on to close its row as skipped. -/
theorem full_channel_overflows {env : Env} {s t : State} {index : ℕ} {input : QueueInput}
    {c : QueueCall} {snapshot : Snapshot} {result : Result}
    (hcall : s.calls[index]? = some c) (hphase : c.phase = .created snapshot result)
    (hfull : queueCapacity ≤ s.channel.length) (h : step env s (.call index input) = some t) :
    t.calls[index]? = some { c with phase := .overflow snapshot result input.now } := by
  obtain ⟨store, sent, phase, hadvance, -, -, hset⟩ := call_spec hcall h
  have hnot : ¬ s.channel.length < queueCapacity := Nat.not_lt.mpr hfull
  simp only [QueueCall.advance, hphase, if_neg hnot] at hadvance
  obtain ⟨-, -, rfl⟩ := by simpa using hadvance
  exact hset

/-- The write of such a call leaves a closed row, and the call returns an error. -/
theorem overflow_closes {env : Env} {s t : State} {index : ℕ} {input : QueueInput}
    {c : QueueCall} {snapshot : Snapshot} {result : Result} {finished : Time}
    (hcall : s.calls[index]? = some c) (hphase : c.phase = .overflow snapshot result finished)
    (hserved : endServed s (.call index input) = true)
    (h : step env s (.call index input) = some t) :
    (∃ returned, t.calls[index]? =
        some { c with phase := .returned (some returned) (some .full) }) ∧
      ∃ row, t.store.result? result.id = some row ∧ row.status = .skipped ∧
        row.finishedAt.isSome = true := by
  obtain ⟨store, sent, phase, hadvance, rfl, -, hset⟩ := call_spec hcall h
  have hcserved : c.endServed input s.store = true := by
    simpa only [endServed, hcall, Option.all_some] using hserved
  obtain ⟨⟨returned, rfl⟩, hrow⟩ := overflow_returns hphase hcserved hadvance
  exact ⟨⟨returned, hset⟩, hrow⟩

/-! ## No lost and no duplicated run -/

/-- In every state of a served run the active results are in one-to-one
correspondence with the jobs; the jobs sent are, in order, those received by one
worker each and those on the channel; and a call that finds the channel full
leaves a skipped row and returns an error. -/
theorem jobs_match_active_results {env : Env} {s₀ s : State} {actions : List Action}
    (h₀ : Recovered s₀)
    (hserved : Guarded (step env) (fun s action ↦ endServed s action = true) s₀ actions)
    (hrun : Transition.run (step env) s₀ actions = some s) :
    s.jobIDs.Nodup ∧
    (∀ id, id ∈ s.jobIDs ↔
      ∃ row, s.store.result? id = some row ∧ row.status.active = true) ∧
    s.sent = s.received.map Prod.snd ++ s.channel ∧
    (∀ worker phase job, s.workers[worker]? = some phase → phase.work? = some job →
      (worker, job) ∈ s.received) ∧
    ∀ index c input t, s.calls[index]? = some c →
      endServed s (.call index input) = true → step env s (.call index input) = some t →
      (∀ snapshot result, c.phase = .created snapshot result →
        queueCapacity ≤ s.channel.length →
        t.calls[index]? = some { c with phase := .overflow snapshot result input.now }) ∧
      ∀ snapshot result finished, c.phase = .overflow snapshot result finished →
        (∃ returned, t.calls[index]? =
          some { c with phase := .returned (some returned) (some .full) }) ∧
        ∃ row, t.store.result? result.id = some row ∧ row.status = .skipped ∧
          row.finishedAt.isSome = true := by
  have haccounted : Accounted s :=
    guarded_run_invariant (step env) (fun _ _ _ hs hserved h ↦ hs.step hserved h)
      (accounted_recovered h₀) hserved hrun
  refine ⟨?_, fun id ↦ ?_, haccounted.delivered.order, haccounted.delivered.taken, ?_⟩
  · rw [jobIDs_eq]
    exact haccounted.sound.nodup
  · rw [jobIDs_eq, haccounted.complete.mem_jobs_iff haccounted.sound]
    constructor
    · rintro ⟨r, hr, hactive⟩
      obtain ⟨row, hrow, rfl⟩ := Option.map_eq_some_iff.mp hr
      exact ⟨row, hrow, hactive⟩
    · rintro ⟨row, hrow, hactive⟩
      exact ⟨entry row, row_of_result hrow, hactive⟩
  · intro index c input t hcall hcserved hstep
    refine ⟨fun snapshot result hphase hfull ↦ ?_, fun snapshot result finished hphase ↦ ?_⟩
    · exact full_channel_overflows hcall hphase hfull hstep
    · exact overflow_closes hcall hphase hcserved hstep

theorem recovered_oneTask : Recovered (.start oneTask) :=
  ⟨oneTask, 0, oneTask, rowsSound_oneTask, rfl, rfl⟩

theorem jobs_match_active_results_taken : "run" ∈ (oneTaskRun takenRun).jobIDs :=
  ((jobs_match_active_results recovered_oneTask (by decide +kernel)
    (run_oneTaskRun (by decide +kernel))).2.1 "run").mpr
      ⟨_, (Option.some_get (by decide +kernel)).symm, by decide +kernel⟩

/-! ## A read that is not served -/

/-- The writes of `persistTerminal` are accepted; reads may fail. -/
def persistServed (s : State) : Action → Bool
  | .call index input => (s.calls[index]?).all fun c ↦ c.endServed input s.store
  | .work worker input => (s.workers[worker]?).all fun phase ↦
      match phase with
      | .closing _ _ write => (serve input.served (s.store.updateResult write.result)).isOk
      | _ => true
  | _ => true

/-- Neither the settings nor, after that, the result can be read. -/
def orphanedRun : List Action := takenRun ++ List.replicate 3 (.work 0 (workInput false))

/-- All writes of `persistTerminal` are accepted, and still an active result is
left that no job belongs to. -/
theorem lost_read_orphans_result :
    Recovered (.start oneTask) ∧
      Guarded (step offline) (fun s action ↦ persistServed s action = true) (.start oneTask)
        orphanedRun ∧
      Transition.run (step offline) (.start oneTask) orphanedRun =
        some (oneTaskRun orphanedRun) ∧
      (runRow orphanedRun).map Result.status = some .queued ∧
      (oneTaskRun orphanedRun).jobIDs = 0 :=
  ⟨recovered_oneTask, by decide +kernel, run_oneTaskRun (by decide +kernel), by decide +kernel,
    by decide +kernel⟩

end MultiSpeed.Execution
