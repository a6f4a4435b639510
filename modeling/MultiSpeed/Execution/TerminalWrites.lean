import MultiSpeed.Execution.Jobs

/-!
# The last write of a run is accepted

Validation, the removal of unusable partial metrics and the default of the duration
leave values that pass the triggers on `results`, on every path of `execute`, as long
as the wall clock is not set back during the run.  The rows a worker loads are queued
ones, which no measurement has touched.
-/

namespace MultiSpeed.Execution

open Database Transition

/-! ## The values of a provider -/

/-- Metrics that are absent or usable. -/
structure Acceptable (value : ProviderResult) : Prop where
  download : negative value.downloadBitsPerSecond = false
  upload : negative value.uploadBitsPerSecond = false
  downloadBytes : negative value.downloadBytes = false
  uploadBytes : negative value.uploadBytes = false
  latency : notFiniteNonNegative value.latencyMilliseconds = false
  jitter : notFiniteNonNegative value.jitterMilliseconds = false
  packetLoss : outsidePercent value.packetLossPercent = false
  duration : 0 ≤ value.durationMilliseconds

theorem eq_nil_of_choice {α : Type} {l : List α} {choice : ℕ}
    (h : l[choice % l.length]? = none) : l = [] := by
  by_contra hne
  have hpositive : 0 < l.length := List.length_pos_of_ne_nil hne
  have hlength := List.getElem?_eq_none_iff.mp h
  exact absurd (Nat.mod_lt choice hpositive) (not_lt.mpr hlength)

theorem acceptable_of_valid {choice : ℕ} {value : ProviderResult}
    (h : validateProviderResult choice value = none) : Acceptable value := by
  unfold validateProviderResult at h
  dsimp only at h
  split at h
  · cases h
  · rename_i hintegers
    split at h
    · cases h
    · rename_i hfloats
      have hintegers := List.filter_eq_nil_iff.mp (eq_nil_of_choice hintegers)
      have hfloats := List.filter_eq_nil_iff.mp (eq_nil_of_choice hfloats)
      simp only [List.mem_cons, List.not_mem_nil, or_false, forall_eq_or_imp, forall_eq,
        Bool.not_eq_true] at hintegers hfloats
      obtain ⟨hdownload, hupload, hdownloadBytes, huploadBytes⟩ := hintegers
      split at h
      · cases h
      · rename_i hloss
        split at h
        · cases h
        · rename_i hduration
          exact ⟨hdownload, hupload, hdownloadBytes, huploadBytes, hfloats.1, hfloats.2,
            by simpa using hloss, by omega⟩

theorem acceptable_safePartial (value : ProviderResult) :
    Acceptable (safePartialProviderResult value) := by
  have hdrop : ∀ {α : Type} (unusable : Option α → Bool) (metric : Option α),
      unusable none = false → unusable (if unusable metric then none else metric) = false := by
    intro α unusable metric hnone
    split
    · exact hnone
    · rename_i hkept
      simpa using hkept
  refine ⟨hdrop negative _ rfl, hdrop negative _ rfl, hdrop negative _ rfl,
    hdrop negative _ rfl, hdrop notFiniteNonNegative _ rfl, hdrop notFiniteNonNegative _ rfl,
    hdrop outsidePercent _ rfl, ?_⟩
  rw [safePartialProviderResult]
  dsimp only
  split <;> omega

/-! ## What passes the trigger -/

/-- The trigger looks at the metrics and at the duration. -/
theorem metricsRejected_eq_false_iff {result : Result} :
    metricsRejected result = false ↔
      metricsRejected { result with executionDurationMS := 0 } = false ∧
        0 ≤ result.executionDurationMS := by
  simp [metricsRejected]

theorem lt_of_notFinite {metric : Option Float64} (h : notFiniteNonNegative metric = false) :
    metric.any (fun v ↦ v.lt 0) = false := by
  cases metric with
  | none => rfl
  | some v =>
      simp only [notFiniteNonNegative, Option.any_some, Bool.or_eq_false_iff] at h ⊢
      exact h.1.1

theorem range_of_outsidePercent {metric : Option Float64} (h : outsidePercent metric = false) :
    metric.any (fun v ↦ v.lt 0 || v.gt 100) = false := by
  cases metric with
  | none => rfl
  | some v =>
      simp only [outsidePercent, Option.any_some, Bool.or_eq_false_iff] at h ⊢
      exact h.1.1

theorem metricsRejected_apply {value : ProviderResult} (h : Acceptable value) (result : Result) :
    metricsRejected (applyProviderResult result value) = false := by
  have hintegers := And.intro h.download
    (And.intro h.upload (And.intro h.downloadBytes h.uploadBytes))
  simp only [negative] at hintegers
  obtain ⟨hdownload, hupload, hdownloadBytes, huploadBytes⟩ := hintegers
  refine metricsRejected_eq_false_iff.mpr ⟨?_, h.duration⟩
  simp only [metricsRejected, applyProviderResult, hdownload, hupload, hdownloadBytes,
    huploadBytes, lt_of_notFinite h.latency, lt_of_notFinite h.jitter,
    range_of_outsidePercent h.packetLoss, Bool.or_false]
  rfl

theorem milliseconds_nonneg {first second : Time} (h : first ≤ second) :
    0 ≤ milliseconds first second :=
  Int.tdiv_nonneg (Int.sub_nonneg_of_le h) (by norm_num)

theorem metricsRejected_failed {result : Result} {status : ResultStatus} {message : Text}
    {now : Time} (h : metricsRejected result = false)
    (hclock : ∀ started, result.startedAt = some started → started ≤ now) :
    metricsRejected (failedResult result status message now) = false := by
  obtain ⟨hmetrics, hduration⟩ := metricsRejected_eq_false_iff.mp h
  refine metricsRejected_eq_false_iff.mpr ⟨hmetrics, ?_⟩
  unfold failedResult
  cases hstarted : result.startedAt with
  | none => exact hduration
  | some started =>
      dsimp only
      split
      · exact milliseconds_nonneg (hclock started hstarted)
      · exact hduration

theorem metricsRejected_succeeded {result : Result} {started finished : Time}
    (h : metricsRejected result = false) (hclock : started ≤ finished) :
    metricsRejected (succeededResult result started finished) = false := by
  obtain ⟨hmetrics, hduration⟩ := metricsRejected_eq_false_iff.mp h
  refine metricsRejected_eq_false_iff.mpr ⟨hmetrics, ?_⟩
  change (0 : ℤ) ≤ if result.executionDurationMS = 0 then _ else _
  split
  · exact milliseconds_nonneg hclock
  · exact hduration

/-! ## The sections of a worker -/

/-- What the later writes of a worker rest on. -/
def Phase.Accepted : Phase → Prop
  | .loaded _ _ started result | .validating _ _ started result =>
      metricsRejected result.result = false ∧ result.result.startedAt = some started
  | .available _ _ started result | .running _ _ started result =>
      metricsRejected result.result = false ∧ result.result.startedAt = some started
  | .closing _ _ write => metricsRejected write.result = false
  | .idle | .received _ | .acquiring _ _ _ | .admitted _ _ | .unloaded _ _ _ | .leaving _ _ => True

/-- When the run of a worker started. -/
def Phase.started? : Phase → Option Time
  | .loaded _ _ started _ | .validating _ _ started _ | .available _ _ started _
  | .running _ _ started _ => some started
  | _ => none

/-- The row of a queued run, as a worker may load it. -/
def Unstarted (row : Result) : Prop := metricsRejected row = false ∧ row.startedAt = none

theorem loadResult_ok {store : Store} {id : String} {row : { result : Result // result.id = id }}
    (h : loadResult store id = .ok row) : store.result? id = some row.1 := by
  unfold loadResult at h
  split at h
  · cases h
  · rename_i result hresult
    cases h
    exact Store.getResult_eq_ok_iff.mp hresult

theorem conclude_accepted {input : WorkerInput} {job : Job} {timeout : ℤ} {started : Time}
    {result : RunResult job .running} (hresult : metricsRejected result.result = false)
    (hstarted : result.result.startedAt = some started) (hclock : started ≤ input.now) :
    metricsRejected (conclude input timeout started result).result = false := by
  have hfrom : ∀ started', result.result.startedAt = some started' → started' ≤ input.now := by
    intro started' hstarted'
    rw [hstarted] at hstarted'
    obtain rfl := Option.some.inj hstarted'
    exact hclock
  unfold conclude
  split
  · split
    · exact metricsRejected_failed hresult hfrom
    · rename_i hvalid
      exact metricsRejected_succeeded
        (metricsRejected_apply (acceptable_of_valid hvalid) result.result) hclock
  · exact metricsRejected_failed
      (metricsRejected_apply (acceptable_safePartial input.value) result.result) hfrom

theorem validate_accepted {env : Env} {input : WorkerInput} {job : Job} {timeout : ℤ}
    {started : Time} {result : RunResult job .validating}
    (hresult : metricsRejected result.result = false)
    (hstarted : result.result.startedAt = some started) (hclock : started ≤ input.now) :
    (validate env input job timeout started result).Accepted := by
  have hfrom : ∀ started', result.result.startedAt = some started' → started' ≤ input.now := by
    intro started' hstarted'
    rw [hstarted] at hstarted'
    obtain rfl := Option.some.inj hstarted'
    exact hclock
  unfold validate
  split
  · exact metricsRejected_failed hresult hfrom
  · have hrouted : metricsRejected { result.result with
        routeValidationSnapshot := some (routeSnapshot input.validation)
        detectedPublicIP := input.validation.detectedPublicIP } = false := hresult
    dsimp only
    split
    · exact metricsRejected_failed hrouted hfrom
    · split
      · exact metricsRejected_failed hrouted hfrom
      · split
        · exact metricsRejected_failed hrouted hfrom
        · exact ⟨hresult, hstarted⟩

theorem advance_accepted {env : Env} {input : WorkerInput} {store store' : Store}
    {limiter limiter' : RunLimiter} {phase phase' : Phase} (hphase : phase.Accepted)
    (hrow : ∀ job row, phase.job? = some (job, .queued) →
      store.result? job.resultID = some row → Unstarted row)
    (hclock : ∀ started, phase.started? = some started → started ≤ input.now)
    (h : phase.advance env input store limiter = some (store', limiter', phase')) :
    phase'.Accepted := by
  cases phase with
  | idle => cases h
  | received job =>
      simp only [Phase.advance] at h
      split at h
      all_goals
        cases h
        trivial
  | acquiring job settings parked =>
      simp only [Phase.advance] at h
      split at h
      · cases h
        trivial
      · split at h
        · cases h
          trivial
        · split at h
          · cases h
          · cases h
            trivial
  | admitted job settings =>
      simp only [Phase.advance] at h
      split at h
      · cases h
        trivial
      · rename_i row hload
        cases h
        exact ⟨(hrow job row.1 rfl (loadResult_ok (serve_eq_ok_iff.mp hload).2)).1, rfl⟩
  | loaded job timeout started result =>
      simp only [Phase.advance] at h
      split at h
      · cases h
        refine metricsRejected_failed hphase.1 fun started' hstarted' ↦ ?_
        rw [hphase.2] at hstarted'
        exact hclock started' hstarted'
      · cases h
        exact hphase
  | validating job timeout started result =>
      simp only [Phase.advance] at h
      cases h
      exact validate_accepted hphase.1 hphase.2 (hclock started rfl)
  | available job timeout started result =>
      simp only [Phase.advance] at h
      split at h
      · cases h
        refine metricsRejected_failed hphase.1 fun started' hstarted' ↦ ?_
        rw [hphase.2] at hstarted'
        exact hclock started' hstarted'
      · cases h
        exact hphase
  | running job timeout started result =>
      simp only [Phase.advance] at h
      cases h
      exact conclude_accepted hphase.1 hphase.2 (hclock started rfl)
  | unloaded job acquired message =>
      simp only [Phase.advance] at h
      split at h
      · cases h
        trivial
      · rename_i row hload
        cases h
        have hloaded := hrow job row.1 rfl (loadResult_ok (serve_eq_ok_iff.mp hload).2)
        refine metricsRejected_failed hloaded.1 fun started hstarted ↦ ?_
        rw [hloaded.2] at hstarted
        cases hstarted
  | closing job acquired write =>
      simp only [Phase.advance] at h
      split at h
      all_goals
        cases h
        trivial
  | leaving job acquired =>
      simp only [Phase.advance] at h
      cases h
      trivial

/-! ## The rows of queued runs -/

/-- A call creates a queued row in one way only. -/
theorem advance_created {env : Env} {input : QueueInput} {store store' : Store} {length : ℕ}
    {c : QueueCall} {sent : Option Job} {snapshot : Snapshot} {created : Result}
    (h : c.advance env input store length = some (store', sent, .created snapshot created)) :
    Unstarted created ∧
      ∀ k, store'.result? k = if created.id = k then some created else store.result? k := by
  obtain ⟨taskID, trigger, scheduledAt, current⟩ := c
  cases current with
  | creating current =>
      simp only [QueueCall.advance] at h
      split at h
      · simp at h
      · rename_i created' written hcreated
        obtain ⟨rfl, rfl, rfl, rfl⟩ := by simpa using h
        obtain ⟨hnew, -, -, hrows, -⟩ := Store.createResult_ok (serve_eq_ok_iff.mp hcreated).2
        have hstored : Store.storedResult created' = created' := by
          rw [hnew]
          rfl
        rw [hstored] at hrows
        refine ⟨?_, hrows⟩
        rw [hnew]
        exact ⟨rfl, rfl⟩
  | started | loaded | waiting | locked | skipping | created | overflow =>
      simp only [QueueCall.advance] at h
      repeat' split at h
      all_goals simp at h
  | returned result error => cases h

/-- The rows of the jobs that are still queued are unstarted, and the workers hold
acceptable values. -/
structure Acceptance (s : State) : Prop where
  sound : Ledger.Sound lifecycle s.ledger
  workers : ∀ phase ∈ s.workers, phase.Accepted
  rows : ∀ id, (id, ResultStatus.queued) ∈ s.ledger.jobs → ∀ row,
    s.store.result? id = some row → Unstarted row

/-- The wall clock is not set back behind the start of the run.  Both readings are
`time.Now().UTC()`, which drops the monotonic part, so that `Sub` compares the wall. -/
def wallNotSetBack (s : State) : Action → Bool
  | .work worker input => ((s.workers[worker]?).bind Phase.started?).all fun started ↦
      decide (started ≤ input.now)
  | _ => true

/-- Queued jobs that were there before, with their rows. -/
theorem Acceptance.kept {s t : State} (hs : Acceptance s)
    (hsound : Ledger.Sound lifecycle t.ledger) (hworkers : ∀ phase ∈ t.workers, phase.Accepted)
    (hjobs : ∀ id, (id, ResultStatus.queued) ∈ t.ledger.jobs →
      (id, ResultStatus.queued) ∈ s.ledger.jobs ∧ t.store.result? id = s.store.result? id) :
    Acceptance t := by
  refine ⟨hsound, hworkers, fun id hid row hrow ↦ ?_⟩
  obtain ⟨hbefore, hsame⟩ := hjobs id hid
  exact hs.rows id hbefore row (hsame ▸ hrow)

theorem jobs_cons {s : State} {held : Option (Job × ResultStatus)} {job : Job}
    {stored : ResultStatus} {rest : Multiset (Job × ResultStatus)}
    (hheld : held = some (job, stored)) (hjobs : s.jobs = held.toList + rest) :
    s.ledger.jobs = (job.resultID, stored) ::ₘ rest.map jobKey := by
  change s.jobs.map jobKey = _
  rw [hjobs, hheld]
  simp [jobKey]

theorem jobs_none {s : State} {held : Option (Job × ResultStatus)}
    {rest : Multiset (Job × ResultStatus)} (hheld : held = none)
    (hjobs : s.jobs = held.toList + rest) : s.ledger.jobs = rest.map jobKey := by
  change s.jobs.map jobKey = _
  rw [hjobs, hheld]
  simp

/-- An overwrite of the row of one job touches the row of no other. -/
theorem result?_of_rest {s : State} (hsound : Ledger.Sound lifecycle s.ledger) {job : Job}
    {stored : ResultStatus} {rest : Multiset (Job × ResultStatus)}
    (hjobs : s.ledger.jobs = (job.resultID, stored) ::ₘ rest.map jobKey) {result : Result}
    {store : Store} (hid : result.id = job.resultID) (h : s.store.updateResult result = .ok store)
    {id : String} {status : ResultStatus} (hmem : (id, status) ∈ rest.map jobKey) :
    store.result? id = s.store.result? id := by
  obtain ⟨row, -, hrows, -⟩ := Store.updateResult_ok h
  have hne := hsound.ne_of_mem_rest hjobs hmem
  rw [hrows id, if_neg]
  rw [hid]
  exact hne

theorem Acceptance.call {env : Env} {s t : State} {index : ℕ} {input : QueueInput}
    (hs : Acceptance s) (h : step env s (.call index input) = some t) : Acceptance t := by
  have hsound := (step_refines hs.sound h).sound hs.sound
  cases step_spec h with
  | refused statement => cases statement
  | @called _ _ c store sent phase at_ free advanced =>
      obtain ⟨rest, hbefore, hafter⟩ := jobs_called at_
      have hafter := hafter store sent phase (lockAfter index c.phase phase s.lock)
      have hnone : queuedJobs (none : Option Job).toList + rest = rest := by simp [queuedJobs]
      cases advance_called advanced with
      | kept job =>
          refine hs.kept hsound hs.workers fun id hid ↦ ⟨?_, rfl⟩
          rw [State.ledger, hafter, job, hnone, ← hbefore] at hid
          exact hid
      | recorded status finished idle inserted =>
          obtain ⟨-, hfresh, -, hrows, -⟩ := Store.createResult_ok inserted
          refine hs.kept hsound hs.workers fun id hid ↦ ?_
          rw [jobs_none (QueuePhase.job?_returned _ _) hafter, hnone,
            ← jobs_none idle hbefore] at hid
          refine ⟨hid, ?_⟩
          obtain ⟨row, hrow, -⟩ := row_of_job hs.sound hid
          rw [hrows id, if_neg]
          rintro rfl
          rw [hfresh] at hrow
          cases hrow
      | @opened snapshot result created uuid now _ status idle inserted =>
          obtain ⟨hunstarted, hrows⟩ := advance_created advanced
          refine ⟨hsound, hs.workers, fun id hid row hrow ↦ ?_⟩
          change store.result? id = some row at hrow
          rw [hrows id] at hrow
          split at hrow
          · obtain rfl := Option.some.inj hrow
            exact hunstarted
          · rename_i hne
            rw [jobs_cons (QueuePhase.job?_created snapshot created) hafter, Multiset.mem_cons,
              hnone] at hid
            rcases hid with hid | hid
            · exact absurd (Prod.mk.inj hid).1.symm hne
            · rw [← jobs_none idle hbefore] at hid
              exact hs.rows id hid row hrow
      | @sent snapshot result at_ =>
          refine hs.kept hsound hs.workers fun id hid ↦ ⟨?_, rfl⟩
          rw [jobs_none (QueuePhase.job?_returned _ _) hafter] at hid
          rw [jobs_cons (by rw [at_]; rfl) hbefore]
          simpa [queuedJobs, jobKey] using hid
      | @finished snapshot result finished _ at_ written =>
          have hjobs := jobs_cons (by rw [at_]; rfl) hbefore
          refine hs.kept hsound hs.workers fun id hid ↦ ?_
          rw [jobs_none (QueuePhase.job?_returned _ _) hafter, hnone] at hid
          have hown : (overflowWrite snapshot result finished).result.id = result.id := rfl
          refine ⟨?_, result?_of_rest hs.sound hjobs hown written hid⟩
          rw [hjobs]
          exact Multiset.mem_cons_of_mem hid
      | @dropped snapshot result finished e at_ lost =>
          refine hs.kept hsound hs.workers fun id hid ↦ ⟨?_, rfl⟩
          rw [jobs_none (QueuePhase.job?_returned _ _) hafter, hnone] at hid
          rw [jobs_cons (by rw [at_]; rfl) hbefore]
          exact Multiset.mem_cons_of_mem hid

theorem Acceptance.work {env : Env} {s t : State} {worker : ℕ} {input : WorkerInput}
    (hs : Acceptance s) (hclock : wallNotSetBack s (.work worker input) = true)
    (h : step env s (.work worker input) = some t) : Acceptance t := by
  have hsound := (step_refines hs.sound h).sound hs.sound
  cases step_spec h with
  | refused statement => cases statement
  | @worked _ _ phase phase' store limiter at_ advanced =>
      obtain ⟨rest, hbefore, hafter⟩ := jobs_worked at_
      have hafter := hafter store limiter phase'
      have haccepted : phase'.Accepted := by
        refine advance_accepted (hs.workers phase (List.mem_of_getElem? at_))
          (fun job row hjob hrow ↦ ?_) (fun started hstarted ↦ ?_) advanced
        · refine hs.rows job.resultID ?_ row hrow
          rw [jobs_cons hjob hbefore]
          exact Multiset.mem_cons_self _ _
        · rw [wallNotSetBack, at_, Option.bind_some, hstarted, Option.all_some] at hclock
          exact of_decide_eq_true hclock
      have hworkers : ∀ p ∈ s.workers.set worker phase', p.Accepted := by
        intro p hp
        rcases List.mem_or_eq_of_mem_set hp with hp | rfl
        · exact hs.workers p hp
        · exact haccepted
      cases advance_worked advanced with
      | kept job =>
          refine hs.kept hsound hworkers fun id hid ↦ ⟨?_, rfl⟩
          rw [State.ledger, hafter, job, ← hbefore] at hid
          exact hid
      | @moved job stored status result _ _ held moves active written held' =>
          have hjobs := jobs_cons held hbefore
          refine hs.kept hsound hworkers fun id hid ↦ ?_
          rw [jobs_cons held' hafter, Multiset.mem_cons] at hid
          rcases hid with hid | hid
          · -- no section moves a run back to the queue
            obtain rfl : ResultStatus.queued = status := (Prod.mk.inj hid).2
            cases stored <;> cases moves
          · refine ⟨?_, result?_of_rest hs.sound hjobs result.id written hid⟩
            rw [hjobs]
            exact Multiset.mem_cons_of_mem hid
      | @finished job acquired write _ at_ written =>
          have hjobs : s.ledger.jobs = (job.resultID, write.stored) ::ₘ rest.map jobKey :=
            jobs_cons (by rw [at_]; rfl) hbefore
          refine hs.kept hsound hworkers fun id hid ↦ ?_
          rw [jobs_none (Phase.job?_leaving job acquired) hafter] at hid
          refine ⟨?_, result?_of_rest hs.sound hjobs write.id written hid⟩
          rw [hjobs]
          exact Multiset.mem_cons_of_mem hid
      | @dropped job stored acquired held lost =>
          refine hs.kept hsound hworkers fun id hid ↦ ⟨?_, rfl⟩
          rw [jobs_none (Phase.job?_leaving job acquired) hafter] at hid
          rw [jobs_cons held hbefore]
          exact Multiset.mem_cons_of_mem hid

theorem Acceptance.step {env : Env} {s t : State} {action : Action} (hs : Acceptance s)
    (hclock : wallNotSetBack s action = true) (h : Execution.step env s action = some t) :
    Acceptance t := by
  have hsound := (step_refines hs.sound h).sound hs.sound
  cases step_spec h with
  | refused statement => exact hs
  | queued taskID trigger scheduledAt =>
      refine hs.kept hsound hs.workers fun id hid ↦ ⟨?_, rfl⟩
      simpa [State.ledger, ledgerOf, State.jobs, QueuePhase.job?] using hid
  | called at_ free advanced => exact hs.call h
  | @received worker job rest at_ head =>
      refine hs.kept hsound (fun phase hphase ↦ ?_) fun id hid ↦ ⟨?_, rfl⟩
      · rcases List.mem_or_eq_of_mem_set hphase with hphase | rfl
        · exact hs.workers phase hphase
        · trivial
      · rw [State.ledger, jobs_received at_ head] at hid
        exact hid
  | worked at_ advanced => exact hs.work hclock h
  | executed allowed executed =>
      refine hs.kept hsound hs.workers fun id hid ↦ ⟨hid, ?_⟩
      have hid : (id, ResultStatus.queued) ∈ s.ledger.jobs := hid
      obtain ⟨row, hrow, hstatus, -⟩ := row_of_job hs.sound hid
      rw [hrow]
      exact external_keeps_active allowed executed hrow (by rw [hstatus]; rfl)
  | scheduled executed =>
      obtain ⟨-, -, -, -, hsame⟩ := Store.updateTaskSchedule_ok executed
      exact hs.kept hsound hs.workers fun id hid ↦ ⟨hid, hsame.result? id⟩
  | configured executed =>
      obtain ⟨-, -, hresults, -⟩ := commit_eq_ok_iff.mp executed
      refine hs.kept hsound hs.workers fun id hid ↦ ⟨hid, ?_⟩
      rw [Store.result?, hresults, Store.result?]
  | restarted recovered =>
      refine hs.kept hsound (fun phase hphase ↦ ?_) fun id hid ↦ ?_
      · rw [(List.mem_replicate.mp hphase).2]
        trivial
      · rw [State.ledger, jobs_start] at hid
        exact absurd hid (Multiset.notMem_zero _)

/-! ## Every run -/

theorem acceptance_start {store : Store} (h : RowsSound store) : Acceptance (.start store) := by
  refine ⟨sound_start h, fun phase hphase ↦ ?_, fun id hid ↦ ?_⟩
  · rw [(List.mem_replicate.mp hphase).2]
    trivial
  · rw [State.ledger, jobs_start] at hid
    exact absurd hid (Multiset.notMem_zero _)

/-- Whatever a provider returns and however a run ends, its last write has a terminal
status and an end, passes the triggers, and breaks no constraint of the schema, if
no clock reading of the worker is before the start of the run. -/
theorem terminal_write_accepted {env : Env} {s₀ s : State} {actions : List Action}
    (h₀ : Initial s₀)
    (hclock : Guarded (step env) (fun s action ↦ wallNotSetBack s action = true) s₀ actions)
    (hrun : Transition.run (step env) s₀ actions = some s) {worker : ℕ} {job : Job}
    {acquired : Bool} {write : TerminalWrite job}
    (hworker : s.workers[worker]? = some (.closing job acquired write)) :
    metricsRejected write.result = false ∧ write.result.status.terminal = true ∧
      write.result.finishedAt.isSome = true ∧
      ∀ store : Store, store.updateResult write.result ≠ .error .constraint := by
  obtain ⟨store, hrows, rfl⟩ := h₀
  have hs : Acceptance s :=
    guarded_run_invariant (step env) (fun _ _ _ hs hclock h ↦ hs.step hclock h)
      (acceptance_start hrows) hclock hrun
  have haccepted : metricsRejected write.result = false :=
    hs.workers _ (List.mem_of_getElem? hworker)
  exact ⟨haccepted, write.terminal, write.finished,
    fun _ ↦ Store.updateResult_ne_constraint haccepted⟩

/-- A run whose provider fails with negative and undefined metrics. -/
def brokenInput : WorkerInput :=
  { workInput true with
    value := { measured with
      downloadBitsPerSecond := some (-1)
      latencyMilliseconds := some .nan
      packetLossPercent := some (.infinity true)
      durationMilliseconds := -5 }
    runError := some (utf8 "provider failed") }

/-- The run is about to persist its end. -/
def brokenRun : List Action := takenRun ++ List.replicate 7 (.work 0 brokenInput)

theorem terminal_write_accepted_broken :
    ∃ job acquired, ∃ write : TerminalWrite job,
      (oneTaskRun brokenRun).workers[0]? = some (.closing job acquired write) ∧
        metricsRejected write.result = false := by
  obtain ⟨phase, hphase⟩ := Option.isSome_iff_exists.mp
    (show ((oneTaskRun brokenRun).workers[0]?).isSome = true by decide +kernel)
  have hjob : ((oneTaskRun brokenRun).workers[0]?.bind Phase.job?).map Prod.snd =
      some .running := by decide +kernel
  have hstarted : (oneTaskRun brokenRun).workers[0]?.bind Phase.started? = none := by
    decide +kernel
  rw [hphase, Option.bind_some] at hjob hstarted
  cases phase with
  | closing job acquired write =>
      exact ⟨job, acquired, write, hphase, (terminal_write_accepted
        ⟨oneTask, rowsSound_oneTask, rfl⟩ (by decide +kernel)
        (run_oneTaskRun (by decide +kernel)) hphase).1⟩
  | running _ _ _ _ => cases hstarted
  | _ => cases hjob

/-- The provider fails, and the wall clock was set back by two seconds meanwhile. -/
def setBackInput : WorkerInput :=
  { workInput true with
    now := -2000000000
    runError := some (utf8 "provider failed") }

def setBackRun : List Action :=
  takenRun ++ List.replicate 6 (.work 0 (workInput true)) ++ [.work 0 setBackInput]

/-- The row of the terminal write that a worker is about to make. -/
def Phase.write? : Phase → Option Result
  | .closing _ _ write => some write.result
  | _ => none

theorem updateResult_rejected {store : Store} {result row : Result}
    (hencodable : encodableMap result.routeValidationSnapshot = true)
    (hrow : store.result? result.id = some row) (h : metricsRejected result = true) :
    store.updateResult result = .error .constraint := by
  simp [Store.updateResult, hencodable, hrow, h]

/-- The duration of the terminal write is negative, the trigger refuses the write, and
the row stays active. -/
theorem terminal_write_rejected :
    (∃ job acquired, ∃ write : TerminalWrite job,
      (oneTaskRun setBackRun).workers[0]? = some (.closing job acquired write) ∧
        write.result.executionDurationMS = -2000 ∧ metricsRejected write.result = true ∧
        (oneTaskRun setBackRun).store.updateResult write.result = .error .constraint) ∧
      (runRow (setBackRun ++ List.replicate 2 (.work 0 (workInput true)))).map Result.status =
        some .running := by
  obtain ⟨result, hresult⟩ := Option.isSome_iff_exists.mp
    (show ((oneTaskRun setBackRun).workers[0]?.bind Phase.write?).isSome = true by
      decide +kernel)
  have hread : ((oneTaskRun setBackRun).workers[0]?.bind Phase.write?).map (fun result ↦
      (result.executionDurationMS, metricsRejected result,
        encodableMap result.routeValidationSnapshot,
        ((oneTaskRun setBackRun).store.result? result.id).isSome)) =
      some (-2000, true, true, true) := by decide +kernel
  rw [hresult] at hread
  obtain ⟨hduration, hrejected, hencodable, hrow⟩ := by
    simpa only [Option.map_some, Option.some.injEq, Prod.mk.injEq] using hread
  obtain ⟨row, hrow⟩ := Option.isSome_iff_exists.mp hrow
  obtain ⟨phase, hphase, hwrite⟩ := Option.bind_eq_some_iff.mp hresult
  refine ⟨?_, by decide +kernel⟩
  cases phase with
  | closing job acquired write =>
      obtain rfl := Option.some.inj hwrite
      exact ⟨job, acquired, write, hphase, hduration, hrejected,
        updateResult_rejected hencodable hrow hrejected⟩
  | _ => cases hwrite

end MultiSpeed.Execution
