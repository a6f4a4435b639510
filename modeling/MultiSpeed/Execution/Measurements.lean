import MultiSpeed.Database.Listing
import MultiSpeed.Execution.Overlap
import MultiSpeed.Execution.TerminalWrites
import MultiSpeed.Providers.Cloudflare
import MultiSpeed.Providers.PinnedRuns
import MultiSpeed.Providers.Terms
import MultiSpeed.Statistics.Conservation

/-!
# Current measurements are samples

The statistics leave out throughput that older builds stored in other units.  The
adapters name what they measure with, so that nothing a run of this build stores as
succeeded is taken for such a value.
-/

namespace MultiSpeed.Execution

open Concurrent Database Providers Statistics Transition

/-! ## What the adapters return -/

structure Adapters where
  ookla : Ookla.Adapter
  librespeed : LibreSpeed.Adapter
  cloudflare : Cloudflare.Adapter

/-- A run of the adapter of the provider can end with this answer. -/
def Adapters.Answers (a : Adapters) : ProviderID → RunAnswer → Prop
  | .ookla, answer => ∃ request, (Ookla.run a.ookla request).Returns answer
  | .librespeed, answer => ∃ request, (LibreSpeed.run a.librespeed request).Returns answer
  | .cloudflare, answer => ∃ request, (Cloudflare.run a.cloudflare request).Returns answer
  | .other _, _ => False

/-- The version does not stand for an older measurement. -/
def Current : ProviderID → String → Prop
  | .librespeed, version => contains version libreSpeedBitsMethodologyVersion = true
  | .cloudflare, version => version ≠ cloudflareLegacyUploadVersion
  | .ookla, _ | .other _, _ => True

theorem contains_append (part version : String) : contains (version ++ part) part = true := by
  rw [contains, decide_eq_true_eq, String.toList_append]
  exact (List.suffix_append _ _).isInfix

theorem ends_finishRun (a : LibreSpeed.Adapter) (request : Providers.RunRequest)
    (result : ProcessResult) (err : Option Text) :
    (LibreSpeed.finishRun a request result err).Ends fun answer ↦
      answer.2 = none → Current .librespeed answer.1.providerVersion := by
  unfold LibreSpeed.finishRun
  split
  · apply Program.Ends.pure
    intro h
    cases h
  split
  · apply Program.Ends.pure
    intro h
    cases h
  · apply Program.Ends.bind
    intro version
    apply Program.Ends.pure
    intro _
    cases version with
    | error message => exact contains_append _ ""
    | ok cliVersion => exact contains_append _ (cliVersion ++ "; ")

theorem ends_runCustom (a : LibreSpeed.Adapter) (request : Providers.RunRequest)
    (args : List String) : (LibreSpeed.runCustom a request args).Ends fun answer ↦
      answer.2 = none → Current .librespeed answer.1.providerVersion := by
  have hfailed : ∀ message, (pure (runFailed message) : LibreSpeed.Adapting RunAnswer).Ends
      fun answer ↦ answer.2 = none → Current .librespeed answer.1.providerVersion := by
    intro message
    apply Program.Ends.pure
    intro h
    cases h
  unfold LibreSpeed.runCustom
  split
  · exact hfailed _
  split
  · exact hfailed _
  · apply Program.Ends.bind
    intro allowedIPs
    split
    · exact hfailed _
    split
    · exact hfailed _
    split
    · exact hfailed _
    · apply Program.Ends.bind
      exact fun answer ↦ ends_finishRun a request answer.1 answer.2

theorem ends_run (a : LibreSpeed.Adapter) (request : Providers.RunRequest) :
    (LibreSpeed.run a request).Ends fun answer ↦
      answer.2 = none → Current .librespeed answer.1.providerVersion := by
  have hfailed : ∀ message, (pure (runFailed message) : LibreSpeed.Adapting RunAnswer).Ends
      fun answer ↦ answer.2 = none → Current .librespeed answer.1.providerVersion := by
    intro message
    apply Program.Ends.pure
    intro h
    cases h
  unfold LibreSpeed.run
  apply Program.Ends.bind
  intro availability
  split
  · exact hfailed _
  split
  · exact hfailed _
  dsimp only
  split
  · exact ends_runCustom a request _
  · apply Program.Ends.bind
    exact fun answer ↦ ends_finishRun a request answer.1 answer.2

theorem Adapters.Answers.current {a : Adapters} {provider : ProviderID} {value : ProviderResult}
    (h : a.Answers provider (value, none)) : Current provider value.providerVersion := by
  cases provider with
  | ookla => trivial
  | librespeed =>
      obtain ⟨request, hreturns⟩ := h
      exact ends_run a.librespeed request _ hreturns rfl
  | cloudflare =>
      obtain ⟨request, hreturns⟩ := h
      have hversion := Cloudflare.ends_run a.cloudflare request _ hreturns rfl
      change value.providerVersion = _ at hversion
      rw [Current, hversion]
      decide
  | other name => trivial

/-- No filter leaves out a current measurement. -/
theorem compatible_of_current {result : StatisticsResult}
    (h : Current result.provider result.providerVersion) (value : Option ℤ) (upload : Bool) :
    throughputMetricCompatible result value upload = true := by
  rw [throughputMetricCompatible, if_neg, if_neg]
  · rintro ⟨hprovider, hmissing, -⟩
    rw [hprovider, Current, hmissing] at h
    cases h
  · rintro ⟨hprovider, -, hversion⟩
    rw [hprovider] at h
    exact h hversion

/-- What the filters leave out. -/
theorem incompatible_iff (result : StatisticsResult) (value : Option ℤ) (upload : Bool) :
    throughputMetricCompatible result value upload = false ↔
      result.provider = .cloudflare ∧ upload = true ∧
          result.providerVersion = cloudflareLegacyUploadVersion ∨
        result.provider = .librespeed ∧
          contains result.providerVersion libreSpeedBitsMethodologyVersion = false ∧
          ∃ v, value = some v ∧ 0 ≤ v ∧ v < 100000 := by
  rw [throughputMetricCompatible]
  split
  · rename_i hlegacy
    exact iff_of_true rfl (.inl hlegacy)
  · rename_i hlegacy
    rw [or_iff_right hlegacy]
    cases value with
    | none => simp
    | some v => simp

/-! ## What a row contributes -/

section

variable {R : Type*} (A : Arithmetic R)

/-- The row holds the measurements of the value. -/
structure Holds (row : Result) (value : ProviderResult) : Prop where
  download : row.downloadBitsPerSecond = value.downloadBitsPerSecond
  upload : row.uploadBitsPerSecond = value.uploadBitsPerSecond
  latency : row.latencyMilliseconds = value.latencyMilliseconds
  jitter : row.jitterMilliseconds = value.jitterMilliseconds
  loss : row.packetLossPercent = value.packetLossPercent

/-- The accumulators take each measurement of the value as a sample, wherever the row is
filed. -/
structure Sampled (value : ProviderResult) (row : Result) : Prop where
  download : ∀ v, value.downloadBitsPerSecond = some v → ∀ b t,
    (BucketAccumulator.add A b (statisticsResult row t)).download = b.download ++ [A.round v]
  upload : ∀ v, value.uploadBitsPerSecond = some v → ∀ b t,
    (BucketAccumulator.add A b (statisticsResult row t)).upload = b.upload ++ [A.round v]
  latency : ∀ v, value.latencyMilliseconds = some v → ∃ q, v = .finite q ∧ ∀ b t,
    (BucketAccumulator.add A b (statisticsResult row t)).latency = b.latency ++ [q]
  jitter : ∀ v, value.jitterMilliseconds = some v → ∃ q, v = .finite q ∧ ∀ b t,
    (BucketAccumulator.add A b (statisticsResult row t)).jitter = b.jitter ++ [q]
  loss : ∀ v, value.packetLossPercent = some v → ∃ q, v = .finite q ∧ ∀ b t,
    (BucketAccumulator.add A b (statisticsResult row t)).loss = b.loss ++ [q]

theorem appendIntegerMetric_of_nonneg {v : ℤ} (h : negative (some v) = false)
    (destination : List ℚ) :
    appendIntegerMetric A destination (some v) = destination ++ [A.round v] := by
  have hnonneg : ¬v < 0 := of_decide_eq_false h
  rw [appendIntegerMetric, if_neg hnonneg]

theorem finite_of_accepted {v : Float64} (h : notFiniteNonNegative (some v) = false) :
    ∃ q, v = .finite q ∧ ∀ destination, appendFloatMetric destination (some v) =
      destination ++ [q] := by
  cases v with
  | nan => cases h
  | infinity negative => cases negative <;> cases h
  | finite q =>
      have hnonneg : ¬q < 0 := by
        simpa [notFiniteNonNegative, Float64.lt, Float64.isNaN, Float64.isInf] using h
      exact ⟨q, rfl, fun destination ↦ if_neg hnonneg⟩

theorem notFinite_of_percent {metric : Option Float64} (h : outsidePercent metric = false) :
    notFiniteNonNegative metric = false := by
  cases metric with
  | none => rfl
  | some v =>
      simp only [outsidePercent, notFiniteNonNegative, Option.any_some, Bool.or_eq_false_iff]
        at h ⊢
      exact ⟨⟨h.1.1.1, h.1.2⟩, h.2⟩

theorem storedReal_of_accepted {metric : Option Float64}
    (h : notFiniteNonNegative metric = false) : storedReal metric = metric := by
  cases metric with
  | none => rfl
  | some v =>
      obtain ⟨q, rfl, -⟩ := finite_of_accepted h
      rfl

/-- The row that a successful run leaves. -/
def succeededRow (row before : Result) (value : ProviderResult) (started finished : Time) :
    Result :=
  Store.assignResult (succeededResult (applyProviderResult before value) started finished) row

theorem holds_succeededRow {value : ProviderResult} (hvalue : Acceptable value)
    (row before : Result) (started finished : Time) :
    Holds (succeededRow row before value started finished) value where
  download := rfl
  upload := rfl
  latency := storedReal_of_accepted hvalue.latency
  jitter := storedReal_of_accepted hvalue.jitter
  loss := storedReal_of_accepted (notFinite_of_percent hvalue.packetLoss)

/-- Accepted metrics under a current version are samples. -/
theorem sampled_succeededRow {value : ProviderResult} {row : Result} (hvalue : Acceptable value)
    (hcurrent : Current row.provider value.providerVersion) (before : Result)
    (started finished : Time) :
    Sampled A value (succeededRow row before value started finished) := by
  have hcompatible : ∀ v t upload, throughputMetricCompatible
      (statisticsResult (succeededRow row before value started finished) t) v upload = true :=
    fun v t upload ↦ compatible_of_current hcurrent v upload
  have hstored : ∀ metric, notFiniteNonNegative metric = false → storedReal metric = metric :=
    fun _ ↦ storedReal_of_accepted
  have hloss := notFinite_of_percent hvalue.packetLoss
  have hadd : ∀ b t,
      BucketAccumulator.add A b
          (statisticsResult (succeededRow row before value started finished) t) =
        { BucketAccumulator.add A b
            (statisticsResult (succeededRow row before value started finished) t) with
          download := appendIntegerMetric A b.download value.downloadBitsPerSecond
          upload := appendIntegerMetric A b.upload value.uploadBitsPerSecond
          latency := appendFloatMetric b.latency value.latencyMilliseconds
          jitter := appendFloatMetric b.jitter value.jitterMilliseconds
          loss := appendFloatMetric b.loss value.packetLossPercent } := by
    intro b t
    simp only [BucketAccumulator.add, hcompatible]
    simp only [statisticsResult, succeededRow, Store.assignResult, succeededResult,
      applyProviderResult, hstored _ hvalue.latency, hstored _ hvalue.jitter, hstored _ hloss,
      decide_true, Bool.and_self, if_true]
  refine ⟨?_, ?_, ?_, ?_, ?_⟩
  · intro v hv b t
    rw [hadd, hv]
    exact appendIntegerMetric_of_nonneg A (hv ▸ hvalue.download) b.download
  · intro v hv b t
    rw [hadd, hv]
    exact appendIntegerMetric_of_nonneg A (hv ▸ hvalue.upload) b.upload
  · intro v hv
    obtain ⟨q, hq, happend⟩ := finite_of_accepted (hv ▸ hvalue.latency)
    refine ⟨q, hq, fun b t ↦ ?_⟩
    rw [hadd, hv]
    exact happend b.latency
  · intro v hv
    obtain ⟨q, hq, happend⟩ := finite_of_accepted (hv ▸ hvalue.jitter)
    refine ⟨q, hq, fun b t ↦ ?_⟩
    rw [hadd, hv]
    exact happend b.jitter
  · intro v hv
    obtain ⟨q, hq, happend⟩ := finite_of_accepted (hv ▸ hloss)
    refine ⟨q, hq, fun b t ↦ ?_⟩
    rw [hadd, hv]
    exact happend b.loss

end

/-! ## What a worker is about to write -/

/-- A succeeded result was measured by the adapter of the provider of its job. -/
def MeasuredBy (a : Adapters) (job : Job) (result : Result) : Prop :=
  result.status = .succeeded → ∃ choice value before started finished,
    a.Answers job.task.provider (value, none) ∧ validateProviderResult choice value = none ∧
      result = succeededResult (applyProviderResult before value) started finished

def Phase.Measured (a : Adapters) : Phase → Prop
  | .closing job _ write => MeasuredBy a job write.result
  | _ => True

/-- What comes back to a worker is an answer of the adapter of its provider. -/
def Phase.Answered (a : Adapters) (input : WorkerInput) : Phase → Prop
  | .running job _ _ _ => a.Answers job.task.provider (input.value, input.runError)
  | _ => True

/-- The run of a provider is a run of its adapter. -/
def Answered (a : Adapters) (s : State) : Action → Prop
  | .work worker input => ∀ phase, s.workers[worker]? = some phase → phase.Answered a input
  | _ => True

theorem failureStatus_ne_succeeded (err : Option ContextError) :
    failureStatus err ≠ .succeeded := by
  intro h
  rcases err with _ | _ | _ <;> cases h

theorem measured_conclude {a : Adapters} {input : WorkerInput} {job : Job} {timeout : ℤ}
    {started : Time} {result : RunResult job .running}
    (h : a.Answers job.task.provider (input.value, input.runError)) :
    MeasuredBy a job (conclude input timeout started result).result := by
  intro hsucceeded
  unfold conclude at hsucceeded ⊢
  split at hsucceeded
  · rename_i herror
    split at hsucceeded
    · cases hsucceeded
    · rename_i hvalid
      rw [herror] at h
      exact ⟨input.choice, input.value, _, _, _, h, hvalid, rfl⟩
  · exact absurd hsucceeded (failureStatus_ne_succeeded input.contextError)

theorem measured_validate {a : Adapters} {env : Env} {input : WorkerInput} {job : Job}
    {timeout : ℤ} {started : Time} {result : RunResult job .validating} :
    (validate env input job timeout started result).Measured a := by
  unfold validate
  split
  · intro h
    cases h
  · dsimp only
    split
    · intro h
      cases h
    split
    · intro h
      cases h
    split
    · intro h
      cases h
    · trivial

theorem advance_measured {a : Adapters} {env : Env} {input : WorkerInput} {store store' : Store}
    {limiter limiter' : RunLimiter} {phase phase' : Phase} (hanswered : phase.Answered a input)
    (h : phase.advance env input store limiter = some (store', limiter', phase')) :
    phase'.Measured a := by
  cases phase with
  | idle => cases h
  | validating job timeout started result =>
      obtain ⟨-, -, rfl⟩ := by simpa [Phase.advance] using h
      exact measured_validate
  | running job timeout started result =>
      obtain ⟨-, -, rfl⟩ := by simpa [Phase.advance] using h
      exact measured_conclude hanswered
  | received | acquiring | admitted | loaded | available | unloaded | closing | leaving =>
      simp only [Phase.advance] at h
      repeat' split at h
      all_goals cases h
      all_goals
        first
        | trivial
        | intro hsucceeded
          cases hsucceeded

/-! ## The rows of jobs -/

/-- A write keeps the provider of a row. -/
theorem updateResult_provider {store store' : Store} {result : Result}
    (h : store.updateResult result = .ok store') {k : String} {row row' : Result}
    (hrow : store.result? k = some row) (hrow' : store'.result? k = some row') :
    row'.provider = row.provider := by
  obtain ⟨old, hold, hrows, -⟩ := Store.updateResult_ok h
  rw [hrows k] at hrow'
  split at hrow'
  · rename_i hk
    rw [hk, hrow] at hold
    obtain rfl := Option.some.inj hold
    obtain rfl := Option.some.inj hrow'
    rfl
  · rw [hrow] at hrow'
    obtain rfl := Option.some.inj hrow'
    rfl

/-- A new row takes no place of another. -/
theorem createResult_kept {store store' : Store} {result created : Result} {uuid : String}
    {now : Time} (h : store.createResult result uuid now = .ok (created, store')) {k : String}
    {row : Result} (hrow : store.result? k = some row) : store'.result? k = some row := by
  obtain ⟨-, hfresh, -, hrows, -⟩ := Store.createResult_ok h
  rw [hrows k, if_neg, hrow]
  rintro rfl
  rw [hfresh] at hrow
  cases hrow

/-- What the sections of the manager do to a row that is there. -/
theorem called_provider {input : QueueInput} {store store' : Store} {c : QueueCall}
    {sent : Option Job} {phase : QueuePhase} (h : Called input store c store' sent phase)
    {k : String} {row row' : Result} (hrow : store.result? k = some row)
    (hrow' : store'.result? k = some row') : row'.provider = row.provider := by
  have hsame : ∀ {row'}, store.result? k = some row' → row'.provider = row.provider := by
    intro row' h
    rw [hrow] at h
    obtain rfl := Option.some.inj h
    rfl
  cases h with
  | kept | sent | dropped => exact hsame hrow'
  | recorded status finished idle inserted =>
      rw [createResult_kept inserted hrow] at hrow'
      obtain rfl := Option.some.inj hrow'
      rfl
  | opened status idle inserted =>
      rw [createResult_kept inserted hrow] at hrow'
      obtain rfl := Option.some.inj hrow'
      rfl
  | finished at_ written => exact updateResult_provider written hrow hrow'

theorem worked_provider {input : WorkerInput} {store store' : Store} {phase phase' : Phase}
    (h : Worked input store phase store' phase') {k : String} {row row' : Result}
    (hrow : store.result? k = some row) (hrow' : store'.result? k = some row') :
    row'.provider = row.provider := by
  cases h with
  | kept | dropped =>
      rw [hrow] at hrow'
      obtain rfl := Option.some.inj hrow'
      rfl
  | moved held moves active written held' => exact updateResult_provider written hrow hrow'
  | finished at_ written => exact updateResult_provider written hrow hrow'

/-- A call holds the job it held, or one whose row it has just created. -/
theorem called_job {env : Env} {input : QueueInput} {store store' : Store} {length : ℕ}
    {c : QueueCall} {sent : Option Job} {phase : QueuePhase}
    (h : c.advance env input store length = some (store', sent, phase)) {job : Job}
    {status : ResultStatus} (hjob : phase.job? = some (job, status)) :
    c.phase.job? = some (job, status) ∨
      ∃ row, store'.result? job.resultID = some row ∧ row.provider = job.task.provider := by
  obtain ⟨taskID, trigger, scheduledAt, current⟩ := c
  cases current with
  | creating snapshot =>
      simp only [QueueCall.advance] at h
      split at h
      · obtain ⟨rfl, rfl, rfl⟩ := by simpa using h
        cases hjob
      · rename_i created written hcreated
        obtain ⟨rfl, rfl, rfl⟩ := by simpa using h
        obtain ⟨hnew, -, -, hrows, -⟩ := Store.createResult_ok (serve_eq_ok_iff.mp hcreated).2
        cases hjob
        refine .inr ⟨Store.storedResult created, ?_, ?_⟩
        · rw [hrows]
          exact if_pos rfl
        · rw [hnew]
          rfl
  | created snapshot result =>
      simp only [QueueCall.advance] at h
      split at h
      · obtain ⟨rfl, rfl, rfl⟩ := by simpa using h
        cases hjob
      · obtain ⟨rfl, rfl, rfl⟩ := by simpa using h
        exact .inl hjob
  | started | loaded | waiting | locked | skipping | overflow =>
      simp only [QueueCall.advance] at h
      repeat' split at h
      all_goals
        obtain ⟨rfl, rfl, rfl⟩ := by simpa using h
        cases hjob
  | returned result error => cases h

/-- A worker holds the job it held. -/
theorem worked_job {input : WorkerInput} {store store' : Store} {phase phase' : Phase}
    (h : Worked input store phase store' phase') {job : Job} {status : ResultStatus}
    (hjob : phase'.job? = some (job, status)) : ∃ before, phase.job? = some (job, before) := by
  cases h with
  | kept same => exact ⟨status, same ▸ hjob⟩
  | moved held moves active written held' =>
      rw [hjob] at held'
      obtain ⟨rfl, -⟩ := Prod.mk.inj (Option.some.inj held')
      exact ⟨_, held⟩
  | finished at_ written => cases hjob
  | dropped held lost => cases hjob

/-! ## Where a succeeded row comes from -/

section

variable {R : Type*} {A : Arithmetic R} {a : Adapters} {env : Env} {s₀ s t : State}

/-- A succeeded row was there before, or it holds the measurements of a run of its adapter
and they are samples. -/
def Traced (a : Adapters) (A : Arithmetic R) (s₀ : State) (k : String) (row : Result) : Prop :=
  row.status = .succeeded → s₀.store.result? k = some row ∨
    ∃ choice value, a.Answers row.provider (value, none) ∧
      validateProviderResult choice value = none ∧ Holds row value ∧ Sampled A value row

theorem traced_of_status {k : String} {row : Result} (h : row.status ≠ .succeeded) :
    Traced a A s₀ k row :=
  fun hsucceeded ↦ absurd hsucceeded h

structure Provenance (a : Adapters) (A : Arithmetic R) (s₀ s : State) : Prop where
  sound : Ledger.Sound lifecycle s.ledger
  provider : ∀ job ∈ s.jobs, ∀ row, s.store.result? job.1.resultID = some row →
    row.provider = job.1.task.provider
  phases : ∀ phase ∈ s.workers, phase.Measured a
  rows : ∀ k row, s.store.result? k = some row → Traced a A s₀ k row

/-- A step that adds no job without its row, keeps the providers and traces what it writes. -/
theorem Provenance.advance (hs : Provenance a A s₀ s) (hsound : Ledger.Sound lifecycle t.ledger)
    (hjobs : ∀ job ∈ t.jobs, (∃ status, (job.1, status) ∈ s.jobs) ∨
      ∃ row, t.store.result? job.1.resultID = some row ∧ row.provider = job.1.task.provider)
    (hprovider : ∀ k row row', s.store.result? k = some row → t.store.result? k = some row' →
      row'.provider = row.provider)
    (hphases : ∀ phase ∈ t.workers, phase.Measured a)
    (hrows : ∀ k row, t.store.result? k = some row →
      s.store.result? k = some row ∨ Traced a A s₀ k row) : Provenance a A s₀ t := by
  refine ⟨hsound, fun job hjob row hrow ↦ ?_, hphases, fun k row hrow ↦ ?_⟩
  · rcases hjobs job hjob with ⟨status, hbefore⟩ | ⟨row', hrow', hnew⟩
    · have hmem : (job.1.resultID, status) ∈ s.ledger.jobs :=
        Multiset.mem_map_of_mem jobKey hbefore
      obtain ⟨old, hold, -⟩ := row_of_job hs.sound hmem
      rw [hprovider _ old row hold hrow]
      exact hs.provider _ hbefore old hold
    · rw [hrow] at hrow'
      obtain rfl := Option.some.inj hrow'
      exact hnew
  · rcases hrows k row hrow with hsame | htraced
    · exact hs.rows k row hsame
    · exact htraced

theorem called_rows {input : QueueInput} {store store' : Store} {c : QueueCall}
    {sent : Option Job} {phase : QueuePhase} (h : Called input store c store' sent phase)
    {k : String} {row : Result} (hrow : store'.result? k = some row) :
    store.result? k = some row ∨ row.status ≠ .succeeded := by
  have hcreated : ∀ {result created uuid now}, result.status ≠ .succeeded →
      store.createResult result uuid now = .ok (created, store') →
        store.result? k = some row ∨ row.status ≠ .succeeded := by
    intro result created uuid now hstatus inserted
    obtain ⟨hnew, -, -, hrows, -⟩ := Store.createResult_ok inserted
    rw [hrows k] at hrow
    split at hrow
    · obtain rfl := Option.some.inj hrow
      rw [hnew]
      exact .inr hstatus
    · exact .inl hrow
  cases h with
  | kept | sent | dropped => exact .inl hrow
  | recorded status finished idle inserted => exact hcreated (by simp [status]) inserted
  | opened status idle inserted => exact hcreated (by simp [status]) inserted
  | finished at_ written =>
      obtain ⟨old, -, hrows, -⟩ := Store.updateResult_ok written
      rw [hrows k] at hrow
      split at hrow
      · obtain rfl := Option.some.inj hrow
        refine .inr fun h ↦ ?_
        cases h
      · exact .inl hrow

theorem Provenance.call (hs : Provenance a A s₀ s) {index : ℕ} {input : QueueInput}
    (h : step env s (.call index input) = some t) : Provenance a A s₀ t := by
  have hsound := (step_refines hs.sound h).sound hs.sound
  cases step_spec h with
  | refused statement => cases statement
  | @called _ _ c store sent phase at_ free advanced =>
      obtain ⟨rest, hbefore, hafter⟩ := jobs_called at_
      have hafter := hafter store sent phase (lockAfter index c.phase phase s.lock)
      have hcalled := advance_called advanced
      refine hs.advance hsound (fun job hjob ↦ ?_)
        (fun k row row' ↦ called_provider hcalled) hs.phases (fun k row hrow ↦ ?_)
      · have hheld : ∀ status, c.phase.job? = some (job.1, status) →
            ∃ status, (job.1, status) ∈ s.jobs := by
          intro status hstatus
          refine ⟨status, ?_⟩
          rw [hbefore, hstatus]
          simp
        rw [hafter, Multiset.mem_add, Multiset.mem_add] at hjob
        rcases hjob with hjob | hjob | hjob
        · have hjob : phase.job? = some (job.1, job.2) := by simpa using hjob
          exact (called_job advanced hjob).imp_left (hheld _)
        · cases hcalled with
          | kept | recorded | opened | finished | dropped => simp [queuedJobs] at hjob
          | @sent snapshot result at_ =>
              obtain rfl : job = (snapshot.job result.id, .queued) := by
                simpa [queuedJobs] using hjob
              exact .inl (hheld .queued (by rw [at_]; rfl))
        · refine .inl ⟨job.2, ?_⟩
          rw [hbefore]
          exact Multiset.mem_add.mpr (.inr hjob)
      · exact (called_rows hcalled hrow).imp_right traced_of_status

/-- What a worker writes is traced. -/
theorem Provenance.written (hs : Provenance a A s₀ s) {worker : ℕ} {input : WorkerInput}
    {phase phase' : Phase} {store : Store} (at_ : s.workers[worker]? = some phase)
    (h : Worked input s.store phase store phase') {k : String} {row : Result}
    (hrow : store.result? k = some row) :
    s.store.result? k = some row ∨ Traced a A s₀ k row := by
  cases h with
  | kept | dropped => exact .inl hrow
  | @moved job stored status result _ _ held moves active written held' =>
      obtain ⟨old, -, hrows, -⟩ := Store.updateResult_ok written
      rw [hrows k] at hrow
      split at hrow
      · obtain rfl := Option.some.inj hrow
        refine .inr (traced_of_status fun hsucceeded ↦ ?_)
        have hstatus : result.result.status = .succeeded := hsucceeded
        rw [result.status_eq] at hstatus
        rw [hstatus] at active
        cases active
      · exact .inl hrow
  | @finished job acquired write _ at_closing written =>
      obtain ⟨old, hold, hrows, -⟩ := Store.updateResult_ok written
      rw [hrows k] at hrow
      split at hrow
      · obtain rfl := Option.some.inj hrow
        refine .inr fun hsucceeded ↦ ?_
        have hmeasured : (Phase.closing job acquired write).Measured a :=
          at_closing ▸ hs.phases _ (List.mem_of_getElem? at_)
        obtain ⟨choice, value, before, started, finished, hanswers, hvalid, hresult⟩ :=
          hmeasured hsucceeded
        obtain ⟨rest, hjobs, -⟩ := jobs_worked at_
        have hprovider : old.provider = job.task.provider := by
          refine hs.provider (job, write.stored) ?_ old (write.id ▸ hold)
          rw [hjobs, at_closing]
          exact Multiset.mem_add.mpr (.inl (by simp [Phase.job?]))
        rw [← hprovider] at hanswers
        rw [hresult]
        have hvalue := acceptable_of_valid hvalid
        exact .inr ⟨choice, value, hanswers, hvalid,
          holds_succeededRow hvalue old before started finished,
          sampled_succeededRow A hvalue hanswers.current before started finished⟩
      · exact .inl hrow

theorem Provenance.work (hs : Provenance a A s₀ s) {worker : ℕ} {input : WorkerInput}
    (hanswered : Answered a s (.work worker input))
    (h : step env s (.work worker input) = some t) : Provenance a A s₀ t := by
  have hsound := (step_refines hs.sound h).sound hs.sound
  cases step_spec h with
  | refused statement => cases statement
  | @worked _ _ phase phase' store limiter at_ advanced =>
      obtain ⟨rest, hbefore, hafter⟩ := jobs_worked at_
      have hafter := hafter store limiter phase'
      have hworked := advance_worked advanced
      refine hs.advance hsound (fun job hjob ↦ ?_)
        (fun k row row' ↦ worked_provider hworked) (fun p hp ↦ ?_)
        (fun k row hrow ↦ hs.written at_ hworked hrow)
      · rw [hafter, Multiset.mem_add] at hjob
        rcases hjob with hjob | hjob
        · have hjob : phase'.job? = some (job.1, job.2) := by simpa using hjob
          obtain ⟨before, hheld⟩ := worked_job hworked hjob
          refine .inl ⟨before, ?_⟩
          rw [hbefore, hheld]
          simp
        · refine .inl ⟨job.2, ?_⟩
          rw [hbefore]
          exact Multiset.mem_add.mpr (.inr hjob)
      · rcases List.mem_or_eq_of_mem_set hp with hp | rfl
        · exact hs.phases p hp
        · exact advance_measured (hanswered phase at_) advanced

/-- A step of another component writes no row. -/
theorem Provenance.kept (hs : Provenance a A s₀ s) (hsound : Ledger.Sound lifecycle t.ledger)
    (hjobs : t.jobs = s.jobs) (hphases : ∀ phase ∈ t.workers, phase.Measured a)
    (hrows : ∀ k row, t.store.result? k = some row → s.store.result? k = some row) :
    Provenance a A s₀ t := by
  refine hs.advance hsound (fun job hjob ↦ .inl ⟨job.2, hjobs ▸ hjob⟩)
    (fun k row row' hrow hrow' ↦ ?_) hphases (fun k row hrow ↦ .inl (hrows k row hrow))
  rw [hrows k row' hrow'] at hrow
  obtain rfl := Option.some.inj hrow
  rfl

theorem Provenance.step {action : Action} (hs : Provenance a A s₀ s)
    (hanswered : Answered a s action) (h : Execution.step env s action = some t) :
    Provenance a A s₀ t := by
  have hsound := (step_refines hs.sound h).sound hs.sound
  cases step_spec h with
  | refused statement => exact hs
  | queued taskID trigger scheduledAt =>
      refine hs.kept hsound ?_ hs.phases fun k row hrow ↦ hrow
      simp [State.jobs, QueuePhase.job?]
  | called at_ free advanced => exact hs.call h
  | @received worker job rest at_ head =>
      refine hs.kept hsound (jobs_received at_ head) (fun phase hphase ↦ ?_) fun k row hrow ↦ hrow
      rcases List.mem_or_eq_of_mem_set hphase with hphase | rfl
      · exact hs.phases phase hphase
      · trivial
  | worked at_ advanced => exact hs.work hanswered h
  | executed allowed executed =>
      exact hs.kept hsound rfl hs.phases fun k row ↦ external_keeps_or_deletes allowed executed
  | scheduled executed =>
      obtain ⟨-, -, -, -, hsame⟩ := Store.updateTaskSchedule_ok executed
      exact hs.kept hsound rfl hs.phases fun k row hrow ↦ by rwa [← hsame.result? k]
  | configured executed =>
      obtain ⟨-, -, hresults, -⟩ := commit_eq_ok_iff.mp executed
      refine hs.kept hsound rfl hs.phases fun k row hrow ↦ ?_
      rwa [Store.result?, hresults] at hrow
  | @restarted now store recovered =>
      refine ⟨hsound, fun job hjob ↦ ?_, fun phase hphase ↦ ?_, fun k row hrow ↦ ?_⟩
      · rw [jobs_start] at hjob
        exact absurd hjob (Multiset.notMem_zero _)
      · rw [(List.mem_replicate.mp hphase).2]
        trivial
      · rw [restart_row h k] at hrow
        obtain ⟨before, hbefore, rfl⟩ := Option.map_eq_some_iff.mp hrow
        split
        · refine traced_of_status fun h ↦ ?_
          cases h
        · exact hs.rows k before hbefore

theorem provenance_start {store : Store} (h : RowsSound store) :
    Provenance a A (.start store) (.start store) := by
  refine ⟨sound_start h, fun job hjob ↦ ?_, fun phase hphase ↦ ?_,
    fun k row hrow _ ↦ .inl hrow⟩
  · rw [jobs_start] at hjob
    exact absurd hjob (Multiset.notMem_zero _)
  · rw [(List.mem_replicate.mp hphase).2]
    trivial

/-- In every run whose providers answer as their adapters do, each row that ends up
succeeded holds the measurements of a successful run of its adapter, and the statistics
take each of them as a sample; what the filters leave out is older throughput only. -/
theorem current_measurements_sampled (A : Arithmetic R) {actions : List Action} (h₀ : Initial s₀)
    (hanswered : Guarded (Execution.step env) (Answered a) s₀ actions)
    (hrun : Transition.run (Execution.step env) s₀ actions = some s) :
    (∀ k row, s.store.result? k = some row → row.status = .succeeded →
      s₀.store.result? k = some row ∨ ∃ choice value, a.Answers row.provider (value, none) ∧
        validateProviderResult choice value = none ∧ Holds row value ∧ Sampled A value row) ∧
    ∀ (result : StatisticsResult) (value : Option ℤ) (upload : Bool),
      throughputMetricCompatible result value upload = false ↔
        result.provider = .cloudflare ∧ upload = true ∧
            result.providerVersion = cloudflareLegacyUploadVersion ∨
          result.provider = .librespeed ∧
            contains result.providerVersion libreSpeedBitsMethodologyVersion = false ∧
            ∃ v, value = some v ∧ 0 ≤ v ∧ v < 100000 := by
  refine ⟨?_, incompatible_iff⟩
  obtain ⟨store, hrows, rfl⟩ := h₀
  have hs : Provenance a A (.start store) s :=
    guarded_run_invariant (Execution.step env) (fun _ _ _ hs hanswered h ↦ hs.step hanswered h)
      (provenance_start hrows) hanswered hrun
  exact hs.rows

end

/-! ## A run against the edge -/

/-- What the edge answers to each request of a run. -/
def edgeAnswers : ∀ c, Cloudflare.Call.Answer c
  | .now => (0 : Time)
  | .contextError => (none : Option Text)
  | .newDialer _ => (.ok () : Except Text Unit)
  | .trace => (.ok ("198.51.100.7", "AMS") : Except Text (String × String))
  | .latency => (.ok (12, "AMS") : Except Text (ℚ × String))
  | .download size => (.ok (67108864, size, "AMS") : Except Text (ℚ × ℤ × String))
  | .upload _ => (.ok (33554432, "AMS") : Except Text (ℚ × String))

/-- A run with the smallest cap. -/
def edgeRequest : Providers.RunRequest where
  interfaceName := "eth0"
  sourceIP := "192.0.2.10"
  ipFamily := "ipv4"
  target := ⟨"automatic", "", "", some []⟩
  timeoutSeconds := 60
  options := some [("maxPayloadBytes", .number 4194304)]

def edgeAdapter : Cloudflare.Adapter where
  round := roundDouble
  toInt64 := fun q ↦ q.num.tdiv q.den
  marshal := fun _ ↦ utf8 ("\x7b\"latencySamplesMs\":[12,12,12,12,12,12,12,12,12]," ++
    "\"downloadSamplesBps\":[67108864,67108864,67108864,67108864]," ++
    "\"uploadSamplesBps\":[33554432,33554432,33554432,33554432]," ++
    "\"downloadBytes\":1300000,\"uploadBytes\":1300000,\"publicIp\":\"198.51.100.7\"," ++
    "\"colo\":\"AMS\",\"methodology\":\"" ++ Cloudflare.methodologyVersion ++
    "\",\"payloadCapBytes\":4194304\x7d")

def edgeAdapters : Adapters := ⟨Terms.exampleAdapter, LibreSpeed.plainAdapter, edgeAdapter⟩

def edgeAnswer : RunAnswer := (Cloudflare.run edgeAdapter edgeRequest).eval edgeAnswers

def edgeInput : WorkerInput :=
  { workInput true with value := edgeAnswer.1, runError := edgeAnswer.2 }

def edgeRun : List Action := takenRun ++ List.replicate 9 (.work 0 edgeInput)

/-- What runs is a task of the provider. -/
def runsCloudflare (s : State) : Action → Bool
  | .work worker _ => (s.workers[worker]?).all fun phase ↦
      match phase with
      | .running job _ _ _ => decide (job.task.provider = .cloudflare)
      | _ => true
  | _ => true

theorem answered_edgeRun :
    Guarded (step offline) (Answered edgeAdapters) (.start oneTask) edgeRun := by
  have hruns : Guarded (step offline) (fun s action ↦ runsCloudflare s action = true)
      (.start oneTask) edgeRun := by
    decide +kernel
  refine Guarded.imp_of_mem (step offline) (fun s action haction hprovider ↦ ?_) hruns
  cases action with
  | work worker input =>
      obtain ⟨rfl, rfl⟩ : worker = 0 ∧ input = edgeInput := by
        simpa [edgeRun, takenRun] using haction
      intro phase hphase
      rw [runsCloudflare, hphase, Option.all_some] at hprovider
      cases phase with
      | running job timeout started result =>
          have hcloudflare : job.task.provider = .cloudflare := of_decide_eq_true hprovider
          rw [Phase.Answered, hcloudflare]
          exact ⟨edgeRequest, Program.returns_eval edgeAnswers _⟩
      | _ => trivial
  | _ => trivial

theorem current_measurements_sampled_edge : ∃ row,
    (oneTaskRun edgeRun).store.result? "run" = some row ∧
      row.downloadBitsPerSecond = some 67108864 ∧
      ∃ value, edgeAdapters.Answers .cloudflare (value, none) ∧ Holds row value ∧
        Sampled doubleArithmetic value row := by
  have hrun : Transition.run (step offline) (.start oneTask) edgeRun =
      some (oneTaskRun edgeRun) := run_oneTaskRun (by decide +kernel)
  obtain ⟨row, hrow⟩ := Option.isSome_iff_exists.mp
    (show ((oneTaskRun edgeRun).store.result? "run").isSome = true by decide +kernel)
  have hstatus : ((oneTaskRun edgeRun).store.result? "run").map Result.status =
      some .succeeded := by decide +kernel
  have hprovider : ((oneTaskRun edgeRun).store.result? "run").map Result.provider =
      some .cloudflare := by decide +kernel
  have hdownload : ((oneTaskRun edgeRun).store.result? "run").map Result.downloadBitsPerSecond =
      some (some 67108864) := by decide +kernel
  rw [hrow, Option.map_some, Option.some.injEq] at hstatus hprovider hdownload
  rcases (current_measurements_sampled doubleArithmetic ⟨oneTask, rowsSound_oneTask, rfl⟩
      answered_edgeRun hrun).1 "run" row hrow hstatus with hbefore | htraced
  · cases hbefore
  · obtain ⟨choice, value, hanswers, -, hholds, hsampled⟩ := htraced
    rw [hprovider] at hanswers
    exact ⟨row, hrow, hdownload, value, hanswers, hholds, hsampled⟩

end MultiSpeed.Execution
