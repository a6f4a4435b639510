import MultiSpeed.Database.Tasks

/-!
# Result statements

The functions of `internal/database/results.go` and `maintenance.go` that
create, overwrite and delete results.  Each has one lemma about the key map of
`results`.
-/

namespace MultiSpeed.Database

/-- The condition of the two result-metrics triggers. -/
def metricsRejected (result : Result) : Bool :=
  result.downloadBitsPerSecond.any (fun v ↦ decide (v < 0)) ||
    result.uploadBitsPerSecond.any (fun v ↦ decide (v < 0)) ||
    result.latencyMilliseconds.any (fun v ↦ v.lt 0) ||
    result.jitterMilliseconds.any (fun v ↦ v.lt 0) ||
    result.packetLossPercent.any (fun v ↦ v.lt 0 || v.gt 100) ||
    result.downloadBytes.any (fun v ↦ decide (v < 0)) ||
    result.uploadBytes.any (fun v ↦ decide (v < 0)) ||
    decide (result.executionDurationMS < 0)

/-- SQLite stores a NaN as `NULL`. -/
def storedReal (value : Option Float64) : Option Float64 := value.filter fun f ↦ !f.isNaN

/-- The zero `time.Time`, 0001-01-01T00:00:00Z. -/
def zeroTime : Time := -62135596800 * 1000000000

namespace Store

/-- The tables that no statement on `results` touches. -/
structure SameExceptResults (s s' : Store) : Prop where
  tasks : s'.tasks = s.tasks
  routes : s'.routes = s.routes
  settings : s'.settings = s.settings

theorem SameExceptResults.task? {s s' : Store} (h : SameExceptResults s s') (id : String) :
    s'.task? id = s.task? id := by
  simp [Store.task?, h.tasks]

/-- The end of a write to `results`. -/
def writeResults (s : Store) : Option ResultTable → Except StoreError Store
  | none => .error .constraint
  | some results => commit s.tasks s.routes results s.settings

theorem writeResults_ok {s s' : Store} {results : Option ResultTable}
    (h : s.writeResults results = .ok s') :
    results = some s'.results ∧ SameExceptResults s s' := by
  cases results with
  | none => simp [writeResults] at h
  | some results =>
      obtain ⟨htasks, hroutes, hresults, hsettings⟩ := commit_eq_ok_iff.mp h
      exact ⟨by rw [hresults], htasks, hroutes, hsettings⟩

/-! ## Statements -/

def getResult (s : Store) (id : String) : Except StoreError Result :=
  match s.result? id with
  | some result => .ok result
  | none => .error .notFound

theorem getResult_eq_ok_iff {s : Store} {id : String} {result : Result} :
    s.getResult id = .ok result ↔ s.result? id = some result := by
  unfold getResult
  cases s.result? id <;> simp

/-- The row `CreateResult` leaves. -/
def storedResult (result : Result) : Result :=
  { result with
    latencyMilliseconds := storedReal result.latencyMilliseconds
    jitterMilliseconds := storedReal result.jitterMilliseconds
    packetLossPercent := storedReal result.packetLossPercent }

/-- The identity and the queue time `CreateResult` fills in; `uuid` and `now`
are the answers of `uuid.NewString` and `time.Now`. -/
def newResult (result : Result) (uuid : String) (now : Time) : Result :=
  { result with
    id := if result.id = "" then uuid else result.id
    queuedAt := if result.queuedAt = zeroTime then now else result.queuedAt }

/-- The insert of `CreateResult`, which selects its values only where a live
task row exists. -/
def insertResult (s : Store) (result : Result) : Except StoreError Store :=
  match s.getTask result.taskID with
  | .error _ => .error .notFound
  | .ok _ =>
      if metricsRejected result then .error .constraint
      else s.writeResults (s.results.insert (storedResult result))

def createResult (s : Store) (result : Result) (uuid : String) (now : Time) :
    Except StoreError (Result × Store) :=
  if !encodableMap result.routeValidationSnapshot then .error .encoding
  else
    match s.insertResult (newResult result uuid now) with
    | .error e => .error e
    | .ok s' => .ok (newResult result uuid now, s')

/-- The columns `UpdateResult` sets. -/
def assignResult (result row : Result) : Result :=
  { row with
    scheduledAt := result.scheduledAt
    startedAt := result.startedAt
    finishedAt := result.finishedAt
    status := result.status
    downloadBitsPerSecond := result.downloadBitsPerSecond
    uploadBitsPerSecond := result.uploadBitsPerSecond
    latencyMilliseconds := storedReal result.latencyMilliseconds
    jitterMilliseconds := storedReal result.jitterMilliseconds
    packetLossPercent := storedReal result.packetLossPercent
    downloadBytes := result.downloadBytes
    uploadBytes := result.uploadBytes
    detectedPublicIP := result.detectedPublicIP
    serverID := result.serverID
    serverName := result.serverName
    serverHost := result.serverHost
    serverSponsor := result.serverSponsor
    serverLocation := result.serverLocation
    serverCountry := result.serverCountry
    providerResultURL := result.providerResultURL
    cloudflareColo := result.cloudflareColo
    routeValidationSnapshot := result.routeValidationSnapshot
    executionDurationMS := result.executionDurationMS
    processExitCode := result.processExitCode
    sanitizedError := result.sanitizedError
    rawProviderResponse := result.rawProviderResponse
    providerVersion := result.providerVersion
    applicationVersion := result.applicationVersion
    tlsVerificationDisabled := result.tlsVerificationDisabled }

/-- `UpdateResult`: an unconditional overwrite by identity. -/
def updateResult (s : Store) (result : Result) : Except StoreError Store :=
  if !encodableMap result.routeValidationSnapshot then .error .encoding
  else
    match s.result? result.id with
    | none => .error .notFound
    | some _ =>
        if metricsRejected result then .error .constraint
        else s.writeResults
          (s.results.update (fun row ↦ row.id = result.id) (assignResult result) fun _ ↦ rfl)

/-- The condition of a deletable row. -/
def deletable (id : String) (result : Result) : Bool :=
  result.id = id && result.status.terminal

def deleteResult (s : Store) (id : String) : Except StoreError Store :=
  if s.results.rows.any (deletable id) then
    s.writeResults (some (s.results.delete (deletable id)))
  else if s.results.rows.any fun result ↦ result.id = id && result.status.active then
    .error .active
  else .error .notFound

/-- `DeleteResults`: one transaction over at most 500 identities. -/
def deleteResults (s : Store) (ids : List String) : Except StoreError Store :=
  if ids.length = 0 ∨ 500 < ids.length then .error .badBatch
  else if s.results.rows.any fun result ↦
      decide (result.id ∈ ids) && result.status.active then
    .error .active
  else s.writeResults (some (s.results.delete fun result ↦
    decide (result.id ∈ ids) && result.status.terminal))

/-- `status IN (...) AND finished_at IS NOT NULL AND finished_at < cutoff`. -/
def expired (cutoff : Time) (result : Result) : Bool :=
  result.status.terminal && result.finishedAt.any fun finished ↦ decide (finished < cutoff)

/-- `SELECT id ... ORDER BY finished_at LIMIT batchSize`. -/
def expiredBatch (s : Store) (cutoff : Time) (batchSize : ℕ) : List String :=
  (((s.results.rows.filter (expired cutoff)).insertionSort fun first second ↦
    first.finishedAt.getD 0 ≤ second.finishedAt.getD 0).take batchSize).map Result.id

/-- `DeleteResultsBefore`. -/
def deleteResultsBefore (s : Store) (cutoff : Time) (batchSize : ℤ) :
    Except StoreError Store :=
  if batchSize < 1 ∨ 5000 < batchSize then .error .badBatch
  else s.writeResults (some (s.results.delete fun result ↦
    decide (result.id ∈ s.expiredBatch cutoff batchSize.toNat)))

/-- The columns `RecoverInterruptedResults` sets. -/
def assignInterrupted (now : Time) (row : Result) : Result :=
  { row with
    status := .cancelled
    finishedAt := some now
    sanitizedError := utf8 "MultiSpeed restarted before this execution completed." }

/-- `RecoverInterruptedResults`. -/
def recoverInterruptedResults (s : Store) (now : Time) : Except StoreError Store :=
  s.writeResults
    (s.results.update (fun row ↦ row.status.active) (assignInterrupted now) fun _ ↦ rfl)

/-! ## What the statements do -/

theorem createResult_ok {s s' : Store} {result created : Result} {uuid : String} {now : Time}
    (h : s.createResult result uuid now = .ok (created, s')) :
    created = newResult result uuid now ∧
      s.result? created.id = none ∧
      (∃ task, s.task? created.taskID = some task ∧ task.live = true) ∧
      (∀ k, s'.result? k =
        if created.id = k then some (storedResult created) else s.result? k) ∧
      SameExceptResults s s' := by
  unfold createResult at h
  split at h
  · cases h
  · split at h
    · cases h
    · rename_i u hu
      cases h
      unfold insertResult at hu
      split at hu
      · cases hu
      · rename_i task htask
        split at hu
        · cases hu
        · obtain ⟨hinsert, hsame⟩ := writeResults_ok hu
          exact ⟨rfl, Table.find?_none_of_insert hinsert,
            ⟨task, getTask_eq_ok_iff.mp htask⟩, Table.find?_insert hinsert, hsame⟩

theorem updateResult_ok {s s' : Store} {result : Result}
    (h : s.updateResult result = .ok s') :
    ∃ row, s.result? result.id = some row ∧
      (∀ k, s'.result? k =
        if result.id = k then some (assignResult result row) else s.result? k) ∧
      SameExceptResults s s' := by
  unfold updateResult at h
  split at h
  · cases h
  · split at h
    · cases h
    · rename_i row hrow
      split at h
      · cases h
      · obtain ⟨hupdate, hsame⟩ := writeResults_ok h
        refine ⟨row, hrow, fun k ↦ ?_, hsame⟩
        have hk := Table.find?_update hupdate k
        change s'.results.find? k = _
        rw [hk]
        by_cases hid : result.id = k
        · subst hid
          change (s.result? result.id).map _ = _
          rw [hrow]
          simp [result?_id hrow]
        · change (s.result? k).map _ = _
          rw [if_neg hid]
          cases hother : s.result? k with
          | none => rfl
          | some other =>
              have hne : other.id ≠ result.id :=
                fun heq ↦ hid (heq.symm.trans (result?_id hother))
              simp [hne]

theorem updateResult_ne_constraint {s : Store} {result : Result}
    (h : metricsRejected result = false) : s.updateResult result ≠ .error .constraint := by
  unfold updateResult
  split
  · simp
  · split
    · simp
    · rw [h]
      obtain ⟨results, hresults⟩ := Table.update_isSome (t := s.results)
        (p := fun row ↦ row.id = result.id) (f := assignResult result) (fun _ ↦ rfl)
        fun _ _ _ _ ↦ rfl
      have hrow : ∀ k row', results.find? k = some row' → ∃ row,
          s.results.find? k = some row ∧ row'.taskID = row.taskID ∧
            row'.routeProfileID = row.routeProfileID := by
        intro k row' hrow'
        rw [Table.find?_update hresults k, Option.map_eq_some_iff] at hrow'
        obtain ⟨row, hrow, rfl⟩ := hrow'
        refine ⟨row, hrow, ?_⟩
        split <;> exact ⟨rfl, rfl⟩
      obtain ⟨htask, hresult, hroute, hsettings⟩ := consistent_iff.mp s.isConsistent
      have hconsistent : consistent s.tasks s.routes results s.settings = true := by
        refine consistent_iff.mpr ⟨htask, fun k row' hrow' ↦ ?_, fun k row' hrow' ↦ ?_, hsettings⟩
        · obtain ⟨row, hold, hsame, -⟩ := hrow k row' hrow'
          rw [hsame]
          exact hresult k row hold
        · obtain ⟨row, hold, -, hsame⟩ := hrow k row' hrow'
          rw [hsame]
          exact hroute k row hold
      obtain ⟨s', hs'⟩ := commit_of_consistent hconsistent
      rw [hresults, if_neg Bool.false_ne_true, writeResults, hs']
      simp

/-- Every deletion keeps the rows it does not match and matches terminal rows
only. -/
structure DeletesTerminal (s s' : Store) : Prop where
  kept : ∀ k result, s'.result? k = some result → s.result? k = some result
  terminal : ∀ k result, s.result? k = some result → s'.result? k = none →
    result.status.terminal = true
  same : SameExceptResults s s'

private theorem deletesTerminal_of_write {s s' : Store} {p : Result → Bool}
    (hp : ∀ k result, s.result? k = some result → p result = true →
      result.status.terminal = true)
    (h : s.writeResults (some (s.results.delete p)) = .ok s') : DeletesTerminal s s' := by
  obtain ⟨hdelete, hsame⟩ := writeResults_ok h
  have hfind : ∀ k, s'.result? k = (s.result? k).filter fun row ↦ !p row := by
    intro k
    change s'.results.find? k = _
    rw [← Option.some.inj hdelete]
    exact Table.find?_delete _ _ _
  refine ⟨fun k result hk ↦ ?_, fun k result hk hnone ↦ ?_, hsame⟩
  · rw [hfind] at hk
    exact (Option.filter_eq_some_iff.mp hk).1
  · rw [hfind, hk] at hnone
    refine hp k result hk ?_
    by_contra hneg
    simp [Option.filter, hneg] at hnone

theorem deleteResult_ok {s s' : Store} {id : String} (h : s.deleteResult id = .ok s') :
    DeletesTerminal s s' := by
  unfold deleteResult at h
  split at h
  · refine deletesTerminal_of_write (fun k result _ hp ↦ ?_) h
    exact ((Bool.and_eq_true _ _).mp hp).2
  · split at h <;> cases h

theorem deleteResults_ok {s s' : Store} {ids : List String}
    (h : s.deleteResults ids = .ok s') : DeletesTerminal s s' := by
  unfold deleteResults at h
  split at h
  · cases h
  · split at h
    · cases h
    · refine deletesTerminal_of_write (fun k result _ hp ↦ ?_) h
      exact ((Bool.and_eq_true _ _).mp hp).2

theorem mem_expiredBatch {s : Store} {cutoff : Time} {batchSize : ℕ} {id : String}
    (h : id ∈ s.expiredBatch cutoff batchSize) :
    ∃ result, s.result? id = some result ∧ expired cutoff result = true := by
  obtain ⟨result, hmem, rfl⟩ := List.mem_map.mp h
  have hsorted := List.mem_of_mem_take hmem
  rw [(List.perm_insertionSort _ _).mem_iff, List.mem_filter] at hsorted
  exact ⟨result, Table.find?_of_mem hsorted.1, hsorted.2⟩

theorem deleteResultsBefore_ok {s s' : Store} {cutoff : Time} {batchSize : ℤ}
    (h : s.deleteResultsBefore cutoff batchSize = .ok s') : DeletesTerminal s s' := by
  unfold deleteResultsBefore at h
  split at h
  · cases h
  · refine deletesTerminal_of_write (fun k result hk hp ↦ ?_) h
    obtain ⟨row, hrow, hexpired⟩ := mem_expiredBatch (of_decide_eq_true hp)
    have hid := result?_id hk
    subst hid
    obtain rfl := Option.some.inj (hk.symm.trans hrow)
    exact ((Bool.and_eq_true _ _).mp hexpired).1

theorem recoverInterruptedResults_ok {s s' : Store} {now : Time}
    (h : s.recoverInterruptedResults now = .ok s') :
    (∀ k, s'.result? k = (s.result? k).map fun row ↦
      if row.status.active then assignInterrupted now row else row) ∧
      SameExceptResults s s' := by
  obtain ⟨hupdate, hsame⟩ := writeResults_ok h
  exact ⟨Table.find?_update hupdate, hsame⟩

end Store

end MultiSpeed.Database
