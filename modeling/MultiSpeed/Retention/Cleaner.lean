import MultiSpeed.Database.Dashboard
import MultiSpeed.Retention.Cutoff

/-!
# The cleanup of expired results

`runBefore` of `internal/retention/retention.go` over `DeleteResultsBefore` of the store:
batches of the oldest expired results until one is short or their number is used up.
Each batch takes the least rows that are left, so that after every batch the deleted rows
are the least of all that the condition selects.  The condition compares texts.
-/

namespace MultiSpeed.Retention

open Database Gregorian Statistics

/-! ## The store -/

/-- `DeleteResultsBefore`, with `RowsAffected`. -/
def deleteResultsBefore (s : Store) (cutoff : Time) (batchSize : ℤ) :
    Except StoreError (Store × ℤ) :=
  if batchSize < 1 ∨ 5000 < batchSize then .error .badBatch
  else
    match s.writeResults (some (s.results.delete fun result ↦
        decide (result.id ∈ expiredIDs s cutoff batchSize.toNat))) with
    | .error e => .error e
    | .ok s' => .ok (s', (s.results.rows.length : ℤ) - s'.results.rows.length)

/-! ## The cleaner -/

structure Config where
  batchSize : ℤ
  maxBatches : ℤ
  runMaintenance : Bool

def defaultBatchSize : ℤ := 500
def defaultMaxBatches : ℤ := 100
def maximumBatchSize : ℤ := 5000
def maximumBatches : ℤ := 10000

/-- A configuration that `New` accepts. -/
structure Cleaner extends Config where
  batchSize_mem : 1 ≤ batchSize ∧ batchSize ≤ maximumBatchSize
  maxBatches_mem : 1 ≤ maxBatches ∧ maxBatches ≤ maximumBatches

inductive ConfigError where
  /-- retention batch size must be between 1 and 5000 -/
  | batchSize
  /-- retention max batches must be between 1 and 10000 -/
  | maxBatches
  deriving DecidableEq

/-- `New`, for a store that has the maintenance methods. -/
def new (config : Config) : Except ConfigError Cleaner :=
  let batchSize := if config.batchSize = 0 then defaultBatchSize else config.batchSize
  let maxBatches := if config.maxBatches = 0 then defaultMaxBatches else config.maxBatches
  if hsize : 1 ≤ batchSize ∧ batchSize ≤ maximumBatchSize then
    if hmax : 1 ≤ maxBatches ∧ maxBatches ≤ maximumBatches then
      .ok ⟨⟨batchSize, maxBatches, config.runMaintenance⟩, hsize, hmax⟩
    else .error .maxBatches
  else .error .batchSize

/-- What happens at one turn of the loop. -/
inductive Call where
  /-- The context is done before the batch. -/
  | cancelled
  /-- The statement fails and changes nothing. -/
  | failed
  | served
  deriving DecidableEq

inductive CleanupError where
  | context
  /-- delete expired result batch -/
  | delete
  /-- retention store returned invalid batch count -/
  | badCount (deleted : ℤ)
  /-- post-retention database maintenance -/
  | maintenance
  deriving DecidableEq

structure Progress where
  store : Store
  batches : ℤ
  deletedResults : ℤ
  limitReached : Bool

section Loop

variable (cleaner : Cleaner) (cutoff : Time) (calls : ℕ → Call)

/-- The loop of `runBefore` with `left` turns to go. -/
def deleteBatches : ℕ → ℕ → Progress → Progress × Option CleanupError
  | 0, _, p => (p, none)
  | left + 1, batch, p =>
      match calls batch with
      | .cancelled => (p, some .context)
      | .failed => ({ p with batches := p.batches + 1 }, some .delete)
      | .served =>
          match deleteResultsBefore p.store cutoff cleaner.batchSize with
          | .error _ => ({ p with batches := p.batches + 1 }, some .delete)
          | .ok (store, deleted) =>
              if deleted < 0 ∨ cleaner.batchSize < deleted then
                ({ p with store := store, batches := p.batches + 1 }, some (.badCount deleted))
              else if deleted < cleaner.batchSize then
                ({ p with
                    store := store
                    batches := p.batches + 1
                    deletedResults := p.deletedResults + deleted }, none)
              else deleteBatches left (batch + 1)
                { store := store
                  batches := p.batches + 1
                  deletedResults := p.deletedResults + deleted
                  limitReached := p.limitReached ||
                    decide ((batch : ℤ) = cleaner.maxBatches - 1) }

end Loop

/-- The answers a run gets: each turn, `Checkpoint`, `Optimize` and the clock at the end. -/
structure Answers where
  calls : ℕ → Call
  checkpoint : Bool
  optimize : Bool
  finishedAt : Time

structure Metrics where
  mode : String
  cutoff : Option Time
  startedAt : Time
  finishedAt : Time
  duration : ℤ
  batches : ℤ
  deletedResults : ℤ
  limitReached : Bool
  maintenancePerformed : Bool

def metricsOf (mode : String) (cutoff startedAt finishedAt : Time) (p : Progress)
    (maintenance : Bool) : Metrics where
  mode := mode
  cutoff := some cutoff
  startedAt := startedAt
  finishedAt := finishedAt
  duration := if finishedAt - startedAt < 0 then 0 else finishedAt - startedAt
  batches := p.batches
  deletedResults := p.deletedResults
  limitReached := p.limitReached
  maintenancePerformed := maintenance

/-- What a run returns, and the store it leaves. -/
structure Cleanup where
  metrics : Metrics
  error : Option CleanupError
  store : Store

def runBefore (cleaner : Cleaner) (mode : String) (cutoff startedAt : Time) (answers : Answers)
    (s : Store) : Cleanup :=
  let finish := metricsOf mode cutoff startedAt answers.finishedAt
  match deleteBatches cleaner cutoff answers.calls cleaner.maxBatches.toNat 0 ⟨s, 0, 0, false⟩ with
  | (p, some e) => ⟨finish p false, some e, p.store⟩
  | (p, none) =>
      if !cleaner.runMaintenance then ⟨finish p false, none, p.store⟩
      else if answers.checkpoint && answers.optimize then ⟨finish p true, none, p.store⟩
      else ⟨finish p false, some .maintenance, p.store⟩

/-! ## What a cleanup should do -/

/-- The results that finished before the cutoff. -/
def expiredRows (s : Store) (cutoff : Time) : List Result :=
  s.results.rows.filter (Store.expired cutoff)

/-- A cleanup that deletes the oldest expired results, as many as it may, and says so. -/
structure Bounded (cleaner : Cleaner) (cutoff : Time) (s : Store) (run : Cleanup) : Prop where
  count : run.store.results.rows.length +
    min (expiredRows s cutoff).length (cleaner.batchSize * cleaner.maxBatches).toNat =
      s.results.rows.length
  kept : ∀ row ∈ run.store.results.rows, row ∈ s.results.rows
  only : ∀ row ∈ s.results.rows, row ∉ run.store.results.rows → Store.expired cutoff row = true
  oldest : ∀ row ∈ run.store.results.rows, Store.expired cutoff row = true →
    ∀ gone ∈ s.results.rows, gone ∉ run.store.results.rows →
      ∀ finished ∈ row.finishedAt, ∀ earlier ∈ gone.finishedAt, earlier ≤ finished
  others : Store.SameExceptResults s run.store
  reported : run.metrics.deletedResults =
    (min (expiredRows s cutoff).length (cleaner.batchSize * cleaner.maxBatches).toNat : ℕ)
  batches : run.metrics.batches ≤ cleaner.maxBatches
  complete : run.metrics.limitReached = false →
    ∀ row ∈ run.store.results.rows, Store.expired cutoff row = false

/-- The store after so many batches that nothing disturbs. -/
def afterBatches (cleaner : Cleaner) (cutoff : Time) (s : Store) : ℕ → Store
  | 0 => s
  | k + 1 =>
      match deleteResultsBefore (afterBatches cleaner cutoff s k) cutoff cleaner.batchSize with
      | .error _ => afterBatches cleaner cutoff s k
      | .ok (store, _) => store

/-- A run leaves what so many batches leave, and reports the rows that are gone. -/
structure Partial (cleaner : Cleaner) (cutoff : Time) (s : Store) (run : Cleanup) (k : ℕ) :
    Prop where
  turns : (k : ℤ) ≤ cleaner.maxBatches
  store : run.store = afterBatches cleaner cutoff s k
  /-- A batch whose statement failed is counted. -/
  batches : run.metrics.batches = k + if run.error = some .delete then 1 else 0
  reported : run.metrics.deletedResults =
    (s.results.rows.length : ℤ) - run.store.results.rows.length

/-- The answers of a run without an error. -/
def undisturbed (finishedAt : Time) : Answers := ⟨fun _ ↦ .served, true, true, finishedAt⟩

/-- The text of the cutoff selects every result that finished before it, or enough
results for all batches. -/
def TextSelects (cleaner : Cleaner) (cutoff : Time) (s : Store) : Prop :=
  (∀ row ∈ s.results.rows, Store.expired cutoff row = true → expiredWhere cutoff row = true) ∨
    cleaner.batchSize * cleaner.maxBatches ≤ (s.results.rows.filter (expiredWhere cutoff)).length

end MultiSpeed.Retention
