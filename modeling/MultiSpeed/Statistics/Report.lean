import MultiSpeed.Statistics.Accumulators

/-!
# Reports

What a query answers: summaries of the samples, buckets with their rates, groups and
the report itself.
-/

namespace MultiSpeed.Statistics

/-- Numeric fields are null when there are no samples. -/
structure Summary (R : Type*) where
  count : ℕ
  minimum : Option ℚ
  maximum : Option ℚ
  average : Option ℚ
  median : Option ℚ
  p95 : Option ℚ
  standardDeviation : Option R

structure Metrics (R : Type*) where
  downloadBitsPerSecond : Summary R
  uploadBitsPerSecond : Summary R
  latencyMilliseconds : Summary R
  jitterMilliseconds : Summary R
  packetLossPercent : Summary R
  executionDurationMilliseconds : Summary R

structure Bucket (R : Type*) where
  start : Time
  «end» : Time
  label : String
  resultID : String
  counts : Counts
  successRatePercent : Option ℚ
  failureRatePercent : Option ℚ
  metrics : Metrics R

structure Group (R : Type*) where
  key : String
  label : String
  overall : Bucket R
  buckets : List (Bucket R)

structure Report (R : Type*) where
  «from» : Time
  «to» : Time
  granularity : Granularity
  reportingTimezone : String
  groupBy : Dimension
  totalResults : ℕ
  overall : Bucket R
  groups : List (Group R)

section Finish

variable {R : Type*} (A : Arithmetic R)

def summarize (values : List ℚ) : Summary R :=
  if values.length = 0 then ⟨0, none, none, none, none, none, none⟩
  else
    let ordered := values.mergeSort fun a b ↦ decide (a ≤ b)
    let n := ordered.length
    let sum := ordered.foldl (fun sum value ↦ A.round (sum + value)) 0
    let average := A.round (sum / n)
    let median :=
      if n % 2 = 0 then
        A.round (A.round (ordered.getD (n / 2 - 1) 0 + ordered.getD (n / 2) 0) / 2)
      else ordered.getD (n / 2) 0
    -- the constant 0.95 is rounded before it is multiplied
    let p95Index := ⌈A.round (A.round (95 / 100) * n)⌉ - 1
    let p95Index := if p95Index < 0 then 0 else p95Index
    let squaredDifferences := ordered.foldl
      (fun sum value ↦
        let difference := A.round (value - average)
        A.round (sum + A.round (difference * difference))) 0
    ⟨n, some (ordered.getD 0 0), some (ordered.getD (n - 1) 0), some average, some median,
      some (ordered.getD p95Index.toNat 0), some (A.sqrt (A.round (squaredDifferences / n)))⟩

/-- The share of `part` among `completed` rows in percent. -/
def ratePercent (part completed : ℕ) : ℚ := A.round (A.round (part * 100) / completed)

def BucketAccumulator.finish (b : BucketAccumulator) : Bucket R :=
  let completed := b.counts.successful + b.counts.failed
  { start := b.descriptor.start
    «end» := b.descriptor.end
    label := b.descriptor.label
    resultID := b.descriptor.resultID
    counts := b.counts
    successRatePercent :=
      if 0 < completed then some (ratePercent A b.counts.successful completed) else none
    failureRatePercent :=
      if 0 < completed then some (ratePercent A b.counts.failed completed) else none
    metrics :=
      ⟨summarize A b.download, summarize A b.upload, summarize A b.latency,
        summarize A b.jitter, summarize A b.loss, summarize A b.duration⟩ }

/-- The map of buckets by key. -/
structure GroupAccumulator where
  key : String
  label : String
  overall : BucketAccumulator
  buckets : AList fun _ : String ↦ BucketAccumulator

/-- By start, then by result. -/
def bucketBefore (a b : BucketAccumulator) : Bool :=
  if a.descriptor.start = b.descriptor.start then
    decide (a.descriptor.resultID < b.descriptor.resultID)
  else decide (a.descriptor.start < b.descriptor.start)

/-- Two buckets of a group never compare equal, so the instability of the sort does
not show. -/
def GroupAccumulator.ordered (g : GroupAccumulator) : List BucketAccumulator :=
  (g.buckets.entries.map (·.2)).mergeSort fun a b ↦ !bucketBefore b a

def GroupAccumulator.finish (g : GroupAccumulator) : Group R :=
  ⟨g.key, g.label, g.overall.finish A, g.ordered.map (·.finish A)⟩

/-- By label, then by key. -/
def groupBefore (a b : GroupAccumulator) : Bool :=
  if a.label = b.label then decide (a.key < b.key) else decide (a.label < b.label)

end Finish

end MultiSpeed.Statistics
