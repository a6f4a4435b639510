import MultiSpeed.Statistics.Buckets
import Mathlib.Algebra.BigOperators.Group.Multiset.Basic
import Mathlib.Data.Rat.Floor

/-!
# Accumulators and summaries

A bucket accumulator counts rows by outcome and collects the samples of six metrics.
`add` contributes a fixed amount for each row, so an accumulator is determined by the
rows it was given.  Floating-point numbers are rationals; every operation of the code
is the exact one followed by a rounding, which is a parameter.
-/

namespace MultiSpeed.Statistics

open Scheduling (Location)

/-- Floating-point arithmetic: the rounding of exact results, and the square root. -/
structure Arithmetic (R : Type*) where
  round : ℚ → ℚ
  sqrt : ℚ → R

/-! ## Counts -/

structure Counts where
  total : ℕ
  successful : ℕ
  failed : ℕ
  skipped : ℕ
  cancelled : ℕ
  other : ℕ
  deriving DecidableEq

namespace Counts

instance : Zero Counts := ⟨⟨0, 0, 0, 0, 0, 0⟩⟩

instance : Add Counts :=
  ⟨fun a b ↦ ⟨a.total + b.total, a.successful + b.successful, a.failed + b.failed,
    a.skipped + b.skipped, a.cancelled + b.cancelled, a.other + b.other⟩⟩

@[ext] theorem ext {a b : Counts} (total : a.total = b.total)
    (successful : a.successful = b.successful) (failed : a.failed = b.failed)
    (skipped : a.skipped = b.skipped) (cancelled : a.cancelled = b.cancelled)
    (other : a.other = b.other) : a = b := by
  cases a
  cases b
  cases total
  cases successful
  cases failed
  cases skipped
  cases cancelled
  cases other
  rfl

instance : AddCommMonoid Counts where
  add_assoc a b c := ext (Nat.add_assoc ..) (Nat.add_assoc ..) (Nat.add_assoc ..)
    (Nat.add_assoc ..) (Nat.add_assoc ..) (Nat.add_assoc ..)
  zero_add a := ext (Nat.zero_add _) (Nat.zero_add _) (Nat.zero_add _) (Nat.zero_add _)
    (Nat.zero_add _) (Nat.zero_add _)
  add_zero _ := rfl
  add_comm a b := ext (Nat.add_comm ..) (Nat.add_comm ..) (Nat.add_comm ..)
    (Nat.add_comm ..) (Nat.add_comm ..) (Nat.add_comm ..)
  nsmul := nsmulRec

/-- The counters after one more row. -/
def count (c : Counts) (status : ResultStatus) : Counts :=
  let c := { c with total := c.total + 1 }
  match status with
  | .succeeded => { c with successful := c.successful + 1 }
  | .failed => { c with failed := c.failed + 1 }
  | .skipped => { c with skipped := c.skipped + 1 }
  | .cancelled => { c with cancelled := c.cancelled + 1 }
  | _ => { c with other := c.other + 1 }

theorem count_eq (c : Counts) (status : ResultStatus) : c.count status = c + count 0 status := by
  cases status <;> rfl

/-- The rows of an accumulator are divided among the five outcomes. -/
def Balanced (c : Counts) : Prop :=
  c.total = c.successful + c.failed + c.skipped + c.cancelled + c.other

theorem Balanced.count {c : Counts} (h : c.Balanced) (status : ResultStatus) :
    (c.count status).Balanced := by
  unfold Balanced at h ⊢
  cases status <;> simp only [Counts.count] <;> omega

end Counts

/-! ## Samples -/

inductive Metric where
  | download
  | upload
  | latency
  | jitter
  | loss
  | duration
  deriving DecidableEq, Repr

structure BucketAccumulator where
  descriptor : BucketDescriptor
  counts : Counts
  download : List ℚ
  upload : List ℚ
  latency : List ℚ
  jitter : List ℚ
  loss : List ℚ
  duration : List ℚ

def libreSpeedBitsMethodologyVersion : String := "multispeed-bps-v2"

def cloudflareLegacyUploadVersion : String := "cloudflare-native-bounded-v1"

/-- `strings.Contains` -/
def contains (value part : String) : Bool := decide (part.toList <:+: value.toList)

def throughputMetricCompatible (result : StatisticsResult) (value : Option ℤ) (upload : Bool) :
    Bool :=
  if result.provider = .cloudflare ∧ upload = true ∧
      result.providerVersion = cloudflareLegacyUploadVersion then false
  else if result.provider = .librespeed ∧
      contains result.providerVersion libreSpeedBitsMethodologyVersion = false ∧
      value.any (fun v ↦ decide (0 ≤ v ∧ v < 100000)) = true then false
  else true

section Samples

variable {R : Type*} (A : Arithmetic R)

def appendIntegerMetric (destination : List ℚ) : Option ℤ → List ℚ
  | none => destination
  | some value => if value < 0 then destination else destination ++ [A.round value]

def appendFloatMetric (destination : List ℚ) : Option Float64 → List ℚ
  | some (.finite value) => if value < 0 then destination else destination ++ [value]
  | _ => destination

namespace BucketAccumulator

def new (descriptor : BucketDescriptor) : BucketAccumulator :=
  ⟨descriptor, 0, [], [], [], [], [], []⟩

/-- The run took place, so that its duration means something. -/
def executed (result : StatisticsResult) : Bool :=
  decide (0 ≤ result.executionDurationMS ∧ (result.status = .succeeded ∨
    result.status = .failed ∨ result.status = .cancelled))

/-- Only a succeeded row has samples besides its duration. -/
def add (b : BucketAccumulator) (result : StatisticsResult) : BucketAccumulator :=
  let succeeded := decide (result.status = .succeeded)
  { descriptor := b.descriptor
    counts := b.counts.count result.status
    duration :=
      if executed result then b.duration ++ [A.round result.executionDurationMS]
      else b.duration
    download :=
      if succeeded && throughputMetricCompatible result result.downloadBitsPerSecond false then
        appendIntegerMetric A b.download result.downloadBitsPerSecond
      else b.download
    upload :=
      if succeeded && throughputMetricCompatible result result.uploadBitsPerSecond true then
        appendIntegerMetric A b.upload result.uploadBitsPerSecond
      else b.upload
    latency :=
      if succeeded then appendFloatMetric b.latency result.latencyMilliseconds else b.latency
    jitter :=
      if succeeded then appendFloatMetric b.jitter result.jitterMilliseconds else b.jitter
    loss := if succeeded then appendFloatMetric b.loss result.packetLossPercent else b.loss }

def samples (b : BucketAccumulator) : Metric → List ℚ
  | .download => b.download
  | .upload => b.upload
  | .latency => b.latency
  | .jitter => b.jitter
  | .loss => b.loss
  | .duration => b.duration

end BucketAccumulator

/-! ## What a row contributes -/

/-- The samples of one row. -/
def contribution (result : StatisticsResult) (m : Metric) : List ℚ :=
  ((BucketAccumulator.new ⟨"", "", "", 0, 0⟩).add A result).samples m

theorem appendIntegerMetric_eq (destination : List ℚ) (value : Option ℤ) :
    appendIntegerMetric A destination value =
      destination ++ appendIntegerMetric A [] value := by
  cases value with
  | none => exact (List.append_nil _).symm
  | some value =>
      simp only [appendIntegerMetric]
      split
      · exact (List.append_nil _).symm
      · rfl

theorem appendFloatMetric_eq (destination : List ℚ) (value : Option Float64) :
    appendFloatMetric destination value = destination ++ appendFloatMetric [] value := by
  unfold appendFloatMetric
  split
  · split
    · exact (List.append_nil _).symm
    · rfl
  · exact (List.append_nil _).symm

namespace BucketAccumulator

variable (b : BucketAccumulator) (result : StatisticsResult)

theorem add_counts : (b.add A result).counts = b.counts.count result.status := rfl

theorem add_samples (m : Metric) :
    (b.add A result).samples m = b.samples m ++ contribution A result m := by
  cases m with
  | download | upload =>
      change (if _ then appendIntegerMetric A _ _ else _) =
        _ ++ (if _ then appendIntegerMetric A [] _ else [])
      split
      · exact appendIntegerMetric_eq A _ _
      · exact (List.append_nil _).symm
  | latency | jitter | loss =>
      change (if _ then appendFloatMetric _ _ else _) =
        _ ++ (if _ then appendFloatMetric [] _ else [])
      split
      · exact appendFloatMetric_eq _ _
      · exact (List.append_nil _).symm
  | duration =>
      change (if _ then _ ++ [_] else _) = _ ++ (if _ then [] ++ [_] else [])
      split
      · rfl
      · exact (List.append_nil _).symm

end BucketAccumulator

/-! ## Accumulated rows -/

/-- The accumulator that was given these rows. -/
def accumulate (descriptor : BucketDescriptor) (rows : List StatisticsResult) :
    BucketAccumulator :=
  rows.foldl (BucketAccumulator.add A) (.new descriptor)

variable (descriptor : BucketDescriptor) (rows : List StatisticsResult)

theorem accumulate_concat (result : StatisticsResult) :
    accumulate A descriptor (rows ++ [result]) = (accumulate A descriptor rows).add A result :=
  List.foldl_concat _ _ _ _

theorem accumulate_counts : (accumulate A descriptor rows).counts =
    (rows.map fun r ↦ Counts.count 0 r.status).sum := by
  induction rows using List.reverseRecOn with
  | nil => rfl
  | append_singleton rows r ih =>
      rw [accumulate_concat, BucketAccumulator.add_counts, ih, Counts.count_eq, List.map_append,
        List.sum_append, List.map_singleton, List.sum_singleton]

/-- The samples as a multiset, since their order does not matter. -/
theorem accumulate_samples (m : Metric) :
    ((accumulate A descriptor rows).samples m : Multiset ℚ) =
      (rows.map fun r ↦ (contribution A r m : Multiset ℚ)).sum := by
  induction rows using List.reverseRecOn with
  | nil => cases m <;> rfl
  | append_singleton rows r ih =>
      rw [accumulate_concat, BucketAccumulator.add_samples, ← Multiset.coe_add, ih,
        List.map_append, List.sum_append, List.map_singleton, List.sum_singleton]

theorem accumulate_balanced : (accumulate A descriptor rows).counts.Balanced := by
  induction rows using List.reverseRecOn with
  | nil => rfl
  | append_singleton rows r ih =>
      rw [accumulate_concat, BucketAccumulator.add_counts]
      exact ih.count r.status

theorem accumulate_total : (accumulate A descriptor rows).counts.total = rows.length := by
  induction rows using List.reverseRecOn with
  | nil => rfl
  | append_singleton rows r ih =>
      rw [accumulate_concat, BucketAccumulator.add_counts, List.length_append, ← ih]
      cases r.status <;> rfl

end Samples

end MultiSpeed.Statistics
