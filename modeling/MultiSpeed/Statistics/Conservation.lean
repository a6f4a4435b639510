import MultiSpeed.Lib.Doubles
import MultiSpeed.Lib.Grouping
import MultiSpeed.Statistics.Intervals
import MultiSpeed.Statistics.Service
import Mathlib.Analysis.Real.Sqrt

/-!
# Conservation

At every moment of a walk the three levels of accumulators hold the same rows: the
report all of them, each group those of its key and each bucket those of its key within
the group.  Totals and samples of one level are therefore the sums over the level below.
-/

namespace MultiSpeed.Statistics

open Grouping
open Scheduling (Location Env)

section Accumulated

variable {R : Type*} (A : Arithmetic R) (query : NormalizedQuery) (location : Location)

def groupKey (result : StatisticsResult) : String := (comparisonGroup result query.groupBy).1

def bucketKey (result : StatisticsResult) : String := (describeBucket result query location).key

/-- A bucket holds its rows under the descriptor of the first of them. -/
def BucketMade (_ : String) (rows : List StatisticsResult) (b : BucketAccumulator) : Prop :=
  ∃ r rest, rows = r :: rest ∧ b = accumulate A (describeBucket r query location) rows

/-- A group holds its rows, in whole and by bucket. -/
structure GroupMade (key : String) (rows : List StatisticsResult) (g : GroupAccumulator) :
    Prop where
  key_eq : g.key = key
  overall : g.overall = accumulate A (fullRangeBucket query) rows
  buckets : Groups (bucketKey query location) (BucketMade A query location) rows g.buckets.lookup

/-- The accumulators after the rows that were counted. -/
structure Accumulated (rows : List StatisticsResult) (acc : Accumulation) : Prop where
  totalResults : acc.totalResults = rows.length
  overall : acc.overall = accumulate A (fullRangeBucket query) rows
  groups : Groups (groupKey query) (GroupMade A query location) rows acc.groups.lookup

variable {A query location}

theorem Accumulated.start : Accumulated A query location [] (.start query) := ⟨rfl, rfl, .nil⟩

theorem BucketMade.first (k : String) (r : StatisticsResult) :
    BucketMade A query location k [r]
      ((BucketAccumulator.new (describeBucket r query location)).add A r) :=
  ⟨r, [], rfl, rfl⟩

theorem BucketMade.concat {k : String} {rows : List StatisticsResult} {b : BucketAccumulator}
    (h : BucketMade A query location k rows b) (r : StatisticsResult) :
    BucketMade A query location k (rows ++ [r]) (b.add A r) := by
  obtain ⟨first, rest, rfl, rfl⟩ := h
  exact ⟨first, rest ++ [r], rfl, (accumulate_concat A _ _ r).symm⟩

/-- The row enters one bucket of its group. -/
theorem visitGroup_spec {rows : List StatisticsResult} {acc : Accumulation}
    (h : Accumulated A query location rows acc) {r : StatisticsResult} {g : GroupAccumulator}
    {points : ℕ} (hvisit : visitGroup A query location acc r = .ok (g, points)) :
    g.key = groupKey query r ∧
      g.overall = accumulate A (fullRangeBucket query) (fiber (groupKey query) rows
        (groupKey query r)) ∧
      Groups (bucketKey query location) (BucketMade A query location)
        (fiber (groupKey query) rows (groupKey query r) ++ [r]) g.buckets.lookup := by
  unfold visitGroup at hvisit
  dsimp only at hvisit
  split at hvisit
  · rename_i hlookup
    have hempty := h.groups.of_none hlookup
    split at hvisit
    · cases hvisit
    · cases hvisit
      have hfiber : fiber (groupKey query) rows (groupKey query r) = [] := hempty
      rw [hfiber]
      rw [← AList.insert_empty]
      exact ⟨rfl, rfl, Groups.nil.concat (.first _ r) (AList.lookup_insert _)
        fun k hk ↦ AList.lookup_insert_ne hk⟩
  · rename_i group hlookup
    obtain ⟨-, hmade⟩ := h.groups.of_some hlookup
    split at hvisit
    · rename_i hbucket
      split at hvisit
      · cases hvisit
      · cases hvisit
        have hfirst : BucketMade A query location (bucketKey query location r)
            (fiber (bucketKey query location) (fiber (groupKey query) rows (groupKey query r))
              (bucketKey query location r) ++ [r])
            ((BucketAccumulator.new (describeBucket r query location)).add A r) := by
          have hfiber : fiber (bucketKey query location) (fiber (groupKey query) rows
              (groupKey query r)) (bucketKey query location r) = [] :=
            hmade.buckets.of_none hbucket
          rw [hfiber]
          exact .first _ r
        exact ⟨hmade.key_eq, hmade.overall, hmade.buckets.concat hfirst
          (AList.lookup_insert _) fun k hk ↦ AList.lookup_insert_ne hk⟩
    · rename_i bucket hbucket
      cases hvisit
      obtain ⟨-, hbucketMade⟩ := hmade.buckets.of_some hbucket
      exact ⟨hmade.key_eq, hmade.overall, hmade.buckets.concat (hbucketMade.concat r)
        (AList.lookup_insert _) fun k hk ↦ AList.lookup_insert_ne hk⟩

/-- A visit counts a row of the range at all three levels and leaves out any other. -/
theorem visit_spec {rows : List StatisticsResult} {acc acc' : Accumulation}
    (h : Accumulated A query location rows acc) {r : StatisticsResult}
    (hvisit : visit A query location acc r = .ok acc') :
    Accumulated A query location (rows ++ [r].filter (inRange query)) acc' := by
  unfold visit at hvisit
  split at hvisit
  · cases hvisit
  · split at hvisit
    · rename_i hout
      cases hvisit
      have hin : ¬inRange query r = true := by simpa using hout
      rwa [List.filter_cons_of_neg hin, List.filter_nil, List.append_nil]
    · rename_i hin
      have hin : inRange query r = true := by simpa using hin
      rw [List.filter_cons_of_pos hin, List.filter_nil]
      dsimp only at hvisit
      split at hvisit
      · cases hvisit
      · split at hvisit
        · cases hvisit
        · rename_i g points hgroup
          cases hvisit
          obtain ⟨hkey, hoverall, hbuckets⟩ := visitGroup_spec h hgroup
          have hmade : GroupMade A query location (groupKey query r)
              (fiber (groupKey query) rows (groupKey query r) ++ [r])
              { g with overall := g.overall.add A r } := by
            refine ⟨hkey, ?_, hbuckets⟩
            rw [accumulate_concat, ← hoverall]
          constructor
          · rw [List.length_append, ← h.totalResults]
            rfl
          · rw [accumulate_concat, ← h.overall]
          · exact h.groups.concat hmade (AList.lookup_insert _)
              fun k hk ↦ AList.lookup_insert_ne hk

theorem visitAll_spec {rows : List StatisticsResult} {acc acc' : Accumulation}
    (h : Accumulated A query location rows acc) {stream : List StatisticsResult}
    (hvisit : visitAll A query location acc stream = .ok acc') :
    Accumulated A query location (rows ++ stream.filter (inRange query)) acc' := by
  induction stream generalizing rows acc with
  | nil =>
      cases hvisit
      rwa [List.filter_nil, List.append_nil]
  | cons r rest ih =>
      rw [visitAll] at hvisit
      split at hvisit
      · cases hvisit
      · rename_i next hstep
        have hrest := ih (visit_spec h hstep) hvisit
        rwa [List.append_assoc, ← List.filter_append] at hrest

theorem visit_le {acc acc' : Accumulation} (h : acc.totalResults ≤ maxStatisticsResults)
    {r : StatisticsResult} (hvisit : visit A query location acc r = .ok acc') :
    acc'.totalResults ≤ maxStatisticsResults := by
  unfold visit at hvisit
  split at hvisit
  · cases hvisit
  · rename_i hroom
    split at hvisit
    · cases hvisit
      exact h
    · dsimp only at hvisit
      split at hvisit
      · cases hvisit
      · split at hvisit
        · cases hvisit
        · cases hvisit
          exact Nat.lt_of_not_le hroom

theorem visitAll_le {acc acc' : Accumulation} (h : acc.totalResults ≤ maxStatisticsResults)
    {stream : List StatisticsResult} (hvisit : visitAll A query location acc stream = .ok acc') :
    acc'.totalResults ≤ maxStatisticsResults := by
  induction stream generalizing acc with
  | nil =>
      cases hvisit
      exact h
  | cons r rest ih =>
      rw [visitAll] at hvisit
      split at hvisit
      · cases hvisit
      · rename_i next hstep
        exact ih (visit_le h hstep) hvisit

end Accumulated

/-! ## What the accumulators hold -/

section Holdings

variable {R : Type*} (A : Arithmetic R) (query : NormalizedQuery) (location : Location)

/-- Every row is counted once in the whole, once in exactly one group and once in exactly
one bucket of that group, and nothing else is counted. -/
structure CountedOnce (rows : List StatisticsResult) (acc : Accumulation) : Prop where
  overall : acc.overall = accumulate A (fullRangeBucket query) rows
  one_group : ∀ r ∈ rows, ∃! e, e ∈ acc.groups.entries ∧ e.1 = groupKey query r
  group : ∀ e ∈ acc.groups.entries,
    e.2.overall = accumulate A (fullRangeBucket query) (fiber (groupKey query) rows e.1)
  one_bucket : ∀ e ∈ acc.groups.entries, ∀ r ∈ fiber (groupKey query) rows e.1,
    ∃! b, b ∈ e.2.buckets.entries ∧ b.1 = bucketKey query location r
  bucket : ∀ e ∈ acc.groups.entries, ∀ b ∈ e.2.buckets.entries, ∃ descriptor,
    b.2 = accumulate A descriptor
      (fiber (bucketKey query location) (fiber (groupKey query) rows e.1) b.1)

/-- The samples of a level are those of the level below. -/
structure SamplesConserved (acc : Accumulation) : Prop where
  group : ∀ e ∈ acc.groups.entries, ∀ m, (e.2.overall.samples m : Multiset ℚ) =
    (e.2.buckets.entries.map fun b ↦ (b.2.samples m : Multiset ℚ)).sum
  report : ∀ m, (acc.overall.samples m : Multiset ℚ) =
    (acc.groups.entries.map fun e ↦ (e.2.overall.samples m : Multiset ℚ)).sum

variable {A query location}

theorem one_entry {γ : Type} {key : StatisticsResult → String}
    {made : String → List StatisticsResult → γ → Prop} {rows : List StatisticsResult}
    {map : AList fun _ : String ↦ γ} (h : Groups key made rows map.lookup)
    {r : StatisticsResult} (hr : r ∈ rows) :
    ∃! e, e ∈ map.entries ∧ e.1 = key r := by
  obtain ⟨g, hg⟩ := h.exists_of_mem hr
  refine ⟨⟨key r, g⟩, ⟨AList.mem_lookup_iff.mp hg, rfl⟩, ?_⟩
  rintro ⟨k, g'⟩ ⟨he, hk⟩
  obtain rfl : k = key r := hk
  obtain rfl := Option.some.inj (hg.symm.trans (AList.mem_lookup_iff.mpr he))
  rfl

theorem Accumulated.group {rows : List StatisticsResult} {acc : Accumulation}
    (h : Accumulated A query location rows acc) {e : (_ : String) × GroupAccumulator}
    (he : e ∈ acc.groups.entries) :
    GroupMade A query location e.1 (fiber (groupKey query) rows e.1) e.2 :=
  (h.groups.of_some (AList.mem_lookup_iff.mpr he)).2

theorem Accumulated.countedOnce {rows : List StatisticsResult} {acc : Accumulation}
    (h : Accumulated A query location rows acc) : CountedOnce A query location rows acc := by
  refine ⟨h.overall, fun r hr ↦ one_entry h.groups hr, fun e he ↦ (h.group he).overall,
    fun e he r hr ↦ one_entry (h.group he).buckets hr, fun e he b hb ↦ ?_⟩
  obtain ⟨-, first, rest, hrows, hb⟩ :=
    (h.group he).buckets.of_some (AList.mem_lookup_iff.mpr hb)
  exact ⟨_, hb⟩

theorem GroupMade.sum_buckets {key : String} {rows : List StatisticsResult}
    {g : GroupAccumulator} (h : GroupMade A query location key rows g) {M : Type*}
    [AddCommMonoid M] (value : BucketAccumulator → M) (weight : StatisticsResult → M)
    (hvalue : ∀ descriptor rows, value (accumulate A descriptor rows) = (rows.map weight).sum) :
    value g.overall = (g.buckets.entries.map fun b ↦ value b.2).sum := by
  rw [h.overall, hvalue, ← h.buckets.sum_entries weight value]
  rintro k rows b ⟨r, rest, -, rfl⟩
  exact hvalue _ _

theorem Accumulated.sum_groups {rows : List StatisticsResult} {acc : Accumulation}
    (h : Accumulated A query location rows acc) {M : Type*} [AddCommMonoid M]
    (value : BucketAccumulator → M) (weight : StatisticsResult → M)
    (hvalue : ∀ descriptor rows, value (accumulate A descriptor rows) = (rows.map weight).sum) :
    value acc.overall = (acc.groups.entries.map fun e ↦ value e.2.overall).sum := by
  rw [h.overall, hvalue, ← h.groups.sum_entries weight fun g ↦ value g.overall]
  intro k rows g hg
  rw [hg.overall, hvalue]

theorem Accumulated.samplesConserved {rows : List StatisticsResult} {acc : Accumulation}
    (h : Accumulated A query location rows acc) : SamplesConserved acc := by
  constructor
  · intro e he m
    exact (h.group he).sum_buckets (fun b ↦ (b.samples m : Multiset ℚ)) _
      fun _ _ ↦ accumulate_samples A _ _ m
  · intro m
    exact h.sum_groups (fun b ↦ (b.samples m : Multiset ℚ)) _
      fun _ _ ↦ accumulate_samples A _ _ m

end Holdings

/-! ## What the report says -/

section Reports

variable {R : Type*} (A : Arithmetic R)

/-- The buckets of a report at all levels. -/
def Report.allBuckets (report : Report R) : List (Bucket R) :=
  report.overall :: report.groups.flatMap fun g ↦ g.overall :: g.buckets

/-- The rates add up to one hundred when a row succeeded or failed, and are null otherwise. -/
def RatesComplement (b : Bucket R) : Prop :=
  if 0 < b.counts.successful + b.counts.failed then
    ∃ success failure, b.successRatePercent = some success ∧
      b.failureRatePercent = some failure ∧ A.round (success + failure) = 100
  else b.successRatePercent = none ∧ b.failureRatePercent = none

structure ReportConserved (report : Report R) : Prop where
  total : report.totalResults = report.overall.counts.total
  outcomes : ∀ b ∈ report.allBuckets, b.counts.Balanced
  group_counts : ∀ g ∈ report.groups, g.overall.counts = (g.buckets.map (·.counts)).sum
  report_counts : report.overall.counts = (report.groups.map (·.overall.counts)).sum
  rates : ∀ b ∈ report.allBuckets, RatesComplement A b

/-- Exact arithmetic, or doubles. -/
def Arithmetic.Faithful : Prop := A.round = id ∨ NearestEven A.round

variable {A}

/-- The percentages of at most 50,000 rows. -/
theorem ratePercent_add (hA : A.Faithful) {part rest : ℕ} (hpos : 0 < part + rest)
    (hbound : part + rest ≤ maxStatisticsResults) :
    A.round (ratePercent A part (part + rest) + ratePercent A rest (part + rest)) = 100 := by
  have hne : ((part + rest : ℕ) : ℚ) ≠ 0 := by exact_mod_cast hpos.ne'
  have hsum : (part * 100 : ℚ) / (part + rest : ℕ) + (rest * 100 : ℚ) / (part + rest : ℕ) =
      100 := by
    rw [← add_div, div_eq_iff hne]
    push_cast
    ring
  rcases hA with hexact | hdouble
  · unfold ratePercent
    rw [hexact]
    exact hsum
  · -- a product with one hundred is still a double
    have hproduct : ∀ n : ℕ, n ≤ maxStatisticsResults → A.round (n * 100) = n * 100 := by
      intro n hn
      have hn : n ≤ 50000 := hn
      have hcast : (n : ℚ) * 100 = ((n * 100 : ℤ) : ℚ) / 2 ^ 0 := by
        push_cast
        ring
      apply hdouble.rnd_double
      · have hle : (n : ℚ) * 100 ≤ 2 ^ 23 := by
          have hnq : (n : ℚ) ≤ 50000 := by exact_mod_cast hn
          norm_num
          linarith
        rw [abs_of_nonneg (by positivity)]
        exact hle.trans (pow_le_pow_right₀ (by norm_num) (by norm_num))
      · rw [hcast]
        exact isDouble_grid (by norm_num) (by rw [abs_le]; omega)
    unfold ratePercent
    rw [hproduct part (by omega), hproduct rest (by omega)]
    exact hdouble.rnd_add_rnd (by positivity) (by positivity) hsum

theorem finish_rates (hA : A.Faithful) {b : BucketAccumulator}
    (hbound : b.counts.successful + b.counts.failed ≤ maxStatisticsResults) :
    RatesComplement A (b.finish A) := by
  unfold RatesComplement BucketAccumulator.finish
  dsimp only
  by_cases hpos : 0 < b.counts.successful + b.counts.failed
  · rw [if_pos hpos, if_pos hpos, if_pos hpos]
    exact ⟨_, _, rfl, rfl, ratePercent_add hA hpos hbound⟩
  · rw [if_neg hpos, if_neg hpos, if_neg hpos]
    exact ⟨rfl, rfl⟩

variable {query : NormalizedQuery} {location : Location} {rows : List StatisticsResult}
  {acc : Accumulation}

theorem mem_ordered_group {g : GroupAccumulator} :
    g ∈ acc.ordered ↔ ∃ e ∈ acc.groups.entries, e.2 = g := by
  unfold Accumulation.ordered
  rw [List.mem_mergeSort, List.mem_map]

theorem mem_ordered_bucket {g : GroupAccumulator} {b : BucketAccumulator} :
    b ∈ g.ordered ↔ ∃ e ∈ g.buckets.entries, e.2 = b := by
  unfold GroupAccumulator.ordered
  rw [List.mem_mergeSort, List.mem_map]

theorem length_fiber_le (key : StatisticsResult → String) (rows : List StatisticsResult)
    (k : String) : (fiber key rows k).length ≤ rows.length := List.length_filter_le _ _

/-- Every bucket of the report was made from some of the rows. -/
theorem Accumulated.of_mem_allBuckets (h : Accumulated A query location rows acc) {b : Bucket R}
    (hb : b ∈ (acc.report A query).allBuckets) :
    ∃ descriptor rows', rows'.length ≤ rows.length ∧
      b = (accumulate A descriptor rows').finish A := by
  rcases List.mem_cons.mp hb with rfl | hb
  · refine ⟨fullRangeBucket query, rows, le_rfl, ?_⟩
    rw [← h.overall]
    rfl
  · obtain ⟨group, hgroup, hb⟩ := List.mem_flatMap.mp hb
    obtain ⟨g, hg, rfl⟩ := List.mem_map.mp hgroup
    obtain ⟨e, he, rfl⟩ := mem_ordered_group.mp hg
    have hmade := h.group he
    rcases List.mem_cons.mp hb with rfl | hb
    · refine ⟨fullRangeBucket query, _, length_fiber_le (groupKey query) rows e.1, ?_⟩
      rw [← hmade.overall]
      rfl
    · obtain ⟨bucket, hbucket, rfl⟩ := List.mem_map.mp hb
      obtain ⟨f, hf, rfl⟩ := mem_ordered_bucket.mp hbucket
      obtain ⟨-, first, rest, -, hf⟩ := hmade.buckets.of_some (AList.mem_lookup_iff.mpr hf)
      exact ⟨_, _, (length_fiber_le _ _ f.1).trans (length_fiber_le _ rows e.1),
        congrArg _ hf⟩

theorem Accumulated.reportConserved (h : Accumulated A query location rows acc)
    (hA : A.Faithful) (hbound : acc.totalResults ≤ maxStatisticsResults) :
    ReportConserved A (acc.report A query) := by
  have hcounts : ∀ descriptor rows, (accumulate A descriptor rows).counts =
      (rows.map fun r ↦ Counts.count 0 r.status).sum := accumulate_counts A
  constructor
  · change acc.totalResults = acc.overall.counts.total
    rw [h.overall, accumulate_total, h.totalResults]
  · intro b hb
    obtain ⟨descriptor, rows', -, rfl⟩ := h.of_mem_allBuckets hb
    exact accumulate_balanced A descriptor rows'
  · intro group hgroup
    obtain ⟨g, hg, rfl⟩ := List.mem_map.mp hgroup
    obtain ⟨e, he, rfl⟩ := mem_ordered_group.mp hg
    have hsum := (h.group he).sum_buckets (·.counts) _ hcounts
    change e.2.overall.counts = ((e.2.ordered.map (·.finish A)).map (·.counts)).sum
    rw [hsum, List.map_map]
    unfold GroupAccumulator.ordered
    rw [((List.mergeSort_perm _ _).map _).sum_eq, List.map_map]
    rfl
  · have hsum := h.sum_groups (·.counts) _ hcounts
    change acc.overall.counts = ((acc.ordered.map (·.finish A)).map (·.overall.counts)).sum
    rw [hsum, List.map_map]
    unfold Accumulation.ordered
    rw [((List.mergeSort_perm _ _).map _).sum_eq, List.map_map]
    rfl
  · intro b hb
    obtain ⟨descriptor, rows', hlength, rfl⟩ := h.of_mem_allBuckets hb
    apply finish_rates hA
    have hbalanced := accumulate_balanced A descriptor rows'
    have htotal := accumulate_total A descriptor rows'
    have hrows := h.totalResults
    unfold Counts.Balanced at hbalanced
    omega

end Reports

/-- A successful query has counted every row of its range once at each level of the report
and nothing else, and the levels of the report add up. -/
theorem statistics_conserve {R : Type*} {A : Arithmetic R} (hA : A.Faithful) {env : Env}
    {walk : ResultSource} {request : Query} {report : Report R}
    (h : Service.query A env (some walk) request = .ok report) :
    ∃ query location acc, normalizeQuery env request = .ok (query, location) ∧
      report = acc.report A query ∧
      CountedOnce A query location
        ((walk ⟨query.from, query.to, query.filter⟩).1.filter (inRange query)) acc ∧
      SamplesConserved acc ∧ ReportConserved A report := by
  unfold Service.query at h
  split at h
  · cases h
  · rename_i query location hquery
    dsimp only at h
    split at h
    · cases h
    · rename_i acc hvisit
      split at h
      · cases h
      · cases h
        have haccumulated := visitAll_spec .start hvisit
        rw [List.nil_append] at haccumulated
        have hbound := visitAll_le (Nat.zero_le _) hvisit
        exact ⟨query, location, acc, hquery, rfl, haccumulated.countedOnce,
          haccumulated.samplesConserved, haccumulated.reportConserved hA hbound⟩

/-! ## An example -/

/-- Doubles, with the square roots left exact. -/
noncomputable def doubleArithmetic : Arithmetic ℝ := ⟨roundDouble, fun q ↦ Real.sqrt q⟩

/-- A zone database with UTC alone. -/
def utcEnv : Env := ⟨fun name ↦ if name = "UTC" then some utc else none, fun _ ↦ none⟩

def weekRequest : Query where
  «from» := 1541030400000000000
  «to» := 1543622400000000000
  granularity := "week"
  reportingTimezone := ""
  groupBy := "provider"
  filter := ⟨[], [], [], [], [], [], []⟩

/-- A succeeded and a failed row in one week, and a row outside the range. -/
def sampleRows : ResultSource := fun _ ↦
  ([sampleResult, { sampleResult with id := "failed", status := .failed },
    sampleResult.at 0], none)

theorem statistics_conserve_sample :
    ∃ report, Service.query doubleArithmetic utcEnv (some sampleRows) weekRequest = .ok report ∧
      ReportConserved doubleArithmetic report := by
  have hok : (Service.query doubleArithmetic utcEnv (some sampleRows) weekRequest).isOk = true := by
    decide +kernel
  cases hquery : Service.query doubleArithmetic utcEnv (some sampleRows) weekRequest with
  | error e =>
      rw [hquery] at hok
      cases hok
  | ok report =>
      obtain ⟨-, -, -, -, -, -, -, hreport⟩ := statistics_conserve (.inr roundDouble_nearestEven) hquery
      exact ⟨report, rfl, hreport⟩

end MultiSpeed.Statistics
