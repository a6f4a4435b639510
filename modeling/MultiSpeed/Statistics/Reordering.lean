import MultiSpeed.Statistics.Conservation
import MultiSpeed.Statistics.Identity
import Mathlib.Data.String.Basic

/-!
# Reports and the order of the rows

An accumulator is created by the first row of its key, and its descriptor is taken
from that row.  The report does not depend on which row comes first: rows of one key
have one descriptor, no two buckets of a group agree in what they are sorted by, and the
summaries sort their samples.  The label of an ISO week is printed from the date of
the row, so there the offsets of the zone have to be those of a clock.
-/

namespace MultiSpeed.Statistics

open Gregorian Grouping
open Scheduling (Location Env)

/-- The offsets of a time-zone file: more than -25 and less than 26 hours. -/
def ClockOffsets (location : Location) : Prop :=
  ∀ s, -90000 < location.offset s ∧ location.offset s < 93600

/-- Two sources visit the same rows, in any two orders, and end alike. -/
def Reordered (walk walk' : ResultSource) : Prop :=
  ∀ filter, (walk filter).1.Perm (walk' filter).1 ∧ (walk filter).2 = (walk' filter).2

/-- A limit of the service was exceeded. -/
def StatisticsError.IsLimit (e : StatisticsError) : Prop :=
  e = .resultLimit ∨ e = .outputLimit ∨ e = .dimensionLimit

/-! ## Descriptors are functions of keys -/

section Descriptors

variable {query : NormalizedQuery} {location : Location}

theorem movedReading_days (r days : ℤ) : movedReading r 0 0 days = r + 86400 * days := by
  unfold movedReading
  dsimp only
  rw [add_zero, add_zero, dayNumber_add, dayNumber_date]
  omega

/-- The week of a date begins less than half a week from its Monday. -/
theorem monday_near (h : ClockOffsets location) (n : ℤ) :
    -302400 < WallClock.instant location.offset (firstReading weeks location .isoWeek n) -
        86400 * weeks.first (weeks.index n) ∧
      WallClock.instant location.offset (firstReading weeks location .isoWeek n) -
        86400 * weeks.first (weeks.index n) < 302400 := by
  have hmonday := weeks_first_index n
  have hreading : firstReading weeks location .isoWeek n =
      WallClock.reading location.offset (WallClock.instant location.offset (86400 * n)) +
        86400 * -sinceMonday n := movedReading_days _ _
  rw [hreading]
  unfold WallClock.reading WallClock.instant
  generalize location.offset (86400 * n) = o
  have hlookup := h (86400 * n - o)
  have hshown := h (86400 * n - location.offset (86400 * n - o))
  generalize location.offset (86400 * n - location.offset (86400 * n - o)) = o' at hshown ⊢
  generalize location.offset (86400 * n - o) = o'' at hlookup ⊢
  generalize hu : 86400 * n - o'' + o' + 86400 * -sinceMonday n = u
  have hback := h (u - location.offset u)
  omega

/-- Weeks that begin at one instant are one week. -/
theorem week_eq_of_instant_eq (h : ClockOffsets location) {n n' : ℤ}
    (hinstant : WallClock.instant location.offset (firstReading weeks location .isoWeek n) =
      WallClock.instant location.offset (firstReading weeks location .isoWeek n')) :
    weeks.index n = weeks.index n' := by
  have hn := monday_near h n
  have hn' := monday_near h n'
  rw [hinstant] at hn
  have hfirst : ∀ w, weeks.first w = 7 * w - 3 := fun _ ↦ rfl
  rw [hfirst] at hn hn'
  omega

theorem labelDay_eq_of_instant_eq {P : Periods} {granularity : Granularity}
    (hP : granularity.periods = some P) (hzone : ClockOffsets location) {n n' : ℤ}
    (hinstant : WallClock.instant location.offset (firstReading P location granularity n) =
      WallClock.instant location.offset (firstReading P location granularity n')) :
    periodName granularity (labelDay location granularity n) =
      periodName granularity (labelDay location granularity n') := by
  by_cases hweek : granularity = .isoWeek
  · subst hweek
    cases hP
    exact (periodName_inj rfl).mpr (week_eq_of_instant_eq hzone hinstant)
  · rw [firstReading_of_ne location hweek, firstReading_of_ne location hweek] at hinstant
    rw [labelDay_of_ne location hP hweek, labelDay_of_ne location hP hweek, hinstant]

/-- Rows of one bucket describe it alike. -/
theorem describeBucket_eq_of_key (hzone : ClockOffsets location) {r r' : StatisticsResult}
    (hkey : bucketKey query location r = bucketKey query location r') :
    describeBucket r query location = describeBucket r' query location := by
  unfold bucketKey at hkey
  cases hP : query.granularity.periods with
  | some P =>
      have hinstant := (key_eq_iff location hP r r').mp hkey
      rw [describeBucket_eq hP, describeBucket_eq hP, nextMidnight_eq location hP,
        nextMidnight_eq location hP, firstMidnight_eq location hP, firstMidnight_eq location hP,
        labelDay_eq_of_instant_eq hP hzone hinstant, hinstant]
  | none =>
      unfold describeBucket at hkey ⊢
      cases hgranularity : query.granularity with
      | raw =>
          rw [hgranularity] at hkey
          obtain ⟨htime, hid⟩ := formatRFC3339Nano_utc_append_inj hkey
          dsimp only
          rw [htime, hid]
      | custom => rfl
      | day | isoWeek | month | year =>
          rw [hgranularity] at hP
          cases hP

/-- What buckets are sorted by determines their key. -/
theorem key_eq_of_start {r r' : StatisticsResult}
    (hstart : (describeBucket r query location).start = (describeBucket r' query location).start)
    (hid : (describeBucket r query location).resultID =
      (describeBucket r' query location).resultID) :
    bucketKey query location r = bucketKey query location r' := by
  unfold bucketKey describeBucket at *
  cases hgranularity : query.granularity with
  | raw =>
      rw [hgranularity] at hstart hid
      dsimp only at hstart hid ⊢
      rw [hstart, hid]
  | custom => rfl
  | day | isoWeek | month | year =>
      rw [hgranularity] at hstart
      exact congrArg (formatRFC3339Nano utc) hstart

end Descriptors

/-! ## Accumulators of reordered rows -/

section Finish

variable {R : Type*} (A : Arithmetic R)

theorem summarize_perm {values values' : List ℚ} (h : values.Perm values') :
    summarize A values = summarize A values' := by
  have hsorted : values.mergeSort (fun a b ↦ decide (a ≤ b)) =
      values'.mergeSort fun a b ↦ decide (a ≤ b) :=
    mergeSort_eq_of_perm id h fun _ _ _ _ hab ↦ hab
  unfold summarize
  rw [h.length_eq, hsorted]

theorem finish_eq {b b' : BucketAccumulator} (hdescriptor : b.descriptor = b'.descriptor)
    (hcounts : b.counts = b'.counts) (hsamples : ∀ m, (b.samples m).Perm (b'.samples m)) :
    b.finish A = b'.finish A := by
  have hdownload : summarize A b.download = summarize A b'.download :=
    summarize_perm A (hsamples .download)
  have hupload : summarize A b.upload = summarize A b'.upload :=
    summarize_perm A (hsamples .upload)
  have hlatency : summarize A b.latency = summarize A b'.latency :=
    summarize_perm A (hsamples .latency)
  have hjitter : summarize A b.jitter = summarize A b'.jitter :=
    summarize_perm A (hsamples .jitter)
  have hloss : summarize A b.loss = summarize A b'.loss := summarize_perm A (hsamples .loss)
  have hduration : summarize A b.duration = summarize A b'.duration :=
    summarize_perm A (hsamples .duration)
  unfold BucketAccumulator.finish
  rw [hdescriptor, hcounts, hdownload, hupload, hlatency, hjitter, hloss, hduration]

theorem accumulate_descriptor (descriptor : BucketDescriptor) (rows : List StatisticsResult) :
    (accumulate A descriptor rows).descriptor = descriptor := by
  induction rows using List.reverseRecOn with
  | nil => rfl
  | append_singleton rows r ih =>
      rw [accumulate_concat]
      exact ih

theorem finish_accumulate_perm (descriptor : BucketDescriptor)
    {rows rows' : List StatisticsResult} (h : rows.Perm rows') :
    (accumulate A descriptor rows).finish A = (accumulate A descriptor rows').finish A := by
  apply finish_eq
  · rw [accumulate_descriptor, accumulate_descriptor]
  · rw [accumulate_counts, accumulate_counts]
    exact (h.map _).sum_eq
  · intro m
    rw [← Multiset.coe_eq_coe, accumulate_samples, accumulate_samples]
    exact (h.map _).sum_eq

end Finish

/-! ## Labels of groups -/

/-- The label of the group with a key. -/
def groupLabel : Dimension → String → String
  | .none, _ => "All results"
  | _, key => if key = "" then "Unassigned" else key

theorem comparisonGroup_label (result : StatisticsResult) (dimension : Dimension) :
    (comparisonGroup result dimension).2 =
      groupLabel dimension (comparisonGroup result dimension).1 := by
  have hnamed : ∀ key, (comparisonGroup.named key).2 =
      if (comparisonGroup.named key).1 = "" then "Unassigned"
      else (comparisonGroup.named key).1 := by
    intro key
    unfold comparisonGroup.named
    by_cases hkey : key = ""
    · rw [if_pos hkey]
      rfl
    · rw [if_neg hkey]
      exact (if_neg hkey).symm
  cases dimension with
  | none => rfl
  | task | interface | sourceIP | provider | server | routeProfile | publicIP => exact hnamed _

section Labels

variable {R : Type*} {A : Arithmetic R} {query : NormalizedQuery} {location : Location}

/-- Every group is stored under its key with the label of that key. -/
def Labelled (query : NormalizedQuery) (acc : Accumulation) : Prop :=
  ∀ k g, acc.groups.lookup k = some g → g.label = groupLabel query.groupBy k

theorem Labelled.start : Labelled query (.start query) := by
  intro k g hlookup
  cases hlookup

theorem visitGroup_label {acc : Accumulation} (h : Labelled query acc) {r : StatisticsResult}
    {g : GroupAccumulator} {points : ℕ}
    (hvisit : visitGroup A query location acc r = .ok (g, points)) :
    g.label = groupLabel query.groupBy (groupKey query r) := by
  unfold visitGroup at hvisit
  dsimp only at hvisit
  split at hvisit
  · split at hvisit
    · cases hvisit
    · cases hvisit
      exact comparisonGroup_label r query.groupBy
  · rename_i group hlookup
    split at hvisit
    · split at hvisit
      · cases hvisit
      · cases hvisit
        exact h _ group hlookup
    · cases hvisit
      exact h _ group hlookup

theorem Labelled.visit {acc acc' : Accumulation} (h : Labelled query acc) {r : StatisticsResult}
    (hvisit : visit A query location acc r = .ok acc') : Labelled query acc' := by
  unfold Statistics.visit at hvisit
  split at hvisit
  · cases hvisit
  · split at hvisit
    · cases hvisit
      exact h
    · dsimp only at hvisit
      split at hvisit
      · cases hvisit
      · split at hvisit
        · cases hvisit
        · rename_i g points hgroup
          cases hvisit
          intro k g' hlookup
          by_cases hk : k = groupKey query r
          · subst hk
            have hsome := hlookup.symm.trans (AList.lookup_insert _)
            cases hsome
            exact visitGroup_label (g := g) h hgroup
          · exact h k g' ((AList.lookup_insert_ne hk).symm.trans hlookup)

theorem Labelled.visitAll {acc acc' : Accumulation} (h : Labelled query acc)
    {stream : List StatisticsResult} (hvisit : visitAll A query location acc stream = .ok acc') :
    Labelled query acc' := by
  induction stream generalizing acc with
  | nil =>
      cases hvisit
      exact h
  | cons r rest ih =>
      rw [Statistics.visitAll] at hvisit
      split at hvisit
      · cases hvisit
      · rename_i next hstep
        exact ih (h.visit hstep) hvisit

end Labels

/-! ## Reports of reordered rows -/

section Reports

variable {R : Type*} {A : Arithmetic R} {query : NormalizedQuery} {location : Location}
  {rows rows' : List StatisticsResult}

/-- The comparison of the sorts is that of pairs, the first component before the second. -/
theorem not_before_iff {σ τ : Type*} [LinearOrder σ] [LinearOrder τ] (a b : σ × τ) :
    ¬ (if b.1 = a.1 then b.2 < a.2 else b.1 < a.1) ↔ toLex a ≤ toLex b := by
  rw [Prod.Lex.toLex_le_toLex]
  split
  · rename_i hfirst
    rw [not_lt, hfirst]
    simp
  · rename_i hfirst
    rw [not_lt, le_iff_lt_or_eq]
    simp [Ne.symm hfirst]

/-- Buckets are sorted by what the report shows of them. -/
theorem bucket_order (a b : BucketAccumulator) : (!bucketBefore b a) =
    decide (toLex ((a.finish A).start, (a.finish A).resultID) ≤
      toLex ((b.finish A).start, (b.finish A).resultID)) := by
  rw [Bool.eq_iff_iff, decide_eq_true_iff, ← not_before_iff, Bool.not_eq_true',
    ← Bool.not_eq_true]
  apply not_congr
  unfold bucketBefore BucketAccumulator.finish
  dsimp only
  split
  · exact decide_eq_true_iff
  · exact decide_eq_true_iff

theorem group_order (a b : GroupAccumulator) : (!groupBefore b a) =
    decide (toLex ((a.finish A).label, (a.finish A).key) ≤
      toLex ((b.finish A).label, (b.finish A).key)) := by
  rw [Bool.eq_iff_iff, decide_eq_true_iff, ← not_before_iff, Bool.not_eq_true',
    ← Bool.not_eq_true]
  apply not_congr
  unfold groupBefore GroupAccumulator.finish
  dsimp only
  split
  · exact decide_eq_true_iff
  · exact decide_eq_true_iff

/-- The rows of a bucket have its key. -/
theorem bucketMade_key {k : String} {b : BucketAccumulator}
    (h : BucketMade A query location k (fiber (bucketKey query location) rows k) b) :
    ∃ r, bucketKey query location r = k ∧
      b = accumulate A (describeBucket r query location)
        (fiber (bucketKey query location) rows k) := by
  obtain ⟨r, rest, hrows, hb⟩ := h
  have hr : r ∈ fiber (bucketKey query location) rows k := by
    rw [hrows]
    exact List.mem_cons_self
  exact ⟨r, ((mem_fiber _).mp hr).2, hb⟩

theorem finish_buckets (hzone : ClockOffsets location)
    {buckets buckets' : AList fun _ : String ↦ BucketAccumulator}
    (h : Groups (bucketKey query location) (BucketMade A query location) rows buckets.lookup)
    (h' : Groups (bucketKey query location) (BucketMade A query location) rows' buckets'.lookup)
    (hperm : rows.Perm rows') :
    ((buckets.entries.map (·.2)).mergeSort fun a b ↦ !bucketBefore b a).map (·.finish A) =
      ((buckets'.entries.map (·.2)).mergeSort fun a b ↦ !bucketBefore b a).map (·.finish A) := by
  refine h.sorted_values h' hperm (·.finish A) (fun k b b' hb hb' ↦ ?_)
    (fun b ↦ toLex (b.start, b.resultID)) (fun k k' b b' hb hb' hrank ↦ ?_) bucket_order
  · obtain ⟨r, hr, rfl⟩ := bucketMade_key (h.of_some hb).2
    obtain ⟨r', hr', rfl⟩ := bucketMade_key (h'.of_some hb').2
    rw [describeBucket_eq_of_key hzone (hr.trans hr'.symm)]
    exact finish_accumulate_perm A _ (fiber_perm _ hperm k)
  · obtain ⟨r, hr, rfl⟩ := bucketMade_key (h.of_some hb).2
    obtain ⟨r', hr', rfl⟩ := bucketMade_key (h.of_some hb').2
    obtain ⟨hstart, hid⟩ := Prod.mk.inj (toLex.injective hrank)
    unfold BucketAccumulator.finish at hstart hid
    rw [accumulate_descriptor, accumulate_descriptor] at hstart hid
    exact hr.symm.trans ((key_eq_of_start hstart hid).trans hr')

theorem finish_group (hzone : ClockOffsets location) (hperm : rows.Perm rows') {k : String}
    {g g' : GroupAccumulator} (h : GroupMade A query location k rows g)
    (h' : GroupMade A query location k rows' g') (hlabel : g.label = g'.label) :
    g.finish A = g'.finish A := by
  have hoverall : g.overall.finish A = g'.overall.finish A := by
    rw [h.overall, h'.overall]
    exact finish_accumulate_perm A _ hperm
  have hbuckets := finish_buckets hzone h.buckets h'.buckets hperm
  unfold GroupAccumulator.finish GroupAccumulator.ordered
  rw [h.key_eq, h'.key_eq, hlabel, hoverall, hbuckets]

theorem report_eq (hzone : ClockOffsets location) {acc acc' : Accumulation}
    (h : Accumulated A query location rows acc) (hlabels : Labelled query acc)
    (h' : Accumulated A query location rows' acc') (hlabels' : Labelled query acc')
    (hperm : rows.Perm rows') : acc.report A query = acc'.report A query := by
  have hoverall : acc.overall.finish A = acc'.overall.finish A := by
    rw [h.overall, h'.overall]
    exact finish_accumulate_perm A _ hperm
  have hgroups : acc.ordered.map (·.finish A) = acc'.ordered.map (·.finish A) := by
    refine h.groups.sorted_values h'.groups hperm (·.finish A) (fun k g g' hg hg' ↦ ?_)
      (fun g ↦ toLex (g.label, g.key)) (fun k k' g g' hg hg' hrank ↦ ?_) group_order
    · exact finish_group hzone (fiber_perm _ hperm k) (h.groups.of_some hg).2
        (h'.groups.of_some hg').2 ((hlabels k g hg).trans (hlabels' k g' hg').symm)
    · have hkey := (Prod.mk.inj (toLex.injective hrank)).2
      exact (h.groups.of_some hg).2.key_eq.symm.trans
        (hkey.trans (h.groups.of_some hg').2.key_eq)
  unfold Accumulation.report
  rw [h.totalResults, h'.totalResults, hperm.length_eq, hoverall, hgroups]

end Reports

/-! ## Queries -/

theorem visitGroup_error {R : Type*} {A : Arithmetic R} {query : NormalizedQuery}
    {location : Location} {acc : Accumulation} {r : StatisticsResult} {e : StatisticsError}
    (h : visitGroup A query location acc r = .error e) : e.IsLimit := by
  unfold visitGroup at h
  dsimp only at h
  split at h
  · split at h
    · cases h
      exact .inr (.inl rfl)
    · cases h
  · split at h
    · split at h
      · cases h
        exact .inr (.inl rfl)
      · cases h
    · cases h

/-- Only a limit ends a walk early. -/
theorem visitAll_error {R : Type*} {A : Arithmetic R} {query : NormalizedQuery}
    {location : Location} {acc : Accumulation} {stream : List StatisticsResult}
    {e : StatisticsError} (h : visitAll A query location acc stream = .error e) : e.IsLimit := by
  induction stream generalizing acc with
  | nil => cases h
  | cons r rest ih =>
      rw [visitAll] at h
      split at h
      · rename_i hvisit
        cases h
        unfold visit at hvisit
        split at hvisit
        · cases hvisit
          exact .inl rfl
        · split at hvisit
          · cases hvisit
          · dsimp only at hvisit
            split at hvisit
            · cases hvisit
              exact .inr (.inr rfl)
            · split at hvisit
              · rename_i hgroup
                cases hvisit
                exact visitGroup_error hgroup
              · cases hvisit
      · exact ih h

theorem normalizeQuery_location {env : Env} {request : Query} {query : NormalizedQuery}
    {location : Location} (h : normalizeQuery env request = .ok (query, location)) :
    ∃ name, env.loadLocation name = some location := by
  unfold normalizeQuery at h
  split at h
  · cases h
  · dsimp only at h
    split at h
    · cases h
    · split at h
      · cases h
      · rename_i hload
        split at h
        · cases h
        · cases h
          exact ⟨_, hload⟩

/-- Sources that visit the same rows in different orders give one answer, unless a limit
ends a walk. -/
theorem query_reordered {R : Type*} (A : Arithmetic R) {env : Env}
    (hzones : ∀ name location, env.loadLocation name = some location → ClockOffsets location)
    {walk walk' : ResultSource} (h : Reordered walk walk') (request : Query)
    (hlimit : ∀ e, Service.query A env (some walk) request = .error e → ¬ e.IsLimit)
    (hlimit' : ∀ e, Service.query A env (some walk') request = .error e → ¬ e.IsLimit) :
    Service.query A env (some walk) request = Service.query A env (some walk') request := by
  unfold Service.query at *
  cases hquery : normalizeQuery env request with
  | error e => rfl
  | ok normalized =>
      obtain ⟨query, location⟩ := normalized
      obtain ⟨name, hload⟩ := normalizeQuery_location hquery
      have hzone := hzones name location hload
      rw [hquery] at hlimit hlimit'
      dsimp only at hlimit hlimit' ⊢
      obtain ⟨hperm, hend⟩ := h ⟨query.from, query.to, query.filter⟩
      rw [← hend] at hlimit' ⊢
      cases hvisit : visitAll A query location (.start query)
          (walk ⟨query.from, query.to, query.filter⟩).1 with
      | error e =>
          rw [hvisit] at hlimit
          exact absurd (visitAll_error hvisit) (hlimit e rfl)
      | ok acc =>
          cases hvisit' : visitAll A query location (.start query)
              (walk' ⟨query.from, query.to, query.filter⟩).1 with
          | error e =>
              rw [hvisit'] at hlimit'
              exact absurd (visitAll_error hvisit') (hlimit' e rfl)
          | ok acc' =>
              have hmade := visitAll_spec .start hvisit
              have hmade' := visitAll_spec .start hvisit'
              rw [List.nil_append] at hmade hmade'
              have hreport := report_eq hzone hmade (Labelled.start.visitAll hvisit) hmade'
                (Labelled.start.visitAll hvisit') (hperm.filter _)
              dsimp only
              rw [hreport]

/-- The same rows, the last one first. -/
def reversedRows : ResultSource := fun filter ↦
  ((sampleRows filter).1.reverse, (sampleRows filter).2)

theorem query_reordered_reversed : ∃ report,
    Service.query doubleArithmetic utcEnv (some sampleRows) weekRequest = .ok report ∧
      Service.query doubleArithmetic utcEnv (some reversedRows) weekRequest = .ok report := by
  have hok : (Service.query doubleArithmetic utcEnv (some sampleRows) weekRequest).isOk = true := by
    decide +kernel
  have hok' : (Service.query doubleArithmetic utcEnv (some reversedRows) weekRequest).isOk =
      true := by
    decide +kernel
  have hzones : ∀ name location, utcEnv.loadLocation name = some location →
      ClockOffsets location := by
    intro name location hload
    obtain ⟨-, hutc⟩ := Option.ite_none_right_eq_some.mp hload
    cases hutc
    intro s
    change (-90000 : ℤ) < 0 ∧ (0 : ℤ) < 93600
    decide
  have hsame := @query_reordered _ doubleArithmetic _ hzones sampleRows reversedRows
    (fun _ ↦ ⟨(List.reverse_perm _).symm, rfl⟩) weekRequest
    (fun e herror ↦ by rw [herror] at hok; cases hok)
    (fun e herror ↦ by rw [herror] at hok'; cases hok')
  cases hquery : Service.query doubleArithmetic utcEnv (some sampleRows) weekRequest with
  | error e =>
      rw [hquery] at hok
      cases hok
  | ok report => exact ⟨report, rfl, hsame.symm.trans hquery⟩

end MultiSpeed.Statistics
