import MultiSpeed.Statistics.Reordering

/-!
# Limits of a report

A walk is stopped where a row would make the report too large: by the number of rows,
by the length of a compared value, by the number of groups or by the number of output
points.  The output points are counted row by row; here they are compared with the
groups and buckets that the rows form.
-/

namespace MultiSpeed.Statistics

open Grouping
open Scheduling (Location Env)

section Limits

variable (query : NormalizedQuery) (location : Location)

/-- The overall bucket of the report, the overall bucket of each group and the distinct
buckets of each group. -/
def outputPoints (rows : List StatisticsResult) : ℕ :=
  1 + ∑ k ∈ keys (groupKey query) rows,
    (1 + (keys (bucketKey query location) (fiber (groupKey query) rows k)).card)

/-- The key and the label of the row are short enough. -/
def ShortDimension (r : StatisticsResult) : Prop :=
  (comparisonGroup r query.groupBy).1.utf8ByteSize ≤ maxStatisticsDimensionBytes ∧
    (comparisonGroup r query.groupBy).2.utf8ByteSize ≤ maxStatisticsDimensionBytes

instance (r : StatisticsResult) : Decidable (ShortDimension query r) :=
  inferInstanceAs (Decidable (_ ∧ _))

/-- The rows may be reported together. -/
structure WithinLimits (rows : List StatisticsResult) : Prop where
  results : rows.length ≤ maxStatisticsResults
  dimensions : ∀ r ∈ rows, ShortDimension query r
  groups : (keys (groupKey query) rows).card ≤ maxStatisticsGroups
  points : outputPoints query location rows ≤ maxStatisticsOutputPoints

variable {query location} {rows : List StatisticsResult} {r : StatisticsResult}

theorem outputPoints_eq : outputPoints query location rows =
    1 + ((keys (groupKey query) rows).card +
      (keys (fun r ↦ (groupKey query r, bucketKey query location r)) rows).card) := by
  rw [outputPoints, sum_card_keys]

/-- The row is the first of its group. -/
def NewGroup (query : NormalizedQuery) (rows : List StatisticsResult) (r : StatisticsResult) :
    Prop := groupKey query r ∉ keys (groupKey query) rows

/-- The row is the first of its bucket. -/
def NewBucket (query : NormalizedQuery) (location : Location) (rows : List StatisticsResult)
    (r : StatisticsResult) : Prop :=
  (groupKey query r, bucketKey query location r) ∉
    keys (fun r ↦ (groupKey query r, bucketKey query location r)) rows

theorem NewGroup.bucket (h : NewGroup query rows r) : NewBucket query location rows r := by
  intro hmem
  obtain ⟨r', hr', hkeys⟩ := mem_keys.mp hmem
  exact h (mem_keys.mpr ⟨r', hr', (Prod.mk.inj hkeys).1⟩)

/-- A row adds two points with its group, one with its bucket, or none. -/
theorem outputPoints_group (h : NewGroup query rows r) :
    outputPoints query location (rows ++ [r]) = outputPoints query location rows + 2 := by
  rw [outputPoints_eq, outputPoints_eq, card_keys_concat, card_keys_concat, if_neg h,
    if_neg h.bucket]
  omega

theorem outputPoints_bucket (h : ¬ NewGroup query rows r) (hb : NewBucket query location rows r) :
    outputPoints query location (rows ++ [r]) = outputPoints query location rows + 1 := by
  rw [outputPoints_eq, outputPoints_eq, card_keys_concat, card_keys_concat,
    if_pos (not_not.mp h), if_neg hb]
  omega

theorem outputPoints_known (hb : ¬ NewBucket query location rows r) :
    outputPoints query location (rows ++ [r]) = outputPoints query location rows := by
  have h : ¬ NewGroup query rows r := fun h ↦ hb h.bucket
  rw [outputPoints_eq, outputPoints_eq, card_keys_concat, card_keys_concat,
    if_pos (not_not.mp h), if_pos (not_not.mp hb), Nat.add_zero, Nat.add_zero]

theorem outputPoints_mono (rest : List StatisticsResult) :
    outputPoints query location rows ≤ outputPoints query location (rows ++ rest) := by
  have hsub : rows ⊆ rows ++ rest := List.subset_append_left rows rest
  rw [outputPoints_eq, outputPoints_eq]
  have hgroups := Finset.card_le_card (keys_mono (groupKey query) hsub)
  have hpairs := Finset.card_le_card
    (keys_mono (fun r ↦ (groupKey query r, bucketKey query location r)) hsub)
  omega

theorem WithinLimits.nil : WithinLimits query location [] :=
  ⟨Nat.zero_le _, (fun r hr ↦ by cases hr), Nat.zero_le _,
    show 1 ≤ maxStatisticsOutputPoints by decide⟩

/-- The limits hold of a part where they hold of the whole. -/
theorem WithinLimits.of_append {rest : List StatisticsResult}
    (h : WithinLimits query location (rows ++ rest)) : WithinLimits query location rows := by
  have hsub : rows ⊆ rows ++ rest := List.subset_append_left rows rest
  refine ⟨?_, fun r hr ↦ h.dimensions r (hsub hr), ?_, (outputPoints_mono rest).trans h.points⟩
  · have hlength := h.results
    rw [List.length_append] at hlength
    omega
  · exact (Finset.card_le_card (keys_mono _ hsub)).trans h.groups

end Limits

/-! ## The walk -/

section Walk

variable {R : Type*} {A : Arithmetic R} {query : NormalizedQuery} {location : Location}
  {rows : List StatisticsResult} {acc : Accumulation} {r : StatisticsResult}

/-- The accumulators of the rows, with their points counted. -/
structure Counted (A : Arithmetic R) (query : NormalizedQuery) (location : Location)
    (rows : List StatisticsResult) (acc : Accumulation) : Prop where
  accumulated : Accumulated A query location rows acc
  points : acc.outputPoints = outputPoints query location rows

theorem Counted.start : Counted A query location [] (.start query) := ⟨.start, rfl⟩

theorem Counted.lookup_group (h : Counted A query location rows acc) :
    acc.groups.lookup (groupKey query r) = none ↔ NewGroup query rows r :=
  h.accumulated.groups.lookup_eq_none_iff

theorem Counted.lookup_bucket (h : Counted A query location rows acc) {g : GroupAccumulator}
    (hg : acc.groups.lookup (groupKey query r) = some g) :
    g.buckets.lookup (bucketKey query location r) = none ↔ NewBucket query location rows r := by
  obtain ⟨-, hmade⟩ := h.accumulated.groups.of_some hg
  rw [hmade.buckets.lookup_eq_none_iff]
  unfold NewBucket
  rw [mem_keys, mem_keys]
  simp only [mem_fiber, and_assoc, Prod.mk.injEq]

/-- The groups and the points leave room for the rows. -/
def Fits (query : NormalizedQuery) (location : Location) (rows : List StatisticsResult) : Prop :=
  (keys (groupKey query) rows).card ≤ maxStatisticsGroups ∧
    outputPoints query location rows ≤ maxStatisticsOutputPoints

/-- A row enters its group with its points counted where there is room for it, and is
refused where there is none. -/
theorem visitGroup_fits (h : Counted A query location rows acc)
    (hfits : Fits query location rows) (r : StatisticsResult) :
    (∃ g, visitGroup A query location acc r =
        .ok (g, outputPoints query location (rows ++ [r])) ∧ Fits query location (rows ++ [r])) ∨
      ∃ e, visitGroup A query location acc r = .error e ∧ ¬ Fits query location (rows ++ [r]) := by
  obtain ⟨hcount, hpoints⟩ := hfits
  have hgroups := h.accumulated.groups.length_entries
  have hcard := card_keys_concat (groupKey query) rows r
  unfold Fits maxStatisticsGroups maxStatisticsOutputPoints at *
  unfold visitGroup maxStatisticsGroups maxStatisticsOutputPoints
  dsimp only
  split
  · rename_i hnone
    have hnew : NewGroup query rows r := h.lookup_group.mp hnone
    rw [if_neg hnew] at hcard
    rw [outputPoints_group hnew, hcard, hgroups, h.points]
    split
    · exact .inr ⟨_, rfl, by omega⟩
    · exact .inl ⟨_, rfl, by omega⟩
  · rename_i g hg
    have hold : ¬ NewGroup query rows r := by
      intro hnew
      have hnone := hg.symm.trans (h.lookup_group.mpr hnew)
      cases hnone
    rw [if_pos (not_not.mp hold), Nat.add_zero] at hcard
    rw [hcard]
    split
    · rename_i hnone
      have hnew : NewBucket query location rows r := (h.lookup_bucket hg).mp hnone
      rw [outputPoints_bucket hold hnew, h.points]
      split
      · exact .inr ⟨_, rfl, by omega⟩
      · exact .inl ⟨_, rfl, by omega⟩
    · rename_i bucket hbucket
      have hknown : ¬ NewBucket query location rows r := by
        intro hnew
        have hnone := hbucket.symm.trans ((h.lookup_bucket hg).mpr hnew)
        cases hnone
      rw [outputPoints_known hknown, h.points]
      exact .inl ⟨_, rfl, hcount, hpoints⟩

theorem WithinLimits.fits (h : WithinLimits query location rows) : Fits query location rows :=
  ⟨h.groups, h.points⟩

/-- A row in range is counted where the limits hold with it, and stops the walk where
they do not. -/
theorem visit_limits (h : Counted A query location rows acc)
    (hlimits : WithinLimits query location rows) (hr : inRange query r = true) :
    (∃ acc', visit A query location acc r = .ok acc' ∧ Counted A query location (rows ++ [r]) acc' ∧
        WithinLimits query location (rows ++ [r])) ∨
      ∃ e, visit A query location acc r = .error e ∧
        ¬ WithinLimits query location (rows ++ [r]) := by
  have hspec : ∀ acc', visit A query location acc r = .ok acc' →
      Accumulated A query location (rows ++ [r]) acc' := by
    intro acc' hok
    have hnext := visit_spec h.accumulated hok
    rwa [List.filter_cons_of_pos hr, List.filter_nil] at hnext
  have hlength : (rows ++ [r]).length = acc.totalResults + 1 := by
    rw [List.length_append, h.accumulated.totalResults, List.length_singleton]
  rw [visit] at hspec ⊢
  by_cases hroom : maxStatisticsResults ≤ acc.totalResults
  · rw [if_pos hroom]
    refine .inr ⟨_, rfl, fun hall ↦ ?_⟩
    have hresults := hall.results
    omega
  rw [if_neg hroom, hr, Bool.not_true, if_neg Bool.false_ne_true] at hspec ⊢
  dsimp only at hspec ⊢
  split
  · rename_i hlong
    refine .inr ⟨_, rfl, fun hall ↦ ?_⟩
    obtain ⟨hkey, hlabel⟩ := hall.dimensions r (by simp)
    omega
  · rename_i hshort
    rw [if_neg hshort] at hspec
    obtain ⟨hkey, hlabel⟩ := not_or.mp hshort
    obtain ⟨g, hok, hfits⟩ | ⟨e, herror, hfull⟩ := visitGroup_fits h hlimits.fits r
    · rw [hok] at hspec ⊢
      refine .inl ⟨_, rfl, ⟨hspec _ rfl, rfl⟩, ⟨by omega, ?_, hfits.1, hfits.2⟩⟩
      intro r' hr'
      rcases List.mem_append.mp hr' with hr' | hr'
      · exact hlimits.dimensions r' hr'
      · obtain rfl := List.mem_singleton.mp hr'
        exact ⟨not_lt.mp hkey, not_lt.mp hlabel⟩
    · rw [herror]
      exact .inr ⟨_, rfl, fun hall ↦ hfull hall.fits⟩

/-- A walk over rows in range ends without an error exactly within the limits. -/
theorem visitAll_limits {stream : List StatisticsResult}
    (hstream : ∀ r ∈ stream, inRange query r = true) (h : Counted A query location rows acc)
    (hlimits : WithinLimits query location rows) :
    (∃ acc', visitAll A query location acc stream = .ok acc') ↔
      WithinLimits query location (rows ++ stream) := by
  induction stream generalizing rows acc with
  | nil => simp [visitAll, hlimits]
  | cons r rest ih =>
      rw [List.forall_mem_cons] at hstream
      rw [visitAll, List.append_cons]
      obtain ⟨acc', hok, hcounted, hwithin⟩ | ⟨e, herror, hbeyond⟩ :=
        visit_limits h hlimits hstream.1
      · rw [hok]
        exact ih hstream.2 hcounted hwithin
      · rw [herror]
        apply iff_of_false
        · rintro ⟨acc', hacc'⟩
          cases hacc'
        · intro hall
          exact hbeyond hall.of_append

/-! ## What a walk leaves behind -/

/-- The accumulators when the walk ends or is stopped. -/
def lastAccumulation (A : Arithmetic R) (query : NormalizedQuery) (location : Location) :
    Accumulation → List StatisticsResult → Accumulation
  | acc, [] => acc
  | acc, r :: rest =>
      match visit A query location acc r with
      | .error _ => acc
      | .ok acc => lastAccumulation A query location acc rest

/-- The number of buckets that were created, those of the whole and of groups included. -/
def Accumulation.created (acc : Accumulation) : ℕ :=
  1 + (acc.groups.entries.map fun e ↦ 1 + e.2.buckets.entries.length).sum

/-- No accumulator is beyond the bounds. -/
structure Accumulation.Bounded (acc : Accumulation) : Prop where
  results : acc.totalResults ≤ maxStatisticsResults
  groups : acc.groups.entries.length ≤ maxStatisticsGroups
  created : acc.created ≤ maxStatisticsOutputPoints
  dimensions : ∀ e ∈ acc.groups.entries, e.1.utf8ByteSize ≤ maxStatisticsDimensionBytes

theorem Counted.created (h : Counted A query location rows acc) :
    acc.created = outputPoints query location rows := by
  have hbuckets : ∀ e ∈ acc.groups.entries, 1 + e.2.buckets.entries.length =
      1 + (keys (bucketKey query location) (fiber (groupKey query) rows e.1)).card := by
    intro e he
    rw [(h.accumulated.group he).buckets.length_entries]
  rw [Accumulation.created, outputPoints,
    h.accumulated.groups.sum_entries_keys (fun g ↦ 1 + g.buckets.entries.length)
      (fun k ↦ 1 + (keys (bucketKey query location) (fiber (groupKey query) rows k)).card) hbuckets]

theorem Counted.bounded (h : Counted A query location rows acc)
    (hlimits : WithinLimits query location rows) : acc.Bounded := by
  refine ⟨h.accumulated.totalResults.trans_le hlimits.results,
    h.accumulated.groups.length_entries.trans_le hlimits.groups,
    h.created.trans_le hlimits.points, fun e he ↦ ?_⟩
  obtain ⟨hne, -⟩ := h.accumulated.groups.of_some (AList.mem_lookup_iff.mpr he)
  obtain ⟨r, hr⟩ := List.exists_mem_of_ne_nil _ hne
  obtain ⟨hmem, hkey⟩ := (mem_fiber _).mp hr
  rw [← hkey]
  exact (hlimits.dimensions r hmem).1

theorem lastAccumulation_bounded (h : Counted A query location rows acc)
    (hlimits : WithinLimits query location rows) (stream : List StatisticsResult) :
    (lastAccumulation A query location acc stream).Bounded := by
  induction stream generalizing rows acc with
  | nil => exact h.bounded hlimits
  | cons r rest ih =>
      rw [lastAccumulation]
      by_cases hr : inRange query r = true
      · obtain ⟨acc', hok, hcounted, hwithin⟩ | ⟨e, herror, -⟩ := visit_limits h hlimits hr
        · rw [hok]
          exact ih hcounted hwithin
        · rw [herror]
          exact h.bounded hlimits
      · rw [visit]
        by_cases hroom : maxStatisticsResults ≤ acc.totalResults
        · rw [if_pos hroom]
          exact h.bounded hlimits
        · rw [if_neg hroom, Bool.eq_false_iff.mpr hr, Bool.not_false, if_pos rfl]
          exact ih h hlimits

end Walk

/-! ## Reports -/

section Reports

variable {R : Type*} {A : Arithmetic R} {query : NormalizedQuery} {location : Location}

/-- A report keeps the bounds. -/
structure Report.Bounded (report : Report R) : Prop where
  results : report.totalResults ≤ maxStatisticsResults
  groups : report.groups.length ≤ maxStatisticsGroups
  points : 1 + (report.groups.map fun g ↦ 1 + g.buckets.length).sum ≤ maxStatisticsOutputPoints
  dimensions : ∀ g ∈ report.groups, g.key.utf8ByteSize ≤ maxStatisticsDimensionBytes ∧
    g.label.utf8ByteSize ≤ maxStatisticsDimensionBytes

/-- What is reported is what was accumulated. -/
theorem Counted.report_bounded {rows : List StatisticsResult} {acc : Accumulation}
    (h : Counted A query location rows acc) (hlimits : WithinLimits query location rows)
    (hlabels : Labelled query acc) : (acc.report A query).Bounded := by
  have hbounded := h.bounded hlimits
  have hperm : acc.ordered.Perm (acc.groups.entries.map (·.2)) := List.mergeSort_perm _ _
  have hbuckets : ∀ g : GroupAccumulator, g.ordered.length = g.buckets.entries.length := by
    intro g
    unfold GroupAccumulator.ordered
    rw [List.length_mergeSort, List.length_map]
  refine ⟨hbounded.results, ?_, ?_, ?_⟩
  · change (acc.ordered.map (·.finish A)).length ≤ _
    rw [List.length_map, hperm.length_eq, List.length_map]
    exact hbounded.groups
  · change 1 + ((acc.ordered.map (·.finish A)).map fun g ↦ 1 + g.buckets.length).sum ≤ _
    rw [List.map_map, (hperm.map _).sum_eq, List.map_map]
    refine le_of_eq_of_le ?_ hbounded.created
    unfold Accumulation.created
    congr 3
    funext e
    change 1 + (e.2.ordered.map (·.finish A)).length = _
    rw [List.length_map, hbuckets]
  · intro group hgroup
    obtain ⟨g, hg, rfl⟩ := List.mem_map.mp hgroup
    obtain ⟨e, he, rfl⟩ := mem_ordered_group.mp hg
    obtain ⟨hne, hmade⟩ := h.accumulated.groups.of_some (AList.mem_lookup_iff.mpr he)
    obtain ⟨r, hr⟩ := List.exists_mem_of_ne_nil _ hne
    obtain ⟨hmem, hkey⟩ := (mem_fiber _).mp hr
    obtain ⟨hshort, hshortLabel⟩ := hlimits.dimensions r hmem
    have hlabel : e.2.label = groupLabel query.groupBy e.1 :=
      hlabels e.1 e.2 (AList.mem_lookup_iff.mpr he)
    rw [comparisonGroup_label] at hshortLabel
    constructor
    · change e.2.key.utf8ByteSize ≤ _
      rw [hmade.key_eq, ← hkey]
      exact hshort
    · change e.2.label.utf8ByteSize ≤ _
      rw [hlabel, ← hkey]
      exact hshortLabel

/-- A walk that ends has counted rows within the limits. -/
theorem visitAll_within {rows : List StatisticsResult} {acc acc' : Accumulation}
    (h : Counted A query location rows acc) (hlimits : WithinLimits query location rows)
    {stream : List StatisticsResult} (hvisit : visitAll A query location acc stream = .ok acc') :
    ∃ rows', Counted A query location rows' acc' ∧ WithinLimits query location rows' := by
  induction stream generalizing rows acc with
  | nil =>
      cases hvisit
      exact ⟨rows, h, hlimits⟩
  | cons r rest ih =>
      rw [visitAll] at hvisit
      split at hvisit
      · cases hvisit
      · rename_i next hnext
        by_cases hr : inRange query r = true
        · obtain ⟨acc', hok, hcounted, hwithin⟩ | ⟨e, herror, -⟩ := visit_limits h hlimits hr
          · obtain rfl := Except.ok.inj (hok.symm.trans hnext)
            exact ih hcounted hwithin hvisit
          · rw [herror] at hnext
            cases hnext
        · rw [visit, Bool.eq_false_iff.mpr hr, Bool.not_false, if_pos rfl] at hnext
          split at hnext
          · cases hnext
          · obtain rfl := Except.ok.inj hnext
            exact ih h hlimits hvisit

end Reports

/-- A query over rows of its range is answered exactly within the limits; its report keeps
them, and however a walk ends, no accumulator beyond them was created. -/
theorem statistics_limits_exact {R : Type*} (A : Arithmetic R) {env : Env} {request : Query}
    {query : NormalizedQuery} {location : Location}
    (hquery : normalizeQuery env request = .ok (query, location)) (walk : ResultSource) :
    let rows := (walk ⟨query.from, query.to, query.filter⟩).1
    ((∀ r ∈ rows, inRange query r = true) →
      (walk ⟨query.from, query.to, query.filter⟩).2 = none →
      ((∃ report, Service.query A env (some walk) request = .ok report) ↔
        WithinLimits query location rows)) ∧
    (∀ report, Service.query A env (some walk) request = .ok report → report.Bounded) ∧
    (lastAccumulation A query location (.start query) rows).Bounded := by
  intro rows
  refine ⟨fun hrange hend ↦ ?_, fun report h ↦ ?_, lastAccumulation_bounded .start .nil rows⟩
  · have hlimits := @visitAll_limits _ A query location [] _ rows hrange .start .nil
    rw [List.nil_append] at hlimits
    rw [← hlimits]
    unfold Service.query
    rw [hquery]
    dsimp only
    rw [hend]
    change (∃ report, (match visitAll A query location (.start query) rows with
      | .error e => _
      | .ok acc => _) = Except.ok report) ↔ _
    cases visitAll A query location (.start query) rows with
    | error e => simp
    | ok acc => simp
  · unfold Service.query at h
    rw [hquery] at h
    dsimp only at h
    split at h
    · cases h
    · rename_i acc hvisit
      split at h
      · cases h
      · obtain rfl := Except.ok.inj h
        obtain ⟨rows', hcounted, hwithin⟩ := visitAll_within .start .nil hvisit
        exact hcounted.report_bounded hwithin (Labelled.start.visitAll hvisit)

/-- Two rows in one bucket make a report of three points. -/
theorem statistics_limits_exact_sample :
    ∃ query location, normalizeQuery utcEnv weekRequest = .ok (query, location) ∧
      outputPoints query location [sampleResult, sampleResult] = 3 ∧
      ∃ report, Service.query doubleArithmetic utcEnv
        (some fun _ ↦ ([sampleResult, sampleResult], none)) weekRequest = .ok report := by
  have hquery : ∃ query location, normalizeQuery utcEnv weekRequest = .ok (query, location) ∧
      inRange query sampleResult = true ∧
      outputPoints query location [sampleResult, sampleResult] = 3 ∧
      ShortDimension query sampleResult := ⟨_, _, rfl, by decide +kernel⟩
  obtain ⟨query, location, hok, hrange, hpoints, hshort⟩ := hquery
  refine ⟨query, location, hok, hpoints, ?_⟩
  refine ((statistics_limits_exact doubleArithmetic hok
    fun _ ↦ ([sampleResult, sampleResult], none)).1 ?_ rfl).mpr ⟨by decide, ?_, ?_, ?_⟩
  · simp [hrange]
  · simp [hshort]
  · exact (List.toFinset_card_le _).trans (by simp [maxStatisticsGroups])
  · rw [hpoints]
    decide

end MultiSpeed.Statistics
