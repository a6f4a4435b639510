import MultiSpeed.Database.Statements
import MultiSpeed.Execution.Run
import MultiSpeed.Retention.Batches

/-!
# When a cleanup is right

The deleted rows are the first of the selected ones, as many as there are turns for.  All
that can go wrong is that the text of the cutoff selects too few.
-/

namespace MultiSpeed.Retention

open Database Gregorian Statistics

variable {cleaner : Cleaner} {cutoff : Time} {s : Store}

/-- What an undisturbed run deletes. -/
structure Outcome (cleaner : Cleaner) (cutoff : Time) (s : Store) (run : Cleanup)
    (gone : List Result) : Prop where
  deletes : Deletes s run.store gone
  length : gone.length =
    min (selectedRows s cutoff).length (cleaner.batchSize * cleaner.maxBatches).toNat
  selected : gone ⊆ selectedRows s cutoff
  before : ∀ row ∈ gone, ∀ row' ∈ selectedRows s cutoff, row' ∉ gone → finishedFirst row row'
  reported : run.metrics.deletedResults = gone.length
  batches : run.metrics.batches ≤ cleaner.maxBatches
  limit : run.metrics.limitReached =
    decide ((cleaner.batchSize * cleaner.maxBatches).toNat ≤ (selectedRows s cutoff).length)

theorem runBefore_outcome (cleaner : Cleaner) (mode : String) (cutoff startedAt finishedAt : Time)
    (s : Store) : ∃ gone, Outcome cleaner cutoff s
      (runBefore cleaner mode cutoff startedAt (undisturbed finishedAt) s) gone := by
  obtain ⟨k, gone, hends⟩ := deleteBatches_run cleaner cutoff s fun _ ↦ .served
  have hnone := hends.undisturbed fun _ ↦ rfl
  have hlength := hends.cleaned.foremost.length_eq
  have hsize := cleaner.batchSize_mem
  have hmax := cleaner.maxBatches_mem
  have hturns := hends.turns
  have hk : cleaner.batchSize.toNat * k ≤ (cleaner.batchSize * cleaner.maxBatches).toNat := by
    rw [Int.toNat_mul (by omega) (by omega)]
    exact Nat.mul_le_mul_left _ (by omega)
  have hall : (k : ℤ) = cleaner.maxBatches →
      cleaner.batchSize.toNat * k = (cleaner.batchSize * cleaner.maxBatches).toNat := by
    intro hlast
    rw [Int.toNat_mul (by omega) (by omega), ← hlast, Int.toNat_natCast]
  have hreached : ∀ reached, (deleteBatches cleaner cutoff (fun _ ↦ .served)
      cleaner.maxBatches.toNat 0 ⟨s, 0, 0, false⟩).1.limitReached = reached →
        gone.length = min (selectedRows s cutoff).length
          (cleaner.batchSize * cleaner.maxBatches).toNat ∧
        reached = decide
          ((cleaner.batchSize * cleaner.maxBatches).toNat ≤ (selectedRows s cutoff).length) := by
    intro reached hvalue
    cases reached with
    | false =>
        have hshort := hends.short hnone hvalue
        exact ⟨by omega, (decide_eq_false (by omega)).symm⟩
    | true =>
        obtain ⟨hlast, hfull⟩ := hends.limit hnone hvalue
        have hproduct := hall hlast
        exact ⟨by omega, (decide_eq_true (by omega)).symm⟩
  obtain ⟨hcount, hlimit⟩ := hreached _ rfl
  have hbatches := hends.batches
  rw [if_neg (by rw [hnone]; nofun), add_zero] at hbatches
  have hcleaned := hends.cleaned
  refine ⟨gone, ?_⟩
  unfold runBefore undisturbed
  dsimp only
  generalize deleteBatches cleaner cutoff (fun _ ↦ .served) cleaner.maxBatches.toNat 0
    ⟨s, 0, 0, false⟩ = result at *
  obtain ⟨p, error⟩ := result
  dsimp only at hnone
  subst hnone
  have hends' : ∀ maintenance, Outcome cleaner cutoff s
      ⟨metricsOf mode cutoff startedAt finishedAt p maintenance, none, p.store⟩ gone := by
    intro maintenance
    exact ⟨hcleaned.deletes, hcount, hcleaned.foremost.subperm.subset, hcleaned.foremost.before,
      hcleaned.deletedResults, hbatches.trans_le hturns, hlimit⟩
  dsimp only
  split
  · exact hends' false
  · exact hends' true

variable {run : Cleanup} {gone : List Result}

theorem Outcome.mem_store_iff (h : Outcome cleaner cutoff s run gone) {row : Result} :
    row ∈ run.store.results.rows ↔ row ∈ s.results.rows ∧ row ∉ gone := by
  rw [h.deletes.rows, List.mem_filter, Bool.not_eq_true', decide_eq_false_iff_not]
  refine and_congr_right fun hrow ↦ not_congr ⟨fun hid ↦ ?_, List.mem_map_of_mem⟩
  exact mem_of_id_mem (ids_nodup s) h.deletes.subperm.subset hrow hid

theorem Outcome.mem_gone (h : Outcome cleaner cutoff s run gone) {row : Result}
    (hrow : row ∈ s.results.rows) (hgone : row ∉ run.store.results.rows) : row ∈ gone := by
  by_contra hkept
  exact hgone (h.mem_store_iff.mpr ⟨hrow, hkept⟩)

/-- All selected rows are gone where the limit was not reached. -/
theorem Outcome.gone_of_selected (h : Outcome cleaner cutoff s run gone)
    (hlimit : ¬ (cleaner.batchSize * cleaner.maxBatches).toNat ≤ (selectedRows s cutoff).length)
    {row : Result} (hrow : row ∈ selectedRows s cutoff) : row ∈ gone := by
  have hlength := h.length
  have hnodup : gone.Nodup := by
    obtain ⟨part, hpart, hsublist⟩ := h.deletes.subperm
    exact hpart.nodup_iff.mp ((ids_nodup s).of_map.sublist hsublist)
  have hperm := (hnodup.subperm h.selected).perm_of_length_le (by omega)
  exact hperm.mem_iff.mpr hrow

theorem Outcome.textSelects (h : Outcome cleaner cutoff s run gone)
    (hbounded : Bounded cleaner cutoff s run) : TextSelects cleaner cutoff s := by
  by_cases hlimit :
      (cleaner.batchSize * cleaner.maxBatches).toNat ≤ (selectedRows s cutoff).length
  · exact .inr (Int.toNat_le.mp hlimit)
  · refine .inl fun row hrow hexpired ↦ ?_
    have hunlimited : run.metrics.limitReached = false := by
      rw [h.limit, decide_eq_false hlimit]
    have hgone : row ∉ run.store.results.rows := by
      intro hkept
      rw [hbounded.complete hunlimited row hkept] at hexpired
      cases hexpired
    exact (List.mem_filter.mp (h.selected (h.mem_gone hrow hgone))).2

theorem Outcome.bounded (h : Outcome cleaner cutoff s run gone) (hends : EndsInRange s)
    (hselects : TextSelects cleaner cutoff s) : Bounded cleaner cutoff s run := by
  have hsize := cleaner.batchSize_mem
  have hmax := cleaner.maxBatches_mem
  have hexpired : ∀ row ∈ selectedRows s cutoff, Store.expired cutoff row = true := by
    intro row hrow
    obtain ⟨hmem, hselected⟩ := List.mem_filter.mp hrow
    exact expired_of_expiredWhere (hends row hmem) hselected
  have hsublist : (selectedRows s cutoff).Sublist (expiredRows s cutoff) := by
    have hfilter : selectedRows s cutoff = (expiredRows s cutoff).filter (expiredWhere cutoff) := by
      unfold selectedRows expiredRows
      rw [List.filter_filter]
      refine List.filter_congr fun row hrow ↦ ?_
      cases hwhere : expiredWhere cutoff row with
      | false => rfl
      | true => exact (expired_of_expiredWhere (hends row hrow) hwhere).symm
    rw [hfilter]
    exact List.filter_sublist
  have hcount : gone.length =
      min (expiredRows s cutoff).length (cleaner.batchSize * cleaner.maxBatches).toNat := by
    have hlength := h.length
    have hle := hsublist.length_le
    rcases hselects with hall | hmany
    · have hsame : expiredRows s cutoff = selectedRows s cutoff := by
        refine List.filter_congr fun row hrow ↦ ?_
        rw [Bool.eq_iff_iff]
        exact ⟨hall row hrow, expired_of_expiredWhere (hends row hrow)⟩
      rw [hsame]
      exact hlength
    · have hmany := Int.toNat_le.mpr hmany
      change _ ≤ (selectedRows s cutoff).length at hmany
      omega
  refine ⟨?_, fun row hrow ↦ (h.mem_store_iff.mp hrow).1, ?_, ?_, h.deletes.same, ?_, h.batches, ?_⟩
  · have hlength := h.deletes.length
    omega
  · intro row hrow hgone
    exact hexpired row (h.selected (h.mem_gone hrow hgone))
  · intro row hkept hrow earlierRow hearlier hgone
    obtain ⟨hmem, hout⟩ := h.mem_store_iff.mp hkept
    have hdeleted := h.mem_gone hearlier hgone
    apply finished_le (hends row hmem) (hends earlierRow hearlier)
    by_cases hselected : expiredWhere cutoff row = true
    · exact h.before earlierRow hdeleted row (List.mem_filter.mpr ⟨hmem, hselected⟩) hout
    · unfold Store.expired at hrow
      rw [Bool.and_eq_true, Option.any_eq_true] at hrow
      obtain ⟨hterminal, finished, hfinished, -⟩ := hrow
      apply finishedFirst_of_not_selected hterminal ?_ hselected
      · exact (List.mem_filter.mp (h.selected hdeleted)).2
      · rw [hfinished]
        rfl
  · rw [h.reported, hcount]
  · intro hunlimited row hkept
    obtain ⟨hmem, hout⟩ := h.mem_store_iff.mp hkept
    rw [h.limit, decide_eq_false_iff_not] at hunlimited
    rcases hselects with hall | hmany
    · cases hrow : Store.expired cutoff row with
      | false => rfl
      | true =>
          have hselected := List.mem_filter.mpr ⟨hmem, hall row hmem hrow⟩
          exact absurd (h.gone_of_selected hunlimited hselected) hout
    · exact absurd (Int.toNat_le.mpr hmany) hunlimited

/-! ## The law of the cleanup -/

/-- A cleanup deletes the oldest expired results and nothing else exactly if the text of
its cutoff selects them, which every cutoff before the year 10000 does.  Whatever disturbs
it, it leaves what its batches left. -/
theorem cleanup_bounded_iff {s : Store} (hends : EndsInRange s) (cleaner : Cleaner) (mode : String)
    (cutoff startedAt finishedAt : Time) :
    (Bounded cleaner cutoff s
        (runBefore cleaner mode cutoff startedAt (undisturbed finishedAt) s) ∧
      (∀ answers, ∃ k, Partial cleaner cutoff s
        (runBefore cleaner mode cutoff startedAt answers s) k) ↔
      TextSelects cleaner cutoff s) ∧
    (yearOf (localDay Statistics.utc cutoff) ≤ 9999 → TextSelects cleaner cutoff s) := by
  obtain ⟨gone, houtcome⟩ := runBefore_outcome cleaner mode cutoff startedAt finishedAt s
  refine ⟨⟨fun hbounded ↦ houtcome.textSelects hbounded.1, fun hselects ↦ ⟨?_, ?_⟩⟩, fun hyear ↦ ?_⟩
  · exact houtcome.bounded hends hselects
  · exact fun answers ↦ runBefore_partial cleaner mode cutoff startedAt answers s
  · refine .inl fun row hrow hexpired ↦ ?_
    exact expiredWhere_of_year_le (hends row hrow) hyear hexpired

/-- The cutoffs of the program are in the past, which is before the year 10000. -/
theorem cleanup_bounded {s : Store} (hends : EndsInRange s) (cleaner : Cleaner) (mode : String)
    (cutoff startedAt finishedAt : Time)
    (hyear : yearOf (localDay Statistics.utc cutoff) ≤ 9999) :
    Bounded cleaner cutoff s
        (runBefore cleaner mode cutoff startedAt (undisturbed finishedAt) s) ∧
      ∀ answers, ∃ k, Partial cleaner cutoff s
        (runBefore cleaner mode cutoff startedAt answers s) k := by
  obtain ⟨hiff, hselects⟩ := cleanup_bounded_iff hends cleaner mode cutoff startedAt finishedAt
  exact hiff.mpr (hselects hyear)

/-- The configuration of the API and of the retention loop. -/
def deployedCleaner : Cleaner := ⟨⟨500, 100, true⟩, by decide, by decide⟩

/-- A result that succeeded at 2026-01-01T00:00:00Z. -/
def finishedResult : Result :=
  { Execution.queuedResult "" scheduledTask .manual none 1767225600000000000 with
    id := "run"
    status := .succeeded
    finishedAt := some 1767225600000000000 }

/-- A database with one task and one result. -/
def oneResult : Store :=
  { oneTask with
    results := ⟨[finishedResult], by decide, by simp⟩
    isConsistent := by decide }

theorem endsInRange_oneResult : EndsInRange oneResult := by
  intro row hrow finished hfinished
  obtain rfl := List.mem_singleton.mp hrow
  obtain rfl := Option.some.inj hfinished
  decide +kernel

theorem cleanup_bounded_oneResult :
    Bounded deployedCleaner 1767225600000000001 oneResult
      (runBefore deployedCleaner "manual" 1767225600000000001 0 (undisturbed 0) oneResult) := by
  have hlaw := cleanup_bounded endsInRange_oneResult deployedCleaner "manual"
    1767225600000000001 0 0 (by decide +kernel)
  exact hlaw.1

/-- A cutoff in the year 10000 is after the result, and the cleanup does not delete it. -/
theorem cleanup_keeps_expired : ∃ (s : Store) (cutoff : Time), EndsInRange s ∧
    cutoff = 253402300800000000000 ∧ (∀ row ∈ s.results.rows, Store.expired cutoff row = true) ∧
    s.results.rows.length = 1 ∧
    (runBefore deployedCleaner "manual" cutoff 0 (undisturbed 0) s).metrics.limitReached = false ∧
    (runBefore deployedCleaner "manual" cutoff 0 (undisturbed 0) s).store.results.rows.length = 1 ∧
    ¬ Bounded deployedCleaner cutoff s
      (runBefore deployedCleaner "manual" cutoff 0 (undisturbed 0) s) := by
  have hnone : selectedRows oneResult 253402300800000000000 = [] := by
    refine List.filter_eq_nil_iff.mpr fun row hrow ↦ ?_
    obtain rfl := List.mem_singleton.mp hrow
    decide +kernel
  have hexpired : ∀ row ∈ oneResult.results.rows,
      Store.expired 253402300800000000000 row = true := by
    intro row hrow
    obtain rfl := List.mem_singleton.mp hrow
    decide
  obtain ⟨gone, houtcome⟩ := runBefore_outcome deployedCleaner "manual" 253402300800000000000 0 0
    oneResult
  have hgone : gone.length = 0 := by
    rw [houtcome.length, hnone]
    rfl
  have hlength := houtcome.deletes.length
  rw [hgone, Nat.zero_add] at hlength
  refine ⟨oneResult, 253402300800000000000, endsInRange_oneResult, rfl, hexpired, rfl, ?_, hlength,
    fun hbounded ↦ ?_⟩
  · rw [houtcome.limit, hnone]
    decide
  · rcases houtcome.textSelects hbounded with hall | hmany
    · have hselected := hall finishedResult List.mem_cons_self (hexpired _ List.mem_cons_self)
      have hmem : finishedResult ∈ selectedRows oneResult 253402300800000000000 :=
        List.mem_filter.mpr ⟨List.mem_cons_self, hselected⟩
      rw [hnone] at hmem
      cases hmem
    · change _ ≤ ((selectedRows oneResult 253402300800000000000).length : ℤ) at hmany
      rw [hnone] at hmany
      exact absurd hmany (by decide)

end MultiSpeed.Retention
