import MultiSpeed.Retention.Cleaner

/-!
# What the batches of a cleanup delete

After every batch the deleted rows are the first of all rows that the condition selects,
in the order of the column.  The texts select no row that is not expired, so a cleanup is
right exactly if they select all, or enough for every batch.
-/

namespace MultiSpeed.Retention

open Database Gregorian Statistics SortableText

/-! ## The first rows of an order, taken in two parts -/

section Foremost

variable {order : Result → Result → Prop} {rows chosen chosen' : List Result} {m n : ℕ}

theorem mem_of_id_mem (hids : (rows.map Result.id).Nodup) (hsub : chosen ⊆ rows) {row : Result}
    (hrow : row ∈ rows) (hid : row.id ∈ chosen.map Result.id) : row ∈ chosen := by
  obtain ⟨row', hrow', heq⟩ := List.mem_map.mp hid
  have hsame := List.inj_on_of_nodup_map hids (hsub hrow') hrow heq
  rwa [← hsame]

/-- Some rows and the rows without their identities are all rows. -/
theorem perm_split (hids : (rows.map Result.id).Nodup) (hsub : chosen.Subperm rows) :
    (chosen ++ rows.filter fun row ↦ !decide (row.id ∈ chosen.map Result.id)).Perm rows := by
  have hchosen : chosen.Perm (rows.filter fun row ↦ decide (row.id ∈ chosen.map Result.id)) := by
    have hnodup : rows.Nodup := hids.of_map
    obtain ⟨part, hpart, hsublist⟩ := hsub
    have hparts : chosen.Nodup := hpart.nodup_iff.mp (hnodup.sublist hsublist)
    apply (List.perm_ext_iff_of_nodup hparts (hnodup.sublist List.filter_sublist)).mpr
    intro row
    rw [List.mem_filter, decide_eq_true_eq]
    constructor
    · intro hrow
      exact ⟨hsublist.subset (hpart.mem_iff.mpr hrow), List.mem_map_of_mem hrow⟩
    · rintro ⟨hrow, hid⟩
      exact mem_of_id_mem hids (fun _ h ↦ hsublist.subset (hpart.mem_iff.mpr h)) hrow hid
  exact (hchosen.append_right _).trans (List.filter_append_perm _ _)

theorem foremost_nil (order : Result → Result → Prop) (rows : List Result) :
    Store.Foremost order 0 rows [] := by
  refine ⟨?_, List.nil_subperm, List.Pairwise.nil, ?_⟩
  · rw [List.length_nil, Nat.zero_min]
  · intro row hrow
    cases hrow

theorem foremost_append (hids : (rows.map Result.id).Nodup)
    (h : Store.Foremost order m rows chosen)
    (h' : Store.Foremost order n
      (rows.filter fun row ↦ !decide (row.id ∈ chosen.map Result.id)) chosen') :
    Store.Foremost order (m + n) rows (chosen ++ chosen') := by
  have hsplit := perm_split hids h.subperm
  have hlength := hsplit.length_eq
  rw [List.length_append] at hlength
  have hrest : ∀ row ∈ chosen', row ∈ rows ∧ row ∉ chosen := by
    intro row hrow
    obtain ⟨hmem, hid⟩ := List.mem_filter.mp (h'.subperm.subset hrow)
    refine ⟨hmem, fun hchosen ↦ ?_⟩
    rw [Bool.not_eq_true', decide_eq_false_iff_not] at hid
    exact hid (List.mem_map_of_mem hchosen)
  refine ⟨?_, ?_, ?_, ?_⟩
  · have hfirst := h.length_eq
    have hsecond := h'.length_eq
    rw [List.length_append]
    omega
  · exact ((List.subperm_append_left chosen).mpr h'.subperm).trans hsplit.subperm
  · refine List.pairwise_append.mpr ⟨h.ordered, h'.ordered, fun row hrow row' hrow' ↦ ?_⟩
    exact h.before row hrow row' (hrest row' hrow').1 (hrest row' hrow').2
  · intro row hrow row' hrow' hout
    rw [List.mem_append, not_or] at hout
    rcases List.mem_append.mp hrow with hrow | hrow
    · exact h.before row hrow row' hrow' hout.1
    · apply h'.before row hrow row' ?_ hout.2
      refine List.mem_filter.mpr ⟨hrow', ?_⟩
      rw [Bool.not_eq_true', decide_eq_false_iff_not]
      exact fun hid ↦ hout.1 (mem_of_id_mem hids h.subperm.subset hrow' hid)

end Foremost

/-! ## One batch -/

/-- `ORDER BY finished_at`. -/
def finishedFirst (first second : Result) : Prop :=
  (first.finishedAt.map formatTime).getD "" ≤ (second.finishedAt.map formatTime).getD ""

instance : DecidableRel finishedFirst := fun _ _ ↦ inferInstanceAs (Decidable (_ ≤ _))

instance : Std.Total finishedFirst where
  total first _ := le_total ((first.finishedAt.map formatTime).getD "") _

instance : IsTrans Result finishedFirst where
  trans _ _ _ h h' := le_trans (α := String) h h'

/-- The rows that the condition of the statement selects. -/
def selectedRows (s : Store) (cutoff : Time) : List Result :=
  s.results.rows.filter (expiredWhere cutoff)

/-- The rows of one statement. -/
def batchRows (s : Store) (cutoff : Time) (batchSize : ℕ) : List Result :=
  ((selectedRows s cutoff).insertionSort finishedFirst).take batchSize

theorem ids_nodup (s : Store) : (s.results.rows.map Result.id).Nodup := s.results.keys_nodup

theorem selected_ids_nodup (s : Store) (cutoff : Time) :
    ((selectedRows s cutoff).map Result.id).Nodup :=
  (ids_nodup s).sublist (List.filter_sublist.map Result.id)

theorem foremost_batchRows (s : Store) (cutoff : Time) (batchSize : ℕ) :
    Store.Foremost finishedFirst batchSize (selectedRows s cutoff)
      (batchRows s cutoff batchSize) :=
  Store.foremost_take finishedFirst batchSize _

/-- A deletion breaks no constraint. -/
theorem writeResults_delete (s : Store) (p : Result → Bool) :
    ∃ s', s.writeResults (some (s.results.delete p)) = .ok s' ∧
      s'.results.rows = s.results.rows.filter (fun row ↦ !p row) ∧
      Store.SameExceptResults s s' := by
  have hconsistent : consistent s.tasks s.routes (s.results.delete p) s.settings = true := by
    obtain ⟨htask, hresult, hroute, hsettings⟩ := Store.consistent_iff.mp s.isConsistent
    have hold : ∀ k row, (s.results.delete p).find? k = some row →
        s.results.find? k = some row := by
      intro k row hrow
      rw [Table.find?_delete] at hrow
      exact (Option.filter_eq_some_iff.mp hrow).1
    exact Store.consistent_iff.mpr ⟨htask, fun k row hrow ↦ hresult k row (hold k row hrow),
      fun k row hrow ↦ hroute k row (hold k row hrow), hsettings⟩
  obtain ⟨s', hs'⟩ := commit_of_consistent hconsistent
  have hwrite : s.writeResults (some (s.results.delete p)) = .ok s' := hs'
  obtain ⟨hresults, hsame⟩ := Store.writeResults_ok hwrite
  refine ⟨s', hwrite, ?_, hsame⟩
  rw [← Option.some.inj hresults]
  rfl

/-- What one statement deletes and counts. -/
structure Deletes (s s' : Store) (gone : List Result) : Prop where
  rows : s'.results.rows =
    s.results.rows.filter fun row ↦ !decide (row.id ∈ gone.map Result.id)
  same : Store.SameExceptResults s s'
  subperm : gone.Subperm s.results.rows

theorem Deletes.length {s s' : Store} {gone : List Result} (h : Deletes s s' gone) :
    gone.length + s'.results.rows.length = s.results.rows.length := by
  have hsplit := (perm_split (ids_nodup s) h.subperm).length_eq
  rw [List.length_append, ← h.rows] at hsplit
  exact hsplit

theorem deleteResultsBefore_spec (s : Store) (cutoff : Time) {batchSize : ℤ}
    (hsize : 1 ≤ batchSize ∧ batchSize ≤ 5000) :
    ∃ s', deleteResultsBefore s cutoff batchSize =
        .ok (s', (batchRows s cutoff batchSize.toNat).length) ∧
      Deletes s s' (batchRows s cutoff batchSize.toNat) := by
  obtain ⟨s', hwrite, hrows, hsame⟩ := writeResults_delete s fun result ↦
    decide (result.id ∈ expiredIDs s cutoff batchSize.toNat)
  have hsub : (batchRows s cutoff batchSize.toNat).Subperm s.results.rows :=
    (foremost_batchRows s cutoff _).subperm.trans List.filter_sublist.subperm
  have hdeletes : Deletes s s' (batchRows s cutoff batchSize.toNat) := ⟨hrows, hsame, hsub⟩
  refine ⟨s', ?_, hdeletes⟩
  have hlength := hdeletes.length
  rw [deleteResultsBefore, if_neg (by omega), hwrite]
  dsimp only
  congr 2
  omega

/-! ## After so many batches -/

/-- The store, the count and the rows that are gone after so many batches. -/
structure Cleaned (cleaner : Cleaner) (cutoff : Time) (s : Store) (k : ℕ) (p : Progress)
    (gone : List Result) : Prop where
  deletes : Deletes s p.store gone
  foremost : Store.Foremost finishedFirst (cleaner.batchSize.toNat * k) (selectedRows s cutoff) gone
  deletedResults : p.deletedResults = gone.length
  store : p.store = afterBatches cleaner cutoff s k

theorem cleaned_zero (cleaner : Cleaner) (cutoff : Time) (s : Store) :
    Cleaned cleaner cutoff s 0 ⟨s, 0, 0, false⟩ [] := by
  refine ⟨⟨?_, ⟨rfl, rfl, rfl⟩, List.nil_subperm⟩, ?_, rfl, rfl⟩
  · exact (List.filter_eq_self.mpr fun _ _ ↦ rfl).symm
  · rw [Nat.mul_zero]
    exact foremost_nil _ _

variable {cleaner : Cleaner} {cutoff : Time} {s : Store}

theorem Cleaned.selectedRows_eq {k : ℕ} {p : Progress} {gone : List Result}
    (h : Cleaned cleaner cutoff s k p gone) : selectedRows p.store cutoff =
      (selectedRows s cutoff).filter fun row ↦ !decide (row.id ∈ gone.map Result.id) := by
  unfold selectedRows
  rw [h.deletes.rows, List.filter_filter, List.filter_filter]
  apply List.filter_congr
  intro row _
  exact Bool.and_comm _ _

/-- A batch takes the next rows of the order. -/
theorem Cleaned.batch {k : ℕ} {p : Progress} {gone : List Result}
    (h : Cleaned cleaner cutoff s k p gone) :
    ∃ s' more, deleteResultsBefore p.store cutoff cleaner.batchSize = .ok (s', (more.length : ℤ)) ∧
      more.length ≤ cleaner.batchSize.toNat ∧
      ∀ batches limitReached, Cleaned cleaner cutoff s (k + 1)
        ⟨s', batches, p.deletedResults + more.length, limitReached⟩ (gone ++ more) := by
  obtain ⟨s', hdelete, hdeletes⟩ :=
    deleteResultsBefore_spec p.store cutoff cleaner.batchSize_mem
  have hnext := foremost_batchRows p.store cutoff cleaner.batchSize.toNat
  rw [h.selectedRows_eq] at hnext
  have hall := foremost_append (selected_ids_nodup s cutoff) h.foremost hnext
  refine ⟨s', _, hdelete, ?_, fun batches limitReached ↦ ⟨⟨?_, ?_, ?_⟩, ?_, ?_, ?_⟩⟩
  · rw [hnext.length_eq]
    exact min_le_left _ _
  · rw [hdeletes.rows, h.deletes.rows, List.filter_filter]
    apply List.filter_congr
    intro row _
    simp only [List.map_append, List.mem_append, Bool.decide_or, Bool.not_or]
    exact Bool.and_comm _ _
  · have hold := h.deletes.same
    have hnew := hdeletes.same
    exact ⟨hnew.tasks.trans hold.tasks, hnew.routes.trans hold.routes,
      hnew.settings.trans hold.settings⟩
  · exact hall.subperm.trans List.filter_sublist.subperm
  · rw [Nat.mul_succ]
    exact hall
  · change p.deletedResults + _ = _
    rw [h.deletedResults, List.length_append]
    exact (Int.natCast_add _ _).symm
  · change s' = afterBatches cleaner cutoff s (k + 1)
    rw [afterBatches, ← h.store, hdelete]

/-! ## The loop -/

/-- How the loop ends: after `k` batches, of which the last was short, or after all of
them, or at an error. -/
structure Ends (cleaner : Cleaner) (cutoff : Time) (s : Store) (calls : ℕ → Call) (k : ℕ)
    (result : Progress × Option CleanupError) (gone : List Result) : Prop where
  cleaned : Cleaned cleaner cutoff s k result.1 gone
  turns : (k : ℤ) ≤ cleaner.maxBatches
  batches : result.1.batches = k + if result.2 = some .delete then 1 else 0
  undisturbed : (∀ j, calls j = .served) → result.2 = none
  limit : result.2 = none → result.1.limitReached = true →
    (k : ℤ) = cleaner.maxBatches ∧ gone.length = cleaner.batchSize.toNat * k
  short : result.2 = none → result.1.limitReached = false →
    gone.length < cleaner.batchSize.toNat * k

theorem deleteBatches_ends (calls : ℕ → Call) {left k : ℕ} {p : Progress} {gone : List Result}
    (hturns : (k : ℤ) + left = cleaner.maxBatches)
    (h : Cleaned cleaner cutoff s k p gone) (hbatches : p.batches = k)
    (hfull : gone.length = cleaner.batchSize.toNat * k)
    (hlimit : p.limitReached = decide (left = 0)) :
    ∃ k' gone', Ends cleaner cutoff s calls k' (deleteBatches cleaner cutoff calls left k p) gone' := by
  induction left generalizing k p gone with
  | zero =>
      refine ⟨k, gone, h, by omega, by simpa [deleteBatches] using hbatches, fun _ ↦ rfl, ?_, ?_⟩
      · exact fun _ _ ↦ ⟨by omega, hfull⟩
      · intro _ hunlimited
        rw [deleteBatches, hlimit] at hunlimited
        cases hunlimited
  | succ left ih =>
      cases hcall : calls k with
      | cancelled =>
          have heq : deleteBatches cleaner cutoff calls (left + 1) k p = (p, some .context) := by
            rw [deleteBatches, hcall]
          rw [heq]
          refine ⟨k, gone, h, by omega, by simpa using hbatches, ?_, nofun, nofun⟩
          intro hserved
          rw [hserved k] at hcall
          cases hcall
      | failed =>
          have heq : deleteBatches cleaner cutoff calls (left + 1) k p =
              ({ p with batches := p.batches + 1 }, some .delete) := by
            rw [deleteBatches, hcall]
          rw [heq]
          refine ⟨k, gone, ⟨h.deletes, h.foremost, h.deletedResults, h.store⟩, by omega, ?_, ?_,
            nofun, nofun⟩
          · rw [if_pos rfl, hbatches]
          · intro hserved
            rw [hserved k] at hcall
            cases hcall
      | served =>
          obtain ⟨s', more, hdelete, hmore, hcleaned⟩ := h.batch
          have hsize := cleaner.batchSize_mem
          have hvalid : ¬ ((more.length : ℤ) < 0 ∨ cleaner.batchSize < more.length) := by omega
          have hstep : deleteBatches cleaner cutoff calls (left + 1) k p =
              if (more.length : ℤ) < cleaner.batchSize then
                (⟨s', p.batches + 1, p.deletedResults + more.length, p.limitReached⟩, none)
              else deleteBatches cleaner cutoff calls left (k + 1)
                ⟨s', p.batches + 1, p.deletedResults + more.length,
                  p.limitReached || decide ((k : ℤ) = cleaner.maxBatches - 1)⟩ := by
            rw [deleteBatches, hcall]
            dsimp only
            rw [hdelete]
            dsimp only
            rw [if_neg hvalid]
          rw [hstep]
          have hunlimited : p.limitReached = false := by
            rw [hlimit, decide_eq_false_iff_not]
            omega
          have hlength : (gone ++ more).length = gone.length + more.length := List.length_append
          have hsucc : cleaner.batchSize.toNat * (k + 1) =
              cleaner.batchSize.toNat * k + cleaner.batchSize.toNat := Nat.mul_succ _ k
          by_cases hshort : (more.length : ℤ) < cleaner.batchSize
          · rw [if_pos hshort]
            refine ⟨k + 1, gone ++ more, hcleaned _ _, by omega, ?_, fun _ ↦ rfl, ?_, ?_⟩
            · simpa using hbatches
            · intro _ hreached
              rw [hunlimited] at hreached
              cases hreached
            · intro _ _
              rw [hlength, hfull]
              omega
          · rw [if_neg hshort]
            refine ih (by push_cast; omega) (hcleaned _ _) ?_ ?_ ?_
            · push_cast
              rw [hbatches]
            · rw [hlength, hfull]
              omega
            · rw [hunlimited, Bool.false_or, decide_eq_decide]
              omega

/-! ## The whole run -/

theorem deleteBatches_run (cleaner : Cleaner) (cutoff : Time) (s : Store) (calls : ℕ → Call) :
    ∃ k gone, Ends cleaner cutoff s calls k
      (deleteBatches cleaner cutoff calls cleaner.maxBatches.toNat 0 ⟨s, 0, 0, false⟩) gone := by
  have hmax := cleaner.maxBatches_mem
  apply deleteBatches_ends calls (by omega) (cleaned_zero cleaner cutoff s) rfl rfl
  exact (decide_eq_false (by omega)).symm

/-- Whatever disturbs a run, it leaves the store of the batches it counts. -/
theorem runBefore_partial (cleaner : Cleaner) (mode : String) (cutoff startedAt : Time)
    (answers : Answers) (s : Store) :
    ∃ k, Partial cleaner cutoff s (runBefore cleaner mode cutoff startedAt answers s) k := by
  obtain ⟨k, gone, hends⟩ := deleteBatches_run cleaner cutoff s answers.calls
  have hlength := hends.cleaned.deletes.length
  have hcount := hends.cleaned.deletedResults
  have hbatches := hends.batches
  have hstore := hends.cleaned.store
  unfold runBefore
  generalize deleteBatches cleaner cutoff answers.calls cleaner.maxBatches.toNat 0
    ⟨s, 0, 0, false⟩ = result at *
  obtain ⟨p, error⟩ := result
  refine ⟨k, ?_⟩
  cases error with
  | some e =>
      refine ⟨hends.turns, hstore, hbatches, ?_⟩
      change p.deletedResults = _
      dsimp only at hcount hlength ⊢
      omega
  | none =>
      have hgone : p.deletedResults = (s.results.rows.length : ℤ) - p.store.results.rows.length := by
        dsimp only at hcount hlength
        omega
      dsimp only
      split
      · exact ⟨hends.turns, hstore, hbatches, hgone⟩
      · split
        · exact ⟨hends.turns, hstore, hbatches, hgone⟩
        · exact ⟨hends.turns, hstore, hbatches, hgone⟩

/-! ## Texts and instants -/

/-- The results' end times are written with a year of four digits, as the clock's are. -/
def EndsInRange (s : Store) : Prop :=
  ∀ row ∈ s.results.rows, ∀ finished ∈ row.finishedAt, FourDigitYear finished

theorem exists_digit_of_fourDigitYear {t : Time} (ht : FourDigitYear t) :
    ∃ c rest, (formatTime t).toList = c :: rest ∧ c.isDigit = true := by
  have hlength : (digits (yearOf (localDay Statistics.utc t)).toNat 4).length = 4 := by
    have hyear := ht.2
    exact length_digits (by decide) (by omega)
  unfold formatTime dayLayout monthLayout yearLayout
  rw [String.toList_ofList, appendInt_of_nonneg ht.1]
  cases hdigits : digits (yearOf (localDay Statistics.utc t)).toNat 4 with
  | nil =>
      rw [hdigits] at hlength
      cases hlength
  | cons c rest =>
      have hc : c ∈ digits (yearOf (localDay Statistics.utc t)).toNat 4 := by
        rw [hdigits]
        exact List.mem_cons_self
      exact ⟨c, _, rfl, isDigit_of_mem_digits hc⟩

theorem exists_sign_of_neg {t : Time} (ht : yearOf (localDay Statistics.utc t) < 0) :
    ∃ rest, (formatTime t).toList = '-' :: rest := by
  unfold formatTime dayLayout monthLayout yearLayout appendInt signed
  rw [String.toList_ofList, if_pos ht]
  exact ⟨_, rfl⟩

/-- A text that sorts before the cutoff's is of an instant before the cutoff. -/
theorem lt_of_formatTime_lt {t cutoff : Time} (ht : FourDigitYear t)
    (h : formatTime t < formatTime cutoff) : t < cutoff := by
  by_cases hcutoff : FourDigitYear cutoff
  · exact (formatTime_lt_iff ht hcutoff).mp h
  · by_cases hneg : yearOf (localDay Statistics.utc cutoff) < 0
    · obtain ⟨c, rest, htext, hdigit⟩ := exists_digit_of_fourDigitYear ht
      obtain ⟨rest', htext'⟩ := exists_sign_of_neg hneg
      rw [String.lt_iff, htext, htext', List.cons_lt_cons_iff] at h
      rcases h with hlt | ⟨rfl, -⟩
      · have hlow := (Char.isDigit_iff_toNat.mp hdigit).1
        have hlt' : c.toNat < '-'.toNat := hlt
        exact absurd (hlow.trans_lt hlt') (by decide)
      · cases hdigit
    · have hyears : yearOf (localDay Statistics.utc t) < yearOf (localDay Statistics.utc cutoff) := by
        have hlate : ¬ (0 ≤ yearOf (localDay Statistics.utc cutoff) ∧
            yearOf (localDay Statistics.utc cutoff) ≤ 9999) :=
          hcutoff
        have hyear := ht.2
        omega
      by_contra hle
      have hdays := years.index_mono (localDay_mono (not_lt.mp hle))
      exact absurd hyears (not_lt.mpr hdays)

theorem expired_of_expiredWhere {row : Result} (hrow : ∀ t ∈ row.finishedAt, FourDigitYear t)
    (h : expiredWhere cutoff row = true) : Store.expired cutoff row = true := by
  unfold expiredWhere at h
  rw [Bool.and_eq_true, Option.any_map, Option.any_eq_true] at h
  obtain ⟨hterminal, finished, hfinished, hbefore⟩ := h
  unfold Store.expired
  rw [Bool.and_eq_true, Option.any_eq_true]
  refine ⟨hterminal, finished, hfinished, decide_eq_true ?_⟩
  exact lt_of_formatTime_lt (hrow finished hfinished) (of_decide_eq_true hbefore)

theorem expiredWhere_of_year_le {row : Result} (hrow : ∀ t ∈ row.finishedAt, FourDigitYear t)
    (hyear : yearOf (localDay Statistics.utc cutoff) ≤ 9999) (h : Store.expired cutoff row = true) :
    expiredWhere cutoff row = true := by
  unfold Store.expired at h
  rw [Bool.and_eq_true, Option.any_eq_true] at h
  obtain ⟨hterminal, finished, hfinished, hbefore⟩ := h
  have hbefore := of_decide_eq_true hbefore
  have hin := hrow finished hfinished
  have hcutoff : FourDigitYear cutoff := by
    have hyears := years.index_mono (localDay_mono hbefore.le)
    exact ⟨hin.1.trans hyears, hyear⟩
  unfold expiredWhere
  rw [Bool.and_eq_true, Option.any_map, Option.any_eq_true]
  exact ⟨hterminal, finished, hfinished, decide_eq_true ((formatTime_lt_iff hin hcutoff).mpr hbefore)⟩

/-- A selected row did not finish after a row that is not selected or comes later. -/
theorem finished_le {row gone : Result} (hrow : ∀ t ∈ row.finishedAt, FourDigitYear t)
    (hgone : ∀ t ∈ gone.finishedAt, FourDigitYear t) (h : finishedFirst gone row) :
    ∀ finished ∈ row.finishedAt, ∀ earlier ∈ gone.finishedAt, earlier ≤ finished := by
  intro finished hfinished earlier hearlier
  unfold finishedFirst at h
  rw [Option.mem_def.mp hfinished, Option.mem_def.mp hearlier] at h
  exact (formatTime_le_iff (hgone earlier hearlier) (hrow finished hfinished)).mp h

theorem finishedFirst_of_not_selected {row gone : Result} (hterminal : row.status.terminal = true)
    (hfinished : row.finishedAt.isSome = true) (hrow : ¬ expiredWhere cutoff row = true)
    (hgone : expiredWhere cutoff gone = true) : finishedFirst gone row := by
  obtain ⟨finished, hfinished⟩ := Option.isSome_iff_exists.mp hfinished
  unfold expiredWhere at hrow hgone
  rw [Bool.and_eq_true, Option.any_map, Option.any_eq_true] at hrow hgone
  obtain ⟨-, earlier, hearlier, hbefore⟩ := hgone
  have hlate : ¬ formatTime finished < formatTime cutoff := by
    intro hlt
    exact hrow ⟨hterminal, finished, hfinished, decide_eq_true hlt⟩
  unfold finishedFirst
  rw [hfinished, hearlier]
  exact (of_decide_eq_true hbefore).le.trans (not_lt.mp hlate)

end MultiSpeed.Retention
