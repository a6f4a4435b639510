import MultiSpeed.Database.Results
import MultiSpeed.Statistics.Zone

/-!
# The cutoff of a retention policy

`Cutoff` and `subtractMonths` of `internal/retention/retention.go`.  A policy of months
keeps the time of day and moves the date to an earlier month, where the last day stands
for the days that the month does not have.  Two instants of one month can so be moved to
the same day, and the later one to an earlier time of it.
-/

namespace MultiSpeed.Retention

open Database Gregorian Statistics

structure Policy where
  mode : String
  value : ℤ

inductive CutoffError where
  /-- retention reference time is required -/
  | noReference
  /-- retention value cannot be negative -/
  | negative
  /-- day retention value must be at least one -/
  | days
  /-- month retention value must be at least one -/
  | months
  /-- unsupported retention mode -/
  | unsupported (mode : String)
  deriving DecidableEq

/-- `time.Date` with the time of day of `value`. -/
def withClock (value : Time) (year month day : ℤ) : Time :=
  date Statistics.utc year month day (localSecond Statistics.utc value % 86400) (value % 1000000000)

def subtractMonths (value : Time) (months : ℤ) : Time :=
  let n := localDay Statistics.utc value
  let targetMonthStart := withClock value (yearOf n) (month n - months) 1
  let lastDay :=
    Gregorian.day (localDay Statistics.utc (addDate Statistics.utc targetMonthStart 0 1 (-1)))
  let targetDay := if lastDay < Gregorian.day n then lastDay else Gregorian.day n
  let target := localDay Statistics.utc targetMonthStart
  withClock value (yearOf target) (month target) targetDay

/-- `Cutoff`: a policy that keeps results forever has none. -/
def cutoff (policy : Policy) (now : Time) : Except CutoffError (Option Time) :=
  if now = Database.zeroTime then .error .noReference
  else if policy.mode = "forever" then
    if policy.value < 0 then .error .negative else .ok none
  else if policy.mode = "days" then
    if policy.value < 1 then .error .days
    else .ok (some (addDate Statistics.utc now 0 0 (-policy.value)))
  else if policy.mode = "months" then
    if policy.value < 1 then .error .months
    else .ok (some (subtractMonths now policy.value))
  else .error (.unsupported policy.mode)

/-- The nanoseconds of a day. -/
def dayLength : ℤ := 86400000000000

/-! ## The date and the time of day -/

theorem localDay_utc (t : Time) : localDay Statistics.utc t = t / dayLength := by
  unfold localDay localSecond WallClock.reading Statistics.utc dayLength
  dsimp only
  omega

theorem withClock_eq (value : Time) (year month day : ℤ) :
    withClock value year month day = dayLength * dayNumber year month day + value % dayLength := by
  unfold withClock date localSecond WallClock.instant WallClock.reading Statistics.utc dayLength
  change (_ : ℤ) = _
  dsimp only
  omega

theorem localDay_withClock (value : Time) (year month day : ℤ) :
    localDay Statistics.utc (withClock value year month day) = dayNumber year month day := by
  rw [localDay_utc, withClock_eq]
  unfold dayLength
  omega

theorem addDate_utc (t : Time) (years months days : ℤ) :
    addDate Statistics.utc t years months days =
      withClock t (yearOf (localDay Statistics.utc t) + years) (month (localDay Statistics.utc t) + months)
        (Gregorian.day (localDay Statistics.utc t) + days) := rfl

theorem monthStart_first (k : ℤ) : dayNumber (yearOf (monthStart k)) (month (monthStart k)) 1 =
    monthStart k := by
  have hindex : months.index (monthStart k) = k := months.index_first k
  have hfirst := dayNumber_month_first (monthStart k)
  rw [hindex] at hfirst
  exact hfirst

theorem dayNumber_of_month (k d : ℤ) : dayNumber (yearOf (monthStart k)) (month (monthStart k)) d =
    monthStart k + d - 1 := by
  have hmove := dayNumber_add (yearOf (monthStart k)) (month (monthStart k)) 1 (d - 1)
  rw [monthStart_first, add_sub_cancel] at hmove
  rw [hmove]
  omega

/-- Moving months keeps the time of day and takes the date to the target month. -/
theorem subtractMonths_eq (now : Time) (n : ℤ) : subtractMonths now n =
    dayLength * inMonth (localDay Statistics.utc now) (monthOf (localDay Statistics.utc now) - n) +
      now % dayLength := by
  set today := localDay Statistics.utc now with htoday
  have hstart : dayNumber (yearOf today) (month today - n) 1 = monthStart (monthOf today - n) := by
    have hmonth := monthOf_eq today
    unfold dayNumber
    rw [show 12 * yearOf today + (month today - n - 1) = monthOf today - n by omega]
    omega
  have hlast : Gregorian.day (dayNumber (yearOf (monthStart (monthOf today - n)))
      (month (monthStart (monthOf today - n)) + 1) (Gregorian.day (monthStart (monthOf today - n)) + -1)) =
        monthLength (monthOf today - n) := by
    have hnext := dayNumber_next_month (monthOf today - n)
    change dayNumber (yearOf (monthStart (monthOf today - n)))
      (month (monthStart (monthOf today - n)) + 1) (Gregorian.day (monthStart (monthOf today - n))) =
        monthStart (monthOf today - n + 1) at hnext
    have hlength := monthStart_lt (monthOf today - n)
    have hin : monthOf (monthStart (monthOf today - n + 1) + -1) = monthOf today - n :=
      monthOf_eq_of_mem (by omega) (by omega)
    rw [dayNumber_add, hnext, Gregorian.day, hin, monthLength]
    omega
  have hclamp : (if monthLength (monthOf today - n) < Gregorian.day today then
      monthLength (monthOf today - n) else Gregorian.day today) =
        min (Gregorian.day today) (monthLength (monthOf today - n)) := by
    split <;> omega
  unfold subtractMonths
  dsimp only
  rw [← htoday, addDate_utc, localDay_withClock, localDay_withClock, hstart, add_zero, hlast,
    hclamp, withClock_eq, dayNumber_of_month, inMonth]

theorem localDay_subtractMonths (now : Time) (n : ℤ) : localDay Statistics.utc (subtractMonths now n) =
    inMonth (localDay Statistics.utc now) (monthOf (localDay Statistics.utc now) - n) := by
  rw [localDay_utc, subtractMonths_eq]
  unfold dayLength
  omega

theorem clock_subtractMonths (now : Time) (n : ℤ) :
    subtractMonths now n % dayLength = now % dayLength := by
  rw [subtractMonths_eq]
  unfold dayLength
  change (_ : ℤ) = _
  omega

/-! ## The law of the cutoff -/

/-- An instant of the month that is `n` months before, at the same time of day, on the
same day of the month or the last one. -/
structure MonthsBefore (n : ℤ) (now cutoff : Time) : Prop where
  month : 12 * yearOf (localDay Statistics.utc cutoff) + Gregorian.month (localDay Statistics.utc cutoff) =
    12 * yearOf (localDay Statistics.utc now) + Gregorian.month (localDay Statistics.utc now) - n
  clock : cutoff % dayLength = now % dayLength
  day : Gregorian.day (localDay Statistics.utc cutoff) =
    min (Gregorian.day (localDay Statistics.utc now))
    (daysIn (yearOf (localDay Statistics.utc cutoff)) (Gregorian.month (localDay Statistics.utc cutoff)))

/-- Two instants of one month stand for the last day of the month that is `n` months
before, and the second has the earlier time of day. -/
structure FallsBack (n : ℤ) (now later : Time) : Prop where
  month : monthOf (localDay Statistics.utc later) = monthOf (localDay Statistics.utc now)
  last : monthLength (monthOf (localDay Statistics.utc now) - n) ≤
    Gregorian.day (localDay Statistics.utc now)
  clock : later % dayLength < now % dayLength

theorem subtractMonths_monthsBefore (now : Time) (n : ℤ) :
    MonthsBefore n now (subtractMonths now n) := by
  have hday := localDay_subtractMonths now n
  have hmonth := monthOf_inMonth (localDay Statistics.utc now) (monthOf (localDay Statistics.utc now) - n)
  refine ⟨?_, clock_subtractMonths now n, ?_⟩
  · have hnow := monthOf_eq (localDay Statistics.utc now)
    have hcutoff := monthOf_eq (localDay Statistics.utc (subtractMonths now n))
    rw [hday, hmonth] at hcutoff
    rw [hday]
    omega
  · rw [hday, daysIn_eq, day_inMonth, hmonth]

theorem subtractMonths_lt_of_lt (now : Time) {n m : ℤ} (h : n < m) :
    subtractMonths now m < subtractMonths now n := by
  have hlt := inMonth_lt_inMonth (localDay Statistics.utc now) (localDay Statistics.utc now)
    (show monthOf (localDay Statistics.utc now) - m < monthOf (localDay Statistics.utc now) - n by omega)
  rw [subtractMonths_eq, subtractMonths_eq]
  unfold dayLength
  change (_ : ℤ) < _
  omega

theorem subtractMonths_zero (now : Time) : subtractMonths now 0 = now := by
  rw [subtractMonths_eq, sub_zero, inMonth_self, localDay_utc]
  exact Int.mul_ediv_add_emod now dayLength

theorem subtractMonths_lt (now : Time) {n : ℤ} (hn : 1 ≤ n) : subtractMonths now n < now := by
  have hlt := subtractMonths_lt_of_lt now (show (0 : ℤ) < n by omega)
  rwa [subtractMonths_zero] at hlt

theorem localDay_mono {now later : Time} (h : now ≤ later) :
    localDay Statistics.utc now ≤ localDay Statistics.utc later := by
  rw [localDay_utc, localDay_utc]
  exact Int.ediv_le_ediv (by decide) h

/-- The date of the cutoff never goes back. -/
theorem localDay_subtractMonths_mono {now later : Time} (h : now ≤ later) (n : ℤ) :
    localDay Statistics.utc (subtractMonths now n) ≤ localDay Statistics.utc (subtractMonths later n) := by
  rw [localDay_subtractMonths, localDay_subtractMonths]
  exact inMonth_mono (localDay_mono h) n

theorem inMonth_eq_iff {a b k k' : ℤ} :
    inMonth a k = inMonth b k' ↔
      k = k' ∧ min (Gregorian.day a) (monthLength k) = min (Gregorian.day b) (monthLength k') := by
  constructor
  · intro h
    have hmonth : k = k' := by
      rw [← monthOf_inMonth a k, h, monthOf_inMonth]
    refine ⟨hmonth, ?_⟩
    rw [← day_inMonth, h, day_inMonth]
  · rintro ⟨rfl, hday⟩
    rw [inMonth, hday, inMonth]

/-- Of two instants of a month one has the later day or the later time of day. -/
theorem day_lt_or_clock_le {now later : Time} (h : now ≤ later)
    (hmonth : monthOf (localDay Statistics.utc later) = monthOf (localDay Statistics.utc now)) :
    Gregorian.day (localDay Statistics.utc now) < Gregorian.day (localDay Statistics.utc later) ∨
      Gregorian.day (localDay Statistics.utc now) = Gregorian.day (localDay Statistics.utc later) ∧
        now % dayLength ≤ later % dayLength := by
  have hnow := localDay_utc now
  have hlater := localDay_utc later
  have hle : @LE.le ℤ _ now later := h
  unfold Gregorian.day
  rw [hmonth, hnow, hlater]
  unfold dayLength
  rcases (Int.ediv_le_ediv (show (0 : ℤ) < 86400000000000 by decide) hle).lt_or_eq with hlt | heq
  · exact .inl (by omega)
  · refine .inr ⟨by rw [heq], ?_⟩
    change (_ : ℤ) ≤ _
    omega

/-- The cutoff goes back exactly where two days are moved to one and the later instant has
the earlier time of day. -/
theorem subtractMonths_le_iff {now later : Time} (h : now ≤ later) (n : ℤ) :
    subtractMonths now n ≤ subtractMonths later n ↔ ¬ FallsBack n now later := by
  have hdate := inMonth_mono (localDay_mono h) n
  have hclocks := Int.emod_lt_of_pos now (show 0 < dayLength by decide)
  have hnonneg := Int.emod_nonneg later (show dayLength ≠ 0 by decide)
  rw [subtractMonths_eq, subtractMonths_eq]
  change (_ : ℤ) ≤ _ ↔ _
  rcases hdate.lt_or_eq with hlt | hsame
  · refine iff_of_true ?_ ?_
    · have hdays := Int.mul_le_mul_of_nonneg_left (Int.add_one_le_of_lt hlt)
        (show 0 ≤ dayLength by decide)
      rw [mul_add, mul_one] at hdays
      omega
    · rintro ⟨hmonth, hlast, -⟩
      rw [hmonth] at hlt
      unfold inMonth at hlt
      omega
  · obtain ⟨hmonth, hday⟩ := inMonth_eq_iff.mp hsame
    have hmonth' :
        monthOf (localDay Statistics.utc later) = monthOf (localDay Statistics.utc now) := by omega
    rw [hsame, add_le_add_iff_left]
    constructor
    · rintro hle ⟨-, -, hclock⟩
      exact absurd hclock (not_lt.mpr hle)
    · intro hforward
      rcases day_lt_or_clock_le h hmonth' with hlt | ⟨-, hclock⟩
      · by_contra hback
        refine hforward ⟨hmonth', ?_, not_le.mp hback⟩
        rw [← hmonth] at hday
        omega
      · exact hclock

/-- The cutoff of a policy of `n` months: its month, day and time of day, its order in `n`
and in the reference time, and what it means for the expiry of a result. -/
theorem cutoff_months {n : ℤ} (hn : 1 ≤ n) (now : Time) :
    (now ≠ Database.zeroTime → cutoff ⟨"months", n⟩ now = .ok (some (subtractMonths now n))) ∧
      MonthsBefore n now (subtractMonths now n) ∧
      subtractMonths now n < now ∧
      (∀ m, n < m → subtractMonths now m < subtractMonths now n) ∧
      ∀ later, now ≤ later →
        localDay Statistics.utc (subtractMonths now n) ≤ localDay Statistics.utc (subtractMonths later n) ∧
        (subtractMonths now n ≤ subtractMonths later n ↔ ¬ FallsBack n now later) ∧
        (¬ FallsBack n now later → ∀ row,
          Store.expired (subtractMonths now n) row = true →
            Store.expired (subtractMonths later n) row = true) := by
  refine ⟨fun hnow ↦ ?_, subtractMonths_monthsBefore now n, subtractMonths_lt now hn,
    fun m hm ↦ subtractMonths_lt_of_lt now hm, fun later hlater ↦ ?_⟩
  · unfold cutoff
    dsimp only
    rw [if_neg hnow, if_neg (by decide), if_neg (by decide), if_pos rfl,
      if_neg (show ¬ n < 1 by omega)]
  · refine ⟨localDay_subtractMonths_mono hlater n, subtractMonths_le_iff hlater n, ?_⟩
    intro hforward row hexpired
    have hle := (subtractMonths_le_iff hlater n).mpr hforward
    unfold Store.expired at hexpired ⊢
    rw [Bool.and_eq_true, Option.any_eq_true] at hexpired ⊢
    obtain ⟨hterminal, finished, hfinished, hbefore⟩ := hexpired
    refine ⟨hterminal, finished, hfinished, ?_⟩
    have hbefore := of_decide_eq_true hbefore
    exact decide_eq_true (hbefore.trans_le hle)

/-- One month before 2026-03-31T08:09:10Z. -/
theorem cutoff_months_march : subtractMonths 1774944550000000000 1 = 1772266150000000000 ∧
    MonthsBefore 1 1774944550000000000 1772266150000000000 := by
  have hcutoff : subtractMonths 1774944550000000000 1 = 1772266150000000000 := by
    decide +kernel
  have hspec := (cutoff_months (show (1 : ℤ) ≤ 1 from le_rfl) 1774944550000000000).2.1
  rw [hcutoff] at hspec
  exact ⟨hcutoff, hspec⟩

/-- At 2026-03-30T23:00Z the cutoff is 2026-02-28T23:00Z, two hours later it is
2026-02-28T01:00Z, and a result that finished at noon of that day is expired first and
then not. -/
theorem cutoff_months_goes_back : ∃ now later : Time, now < later ∧
    subtractMonths later 1 < subtractMonths now 1 ∧
    ∃ finished : Time, ∀ row : Result, row.status = .succeeded →
      row.finishedAt = some finished →
        Store.expired (subtractMonths now 1) row = true ∧
          Store.expired (subtractMonths later 1) row = false := by
  have hnow : subtractMonths 1774911600000000000 1 = 1772319600000000000 := by decide +kernel
  have hlater : subtractMonths 1774918800000000000 1 = 1772240400000000000 := by decide +kernel
  refine ⟨1774911600000000000, 1774918800000000000, by decide, ?_, 1772280000000000000,
    fun row hstatus hfinished ↦ ?_⟩
  · rw [hnow, hlater]
    decide
  · rw [hnow, hlater]
    unfold Store.expired
    rw [hstatus, hfinished]
    exact ⟨by decide, by decide⟩

end MultiSpeed.Retention
