import MultiSpeed.Statistics.Buckets

/-!
# The intervals of calendar buckets

The buckets of a granularity tile time when every result lies in its bucket and
the buckets of the periods that the clock shows follow each other without gap or
overlap.  They do exactly when the clock passes the first midnight of each period
at the instant the code finds for it, and the next one where it ends the bucket.
-/

namespace MultiSpeed.Statistics

open Gregorian
open Scheduling (Location)

/-- The same result at another time. -/
def StatisticsResult.at (result : StatisticsResult) (t : Time) : StatisticsResult :=
  { result with timestamp := t }

/-- The calendar period the clock shows. -/
def periodAt (P : Periods) (location : Location) (t : Time) : ℤ := P.index (localDay location t)

/-- The buckets of a zone divide time into its calendar periods. -/
def BucketsTile (P : Periods) (query : NormalizedQuery) (location : Location)
    (result : StatisticsResult) : Prop :=
  Tiles (periodAt P location) (fun t ↦ (describeBucket (result.at t) query location).start)
    fun t ↦ (describeBucket (result.at t) query location).end

/-! ## The readings the code asks for -/

/-- A reading of the clock moved by the calendar, its time of day kept. -/
def movedReading (r years months days : ℤ) : ℤ :=
  let n := r / 86400
  86400 * dayNumber (yearOf n + years) (month n + months) (day n + days) + r % 86400

/-- The lookups for the reading that is to begin the period of a date lead to `s`.  For a
week this reading is what the clock shows where the lookups for the midnight of the date
lead, moved back to Monday. -/
def BeginsAt (P : Periods) (location : Location) : Granularity → ℤ → ℤ → Prop
  | .isoWeek, n, s => ∃ midnight, WallClock.LeadsTo location.offset (86400 * n) midnight ∧
      WallClock.LeadsTo location.offset
        (movedReading (WallClock.reading location.offset midnight) 0 0 (-sinceMonday n)) s
  | _, n, s => WallClock.LeadsTo location.offset (86400 * P.first (P.index n)) s

/-- The reading that is to begin the period of a date.  For a week it is what the clock
shows at the chosen midnight of the date, moved back to Monday. -/
def firstReading (P : Periods) (location : Location) : Granularity → ℤ → ℤ
  | .isoWeek, n =>
      movedReading
        (WallClock.reading location.offset (WallClock.instant location.offset (86400 * n)))
        0 0 (-sinceMonday n)
  | _, n => 86400 * P.first (P.index n)

/-- The reading one period later. -/
def nextReading : Granularity → ℤ → ℤ
  | .isoWeek, r => movedReading r 0 0 7
  | .month, r => movedReading r 0 1 0
  | .year, r => movedReading r 1 0 0
  | _, r => movedReading r 0 0 1

/-- For every date the clock shows, there is an instant at which it passes the first
midnight of the period of the date and one at which it passes that of the next, and the
lookups lead to them: to the first one for the reading that is to begin the period, and
to the second one for what the clock shows at the first, moved on by a period. -/
def MidnightsFound (P : Periods) (granularity : Granularity) (location : Location) : Prop :=
  ∀ t, let n := localDay location t
    ∃ s s', Passes (WallClock.reading location.offset) s (86400 * P.first (P.index n)) ∧
      BeginsAt P location granularity n s ∧
      Passes (WallClock.reading location.offset) s' (86400 * P.first (P.index n + 1)) ∧
      WallClock.LeadsTo location.offset
        (nextReading granularity (WallClock.reading location.offset s)) s'

section Readings

variable (location : Location)

theorem date_eq (year month day : ℤ) : date location year month day 0 0 =
    1000000000 * WallClock.instant location.offset (86400 * dayNumber year month day) := by
  unfold date
  rw [add_zero, add_zero]

theorem localSecond_mul (s : ℤ) :
    localSecond location (1000000000 * s) = WallClock.reading location.offset s := by
  unfold localSecond
  rw [Int.mul_ediv_cancel_left s (by decide)]

theorem addDate_mul (s years months days : ℤ) :
    addDate location (1000000000 * s) years months days =
      1000000000 * WallClock.instant location.offset
        (movedReading (WallClock.reading location.offset s) years months days) := by
  unfold addDate date localDay
  rw [localSecond_mul, Int.mul_emod_right, add_zero]
  rfl

variable {P : Periods} {granularity : Granularity}

theorem beginsAt_iff {n s : ℤ} : BeginsAt P location granularity n s ↔
    WallClock.instant location.offset (firstReading P location granularity n) = s := by
  cases granularity with
  | isoWeek =>
      constructor
      · rintro ⟨midnight, hmidnight, hs⟩
        rw [WallClock.leadsTo_iff] at hmidnight hs
        rw [← hs, ← hmidnight]
        rfl
      · rintro rfl
        exact ⟨_, WallClock.leadsTo_iff.mpr rfl, WallClock.leadsTo_iff.mpr rfl⟩
  | raw | custom | day | month | year => exact WallClock.leadsTo_iff

theorem firstMidnight_eq (hP : granularity.periods = some P) (n : ℤ) :
    firstMidnight location granularity n =
      1000000000 * WallClock.instant location.offset (firstReading P location granularity n) := by
  cases granularity with
  | raw | custom => cases hP
  | day =>
      cases hP
      change date location (yearOf n) (month n) (day n) 0 0 = _
      rw [date_eq, dayNumber_date]
      rfl
  | isoWeek =>
      cases hP
      change addDate location (date location (yearOf n) (month n) (day n) 0 0) 0 0 _ = _
      rw [date_eq, dayNumber_date, addDate_mul]
      rfl
  | month =>
      cases hP
      change date location (yearOf n) (month n) 1 0 0 = _
      rw [date_eq, dayNumber_month_first]
      rfl
  | year =>
      cases hP
      change date location (yearOf n) 1 1 0 0 = _
      rw [date_eq, dayNumber_year_first]
      rfl

theorem nextMidnight_eq (hP : granularity.periods = some P) (n : ℤ) :
    nextMidnight location granularity n =
      1000000000 * WallClock.instant location.offset
        (nextReading granularity (WallClock.reading location.offset
          (WallClock.instant location.offset (firstReading P location granularity n)))) := by
  unfold nextMidnight
  rw [firstMidnight_eq location hP]
  cases granularity with
  | raw | custom => cases hP
  | day | isoWeek | month | year => exact addDate_mul location _ _ _ _

theorem lt_nanoseconds_iff (t s : ℤ) : t < 1000000000 * s ↔ t / 1000000000 < s := by omega

theorem passes_periodAt (s q : ℤ) : Passes (periodAt P location) (1000000000 * s) q ↔
    Passes (WallClock.reading location.offset) s (86400 * P.first q) := by
  have hperiod : ∀ t : ℤ, periodAt P location t < q ↔
      localSecond location t < 86400 * P.first q := by
    intro t
    unfold periodAt
    rw [← P.lt_first_iff]
    unfold localDay
    omega
  constructor
  · intro h t
    have ht := h (1000000000 * t)
    rw [hperiod, localSecond_mul] at ht
    rw [← ht]
    exact (Int.mul_lt_mul_left (by decide)).symm
  · intro h t
    exact (lt_nanoseconds_iff t s).trans ((h (t / 1000000000)).trans (hperiod t).symm)

end Readings

theorem bucketsTile_iff_found {query : NormalizedQuery} {P : Periods}
    (hP : query.granularity.periods = some P) (location : Location)
    (result : StatisticsResult) :
    BucketsTile P query location result ↔ MidnightsFound P query.granularity location := by
  unfold BucketsTile
  rw [tiles_iff]
  refine forall_congr' fun t ↦ ?_
  rw [describeBucket_eq hP]
  dsimp only [calendarBucket, StatisticsResult.at]
  rw [firstMidnight_eq location hP, nextMidnight_eq location hP, passes_periodAt,
    passes_periodAt]
  simp only [beginsAt_iff, WallClock.leadsTo_iff]
  constructor
  · rintro ⟨hfirst, hnext⟩
    exact ⟨_, _, hfirst, rfl, hnext, rfl⟩
  · rintro ⟨s, s', hfirst, rfl, hnext, rfl⟩
    exact ⟨hfirst, hnext⟩

/-! ## Regular midnights -/

/-- The midnight of every date is shown when the clock passes it, at an instant the
lookups find. -/
def RegularMidnights (location : Location) : Prop :=
  ∀ n, WallClock.Regular location.offset (86400 * n)

theorem regularMidnights_of_constant {location : Location} {c : ℤ}
    (h : ∀ s, location.offset s = c) : RegularMidnights location :=
  fun n ↦ WallClock.regular_of_constant h (86400 * n)

theorem movedReading_zero (r : ℤ) : movedReading r 0 0 0 = r := by
  unfold movedReading
  dsimp only
  rw [add_zero, add_zero, add_zero, dayNumber_date, Int.mul_ediv_add_emod]

theorem movedReading_midnight (n years months days : ℤ) :
    movedReading (86400 * n) years months days =
      86400 * dayNumber (yearOf n + years) (month n + months) (day n + days) := by
  unfold movedReading
  rw [Int.mul_ediv_cancel_left n (by decide), Int.mul_emod_right, add_zero]

section Regular

variable {location : Location} {P : Periods} {granularity : Granularity}

theorem RegularMidnights.firstReading_eq (h : RegularMidnights location)
    (hP : granularity.periods = some P) (n : ℤ) :
    firstReading P location granularity n = 86400 * P.first (P.index n) := by
  cases granularity with
  | raw | custom => cases hP
  | day | month | year => rfl
  | isoWeek =>
      cases hP
      change movedReading _ 0 0 (-sinceMonday n) = _
      rw [(h n).reading_instant, movedReading_midnight, add_zero, add_zero, dayNumber_add,
        dayNumber_date, weeks_first_index, sub_eq_add_neg]

/-- One period after the first midnight of a period is the first midnight of the next. -/
theorem nextReading_first (hP : granularity.periods = some P) (q : ℤ) :
    nextReading granularity (86400 * P.first q) = 86400 * P.first (q + 1) := by
  cases granularity with
  | raw | custom => cases hP
  | day =>
      cases hP
      change movedReading _ 0 0 1 = _
      rw [movedReading_midnight, add_zero, add_zero, dayNumber_add, dayNumber_date]
      rfl
  | isoWeek =>
      cases hP
      change movedReading _ 0 0 7 = _
      rw [movedReading_midnight, add_zero, add_zero, dayNumber_add, dayNumber_date,
        weeks_first_add_one]
  | month =>
      cases hP
      change movedReading _ 0 1 0 = _
      rw [movedReading_midnight, add_zero, add_zero, dayNumber_next_month]
  | year =>
      cases hP
      change movedReading _ 1 0 0 = _
      rw [movedReading_midnight, add_zero, add_zero, dayNumber_next_year]

theorem RegularMidnights.found (h : RegularMidnights location)
    (hP : granularity.periods = some P) : MidnightsFound P granularity location := by
  intro t
  obtain ⟨s, hfirst, hreading, hlookup⟩ :=
    (h (P.first (P.index (localDay location t)))).exists_leadsTo
  obtain ⟨s', hnext, -, hlookup'⟩ :=
    (h (P.first (P.index (localDay location t) + 1))).exists_leadsTo
  refine ⟨s, s', hfirst, ?_, hnext, ?_⟩
  · rw [beginsAt_iff, h.firstReading_eq hP]
    exact WallClock.leadsTo_iff.mp hlookup
  · rw [hreading, nextReading_first hP]
    exact hlookup'

end Regular

/-! ## The intervals -/

/-- The calendar buckets of a zone tile time exactly when the lookups find the midnights
its clock passes, in particular where no midnight is skipped or repeated. -/
theorem calendar_buckets_tile_iff {query : NormalizedQuery} {P : Periods}
    (hP : query.granularity.periods = some P) (location : Location)
    (result : StatisticsResult) :
    (BucketsTile P query location result ↔ MidnightsFound P query.granularity location) ∧
      (RegularMidnights location → BucketsTile P query location result) := by
  have hiff := bucketsTile_iff_found hP location result
  exact ⟨hiff, fun hregular ↦ hiff.mpr (hregular.found hP)⟩

/-! ## A skipped midnight -/

/-- The clock of São Paulo in November 2018: at the midnight that begins the 4th it goes
from 23:59:59 to 01:00:00. -/
def saoPaulo : Location := ⟨fun s ↦ if s < 1541300400 then -10800 else -7200⟩

def sampleResult : StatisticsResult where
  id := "result"
  taskID := "task"
  routeProfileID := ""
  provider := .ookla
  status := .succeeded
  timestamp := 1541298600000000000
  downloadBitsPerSecond := some 1
  uploadBitsPerSecond := some 1
  latencyMilliseconds := none
  jitterMilliseconds := none
  packetLossPercent := none
  executionDurationMS := 1
  interface := ""
  sourceIP := ""
  serverID := ""
  publicIP := ""
  providerVersion := ""

def novemberQuery (granularity : Granularity) : NormalizedQuery where
  «from» := 1541030400000000000
  «to» := 1543622400000000000
  granularity := granularity
  reportingTimezone := "America/Sao_Paulo"
  groupBy := .none
  filter := ⟨[], [], [], [], [], [], []⟩

/-- In UTC the ISO weeks tile time. -/
theorem calendar_buckets_tile_iff_utc :
    (novemberQuery .isoWeek).granularity.periods = some weeks ∧
      BucketsTile weeks (novemberQuery .isoWeek) utc sampleResult :=
  ⟨rfl, (calendar_buckets_tile_iff rfl utc sampleResult).2
    (regularMidnights_of_constant fun _ ↦ rfl)⟩

/-- The results of the last hour of the 3rd lie behind the end of their bucket. -/
theorem calendar_buckets_do_not_tile :
    ¬ ∀ (query : NormalizedQuery) (P : Periods) (location : Location)
      (result : StatisticsResult), query.granularity.periods = some P →
        BucketsTile P query location result := by
  intro h
  have hinside := (h (novemberQuery .day) days saoPaulo sampleResult rfl).contained
    1541298600000000000
  have hlate : ¬ (1541298600000000000 : ℤ) <
      (describeBucket (sampleResult.at 1541298600000000000) (novemberQuery .day)
        saoPaulo).end := by
    decide +kernel
  exact hlate hinside.2

end MultiSpeed.Statistics
