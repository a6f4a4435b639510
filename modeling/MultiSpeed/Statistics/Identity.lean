import MultiSpeed.Statistics.Intervals

/-!
# Keys and labels of calendar buckets

Two results share a bucket when their keys agree.  The key is the instant chosen for
the first midnight of the period, so it stands for the period as long as different
periods have different instants; the label of a day, a month or a year is printed
from the date shown at that instant.
-/

namespace MultiSpeed.Statistics

open Gregorian
open Scheduling (Location)

/-- Two dates have the same calendar date, ISO year and week, year and month, or year. -/
def samePeriod : Granularity → ℤ → ℤ → Prop
  | .isoWeek, a, b => isoYear a = isoYear b ∧ isoWeek a = isoWeek b
  | .month, a, b => yearOf a = yearOf b ∧ month a = month b
  | .year, a, b => yearOf a = yearOf b
  | _, a, b => a = b

/-- Results share a bucket exactly when their local dates lie in one period, and the label
of a bucket names the period of each of its results. -/
structure BucketsIdentify (query : NormalizedQuery) (location : Location) : Prop where
  same_bucket : ∀ r r' : StatisticsResult,
    (describeBucket r query location).key = (describeBucket r' query location).key ↔
      samePeriod query.granularity (localDay location r.timestamp)
        (localDay location r'.timestamp)
  label : ∀ r r' : StatisticsResult,
    (describeBucket r query location).key = (describeBucket r' query location).key →
      (describeBucket r query location).label =
        .ofList (periodName query.granularity (localDay location r'.timestamp))

/-- The lookups for the first midnight of a period that the clock shows lead to an instant
at which it shows a date of the period. -/
def DatesShown (P : Periods) (location : Location) : Prop :=
  ∀ t, ∃ s, WallClock.LeadsTo location.offset (86400 * P.first (periodAt P location t)) s ∧
    P.index (WallClock.reading location.offset s / 86400) = periodAt P location t

/-- At `starts q` the clock passes the first midnight of the period `q`. -/
def PassesAt (P : Periods) (location : Location) (starts : ℤ → ℤ) : Prop :=
  ∀ q, Passes (WallClock.reading location.offset) (starts q) (86400 * P.first q)

/-- The lookups for the first midnight of a period that the clock shows lead to an instant
of the period: not before the clock passes this midnight, and before it passes the next. -/
def LeadsWithin (P : Periods) (location : Location) (starts : ℤ → ℤ) : Prop :=
  ∀ t, ∃ s, WallClock.LeadsTo location.offset (86400 * P.first (periodAt P location t)) s ∧
    starts (periodAt P location t) ≤ s ∧ s < starts (periodAt P location t + 1)

/-- The Monday of the week the clock shows. -/
def monday (location : Location) (t : Time) : ℤ := weeks.first (weeks.index (localDay location t))

/-- Going back from the midnight of any date leads to the instant that the lookups for the
midnight of Monday lead to, and those of two Mondays lead to different instants. -/
structure MondaysFound (location : Location) : Prop where
  back : ∀ t, ∃ s, BeginsAt weeks location .isoWeek (localDay location t) s ∧
    WallClock.LeadsTo location.offset (86400 * monday location t) s
  distinct : ∀ t t' s, WallClock.LeadsTo location.offset (86400 * monday location t) s →
    WallClock.LeadsTo location.offset (86400 * monday location t') s →
      monday location t = monday location t'

/-- The clock shows the Monday of each week, and at the instant that the lookups for its
midnight lead to, it shows a reading whose lookups lead there again. -/
def MondaysSettled (location : Location) : Prop :=
  ∀ t, (∃ x, localDay location x = monday location t) ∧
    ∃ s, WallClock.LeadsTo location.offset (86400 * monday location t) s ∧
      WallClock.LeadsTo location.offset (WallClock.reading location.offset s) s

/-! ## Names of periods -/

section Names

variable {P : Periods} {granularity : Granularity}

theorem samePeriod_iff (hP : granularity.periods = some P) {a b : ℤ} :
    samePeriod granularity a b ↔ P.index a = P.index b := by
  cases granularity with
  | raw | custom => cases hP
  | day | year =>
      cases hP
      exact Iff.rfl
  | isoWeek =>
      cases hP
      exact weeks_index_eq_iff.symm
  | month =>
      cases hP
      exact monthOf_eq_iff.symm

theorem periodName_inj (hP : granularity.periods = some P) {a b : ℤ} :
    periodName granularity a = periodName granularity b ↔ P.index a = P.index b := by
  rw [← samePeriod_iff hP]
  cases granularity with
  | raw | custom => cases hP
  | day => exact dayLayout_inj
  | isoWeek => exact weekLayout_inj
  | month => exact monthLayout_inj.trans monthOf_eq_iff
  | year => exact yearLayout_inj

end Names

/-! ## Keys -/

section Keys

variable {query : NormalizedQuery} {P : Periods} (location : Location)

theorem key_eq_iff (hP : query.granularity.periods = some P) (r r' : StatisticsResult) :
    (describeBucket r query location).key = (describeBucket r' query location).key ↔
      WallClock.instant location.offset
          (firstReading P location query.granularity (localDay location r.timestamp)) =
        WallClock.instant location.offset
          (firstReading P location query.granularity (localDay location r'.timestamp)) := by
  rw [describeBucket_eq hP, describeBucket_eq hP]
  dsimp only [calendarBucket]
  rw [firstMidnight_eq location hP, firstMidnight_eq location hP]
  constructor
  · exact formatRFC3339Nano_utc_inj
  · intro h
    rw [h]

theorem label_eq (hP : query.granularity.periods = some P) (r : StatisticsResult) :
    (describeBucket r query location).label = .ofList (periodName query.granularity
      (labelDay location query.granularity (localDay location r.timestamp))) := by
  rw [describeBucket_eq hP]
  rfl

theorem firstReading_of_ne {granularity : Granularity} (hweek : granularity ≠ .isoWeek)
    (n : ℤ) : firstReading P location granularity n = 86400 * P.first (P.index n) := by
  cases granularity with
  | isoWeek => exact absurd rfl hweek
  | raw | custom | day | month | year => rfl

theorem labelDay_of_ne {granularity : Granularity} (hP : granularity.periods = some P)
    (hweek : granularity ≠ .isoWeek) (n : ℤ) : labelDay location granularity n =
      WallClock.reading location.offset
        (WallClock.instant location.offset (86400 * P.first (P.index n))) / 86400 := by
  have hday : labelDay location granularity n =
      localDay location (firstMidnight location granularity n) := by
    cases granularity with
    | isoWeek => exact absurd rfl hweek
    | raw | custom | day | month | year => rfl
  unfold localDay at hday
  rw [hday, firstMidnight_eq location hP, localSecond_mul, firstReading_of_ne location hweek]

end Keys

/-! ## Identity -/

section Identity

variable {query : NormalizedQuery} {P : Periods} {location : Location}

/-- With keys for periods the labels have to name the period they are printed from. -/
theorem identify_of_keys (hP : query.granularity.periods = some P)
    (hkeys : ∀ r r' : StatisticsResult,
      (describeBucket r query location).key = (describeBucket r' query location).key ↔
        P.index (localDay location r.timestamp) = P.index (localDay location r'.timestamp))
    (hlabels : ∀ r : StatisticsResult,
      P.index (labelDay location query.granularity (localDay location r.timestamp)) =
        P.index (localDay location r.timestamp)) : BucketsIdentify query location := by
  constructor
  · intro r r'
    rw [hkeys, samePeriod_iff hP]
  · intro r r' hkey
    have hperiod := (hkeys r r').mp hkey
    have hname := (periodName_inj hP).mpr ((hlabels r).trans hperiod)
    rw [label_eq location hP, hname]

theorem datesShown_iff : DatesShown P location ↔ ∀ t,
    P.index (WallClock.reading location.offset (WallClock.instant location.offset
      (86400 * P.first (periodAt P location t))) / 86400) = periodAt P location t := by
  refine forall_congr' fun t ↦ ?_
  simp only [WallClock.leadsTo_iff]
  exact exists_eq_left'

/-- Between the midnights of a period the clock shows its dates. -/
theorem leadsWithin_iff {starts : ℤ → ℤ} (hpasses : PassesAt P location starts) :
    LeadsWithin P location starts ↔ DatesShown P location := by
  have hperiod : ∀ s q, starts q ≤ s ∧ s < starts (q + 1) ↔
      P.index (WallClock.reading location.offset s / 86400) = q := by
    intro s q
    have hfirst := P.lt_first_iff (q := q)
      (n := WallClock.reading location.offset s / 86400)
    have hnext := P.lt_first_iff (q := q + 1)
      (n := WallClock.reading location.offset s / 86400)
    rw [(hpasses q).le_iff, hpasses (q + 1) s]
    omega
  refine forall_congr' fun t ↦ exists_congr fun s ↦ and_congr_right fun _ ↦ ?_
  exact hperiod s _

theorem identify_iff_datesShown (hP : query.granularity.periods = some P)
    (hweek : query.granularity ≠ .isoWeek) :
    BucketsIdentify query location ↔ DatesShown P location := by
  constructor
  · intro h
    rw [datesShown_iff]
    intro t
    have hlabel := h.label (sampleResult.at t) (sampleResult.at t) rfl
    rw [label_eq location hP, labelDay_of_ne location hP hweek] at hlabel
    exact (periodName_inj hP).mp (String.ofList_injective hlabel)
  · intro hshown
    rw [datesShown_iff] at hshown
    apply identify_of_keys hP
    · intro r r'
      rw [key_eq_iff location hP, firstReading_of_ne location hweek,
        firstReading_of_ne location hweek]
      constructor
      · intro hfound
        have hr := hshown r.timestamp
        have hr' := hshown r'.timestamp
        unfold periodAt at hr hr'
        rw [← hr, ← hr', hfound]
      · intro hperiod
        rw [hperiod]
    · intro r
      rw [labelDay_of_ne location hP hweek]
      exact hshown r.timestamp

theorem identify_of_mondaysFound (hweek : query.granularity = .isoWeek)
    (hmondays : MondaysFound location) : BucketsIdentify query location := by
  have hP : query.granularity.periods = some weeks := by
    rw [hweek]
    rfl
  apply identify_of_keys hP
  · intro r r'
    obtain ⟨s, hs, hmonday⟩ := hmondays.back r.timestamp
    obtain ⟨s', hs', hmonday'⟩ := hmondays.back r'.timestamp
    rw [key_eq_iff location hP, hweek, (beginsAt_iff location).mp hs,
      (beginsAt_iff location).mp hs']
    constructor
    · intro hfound
      rw [hfound] at hmonday
      exact weeks.first_injective (hmondays.distinct _ _ s' hmonday hmonday')
    · intro hperiod
      have hsame : monday location r.timestamp = monday location r'.timestamp :=
        congrArg weeks.first hperiod
      rw [hsame, WallClock.leadsTo_iff] at hmonday
      exact hmonday.symm.trans (WallClock.leadsTo_iff.mp hmonday')
  · intro r
    rw [hweek]
    rfl

/-- On a Monday the code asks for what the clock shows at the midnight it found. -/
theorem firstReading_monday (location : Location) (w : ℤ) :
    firstReading weeks location .isoWeek (weeks.first w) =
      WallClock.reading location.offset
        (WallClock.instant location.offset (86400 * weeks.first w)) := by
  have hsince : sinceMonday (weeks.first w) = 0 := by
    have hfirst := weeks_first_index (weeks.first w)
    rw [weeks.index_first] at hfirst
    omega
  change movedReading _ 0 0 (-sinceMonday (weeks.first w)) = _
  rw [hsince, neg_zero, movedReading_zero]

theorem mondaysFound_of_identify (hweek : query.granularity = .isoWeek)
    (hsettled : MondaysSettled location) (h : BucketsIdentify query location) :
    MondaysFound location := by
  have hP : query.granularity.periods = some weeks := by
    rw [hweek]
    rfl
  have hkeys : ∀ t t' : Time,
      WallClock.instant location.offset
          (firstReading weeks location .isoWeek (localDay location t)) =
        WallClock.instant location.offset
          (firstReading weeks location .isoWeek (localDay location t')) ↔
        weeks.index (localDay location t) = weeks.index (localDay location t') := by
    intro t t'
    have hsame := h.same_bucket (sampleResult.at t) (sampleResult.at t')
    rw [key_eq_iff location hP, samePeriod_iff hP, hweek] at hsame
    exact hsame
  have hback : ∀ t, WallClock.instant location.offset
      (firstReading weeks location .isoWeek (localDay location t)) =
        WallClock.instant location.offset (86400 * monday location t) := by
    intro t
    obtain ⟨⟨x, hx⟩, s, hs, hagain⟩ := hsettled t
    rw [WallClock.leadsTo_iff] at hs hagain
    have hmonday : WallClock.instant location.offset
        (firstReading weeks location .isoWeek (localDay location x)) =
          WallClock.instant location.offset (86400 * monday location t) := by
      rw [hx, hs]
      have hfirst := firstReading_monday location (weeks.index (localDay location t))
      rw [← monday, hs] at hfirst
      rw [hfirst]
      exact hagain
    rw [← hmonday, hkeys, hx]
    exact (weeks.index_first _).symm
  constructor
  · intro t
    exact ⟨_, (beginsAt_iff location).mpr rfl, WallClock.leadsTo_iff.mpr (hback t).symm⟩
  · intro t t' s hs hs'
    rw [WallClock.leadsTo_iff, ← hback] at hs hs'
    exact congrArg weeks.first ((hkeys t t').mp (hs.trans hs'.symm))

theorem RegularMidnights.datesShown (h : RegularMidnights location) (P : Periods) :
    DatesShown P location := by
  rw [datesShown_iff]
  intro t
  rw [(h _).reading_instant, Int.mul_ediv_cancel_left _ (by decide), P.index_first]

theorem RegularMidnights.mondaysFound (h : RegularMidnights location) :
    MondaysFound location := by
  constructor
  · intro t
    refine ⟨_, (beginsAt_iff location).mpr rfl, WallClock.leadsTo_iff.mpr ?_⟩
    rw [h.firstReading_eq rfl]
    rfl
  · intro t t' s hs hs'
    rw [WallClock.leadsTo_iff] at hs hs'
    have hshown := congrArg (WallClock.reading location.offset) (hs.trans hs'.symm)
    rw [(h _).reading_instant, (h _).reading_instant] at hshown
    exact Int.eq_of_mul_eq_mul_left (by decide) hshown

end Identity

/-- Buckets and labels stand for calendar periods exactly when the first midnights lead to
instants of their periods; for ISO weeks, when every date leads back to its own Monday. -/
theorem calendar_buckets_identify_iff (query : NormalizedQuery) (location : Location) :
    (∀ P, query.granularity.periods = some P → query.granularity ≠ .isoWeek →
      (BucketsIdentify query location ↔ DatesShown P location) ∧
        ∀ starts, PassesAt P location starts →
          (BucketsIdentify query location ↔ LeadsWithin P location starts)) ∧
    (query.granularity = .isoWeek →
      (MondaysFound location → BucketsIdentify query location) ∧
        (MondaysSettled location → BucketsIdentify query location → MondaysFound location)) :=
  ⟨fun _ hP hweek ↦ ⟨identify_iff_datesShown hP hweek, fun _ hpasses ↦
      (identify_iff_datesShown hP hweek).trans (leadsWithin_iff hpasses).symm⟩,
    fun hweek ↦ ⟨identify_of_mondaysFound hweek, mondaysFound_of_identify hweek⟩⟩

theorem calendar_buckets_identify_iff_utc :
    BucketsIdentify (novemberQuery .month) utc ∧ BucketsIdentify (novemberQuery .isoWeek) utc := by
  have hregular : RegularMidnights utc := regularMidnights_of_constant fun _ ↦ rfl
  exact ⟨((calendar_buckets_identify_iff (novemberQuery .month) utc).1 months rfl
      (by decide)).1.mpr (hregular.datesShown months),
    ((calendar_buckets_identify_iff (novemberQuery .isoWeek) utc).2 rfl).1
      hregular.mondaysFound⟩

/-- Every result of the 4th of November 2018 is filed in São Paulo under the 3rd. -/
theorem calendar_buckets_do_not_identify :
    ¬ ∀ (query : NormalizedQuery) (P : Periods) (location : Location),
      query.granularity.periods = some P → BucketsIdentify query location := by
  intro h
  have hlabel := (h (novemberQuery .day) days saoPaulo rfl).label
    (sampleResult.at 1541302200000000000) (sampleResult.at 1541302200000000000) rfl
  have hother : (describeBucket (sampleResult.at 1541302200000000000) (novemberQuery .day)
      saoPaulo).label ≠ .ofList (periodName .day (localDay saoPaulo 1541302200000000000)) := by
    decide +kernel
  exact hother hlabel

end MultiSpeed.Statistics
