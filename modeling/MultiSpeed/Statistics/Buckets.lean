import MultiSpeed.Statistics.Query
import MultiSpeed.Statistics.Zone

/-!
# Time buckets

`describeBucket` and what its calendar buckets are worth.  A bucket begins at the
instant `time.Date` chooses for the first midnight of a period and ends where
`AddDate` puts the same reading one period later.  The intervals are right exactly
when the clock passes these midnights there, and the keys and labels exactly when
the chosen instants show the period they stand for.  A zone that skips a midnight
breaks both.
-/

namespace MultiSpeed.Statistics

open Gregorian
open Scheduling (Location)

structure BucketDescriptor where
  key : String
  label : String
  resultID : String
  start : Time
  «end» : Time

def fullRangeBucket (query : NormalizedQuery) : BucketDescriptor :=
  ⟨"overall", "Full range", "", query.from, query.to⟩

def calendarBucket (start stop : Time) (label : List Char) : BucketDescriptor :=
  ⟨formatRFC3339Nano utc start, .ofList label, "", start, stop⟩

def describeBucket (result : StatisticsResult) (query : NormalizedQuery) (location : Location) :
    BucketDescriptor :=
  let n := localDay location result.timestamp
  match query.granularity with
  | .raw =>
      ⟨formatRFC3339Nano utc result.timestamp ++ "\x00" ++ result.id,
        formatRFC3339Nano location result.timestamp, result.id, result.timestamp,
        result.timestamp⟩
  | .custom =>
      ⟨"custom", formatRFC3339 location query.from ++ " - " ++ formatRFC3339 location query.to,
        "", query.from, query.to⟩
  | .day =>
      let start := date location (yearOf n) (month n) (day n) 0 0
      calendarBucket start (addDate location start 0 0 1) (dayLayout (localDay location start))
  | .isoWeek =>
      let weekdayOffset := (weekday n + 6) % 7
      let midnight := date location (yearOf n) (month n) (day n) 0 0
      let start := addDate location midnight 0 0 (-weekdayOffset)
      calendarBucket start (addDate location start 0 0 7) (weekLayout n)
  | .month =>
      let start := date location (yearOf n) (month n) 1 0 0
      calendarBucket start (addDate location start 0 1 0)
        (monthLayout (localDay location start))
  | .year =>
      let start := date location (yearOf n) 1 1 0 0
      calendarBucket start (addDate location start 1 0 0)
        (yearLayout (localDay location start))

/-! ## Calendar periods -/

/-- The calendar periods of a granularity. -/
def Granularity.periods : Granularity → Option Periods
  | .raw | .custom => none
  | .day => some days
  | .isoWeek => some weeks
  | .month => some months
  | .year => some years

/-- The instant `time.Date` chooses for the midnight of a date. -/
def midnight (location : Location) (n : ℤ) : Time :=
  date location (yearOf n) (month n) (day n) 0 0

/-- The instant chosen for the first midnight of the period of a date.  For a week
the midnight of the date is moved back to Monday. -/
def firstMidnight (location : Location) : Granularity → ℤ → Time
  | .isoWeek, n => addDate location (midnight location n) 0 0 (-sinceMonday n)
  | .month, n => date location (yearOf n) (month n) 1 0 0
  | .year, n => date location (yearOf n) 1 1 0 0
  | _, n => midnight location n

/-- The instant chosen one period later. -/
def nextMidnight (location : Location) (granularity : Granularity) (n : ℤ) : Time :=
  let start := firstMidnight location granularity n
  match granularity with
  | .isoWeek => addDate location start 0 0 7
  | .month => addDate location start 0 1 0
  | .year => addDate location start 1 0 0
  | _ => addDate location start 0 0 1

/-- The name of the period of a date. -/
def periodName : Granularity → ℤ → List Char
  | .isoWeek, n => weekLayout n
  | .month, n => monthLayout n
  | .year, n => yearLayout n
  | _, n => dayLayout n

/-- The date a label is printed from. -/
def labelDay (location : Location) : Granularity → ℤ → ℤ
  | .isoWeek, n => n
  | granularity, n => localDay location (firstMidnight location granularity n)

theorem describeBucket_eq {query : NormalizedQuery} {P : Periods}
    (hP : query.granularity.periods = some P) (result : StatisticsResult)
    (location : Location) :
    describeBucket result query location =
      calendarBucket
        (firstMidnight location query.granularity (localDay location result.timestamp))
        (nextMidnight location query.granularity (localDay location result.timestamp))
        (periodName query.granularity
          (labelDay location query.granularity (localDay location result.timestamp))) := by
  unfold describeBucket nextMidnight
  cases hgranularity : query.granularity with
  | raw | custom =>
      rw [hgranularity] at hP
      cases hP
  | day | isoWeek | month | year => rfl

end MultiSpeed.Statistics
