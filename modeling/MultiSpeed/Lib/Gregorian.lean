import Mathlib.Algebra.Order.Floor.Ring
import Mathlib.Algebra.Order.Ring.Int
import Mathlib.Data.Int.ConditionallyCompleteOrder
import Mathlib.Data.Prod.Lex
import Mathlib.Order.GaloisConnection.Defs
import Mathlib.Tactic.Common

/-!
# The Gregorian calendar on the integers

Days are numbered from 1970-01-01.  A calendar period is given by the number of
its first day and by the function that finds the period of a day; the two form
a Galois connection, from which everything about containment and order follows.
Weeks begin on Monday, and a month has an absolute number, twelve times its year
plus its place in the year.
-/

namespace Gregorian

/-! ## Periods -/

/-- A division of the days into consecutive periods. -/
structure Periods where
  first : ℤ → ℤ
  index : ℤ → ℤ
  connection : GaloisConnection first index
  index_first : ∀ q, index (first q) = q

namespace Periods

variable (P : Periods)

theorem first_le_iff {q n : ℤ} : P.first q ≤ n ↔ q ≤ P.index n := P.connection q n

theorem lt_first_iff {q n : ℤ} : n < P.first q ↔ P.index n < q := by
  rw [← not_le, ← not_le, P.first_le_iff]

theorem index_mono : Monotone P.index := P.connection.monotone_u

theorem first_injective : Function.Injective P.first := by
  intro a b h
  rw [← P.index_first a, h, P.index_first]

/-- First days that grow, and a function that finds the period around a day. -/
def ofSpec (first index : ℤ → ℤ) (hstep : ∀ q, first q < first (q + 1))
    (hspec : ∀ n, first (index n) ≤ n ∧ n < first (index n + 1)) : Periods where
  first := first
  index := index
  connection := by
    have hmono : StrictMono first := strictMono_int_of_lt_succ hstep
    intro q n
    obtain ⟨hle, hlt⟩ := hspec n
    constructor
    · intro h
      exact Int.lt_add_one_iff.mp (hmono.lt_iff_lt.mp (h.trans_lt hlt))
    · intro h
      exact (hmono.monotone h).trans hle
  index_first := by
    have hmono : StrictMono first := strictMono_int_of_lt_succ hstep
    intro q
    obtain ⟨hle, hlt⟩ := hspec (first q)
    have hlow := hmono.le_iff_le.mp hle
    have hhigh := hmono.lt_iff_lt.mp hlt
    omega

end Periods

/-! ## Days and weeks -/

def days : Periods := .ofSpec id id (fun _ ↦ Int.lt_succ _) fun _ ↦ ⟨le_rfl, Int.lt_succ _⟩

/-- The day of the week, Sunday being zero.  Day zero is a Thursday. -/
def weekday (n : ℤ) : ℤ := (n + 4) % 7

/-- The number of days since the last Monday. -/
def sinceMonday (n : ℤ) : ℤ := (weekday n + 6) % 7

def weeks : Periods :=
  .ofSpec (fun w ↦ 7 * w - 3) (fun n ↦ (n + 3) / 7) (fun _ ↦ by omega) fun _ ↦ by omega

theorem weeks_first_index (n : ℤ) : weeks.first (weeks.index n) = n - sinceMonday n := by
  change 7 * ((n + 3) / 7) - 3 = n - ((n + 4) % 7 + 6) % 7
  omega

theorem weeks_first_add_one (w : ℤ) : weeks.first (w + 1) = weeks.first w + 7 := by
  change 7 * (w + 1) - 3 = 7 * w - 3 + 7
  omega

/-! ## Years -/

/-- One in a leap year, zero otherwise. -/
def leapDay (y : ℤ) : ℤ := if y % 4 = 0 ∧ (y % 100 ≠ 0 ∨ y % 400 = 0) then 1 else 0

def yearStart (y : ℤ) : ℤ :=
  365 * y + (y - 1) / 4 - (y - 1) / 100 + (y - 1) / 400 - 719527

theorem leapDay_mem (y : ℤ) : 0 ≤ leapDay y ∧ leapDay y ≤ 1 := by
  unfold leapDay
  split <;> decide

theorem yearStart_add_one (y : ℤ) : yearStart (y + 1) = yearStart y + 365 + leapDay y := by
  unfold yearStart leapDay
  split <;> omega

/-- A year begins within three days of the line through the 400-year cycle. -/
theorem yearStart_bounds (y : ℤ) : 146097 * y - 287811597 ≤ 400 * yearStart y ∧
    400 * yearStart y ≤ 146097 * y - 287810501 := by
  unfold yearStart
  omega

/-- The year of a day: the 400-year cycle gives it up to one. -/
def yearOf (n : ℤ) : ℤ :=
  let y := 400 * n / 146097 + 1970
  if n < yearStart y then y - 1 else if yearStart (y + 1) ≤ n then y + 1 else y

theorem yearOf_spec (n : ℤ) : yearStart (yearOf n) ≤ n ∧ n < yearStart (yearOf n + 1) := by
  unfold yearOf
  dsimp only
  generalize hy : 400 * n / 146097 + 1970 = y
  have hprevious := yearStart_bounds (y - 1)
  have hnext := yearStart_bounds (y + 1 + 1)
  split
  · rw [sub_add_cancel]
    omega
  · split
    · omega
    · omega

def years : Periods :=
  .ofSpec yearStart yearOf (fun y ↦ by
    have hleap := leapDay_mem y
    have hstep := yearStart_add_one y
    omega) yearOf_spec

/-! ## Months -/

/-- The days of a year before its month `m`, counted from zero. -/
def daysBefore (leap m : ℤ) : ℤ :=
  if m < 2 then 31 * m else (153 * m - 304) / 5 + 59 + leap

/-- The month of the `r`-th day of a year, both counted from zero. -/
def monthOfYear (leap r : ℤ) : ℤ :=
  if r < 31 then 0 else if r < 59 + leap then 1 else (5 * (r - 59 - leap) + 2) / 153 + 2

def monthStart (k : ℤ) : ℤ := yearStart (k / 12) + daysBefore (leapDay (k / 12)) (k % 12)

def monthOf (n : ℤ) : ℤ :=
  12 * yearOf n + monthOfYear (leapDay (yearOf n)) (n - yearStart (yearOf n))

@[simp] theorem daysBefore_zero (leap : ℤ) : daysBefore leap 0 = 0 := rfl

@[simp] theorem daysBefore_twelve (leap : ℤ) : daysBefore leap 12 = 365 + leap := by
  unfold daysBefore
  rw [if_neg (by decide)]
  omega

/-- The months of a year end with its last day. -/
theorem monthStart_add (y m : ℤ) (hm : 0 ≤ m ∧ m ≤ 12) :
    monthStart (12 * y + m) = yearStart y + daysBefore (leapDay y) m := by
  unfold monthStart
  by_cases hlast : m = 12
  · have hdiv : (12 * y + m) / 12 = y + 1 := by omega
    have hmod : (12 * y + m) % 12 = 0 := by omega
    rw [hdiv, hmod, yearStart_add_one, hlast, daysBefore_zero, daysBefore_twelve]
    omega
  · have hdiv : (12 * y + m) / 12 = y := by omega
    have hmod : (12 * y + m) % 12 = m := by omega
    rw [hdiv, hmod]

theorem daysBefore_lt (leap m : ℤ) (hleap : 0 ≤ leap) (hm : 0 ≤ m) :
    daysBefore leap m < daysBefore leap (m + 1) := by
  unfold daysBefore
  split <;> split <;> omega

theorem monthOfYear_spec (leap r : ℤ) (hleap : 0 ≤ leap ∧ leap ≤ 1)
    (hr : 0 ≤ r ∧ r < 365 + leap) :
    (0 ≤ monthOfYear leap r ∧ monthOfYear leap r < 12) ∧
      daysBefore leap (monthOfYear leap r) ≤ r ∧
      r < daysBefore leap (monthOfYear leap r + 1) := by
  obtain ⟨hlow, hhigh⟩ := hleap
  unfold monthOfYear daysBefore
  split
  · rw [if_pos (by decide), if_pos (by decide)]
    omega
  · split
    · rw [if_pos (by decide), if_neg (by decide)]
      omega
    · rw [if_neg (by omega), if_neg (by omega)]
      omega

theorem monthOf_div (n : ℤ) : monthOf n / 12 = yearOf n := by
  have hyear := yearOf_spec n
  rw [yearStart_add_one] at hyear
  have hmonth := monthOfYear_spec (leapDay (yearOf n)) (n - yearStart (yearOf n))
    (leapDay_mem _) (by omega)
  unfold monthOf
  omega

theorem monthStart_lt (k : ℤ) : monthStart k < monthStart (k + 1) := by
  have hparts : k = 12 * (k / 12) + k % 12 := by omega
  have hnext : k + 1 = 12 * (k / 12) + (k % 12 + 1) := by omega
  rw [hnext, monthStart_add _ _ (by omega)]
  exact Int.add_lt_add_left (daysBefore_lt _ _ (leapDay_mem _).1 (by omega)) _

theorem monthOf_spec (n : ℤ) :
    monthStart (monthOf n) ≤ n ∧ n < monthStart (monthOf n + 1) := by
  have hyear := yearOf_spec n
  rw [yearStart_add_one] at hyear
  have hmonth := monthOfYear_spec (leapDay (yearOf n)) (n - yearStart (yearOf n))
    (leapDay_mem _) (by omega)
  unfold monthOf
  rw [add_assoc, monthStart_add _ _ (by omega), monthStart_add _ _ (by omega)]
  omega

def months : Periods := .ofSpec monthStart monthOf monthStart_lt monthOf_spec

theorem months_first_year (y : ℤ) : months.first (12 * y) = years.first y := by
  have h := monthStart_add y 0 (by omega)
  rw [add_zero] at h
  rw [show months.first (12 * y) = monthStart (12 * y) from rfl, h]
  exact add_zero _

/-! ## Dates -/

/-- The day of a date; months and days beyond their range run on. -/
def dayNumber (year month day : ℤ) : ℤ := monthStart (12 * year + (month - 1)) + (day - 1)

def month (n : ℤ) : ℤ := monthOf n % 12 + 1

def day (n : ℤ) : ℤ := n - monthStart (monthOf n) + 1

theorem month_mem (n : ℤ) : 1 ≤ month n ∧ month n ≤ 12 := by
  unfold month
  omega

theorem monthOf_eq (n : ℤ) : 12 * yearOf n + (month n - 1) = monthOf n := by
  have hdiv := monthOf_div n
  unfold month
  omega

theorem daysBefore_le (leap m : ℤ) (hleap : leap ≤ 1) : daysBefore leap (m + 1) ≤ daysBefore leap m + 31 := by
  unfold daysBefore
  split <;> split <;> omega

theorem day_mem (n : ℤ) : 1 ≤ day n ∧ day n ≤ 31 := by
  have hspec := monthOf_spec n
  have hnext : monthOf n + 1 = 12 * (monthOf n / 12) + (monthOf n % 12 + 1) := by omega
  have hlength : monthStart (monthOf n + 1) ≤ monthStart (monthOf n) + 31 := by
    rw [hnext, monthStart_add _ _ (by omega)]
    have hdays := daysBefore_le (leapDay (monthOf n / 12)) (monthOf n % 12)
      (leapDay_mem _).2
    unfold monthStart
    omega
  unfold day
  omega

@[simp] theorem dayNumber_date (n : ℤ) : dayNumber (yearOf n) (month n) (day n) = n := by
  unfold dayNumber day
  rw [monthOf_eq]
  omega

theorem dayNumber_add (year month day days : ℤ) :
    dayNumber year month (day + days) = dayNumber year month day + days := by
  unfold dayNumber
  omega

theorem dayNumber_month_first (n : ℤ) :
    dayNumber (yearOf n) (month n) 1 = months.first (months.index n) := by
  unfold dayNumber
  rw [monthOf_eq]
  exact add_zero _

theorem dayNumber_year_first (y : ℤ) : dayNumber y 1 1 = years.first y := by
  rw [← months_first_year]
  unfold dayNumber
  rw [sub_self, add_zero, add_zero]
  rfl

theorem yearStart_le_dayNumber (year : ℤ) {month day : ℤ} (hmonth : 1 ≤ month)
    (hday : 1 ≤ day) : yearStart year ≤ dayNumber year month day := by
  have hfirst : months.first (12 * year) ≤ months.first (12 * year + (month - 1)) :=
    months.connection.monotone_l (by omega)
  rw [months_first_year] at hfirst
  change yearStart year ≤ monthStart (12 * year + (month - 1)) at hfirst
  unfold dayNumber
  omega

theorem day_month_first (k : ℤ) : day (months.first k) = 1 := by
  have hmonth : monthOf (months.first k) = k := months.index_first k
  unfold day
  rw [hmonth, show months.first k = monthStart k from rfl, sub_self, zero_add]

theorem dayNumber_next_month (k : ℤ) :
    dayNumber (yearOf (months.first k)) (month (months.first k) + 1)
      (day (months.first k)) = months.first (k + 1) := by
  have hmonth := monthOf_eq (months.first k)
  rw [show monthOf (months.first k) = k from months.index_first k] at hmonth
  rw [day_month_first]
  unfold dayNumber
  rw [show 12 * yearOf (months.first k) + (month (months.first k) + 1 - 1) = k + 1 by omega]
  exact add_zero _

theorem dayNumber_next_year (y : ℤ) :
    dayNumber (yearOf (years.first y) + 1) (month (years.first y))
      (day (years.first y)) = years.first (y + 1) := by
  have hyear : yearOf (years.first y) = y := years.index_first y
  have hmonth := monthOf_eq (years.first y)
  rw [← months_first_year] at hyear hmonth ⊢
  rw [show monthOf (months.first (12 * y)) = 12 * y from months.index_first _] at hmonth
  rw [show month (months.first (12 * y)) = 1 by omega, day_month_first, hyear,
    dayNumber_year_first]

theorem date_inj {a b : ℤ} (hyear : yearOf a = yearOf b) (hmonth : month a = month b)
    (hday : day a = day b) : a = b := by
  rw [← dayNumber_date a, hyear, hmonth, hday, dayNumber_date]

/-- Days are ordered by year, month and day of the month. -/
theorem date_strictMono : StrictMono fun n ↦ toLex (yearOf n, toLex (month n, day n)) := by
  intro a b hab
  have hmonthOf : monthOf a ≤ monthOf b := months.index_mono hab.le
  have ha := monthOf_eq a
  have hb := monthOf_eq b
  rcases (years.index_mono hab.le).lt_or_eq with hyear | hyear
  · exact Prod.Lex.toLex_lt_toLex.mpr (.inl hyear)
  · change yearOf a = yearOf b at hyear
    refine Prod.Lex.toLex_lt_toLex.mpr (.inr ⟨hyear, Prod.Lex.toLex_lt_toLex.mpr ?_⟩)
    rcases hmonthOf.lt_or_eq with hmonth | hmonth
    · exact .inl (by dsimp only; omega)
    · refine .inr ⟨by dsimp only; omega, ?_⟩
      change day a < day b
      unfold day
      rw [hmonth]
      omega

/-- The number of days of a month. -/
def daysIn (year month : ℤ) : ℤ :=
  monthStart (12 * year + month) - monthStart (12 * year + (month - 1))

theorem day_le_daysIn (n : ℤ) : day n ≤ daysIn (yearOf n) (month n) := by
  have hspec := monthOf_spec n
  have hmonth := monthOf_eq n
  have hnext : 12 * yearOf n + month n = monthOf n + 1 := by omega
  unfold day daysIn
  rw [hmonth, hnext]
  omega

theorem monthOf_eq_iff {a b : ℤ} :
    monthOf a = monthOf b ↔ yearOf a = yearOf b ∧ month a = month b := by
  constructor
  · intro h
    rw [← monthOf_div a, ← monthOf_div b]
    unfold month
    rw [h]
    exact ⟨rfl, rfl⟩
  · rintro ⟨hyear, hmonth⟩
    rw [← monthOf_eq a, ← monthOf_eq b, hyear, hmonth]

/-! ## Moving a day to another month -/

/-- The number of days of the month `k`. -/
def monthLength (k : ℤ) : ℤ := monthStart (k + 1) - monthStart k

/-- The day of the month `k` with the number that `n` has in its month, or the last one. -/
def inMonth (n k : ℤ) : ℤ := monthStart k + min (day n) (monthLength k) - 1

theorem monthOf_eq_of_mem {n k : ℤ} (hfirst : monthStart k ≤ n) (hlast : n < monthStart (k + 1)) :
    monthOf n = k := by
  have hle : k ≤ monthOf n := months.first_le_iff.mp hfirst
  have hlt : monthOf n < k + 1 := months.lt_first_iff.mp hlast
  omega

theorem inMonth_mem (n k : ℤ) : monthStart k ≤ inMonth n k ∧ inMonth n k < monthStart (k + 1) := by
  have hday := day_mem n
  have hlength := monthStart_lt k
  unfold inMonth monthLength
  omega

theorem monthOf_inMonth (n k : ℤ) : monthOf (inMonth n k) = k :=
  monthOf_eq_of_mem (inMonth_mem n k).1 (inMonth_mem n k).2

theorem day_inMonth (n k : ℤ) : day (inMonth n k) = min (day n) (monthLength k) := by
  rw [day, monthOf_inMonth, inMonth]
  omega

theorem inMonth_lt_inMonth (n n' : ℤ) {k k' : ℤ} (h : k < k') : inMonth n k < inMonth n' k' := by
  have hstart : monthStart (k + 1) ≤ monthStart k' := months.connection.monotone_l h
  exact (inMonth_mem n k).2.trans_le (hstart.trans (inMonth_mem n' k').1)

theorem inMonth_self (n : ℤ) : inMonth n (monthOf n) = n := by
  have hspec := monthOf_spec n
  unfold inMonth monthLength day
  omega

theorem daysIn_eq (n : ℤ) : daysIn (yearOf n) (month n) = monthLength (monthOf n) := by
  have hmonth := monthOf_eq n
  unfold daysIn monthLength
  rw [hmonth, show 12 * yearOf n + month n = monthOf n + 1 by omega]

/-- A later day is not moved before an earlier one by the same number of months. -/
theorem inMonth_mono {a b : ℤ} (h : a ≤ b) (n : ℤ) :
    inMonth a (monthOf a - n) ≤ inMonth b (monthOf b - n) := by
  rcases (months.index_mono h).lt_or_eq with hlt | heq
  · change monthOf a < monthOf b at hlt
    exact (inMonth_lt_inMonth a b (by omega)).le
  · change monthOf a = monthOf b at heq
    unfold inMonth day
    rw [heq]
    omega

/-! ## Week dates -/

/-- The Thursday of the week of a day.  A week belongs to the year of its Thursday. -/
def thursday (n : ℤ) : ℤ := n - sinceMonday n + 3

def isoYear (n : ℤ) : ℤ := yearOf (thursday n)

def isoWeek (n : ℤ) : ℤ := (thursday n - yearStart (isoYear n)) / 7 + 1

theorem isoWeek_mem (n : ℤ) : 1 ≤ isoWeek n ∧ isoWeek n ≤ 53 := by
  have hspec := yearOf_spec (thursday n)
  have hleap := leapDay_mem (yearOf (thursday n))
  rw [yearStart_add_one] at hspec
  unfold isoWeek isoYear
  omega

theorem weeks_index_eq_iff {a b : ℤ} :
    weeks.index a = weeks.index b ↔ isoYear a = isoYear b ∧ isoWeek a = isoWeek b := by
  have hthursday : ∀ n, thursday n = 7 * weeks.index n := by
    intro n
    change n - ((n + 4) % 7 + 6) % 7 + 3 = 7 * ((n + 3) / 7)
    omega
  constructor
  · intro h
    unfold isoWeek isoYear
    rw [hthursday a, hthursday b, h]
    exact ⟨rfl, rfl⟩
  · rintro ⟨hyear, hweek⟩
    unfold isoWeek at hweek
    rw [hyear, hthursday, hthursday] at hweek
    omega

end Gregorian
