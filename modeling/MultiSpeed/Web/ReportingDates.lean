import MultiSpeed.Statistics.Intervals

/-!
# The midnights of the reporting dates

`zonedMidnight` of `web/src/lib/utils.ts` and the midnight that begins a bucket of the
statistics.  The editor corrects a guess against the clock of the zone, the server looks
the offset up twice; with one transition nearby both end at the same instant.
`Date.UTC` takes the years 0 to 99 for those of the last century, which breaks the
correction where the clock still shows the year 99.
-/

namespace MultiSpeed.Web

open Gregorian WallClock
open Scheduling (Location)
open Statistics (BucketDescriptor dayLayout describeBucket localDay midnight)

/-! ## Dates of JavaScript -/

/-- What is thrown; an invalid date ends in a `RangeError`. -/
inductive Thrown where
  | error (message : String)
  | rangeError
  deriving DecidableEq

/-- The milliseconds of a valid date. -/
def timeClip (t : ℤ) : Option ℤ := if |t| ≤ 8640000000000000 then some t else none

def makeFullYear (year : ℤ) : ℤ := if 0 ≤ year ∧ year ≤ 99 then 1900 + year else year

/-- `Date.UTC`, whose months are counted from zero. -/
def dateUTC (year month day hour minute second : ℤ) : Option ℤ :=
  timeClip (1000 * (86400 * dayNumber (makeFullYear year) (month + 1) day +
    3600 * hour + 60 * minute + second))

structure Parts where
  year : ℤ
  month : ℤ
  day : ℤ
  hour : ℤ
  minute : ℤ
  second : ℤ

/-- `formatter.formatToParts`.  The year is the year of an era, and the era is not shown. -/
def formatToParts (timeZone : Location) (candidate : ℤ) : Parts :=
  let shown := reading timeZone.offset (candidate / 1000)
  let n := shown / 86400
  let second := shown % 86400
  { year := if yearOf n ≤ 0 then 1 - yearOf n else yearOf n
    month := month n
    day := day n
    hour := second / 3600
    minute := second / 60 % 60
    second := second % 60 }

def represented (timeZone : Location) (candidate : ℤ) : Option ℤ :=
  let values := formatToParts timeZone candidate
  dateUTC values.year (values.month - 1) values.day values.hour values.minute values.second

/-- The attempts of `zonedMidnight` that are left, and its result. -/
def adjust (timeZone : Location) (desired : ℤ) : ℕ → ℤ → Option ℤ
  | 0, candidate => timeClip candidate
  | attempts + 1, candidate => do
      let represented ← represented timeZone (← timeClip candidate)
      let adjustment := desired - represented
      if adjustment = 0 then timeClip candidate
      else adjust timeZone desired attempts (candidate + adjustment)

/-- `Number` of a group of digits. -/
def number (text : List Char) : ℤ := Nat.ofDigitChars 10 text 0

/-- `/^(\d{4})-(\d{2})-(\d{2})$/`, with the values of its groups. -/
def dateFields (dateValue : String) : Option (ℤ × ℤ × ℤ) :=
  match dateValue.toList with
  | [y₁, y₂, y₃, y₄, '-', m₁, m₂, '-', d₁, d₂] =>
      if [y₁, y₂, y₃, y₄, m₁, m₂, d₁, d₂].all Char.isDigit then
        some (number [y₁, y₂, y₃, y₄], number [m₁, m₂], number [d₁, d₂])
      else none
  | _ => none

/-- The instant, in milliseconds, whose ISO text is returned. -/
def zonedMidnight (dateValue : String) (timeZone : Location) : Except Thrown ℤ :=
  match dateFields dateValue with
  | none => .error (.error ("Invalid reporting date: " ++ dateValue))
  | some (year, month, day) =>
      let candidate := do
        let desired ← dateUTC year (month - 1) day 0 0 0
        adjust timeZone desired 4 desired
      match candidate with
      | none => .error .rangeError
      | some candidate => .ok candidate

/-! ## What the clock is taken for -/

section

variable {timeZone : Location}

theorem timeClip_of_abs_le {t : ℤ} (h : |t| ≤ 8640000000000000) : timeClip t = some t := if_pos h

theorem eq_of_timeClip {t t' : ℤ} (h : timeClip t = some t') : t' = t := by
  unfold timeClip at h
  split at h
  · exact (Option.some.inj h).symm
  · cases h

/-- From the year 100 on, the clock is taken for what it shows. -/
theorem represented_eq {s : ℤ} (hyear : 100 ≤ yearOf (reading timeZone.offset s / 86400)) :
    represented timeZone (1000 * s) = timeClip (1000 * reading timeZone.offset s) := by
  have hsecond : 1000 * s / 1000 = s := by omega
  have hfull : makeFullYear (yearOf (reading timeZone.offset s / 86400)) =
      yearOf (reading timeZone.offset s / 86400) := if_neg (by omega)
  simp only [represented, formatToParts, dateUTC, hsecond]
  rw [if_neg (by omega), hfull, sub_add_cancel, dayNumber_date]
  congr 1
  omega

theorem le_of_represented {candidate t : ℤ} (h : represented timeZone candidate = some t) :
    86400000 * yearStart (makeFullYear (formatToParts timeZone candidate).year) ≤ t := by
  have ht := eq_of_timeClip h
  have hmonth : 1 ≤ (formatToParts timeZone candidate).month - 1 + 1 := by
    rw [sub_add_cancel]
    exact (month_mem _).1
  have hday := yearStart_le_dayNumber (makeFullYear (formatToParts timeZone candidate).year)
    hmonth (day_mem (reading timeZone.offset (candidate / 1000) / 86400)).1
  rw [ht]
  simp only [formatToParts] at hday ⊢
  omega

/-- No clock is taken for one before the year 100. -/
theorem century_le_of_represented {candidate t : ℤ} (h : represented timeZone candidate = some t) :
    86400000 * yearStart 100 ≤ t := by
  have hyear : 100 ≤ makeFullYear (formatToParts timeZone candidate).year := by
    simp only [makeFullYear, formatToParts]
    split <;> split at * <;> omega
  have hstart : yearStart 100 ≤ yearStart (makeFullYear (formatToParts timeZone candidate).year) :=
    years.connection.monotone_l hyear
  have hle := le_of_represented h
  omega

/-- The year 99 is taken for 1999. -/
theorem le_of_represented_ninetynine {s t : ℤ}
    (hyear : yearOf (reading timeZone.offset s / 86400) = 99)
    (h : represented timeZone (1000 * s) = some t) : 86400000 * yearStart 1999 ≤ t := by
  have hsecond : 1000 * s / 1000 = s := by omega
  have hle := le_of_represented h
  simp only [formatToParts, hsecond, hyear] at hle
  exact hle

end

/-! ## The corrections -/

/-- A time zone of the libraries: its clock is less than a day from universal time. -/
structure TimeZone extends Location where
  bounded : ∀ s, |offset s| < 86400

/-- The clock shows a year from 100 on at each instant that is looked at for the reading. -/
def Readable (offset : ℤ → ℤ) (u : ℤ) : Prop :=
  ∀ s ∈ [u, u - offset u, u - offset (u - offset u)], 100 ≤ yearOf (reading offset s / 86400)

section

variable {timeZone : Location} {u : ℤ}

theorem adjust_succ {s : ℤ} (hyear : 100 ≤ yearOf (reading timeZone.offset s / 86400))
    (hclip : timeClip (1000 * s) = some (1000 * s))
    (hshown : timeClip (1000 * reading timeZone.offset s) =
      some (1000 * reading timeZone.offset s)) (attempts : ℕ) :
    adjust timeZone (1000 * u) (attempts + 1) (1000 * s) =
      if reading timeZone.offset s = u then some (1000 * s)
      else adjust timeZone (1000 * u) attempts (1000 * (u - timeZone.offset s)) := by
  have hmoved : 1000 * s + (1000 * u - 1000 * reading timeZone.offset s) =
      1000 * (u - timeZone.offset s) := by
    unfold reading
    omega
  simp only [adjust, hclip, Option.bind_eq_bind, Option.bind_some, represented_eq hyear, hshown,
    hmoved]
  by_cases h : reading timeZone.offset s = u
  · rw [if_pos (by omega), if_pos h]
  · rw [if_neg (by omega), if_neg h]

/-- Where every clock that is read is taken for what it shows, the attempts correct the guess. -/
theorem adjust_eq_correct {S : ℤ → Prop}
    (hstep : ∀ s, S s → S (u - timeZone.offset s))
    (hyear : ∀ s, S s → 100 ≤ yearOf (reading timeZone.offset s / 86400))
    (hclip : ∀ s, S s → timeClip (1000 * s) = some (1000 * s))
    (hshown : ∀ s, S s → timeClip (1000 * reading timeZone.offset s) =
      some (1000 * reading timeZone.offset s)) (attempts : ℕ) {s : ℤ} (hs : S s) :
    adjust timeZone (1000 * u) attempts (1000 * s) =
      some (1000 * correct timeZone.offset u attempts s) := by
  induction attempts generalizing s with
  | zero => exact hclip s hs
  | succ attempts ih =>
      rw [adjust_succ (hyear s hs) (hclip s hs) (hshown s hs), correct]
      split
      · rfl
      · exact ih (hstep s hs)

/-- An attempt moves the guess forward by no more than what the date is after the year 100. -/
theorem adjust_le {d : ℤ} (hd : 0 ≤ d) (hu : 1000 * u ≤ 86400000 * yearStart 100 + d)
    {attempts : ℕ} {candidate t : ℤ}
    (h : adjust timeZone (1000 * u) attempts candidate = some t) : t ≤ candidate + attempts * d := by
  induction attempts generalizing candidate with
  | zero =>
      have ht := eq_of_timeClip h
      push_cast
      omega
  | succ attempts ih =>
      obtain ⟨clipped, hclipped, h⟩ := Option.bind_eq_some_iff.mp h
      obtain ⟨shown, hshown, h⟩ := Option.bind_eq_some_iff.mp h
      have hcentury := century_le_of_represented hshown
      have hgrows : (attempts + 1 : ℕ) * d = attempts * d + d := by
        rw [Nat.cast_succ, add_one_mul]
      have hnonneg : 0 ≤ attempts * d := mul_nonneg (Int.natCast_nonneg _) hd
      dsimp only at h
      split at h
      · have ht := eq_of_timeClip h
        omega
      · have hrest := ih h
        omega

end

/-! ## The text of a date -/

section

open Statistics

theorem length_field {x : ℤ} {width : ℕ} (hx : 0 ≤ x) (hwidth : 0 < width)
    (hlt : x < 10 ^ width) : (appendInt x width).length = width := by
  rw [appendInt, signed, if_neg (by omega)]
  apply length_digits hwidth
  zify
  rwa [abs_of_nonneg hx]

theorem number_field {x : ℤ} (hx : 0 ≤ x) (width : ℕ) : number (appendInt x width) = x := by
  rw [number, appendInt, signed, if_neg (by omega), ofDigitChars_digits]
  exact Int.natAbs_of_nonneg hx

theorem all_isDigit_field {x : ℤ} (hx : 0 ≤ x) (width : ℕ) :
    (appendInt x width).all Char.isDigit = true := by
  rw [appendInt, signed, if_neg (by omega), List.all_eq_true]
  exact fun _ ↦ isDigit_of_mem_digits

theorem dateFields_dayLayout {n : ℤ} (hfirst : 0 ≤ yearOf n) (hlast : yearOf n ≤ 9999) :
    dateFields (.ofList (dayLayout n)) = some (yearOf n, month n, day n) := by
  have hmonth := month_mem n
  have hday := day_mem n
  have hyearDigits := all_isDigit_field hfirst 4
  have hmonthDigits := all_isDigit_field (show 0 ≤ month n by omega) 2
  have hdayDigits := all_isDigit_field (show 0 ≤ day n by omega) 2
  have hyearNumber := number_field hfirst 4
  have hmonthNumber := number_field (show 0 ≤ month n by omega) 2
  have hdayNumber := number_field (show 0 ≤ day n by omega) 2
  obtain ⟨y₁, rest, hyear⟩ := List.exists_cons_of_length_eq_add_one
    (length_field hfirst (show 0 < 4 by decide) (by omega))
  have hrest : rest.length = 3 := by
    have hlength := length_field hfirst (show 0 < 4 by decide) (by omega)
    rw [hyear, List.length_cons] at hlength
    omega
  obtain ⟨y₂, y₃, y₄, rfl⟩ := List.length_eq_three.mp hrest
  obtain ⟨m₁, m₂, hm⟩ := List.length_eq_two.mp
    (length_field (show 0 ≤ month n by omega) (show 0 < 2 by decide) (by omega))
  obtain ⟨d₁, d₂, hd⟩ := List.length_eq_two.mp
    (length_field (show 0 ≤ day n by omega) (show 0 < 2 by decide) (by omega))
  rw [hyear] at hyearDigits hyearNumber
  rw [hm] at hmonthDigits hmonthNumber
  rw [hd] at hdayDigits hdayNumber
  have hdigits : [y₁, y₂, y₃, y₄, m₁, m₂, d₁, d₂].all Char.isDigit = true := by
    rw [show [y₁, y₂, y₃, y₄, m₁, m₂, d₁, d₂] = [y₁, y₂, y₃, y₄] ++ ([m₁, m₂] ++ [d₁, d₂]) from rfl,
      List.all_append, List.all_append, hyearDigits, hmonthDigits, hdayDigits]
    rfl
  rw [dateFields, String.toList_ofList, dayLayout, monthLayout, yearLayout, hyear, hm, hd]
  simp only [List.cons_append, List.nil_append]
  rw [if_pos hdigits, hyearNumber, hmonthNumber, hdayNumber]

end

/-! ## The two midnights -/

section

variable {zone : TimeZone} {n : ℤ}

/-- Days with a year of four digits, from the year 100 on. -/
theorem day_bounds (hfirst : 100 ≤ yearOf n) (hlast : yearOf n ≤ 9999) :
    yearStart 100 ≤ n ∧ n < yearStart 10000 :=
  ⟨years.first_le_iff.mpr hfirst, years.lt_first_iff.mpr (Int.lt_add_one_iff.mpr hlast)⟩

theorem timeClip_near (hfirst : 100 ≤ yearOf n) (hlast : yearOf n ≤ 9999) {s : ℤ}
    (hs : |s - 86400 * n| < 172800) : timeClip (1000 * s) = some (1000 * s) := by
  obtain ⟨hlow, hhigh⟩ := day_bounds hfirst hlast
  have hstart : yearStart 100 = -683003 := rfl
  have hstop : yearStart 10000 = 2932897 := rfl
  obtain ⟨hbefore, hafter⟩ := abs_lt.mp hs
  apply timeClip_of_abs_le
  rw [abs_le]
  omega

theorem zonedMidnight_dayLayout (hfirst : 100 ≤ yearOf n) (hlast : yearOf n ≤ 9999) {c : ℤ} :
    zonedMidnight (.ofList (dayLayout n)) zone.toLocation = .ok c ↔
      adjust zone.toLocation (1000 * (86400 * n)) 4 (1000 * (86400 * n)) = some c := by
  have hfull : makeFullYear (yearOf n) = yearOf n := if_neg (by omega)
  have hdesired : dateUTC (yearOf n) (month n - 1) (day n) 0 0 0 =
      some (1000 * (86400 * n)) := by
    rw [dateUTC, hfull, sub_add_cancel, dayNumber_date, mul_zero, mul_zero, add_zero, add_zero,
      add_zero]
    apply timeClip_near hfirst hlast
    rw [sub_self]
    decide
  rw [zonedMidnight, dateFields_dayLayout (by omega) hlast]
  simp only [hdesired, Option.bind_eq_bind, Option.bind_some]
  cases adjust zone.toLocation (1000 * (86400 * n)) 4 (1000 * (86400 * n)) with
  | none => simp
  | some candidate => simp

/-- The instants that are looked at are close to the reading. -/
theorem near_of_step {u s : ℤ} (hs : s = u ∨ ∃ t, s = u - zone.offset t) :
    |s - u| < 86400 ∧ |reading zone.offset s - u| < 172800 := by
  have hnear : |s - u| < 86400 := by
    rcases hs with rfl | ⟨t, rfl⟩
    · rw [sub_self]
      decide
    · rw [sub_sub_cancel_left, abs_neg]
      exact zone.bounded t
  refine ⟨hnear, ?_⟩
  have hoffset := abs_lt.mp (zone.bounded s)
  have hnear := abs_lt.mp hnear
  unfold reading
  rw [abs_lt]
  omega

/-- From the third day of the year 100 on every zone can be read. -/
theorem readable_of_le (h : yearStart 100 + 2 ≤ n) : Readable zone.offset (86400 * n) := by
  intro s hs
  have hlooked : s = 86400 * n ∨ ∃ t, s = 86400 * n - zone.offset t := by
    simp only [List.mem_cons, List.not_mem_nil, or_false] at hs
    rcases hs with rfl | rfl | rfl
    · exact .inl rfl
    · exact .inr ⟨_, rfl⟩
    · exact .inr ⟨_, rfl⟩
  have hshown := abs_lt.mp (near_of_step hlooked).2
  exact years.first_le_iff.mp (show yearStart 100 ≤ _ by omega)

/-- Where the clock can be read, both sides end at the same instant. -/
theorem zonedMidnight_of_readable (hfirst : 100 ≤ yearOf n) (hlast : yearOf n ≤ 9999)
    (h : AtMostOneTransition zone.offset (86400 * n) 86400)
    (hreadable : Readable zone.offset (86400 * n)) :
    zonedMidnight (.ofList (dayLayout n)) zone.toLocation =
      .ok (1000 * instant zone.offset (86400 * n)) := by
  have hbounded : ∀ s, |zone.offset s| ≤ 86400 := fun s ↦ (zone.bounded s).le
  rw [zonedMidnight_dayLayout hfirst hlast]
  generalize hu : 86400 * n = u at h hreadable
  let S : ℤ → Prop := fun s ↦ s ∈ [u, u - zone.offset u, u - zone.offset (u - zone.offset u)]
  have hlooked : ∀ s, S s → s = u ∨ ∃ t, s = u - zone.offset t := by
    intro s hs
    simp only [S, List.mem_cons, List.not_mem_nil, or_false] at hs
    rcases hs with rfl | rfl | rfl
    · exact .inl rfl
    · exact .inr ⟨_, rfl⟩
    · exact .inr ⟨_, rfl⟩
  have hstep : ∀ s, S s → S (u - zone.offset s) := by
    intro s hs
    simp only [S, List.mem_cons, List.not_mem_nil, or_false] at hs ⊢
    rcases hs with rfl | rfl | rfl
    · exact .inr (.inl rfl)
    · exact .inr (.inr rfl)
    · by_cases hsame : zone.offset u = zone.offset (u - zone.offset u)
      · rw [← hsame, ← hsame]
        exact .inr (.inl rfl)
      · have hself : |u - u| ≤ 86400 := by
          rw [sub_self]
          decide
        rcases h.offset_cases hself (near_sub_offset hbounded u)
          (near_sub_offset hbounded (u - zone.offset u)) hsame with hcase | hcase
        · rw [hcase]
          exact .inr (.inl rfl)
        · rw [hcase]
          exact .inr (.inr rfl)
  have hclip : ∀ s, |s - u| < 172800 → timeClip (1000 * s) = some (1000 * s) := by
    intro s hs
    rw [← hu] at hs
    exact timeClip_near hfirst hlast hs
  rw [adjust_eq_correct (S := S) hstep hreadable
    (fun s hs ↦ hclip s ((near_of_step (hlooked s hs)).1.trans (by decide)))
    (fun s hs ↦ hclip _ (near_of_step (hlooked s hs)).2) 4 (by simp [S])]
  rw [correct_eq_instant h hbounded 1]

/-- A clock in the year 99 throws the guess centuries back, and no later attempt makes
up for it. -/
theorem lt_of_adjust (hfirst : 100 ≤ yearOf n) (hlast : yearOf n ≤ 9999) {s c : ℤ}
    (hs : s = 86400 * n ∨ ∃ t, s = 86400 * n - zone.offset t)
    (hyear : ¬100 ≤ yearOf (reading zone.offset s / 86400)) {attempts : ℕ} (hleft : attempts ≤ 3)
    (h : adjust zone.toLocation (1000 * (86400 * n)) (attempts + 1) (1000 * s) = some c) :
    c < 1000 * (86400 * n - 86400) := by
  obtain ⟨hlow, -⟩ := day_bounds hfirst hlast
  have hcentury : yearStart 100 = -683003 := rfl
  have hninetynine : yearStart 99 = -683368 := rfl
  have hlastCentury : yearStart 1999 = 10592 := rfl
  obtain ⟨hnear, hshown⟩ := near_of_step hs
  have hnear := abs_lt.mp hnear
  have hshown := abs_lt.mp hshown
  have hbelow : reading zone.offset s / 86400 < yearStart 100 :=
    years.lt_first_iff.mpr (not_le.mp hyear)
  have habove : yearStart 99 ≤ reading zone.offset s / 86400 := by omega
  have hyear : yearOf (reading zone.offset s / 86400) = 99 :=
    le_antisymm (Int.lt_add_one_iff.mp (not_le.mp hyear)) (years.first_le_iff.mp habove)
  obtain ⟨clipped, hclipped, hread⟩ := Option.bind_eq_some_iff.mp h
  obtain ⟨shown, hrepresented, hmoved⟩ := Option.bind_eq_some_iff.mp hread
  obtain rfl := eq_of_timeClip hclipped
  have htaken := le_of_represented_ninetynine hyear hrepresented
  dsimp only at hmoved
  rw [if_neg (by omega)] at hmoved
  have hlater := adjust_le (d := 172800000) (by decide) (by omega) hmoved
  omega

theorem readable_of_agreement (hfirst : 100 ≤ yearOf n) (hlast : yearOf n ≤ 9999) {c : ℤ}
    (h : zonedMidnight (.ofList (dayLayout n)) zone.toLocation = .ok c)
    (hclose : 1000 * (86400 * n - 86400) ≤ c) : Readable zone.offset (86400 * n) := by
  rw [zonedMidnight_dayLayout hfirst hlast] at h
  generalize hu : 86400 * n = u at h hclose
  have hclip : ∀ s, |s - u| < 172800 → timeClip (1000 * s) = some (1000 * s) := by
    intro s hs
    rw [← hu] at hs
    exact timeClip_near hfirst hlast hs
  have hescapes : ∀ s, (s = u ∨ ∃ t, s = u - zone.offset t) → ∀ attempts ≤ 3,
      adjust zone.toLocation (1000 * u) (attempts + 1) (1000 * s) = some c →
        100 ≤ yearOf (reading zone.offset s / 86400) := by
    intro s hs attempts hleft h
    by_contra hyear
    rw [← hu] at hs h hclose
    exact absurd (lt_of_adjust hfirst hlast hs hyear hleft h) (not_lt.mpr hclose)
  -- a guess that is not read is one that has been reached before
  have hnext : ∀ s, (s = u ∨ ∃ t, s = u - zone.offset t) → ∀ attempts ≤ 3,
      adjust zone.toLocation (1000 * u) (attempts + 1) (1000 * s) = some c →
        u - zone.offset s = s ∨
          adjust zone.toLocation (1000 * u) attempts (1000 * (u - zone.offset s)) = some c := by
    intro s hs attempts hleft h
    obtain ⟨hnear, hshown⟩ := near_of_step hs
    rw [adjust_succ (hescapes s hs attempts hleft h) (hclip s (hnear.trans (by decide)))
      (hclip _ hshown)] at h
    split at h
    · rename_i hreading
      refine .inl ?_
      unfold reading at hreading
      omega
    · exact .inr h
  have hfirstYear := hescapes u (.inl rfl) 3 le_rfl h
  intro s hs
  simp only [List.mem_cons, List.not_mem_nil, or_false] at hs
  rcases hnext u (.inl rfl) 3 le_rfl h with hfixed | hsecond
  · rw [hfixed, hfixed] at hs
    rcases hs with rfl | rfl | rfl <;> exact hfirstYear
  · have hsecondYear := hescapes _ (.inr ⟨u, rfl⟩) 2 (by decide) hsecond
    rcases hnext _ (.inr ⟨u, rfl⟩) 2 (by decide) hsecond with hfixed | hthird
    · rw [hfixed] at hs
      rcases hs with rfl | rfl | rfl
      · exact hfirstYear
      · exact hsecondYear
      · exact hsecondYear
    · have hthirdYear := hescapes _ (.inr ⟨_, rfl⟩) 1 (by decide) hthird
      rcases hs with rfl | rfl | rfl
      · exact hfirstYear
      · exact hsecondYear
      · exact hthirdYear

/-- Both sides take the instant `c`, in milliseconds, for the midnight of the date. -/
structure Agrees (zone : TimeZone) (n c : ℤ) : Prop where
  midnight : midnight zone.toLocation n = 1000000 * c
  bucket : ∀ result query, query.granularity = .day →
    localDay zone.toLocation result.timestamp = n →
      (describeBucket result query zone.toLocation).start = 1000000 * c
  /-- If the clock shows the midnight at one instant only, it is that one. -/
  unique : ∀ s, (∀ t, reading zone.offset t = 86400 * n ↔ t = s) → c = 1000 * s

theorem midnight_eq_instant (location : Location) (n : ℤ) :
    midnight location n = 1000000 * (1000 * instant location.offset (86400 * n)) := by
  rw [midnight, Statistics.date, dayNumber_date, add_zero, add_zero, ← mul_assoc]
  rfl

/-- The editor and the server agree on a midnight exactly when the clock of the zone shows
a year from 100 on at each instant the editor looks at. -/
theorem midnights_agree_iff (zone : TimeZone) {n : ℤ} (hfirst : 100 ≤ yearOf n)
    (hlast : yearOf n ≤ 9999) (h : AtMostOneTransition zone.offset (86400 * n) 86400) :
    (∃ c, zonedMidnight (.ofList (dayLayout n)) zone.toLocation = .ok c ∧ Agrees zone n c) ↔
      Readable zone.offset (86400 * n) := by
  have hbounded : ∀ s, |zone.offset s| ≤ 86400 := fun s ↦ (zone.bounded s).le
  constructor
  · rintro ⟨c, hc, hagrees⟩
    apply readable_of_agreement hfirst hlast hc
    have hmidnight : 1000000 * (1000 * instant zone.offset (86400 * n)) = 1000000 * c :=
      (midnight_eq_instant zone.toLocation n).symm.trans hagrees.midnight
    unfold instant at hmidnight
    have hoffset := abs_lt.mp (zone.bounded (86400 * n - zone.offset (86400 * n)))
    omega
  · intro hreadable
    refine ⟨_, zonedMidnight_of_readable hfirst hlast h hreadable,
      midnight_eq_instant zone.toLocation n, fun result query hday hlocal ↦ ?_, fun s hs ↦ ?_⟩
    · rw [Statistics.describeBucket_eq (P := days) (by rw [hday]; rfl), hday, hlocal]
      exact midnight_eq_instant zone.toLocation n
    · rw [instant_of_unique h hbounded hs]

/-- The zone that skips the midnight that begins the 4th of November 2018. -/
def saoPaulo : TimeZone where
  toLocation := Statistics.saoPaulo
  bounded := by
    intro s
    simp only [Statistics.saoPaulo]
    split <;> decide

theorem midnights_agree_skipped : ∃ c,
    zonedMidnight (.ofList (dayLayout 17839)) saoPaulo.toLocation = .ok c ∧
      Agrees saoPaulo 17839 c :=
  (midnights_agree_iff saoPaulo (by decide) (by decide)
    ⟨1541300400, -10800, -7200, fun _ _ ↦ rfl⟩).mpr (readable_of_le (by decide))

/-- A zone five hours behind universal time. -/
def fiveBehind : TimeZone where
  offset := fun _ ↦ -18000
  bounded := fun _ ↦ by decide

example : String.ofList (dayLayout (-683003)) = "0100-01-01" := by decide +kernel

theorem midnights_disagree : ¬ ∀ (zone : TimeZone) (n : ℤ), 100 ≤ yearOf n → yearOf n ≤ 9999 →
    AtMostOneTransition zone.offset (86400 * n) 86400 →
      ∃ c, zonedMidnight (.ofList (dayLayout n)) zone.toLocation = .ok c ∧ Agrees zone n c := by
  intro h
  obtain ⟨c, hc, hagrees⟩ := h fiveBehind (-683003) (by decide) (by decide)
    ⟨0, -18000, -18000, fun s _ ↦ by simp [fiveBehind]⟩
  have hvalue : zonedMidnight (.ofList (dayLayout (-683003))) fiveBehind.toLocation =
      .ok (-494718174000000) := by
    decide +kernel
  rw [hvalue, Except.ok.injEq] at hc
  have hmidnight := hagrees.midnight
  rw [← hc] at hmidnight
  revert hmidnight
  decide +kernel

end

end MultiSpeed.Web
