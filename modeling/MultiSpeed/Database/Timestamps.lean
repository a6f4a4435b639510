import MultiSpeed.Database.Results
import MultiSpeed.Lib.SortableText
import MultiSpeed.Statistics.Service
import Mathlib.Data.Char
import Mathlib.Tactic.IntervalCases
import Mathlib.Data.String.Basic

/-!
# Instants as text

The columns of the database hold an instant as text of the layout
`2006-01-02T15:04:05.000000000Z`, and SQLite compares the text.  This module has
`formatTime`, the reader `time.Parse` for the RFC 3339 layouts, and the
conditions of the queries that compare columns with a bound.
-/

namespace MultiSpeed.Database

open Gregorian SortableText Statistics

/-! ## Writing and reading -/

/-- `value.UTC().Format(fixedUTCLayout)`. -/
def formatTime (t : Time) : String :=
  .ofList (dayLayout (localDay utc t) ++ 'T' :: clockLayout (localSecond utc t % 86400) ++
    '.' :: digits (t % 1000000000).toNat 9 ++ ['Z'])

/-- A field of exactly so many digits, and what follows it. -/
def fixedDigits (width : ℕ) (value : List Char) : Option (ℕ × List Char) :=
  if (value.take width).length = width ∧ (value.take width).all Char.isDigit then
    some (Nat.ofDigitChars 10 (value.take width) 0, value.drop width)
  else none

/-- `getnum`: two digits, or one where the layout lets the leading zero out. -/
def getnum (value : List Char) (fixed : Bool) : Option (ℕ × List Char) :=
  match fixedDigits 2 value with
  | some field => some field
  | none => if fixed then none else fixedDigits 1 value

/-- `skip` of one character of the layout. -/
def skip (value : List Char) (c : Char) : Option (List Char) :=
  match value with
  | [] => none
  | d :: rest => if d = c then some rest else none

/-- The nanoseconds of a fraction, which may be missing.  Digits after the ninth
are read and dropped. -/
def parseNanoseconds : List Char → ℕ × List Char
  | [] => (0, [])
  | point :: rest =>
      let field := rest.takeWhile Char.isDigit
      if (point = '.' ∨ point = ',') ∧ field ≠ [] then
        (Nat.ofDigitChars 10 (field.take 9) 0 * 10 ^ (9 - field.length),
          rest.dropWhile Char.isDigit)
      else (0, point :: rest)

/-- The zone `Z07:00`, in seconds east of Greenwich. -/
def parseZone : List Char → Option (ℤ × List Char)
  | 'Z' :: rest => some (0, rest)
  | sign :: h₁ :: h₂ :: ':' :: m₁ :: m₂ :: rest => do
      let (hour, _) ← getnum [h₁, h₂] true
      let (minute, _) ← getnum [m₁, m₂] true
      -- an offset of 24 hours or of 60 minutes is let through
      guard (hour ≤ 24 ∧ minute ≤ 60)
      let offset : ℤ := (hour * 60 + minute) * 60
      if sign = '+' then some (offset, rest)
      else if sign = '-' then some (-offset, rest)
      else none
  | _ => none

/-- The year, the month and the day of `2006-01-02`. -/
def parseDate (value : List Char) : Option ((ℕ × ℕ × ℕ) × List Char) := do
  let (year, value) ← fixedDigits 4 value
  let value ← skip value '-'
  let (month, value) ← getnum value true
  guard (1 ≤ month ∧ month ≤ 12)
  let value ← skip value '-'
  let (day, value) ← getnum value true
  some ((year, month, day), value)

/-- The second of the day of `15:04:05`. -/
def parseClock (value : List Char) : Option (ℕ × List Char) := do
  let (hour, value) ← getnum value false
  guard (hour < 24)
  let value ← skip value ':'
  let (minute, value) ← getnum value true
  guard (minute < 60)
  let value ← skip value ':'
  let (second, value) ← getnum value true
  guard (second < 60)
  some (3600 * hour + 60 * minute + second, value)

/-- `time.Parse` for the layouts `RFC3339` and `RFC3339Nano`, which read the same
texts: a fraction is accepted after the seconds of either. -/
def parseRFC3339 (text : String) : Option Time := do
  let ((year, month, day), value) ← parseDate text.toList
  let value ← skip value 'T'
  let (second, value) ← parseClock value
  let (nanosecond, value) := parseNanoseconds value
  let (offset, value) ← parseZone value
  guard (value = [])
  guard (1 ≤ day ∧ (day : ℤ) ≤ daysIn year month)
  some (1000000000 * (86400 * dayNumber year month day + second - offset) + nanosecond)

/-- `parseTime`. -/
def parseTime (value : String) : Option Time := parseRFC3339 value

/-- The instants whose year in UTC is written with four digits. -/
def FourDigitYear (t : Time) : Prop :=
  0 ≤ yearOf (localDay utc t) ∧ yearOf (localDay utc t) ≤ 9999

instance (t : Time) : Decidable (FourDigitYear t) := inferInstanceAs (Decidable (_ ∧ _))

/-! ## Numerals of a fixed width -/

theorem digits_one {n : ℕ} (hn : n < 10) : digits n 1 = [n.digitChar] := by
  unfold digits
  rw [Nat.toDigits_of_lt_base hn]
  rfl

theorem digits_succ {n width : ℕ} (hwidth : 0 < width) :
    digits n (width + 1) = digits (n / 10) width ++ [(n % 10).digitChar] := by
  unfold digits
  by_cases hn : n < 10
  · obtain ⟨k, rfl⟩ := Nat.exists_eq_add_of_le' hwidth
    rw [Nat.toDigits_of_lt_base hn, Nat.div_eq_of_lt hn, Nat.mod_eq_of_lt hn]
    simp [List.replicate_succ']
  · rw [Nat.toDigits_of_base_le (by decide) (by omega), List.length_append, ← List.append_assoc]
    congr 3
    simp

theorem digitChar_strictMonoOn : StrictMonoOn Nat.digitChar {n | n < 10} := by
  intro a ha b hb hab
  change a < 10 at ha
  change b < 10 at hb
  interval_cases b <;> interval_cases a <;> first | omega | decide

/-- Numerals of one width compare as the numbers. -/
theorem sortable_digits (width : ℕ) (hwidth : 0 < width) :
    Sortable {n | n < 10 ^ width} (fun n ↦ digits n width) width := by
  refine ⟨fun n hn ↦ length_digits hwidth hn, ?_⟩
  induction width, hwidth using Nat.le_induction with
  | base =>
      intro a ha b hb hab
      have ha : a < 10 := ha
      have hb : b < 10 := hb
      dsimp only
      rw [digits_one ha, digits_one hb, List.cons_lt_cons_iff]
      exact .inl (digitChar_strictMonoOn ha hb hab)
  | succ width hwidth ih =>
      intro a ha b hb hab
      have ha : a / 10 < 10 ^ width := by
        have ha : a < 10 ^ (width + 1) := ha
        rw [Nat.div_lt_iff_lt_mul (by decide)]
        omega
      have hb : b / 10 < 10 ^ width := by
        have hb : b < 10 ^ (width + 1) := hb
        rw [Nat.div_lt_iff_lt_mul (by decide)]
        omega
      dsimp only
      rw [digits_succ hwidth, digits_succ hwidth]
      apply append_lt_append ((length_digits hwidth ha).trans (length_digits hwidth hb).symm)
      by_cases hfront : a / 10 < b / 10
      · exact .inl (ih ha hb hfront)
      · have heq : a / 10 = b / 10 := by omega
        have hlast : (a % 10).digitChar < (b % 10).digitChar :=
          digitChar_strictMonoOn (Nat.mod_lt _ (by decide)) (Nat.mod_lt _ (by decide)) (by omega)
        exact .inr ⟨by rw [heq], List.cons_lt_cons_iff.mpr (.inl hlast)⟩

theorem appendInt_of_nonneg {x : ℤ} (hx : 0 ≤ x) (width : ℕ) :
    appendInt x width = digits x.toNat width := by
  unfold appendInt signed
  rw [if_neg (by omega)]
  congr 1
  omega

theorem sortable_appendInt (width : ℕ) (hwidth : 0 < width) :
    Sortable {x : ℤ | 0 ≤ x ∧ x < (10 ^ width : ℕ)} (fun x ↦ appendInt x width) width := by
  have hnumbers := (sortable_digits width hwidth).comp
    {x : ℤ | 0 ≤ x ∧ x < (10 ^ width : ℕ)} (f := Int.toNat) ?_ ?_
  · exact hnumbers.congr fun x hx ↦ appendInt_of_nonneg hx.1 width
  · rintro x ⟨hlow, hhigh⟩
    exact (Int.toNat_lt hlow).mpr hhigh
  · rintro x ⟨hx, -⟩ y ⟨hy, -⟩ hxy
    exact (Int.toNat_lt_toNat (hx.trans_lt hxy)).mpr hxy

/-! ## The order of the texts -/

/-- The layout of a date sorts like the days of the years with four digits. -/
theorem sortable_dayLayout :
    Sortable {n : ℤ | 0 ≤ yearOf n ∧ yearOf n ≤ 9999} dayLayout 10 := by
  have hfields := (sortable_appendInt 4 (by decide)).pair
    (((sortable_appendInt 2 (by decide)).prepend ['-']).pair
      ((sortable_appendInt 2 (by decide)).prepend ['-']))
  have hdates := hfields.comp {n : ℤ | 0 ≤ yearOf n ∧ yearOf n ≤ 9999}
    (f := fun n ↦ toLex (yearOf n, toLex (month n, day n))) ?_ (date_strictMono.strictMonoOn _)
  · refine hdates.congr fun n _ ↦ ?_
    simp only [dayLayout, monthLayout, yearLayout, List.append_assoc]
    rfl
  · rintro n ⟨hlow, hhigh⟩
    have hmonth := month_mem n
    have hday := day_mem n
    refine ⟨⟨hlow, ?_⟩, ⟨?_, ?_⟩, ?_, ?_⟩ <;> dsimp only [ofLex_toLex] <;> omega

/-- The layout of a time of day sorts like the seconds of the day. -/
theorem sortable_clockLayout : Sortable {s : ℤ | 0 ≤ s ∧ s < 86400} clockLayout 8 := by
  have hfields := (sortable_appendInt 2 (by decide)).pair
    (((sortable_appendInt 2 (by decide)).prepend [':']).pair
      ((sortable_appendInt 2 (by decide)).prepend [':']))
  have hclock := hfields.comp {s : ℤ | 0 ≤ s ∧ s < 86400}
    (f := fun s : ℤ ↦ toLex (s / 3600, toLex (s / 60 % 60, s % 60))) ?_ ?_
  · refine hclock.congr fun s _ ↦ ?_
    simp only [clockLayout, List.append_assoc]
    rfl
  · rintro s ⟨hlow, hhigh⟩
    refine ⟨⟨?_, ?_⟩, ⟨?_, ?_⟩, ?_, ?_⟩ <;> dsimp only [ofLex_toLex] <;> omega
  · rintro a ⟨ha, -⟩ b ⟨-, hb⟩ hab
    simp only [Prod.Lex.toLex_lt_toLex]
    omega

theorem localSecond_utc (t : Time) : localSecond utc t = t / 1000000000 := add_zero _

/-- Instants are ordered by day, second of the day and nanosecond. -/
theorem fields_strictMono : StrictMono fun t : ℤ ↦ toLex (t / 1000000000 / 86400,
    toLex (t / 1000000000 % 86400, (t % 1000000000).toNat)) := by
  intro a b hab
  simp only [Prod.Lex.toLex_lt_toLex]
  omega

theorem fields_assemble (t : ℤ) : 1000000000 * (86400 * (t / 1000000000 / 86400) +
    ((t / 1000000000 % 86400).toNat : ℤ) - 0) + ((t % 1000000000).toNat : ℤ) = t := by
  omega

/-- The texts of the instants with a year of four digits sort chronologically. -/
theorem sortable_formatTime :
    Sortable {t | FourDigitYear t} (fun t ↦ (formatTime t).toList) 30 := by
  have hfields := ((sortable_dayLayout.pair
    ((sortable_clockLayout.prepend ['T']).pair
      ((sortable_digits 9 (by decide)).prepend ['.']))).append ['Z'])
  have hinstants := hfields.comp {t : Time | FourDigitYear t}
    (f := fun t ↦ toLex (localDay utc t, toLex (localSecond utc t % 86400,
      (t % 1000000000).toNat))) ?_ ?_
  · refine hinstants.congr fun t _ ↦ ?_
    simp only [formatTime, String.toList_ofList, List.append_assoc]
    rfl
  · intro t ht
    refine ⟨ht, ⟨?_, ?_⟩, ?_⟩
    · exact Int.emod_nonneg _ (by decide)
    · exact Int.emod_lt_of_pos _ (by decide)
    · change (t % 1000000000).toNat < 10 ^ 9
      omega
  · simp only [localDay, localSecond_utc]
    exact fields_strictMono.strictMonoOn _

theorem formatTime_lt_iff {t₁ t₂ : Time} (h₁ : FourDigitYear t₁) (h₂ : FourDigitYear t₂) :
    formatTime t₁ < formatTime t₂ ↔ t₁ < t₂ :=
  String.lt_iff.trans (sortable_formatTime.lt_iff_lt h₁ h₂)

/-! ## Reading a text back -/

@[simp] theorem fixedDigits_digits {n width : ℕ} (hwidth : 0 < width) (hn : n < 10 ^ width)
    (rest : List Char) : fixedDigits width (digits n width ++ rest) = some (n, rest) := by
  have hlength := length_digits hwidth hn
  have htake : (digits n width ++ rest).take width = digits n width := by
    rw [List.take_append_of_le_length hlength.ge, List.take_of_length_le hlength.le]
  have hdrop : (digits n width ++ rest).drop width = rest := by
    rw [List.drop_append_of_le_length hlength.ge, List.drop_of_length_le hlength.le,
      List.nil_append]
  have hdigits : (digits n width).all Char.isDigit = true :=
    List.all_eq_true.mpr fun _ ↦ isDigit_of_mem_digits
  unfold fixedDigits
  rw [htake, hdrop, if_pos ⟨hlength, hdigits⟩, ofDigitChars_digits]

theorem getnum_appendInt {x : ℤ} (hx : 0 ≤ x ∧ x < 100) (fixed : Bool) (rest : List Char) :
    getnum (appendInt x 2 ++ rest) fixed = some (x.toNat, rest) := by
  unfold getnum
  rw [appendInt_of_nonneg hx.1, fixedDigits_digits (by decide) (by omega)]

@[simp] theorem skip_cons (c : Char) (rest : List Char) : skip (c :: rest) c = some rest :=
  if_pos rfl

theorem parseNanoseconds_digits {n : ℕ} (hn : n < 10 ^ 9) :
    parseNanoseconds ('.' :: digits n 9 ++ ['Z']) = (n, ['Z']) := by
  have hlength : (digits n 9).length = 9 := length_digits (by decide) hn
  have hdigits : ∀ c ∈ digits n 9, c.isDigit = true := fun _ ↦ isDigit_of_mem_digits
  have htake : (digits n 9 ++ ['Z']).takeWhile Char.isDigit = digits n 9 := by
    rw [List.takeWhile_append_of_pos hdigits]
    simp
  have hdrop : (digits n 9 ++ ['Z']).dropWhile Char.isDigit = ['Z'] := by
    rw [List.dropWhile_append_of_pos hdigits]
    rfl
  have hne : digits n 9 ≠ [] := by
    intro hnil
    rw [hnil] at hlength
    cases hlength
  rw [List.cons_append, parseNanoseconds, htake, hdrop, if_pos ⟨.inl rfl, hne⟩, hlength,
    List.take_of_length_le hlength.le, ofDigitChars_digits, Nat.sub_self, pow_zero, mul_one]

theorem parseZone_utc : parseZone ['Z'] = some (0, []) := rfl

theorem guard_pos {p : Prop} [Decidable p] (h : p) : (guard p : Option Unit) = some () :=
  if_pos h

theorem parseDate_dayLayout {n : ℤ} (hyear : 0 ≤ yearOf n ∧ yearOf n ≤ 9999)
    (rest : List Char) : parseDate (dayLayout n ++ rest) =
      some (((yearOf n).toNat, (month n).toNat, (day n).toNat), rest) := by
  have hmonth := month_mem n
  have hday := day_mem n
  unfold parseDate
  simp only [Option.bind_eq_bind, dayLayout, monthLayout, yearLayout,
    appendInt_of_nonneg hyear.1, List.append_assoc, List.cons_append]
  rw [fixedDigits_digits (by decide) (by omega), Option.bind_some, skip_cons, Option.bind_some,
    getnum_appendInt (by omega), Option.bind_some, guard_pos (by dsimp only; omega),
    Option.bind_some, skip_cons, Option.bind_some, getnum_appendInt (by omega), Option.bind_some]

theorem parseClock_clockLayout {s : ℤ} (hs : 0 ≤ s ∧ s < 86400) (rest : List Char) :
    parseClock (clockLayout s ++ rest) = some (s.toNat, rest) := by
  unfold parseClock
  simp only [Option.bind_eq_bind, clockLayout, List.append_assoc, List.cons_append]
  rw [getnum_appendInt (by omega), Option.bind_some, guard_pos (by dsimp only; omega),
    Option.bind_some, skip_cons, Option.bind_some, getnum_appendInt (by omega), Option.bind_some,
    guard_pos (by dsimp only; omega), Option.bind_some, skip_cons, Option.bind_some,
    getnum_appendInt (by omega), Option.bind_some, guard_pos (by dsimp only; omega),
    Option.bind_some]
  congr 2
  dsimp only
  omega

/-- A text that the database wrote is read as the instant it was written for. -/
theorem parseTime_formatTime {t : Time} (ht : FourDigitYear t) :
    parseTime (formatTime t) = some t := by
  have hmonth := month_mem (localDay utc t)
  have hday := day_mem (localDay utc t)
  have hlength := day_le_daysIn (localDay utc t)
  have hfraction := parseNanoseconds_digits (n := (t % 1000000000).toNat) (by omega)
  rw [List.cons_append] at hfraction
  have hyear' := Int.toNat_of_nonneg ht.1
  have hmonth' : ((month (localDay utc t)).toNat : ℤ) = month (localDay utc t) :=
    Int.toNat_of_nonneg (by omega)
  have hday' : ((day (localDay utc t)).toNat : ℤ) = day (localDay utc t) :=
    Int.toNat_of_nonneg (by omega)
  unfold parseTime parseRFC3339 formatTime
  simp only [Option.bind_eq_bind, String.toList_ofList, List.append_assoc, List.cons_append]
  rw [parseDate_dayLayout ht, Option.bind_some, skip_cons, Option.bind_some,
    parseClock_clockLayout (by omega), Option.bind_some]
  dsimp only
  rw [hfraction, parseZone_utc, Option.bind_some, guard_pos rfl, Option.bind_some]
  dsimp only
  rw [hyear', hmonth', hday', guard_pos ⟨by omega, hlength⟩, Option.bind_some, dayNumber_date]
  have hsecond := localSecond_utc t
  have hwhole : localDay utc t = t / 1000000000 / 86400 := by rw [localDay, hsecond]
  congr 1
  rw [hwhole, hsecond]
  exact fields_assemble t

theorem parseDate_sign (rest : List Char) : parseDate ('-' :: rest) = none := by
  have hfield : fixedDigits 4 ('-' :: rest) = none := by
    refine if_neg fun h ↦ ?_
    have hdigit := List.all_eq_true.mp h.2 '-' (by simp)
    cases hdigit
  unfold parseDate
  simp only [Option.bind_eq_bind]
  rw [hfield, Option.bind_none]

/-- Digits run on where the month is expected. -/
theorem parseDate_digits {l rest : List Char} (hdigits : ∀ c ∈ l, c.isDigit = true)
    (hlength : 4 < l.length) : parseDate (l ++ rest) = none := by
  match l, hlength with
  | a :: b :: c :: d :: e :: l, _ =>
      have he : e.isDigit = true := hdigits e (by simp)
      have hskip : skip (e :: l ++ rest) '-' = none := by
        refine if_neg fun hsign ↦ ?_
        rw [hsign] at he
        cases he
      have hfield : fixedDigits 4 (a :: b :: c :: d :: e :: l ++ rest) =
          some (Nat.ofDigitChars 10 [a, b, c, d] 0, e :: l ++ rest) :=
        if_pos ⟨rfl, List.all_eq_true.mpr fun x hx ↦ hdigits x (by simp at hx ⊢; tauto)⟩
      unfold parseDate
      simp only [Option.bind_eq_bind]
      rw [hfield, Option.bind_some, hskip, Option.bind_none]

/-- A year with a sign or with more than four digits is not read back. -/
theorem parseTime_formatTime_none {t : Time} (ht : ¬ FourDigitYear t) :
    parseTime (formatTime t) = none := by
  have hdate : ∀ rest, parseDate (dayLayout (localDay utc t) ++ rest) = none := by
    intro rest
    simp only [dayLayout, monthLayout, yearLayout, List.append_assoc]
    by_cases hsign : yearOf (localDay utc t) < 0
    · unfold appendInt signed
      rw [if_pos hsign]
      exact parseDate_sign _
    · have hlong : 9999 < yearOf (localDay utc t) := by
        by_contra hshort
        exact ht ⟨by omega, by omega⟩
      rw [appendInt_of_nonneg (by omega)]
      refine parseDate_digits (fun _ ↦ isDigit_of_mem_digits) ?_
      have hdigits : 4 < (Nat.toDigits 10 (yearOf (localDay utc t)).toNat).length := by
        rw [← not_le, Nat.length_toDigits_le_iff (by decide) (by decide)]
        omega
      unfold digits
      rw [List.length_append]
      omega
  unfold parseTime parseRFC3339 formatTime
  simp only [Option.bind_eq_bind, String.toList_ofList, List.append_assoc]
  rw [hdate, Option.bind_none]

/-! ## The law of the texts -/

/-- Two instants are ordered as their texts are, and both are read back. -/
structure TextOrder (t₁ t₂ : Time) : Prop where
  lt_iff : formatTime t₁ < formatTime t₂ ↔ t₁ < t₂
  first : parseTime (formatTime t₁) = some t₁
  second : parseTime (formatTime t₂) = some t₂

theorem textOrder_iff (t₁ t₂ : Time) :
    TextOrder t₁ t₂ ↔ FourDigitYear t₁ ∧ FourDigitYear t₂ := by
  have hread : ∀ t, parseTime (formatTime t) = some t → FourDigitYear t := by
    intro t h
    by_contra hyear
    rw [parseTime_formatTime_none hyear] at h
    cases h
  constructor
  · rintro ⟨-, h₁, h₂⟩
    exact ⟨hread t₁ h₁, hread t₂ h₂⟩
  · rintro ⟨h₁, h₂⟩
    exact ⟨formatTime_lt_iff h₁ h₂, parseTime_formatTime h₁, parseTime_formatTime h₂⟩

/-! ## Conditions on timestamp columns -/

/-- The bounds of a list of results.  An empty text includes every value. -/
structure ResultFilter where
  taskID : String
  provider : String
  status : String
  interface : String
  sourceIP : String
  serverID : String
  «from» : Option Time
  «to» : Option Time

/-- The text of a result status. -/
def statusText : ResultStatus → String
  | .queued => "queued"
  | .validating => "validating"
  | .running => "running"
  | .succeeded => "succeeded"
  | .failed => "failed"
  | .skipped => "skipped"
  | .cancelled => "cancelled"

/-- `COALESCE(started_at, finished_at, scheduled_at, queued_at)`. -/
def timestampText (row : Result) : String :=
  ((row.startedAt.map formatTime).or ((row.finishedAt.map formatTime).or
    (row.scheduledAt.map formatTime))).getD (formatTime row.queuedAt)

/-- An equality with a text, left out for the empty text. -/
def equals (pair : String × String) : Bool := pair.1 = "" || pair.2 = pair.1

/-- The conditions of `resultWhere` on the other columns. -/
def ResultFilter.fields (filter : ResultFilter) (row : Result) : Bool :=
  [(filter.taskID, row.taskID), (filter.provider, providerText row.provider),
    (filter.status, statusText row.status), (filter.interface, row.selectedInterface),
    (filter.sourceIP, row.selectedSourceIP), (filter.serverID, row.serverID)].all equals

def resultWhere (filter : ResultFilter) (row : Result) : Bool :=
  filter.fields row &&
    filter.from.all (fun bound ↦ decide (formatTime bound ≤ timestampText row)) &&
    filter.to.all (fun bound ↦ decide (timestampText row < formatTime bound))

/-- `statisticsInClause`; a null column is in no list. -/
def statisticsInClause (column : Option String) (values : List String) : Bool :=
  values.isEmpty || column.any fun text ↦ decide (text ∈ values)

/-- The conditions of `WalkStatisticsResults` on the other columns. -/
def statisticsFields (filter : Filter) (row : Result) : Bool :=
  statisticsInClause (some row.taskID) filter.taskIDs &&
    statisticsInClause (some row.selectedInterface) filter.interfaces &&
    statisticsInClause (some row.selectedSourceIP) filter.sourceIPs &&
    statisticsInClause (some (providerText row.provider)) filter.providers &&
    statisticsInClause (some row.serverID) filter.serverIDs &&
    statisticsInClause row.routeProfileID filter.routeProfileIDs &&
    statisticsInClause (some row.detectedPublicIP) filter.publicIPs

/-- The condition of `WalkStatisticsResults`. -/
def statisticsWhere (filter : StatisticsFilter) (row : Result) : Bool :=
  decide (formatTime filter.from ≤ timestampText row) &&
    decide (timestampText row < formatTime filter.to) && statisticsFields filter.filter row

/-- The condition of `DeleteResultsBefore` on the column `finished_at`. -/
def expiredWhere (cutoff : Time) (row : Result) : Bool :=
  row.status.terminal &&
    (row.finishedAt.map formatTime).any fun finished ↦ decide (finished < formatTime cutoff)

/-- The identities that `DeleteResultsBefore` selects, in the order of the column. -/
def expiredIDs (s : Store) (cutoff : Time) (batchSize : ℕ) : List String :=
  (((s.results.rows.filter (expiredWhere cutoff)).insertionSort fun first second ↦
    (first.finishedAt.map formatTime).getD "" ≤
      (second.finishedAt.map formatTime).getD "").take batchSize).map Result.id

/-! ## The same conditions on instants -/

/-- The instant that a row is filed under. -/
def timestamp (row : Result) : Time :=
  (row.startedAt.or (row.finishedAt.or row.scheduledAt)).getD row.queuedAt

/-- A row is filed under an instant between two bounds. -/
def Within («from» «to» : Option Time) (row : Result) : Prop :=
  (∀ bound ∈ «from», bound ≤ timestamp row) ∧ ∀ bound ∈ «to», timestamp row < bound

/-- The instants of a row that queries compare. -/
structure RowInRange (row : Result) : Prop where
  timestamp : FourDigitYear (timestamp row)
  finished : ∀ finished ∈ row.finishedAt, FourDigitYear finished

theorem timestampText_eq (row : Result) : timestampText row = formatTime (timestamp row) := by
  unfold timestampText timestamp
  cases row.startedAt <;> cases row.finishedAt <;> cases row.scheduledAt <;> rfl

theorem formatTime_le_iff {t₁ t₂ : Time} (h₁ : FourDigitYear t₁) (h₂ : FourDigitYear t₂) :
    formatTime t₁ ≤ formatTime t₂ ↔ t₁ ≤ t₂ := by
  exact (not_congr (formatTime_lt_iff h₂ h₁)).trans not_lt

theorem resultWhere_iff {filter : ResultFilter} {row : Result} (hrow : RowInRange row)
    (hfrom : ∀ bound ∈ filter.from, FourDigitYear bound)
    (hto : ∀ bound ∈ filter.to, FourDigitYear bound) :
    resultWhere filter row = true ↔
      filter.fields row = true ∧ Within filter.from filter.to row := by
  have hlow : ∀ bound ∈ filter.from,
      (formatTime bound ≤ timestampText row ↔ bound ≤ timestamp row) := by
    intro bound hbound
    rw [timestampText_eq]
    exact formatTime_le_iff (hfrom bound hbound) hrow.timestamp
  have hhigh : ∀ bound ∈ filter.to,
      (timestampText row < formatTime bound ↔ timestamp row < bound) := by
    intro bound hbound
    rw [timestampText_eq]
    exact formatTime_lt_iff hrow.timestamp (hto bound hbound)
  unfold resultWhere Within
  rw [Bool.and_eq_true, Bool.and_eq_true, Option.all_eq_true, Option.all_eq_true, and_assoc]
  simp only [decide_eq_true_eq]
  exact and_congr_right fun _ ↦ and_congr (forall₂_congr hlow) (forall₂_congr hhigh)

theorem statisticsWhere_iff {filter : StatisticsFilter} {row : Result} (hrow : RowInRange row)
    (hfrom : FourDigitYear filter.from) (hto : FourDigitYear filter.to) :
    statisticsWhere filter row = true ↔
      statisticsFields filter.filter row = true ∧ Within filter.from filter.to row := by
  unfold statisticsWhere Within
  rw [Bool.and_eq_true, Bool.and_eq_true, decide_eq_true_eq, decide_eq_true_eq, timestampText_eq,
    formatTime_le_iff hfrom hrow.timestamp, formatTime_lt_iff hrow.timestamp hto, and_comm]
  simp

theorem expiredWhere_eq {cutoff : Time} {row : Result} (hrow : RowInRange row)
    (hcutoff : FourDigitYear cutoff) : expiredWhere cutoff row = Store.expired cutoff row := by
  unfold expiredWhere Store.expired
  cases hfinished : row.finishedAt with
  | none => rfl
  | some finished =>
      have hlt := formatTime_lt_iff (hrow.finished finished hfinished) hcutoff
      simp only [Option.map_some, Option.any_some, decide_eq_decide.mpr hlt]

/-- The batch of the retention is the one that the instants give. -/
theorem expiredIDs_eq {s : Store} {cutoff : Time} (hrows : ∀ row ∈ s.results.rows, RowInRange row)
    (hcutoff : FourDigitYear cutoff) (batchSize : ℕ) :
    expiredIDs s cutoff batchSize = s.expiredBatch cutoff batchSize := by
  have hfilter : s.results.rows.filter (expiredWhere cutoff) =
      s.results.rows.filter (Store.expired cutoff) :=
    List.filter_congr fun row hrow ↦ expiredWhere_eq (hrows row hrow) hcutoff
  have hfinished : ∀ row ∈ s.results.rows.filter (Store.expired cutoff),
      ∃ finished, row.finishedAt = some finished ∧ FourDigitYear finished := by
    intro row hrow
    obtain ⟨hmem, hexpired⟩ := List.mem_filter.mp hrow
    obtain ⟨finished, hfinished, -⟩ :=
      (Option.any_eq_true _ _).mp ((Bool.and_eq_true _ _).mp hexpired).2
    exact ⟨finished, hfinished, (hrows row hmem).finished finished hfinished⟩
  unfold expiredIDs Store.expiredBatch
  rw [hfilter]
  congr 2
  have hsort := List.map_insertionSort
    (r := fun first second : Result ↦ (first.finishedAt.map formatTime).getD "" ≤
      (second.finishedAt.map formatTime).getD "")
    (s := fun first second : Result ↦ first.finishedAt.getD 0 ≤ second.finishedAt.getD 0)
    id (s.results.rows.filter (Store.expired cutoff)) ?_
  · simpa using hsort
  · intro first hfirst second hsecond
    obtain ⟨t₁, h₁, hyear₁⟩ := hfinished first hfirst
    obtain ⟨t₂, h₂, hyear₂⟩ := hfinished second hsecond
    simpa [h₁, h₂] using formatTime_le_iff hyear₁ hyear₂

/-- The texts of two instants are ordered as the instants are, and both are read back,
exactly if both years have four digits in UTC; the queries then select what the
instants select. -/
theorem timestamp_text_order (t₁ t₂ : Time) :
    (TextOrder t₁ t₂ ↔ FourDigitYear t₁ ∧ FourDigitYear t₂) ∧
      (∀ row, RowInRange row →
        (∀ filter : ResultFilter, (∀ bound ∈ filter.from, FourDigitYear bound) →
          (∀ bound ∈ filter.to, FourDigitYear bound) →
            (resultWhere filter row = true ↔
              filter.fields row = true ∧ Within filter.from filter.to row)) ∧
        ∀ filter : StatisticsFilter, FourDigitYear filter.from → FourDigitYear filter.to →
          (statisticsWhere filter row = true ↔
            statisticsFields filter.filter row = true ∧ Within filter.from filter.to row)) ∧
      ∀ s : Store, (∀ row ∈ s.results.rows, RowInRange row) → ∀ cutoff, FourDigitYear cutoff →
        ∀ batchSize, expiredIDs s cutoff batchSize = s.expiredBatch cutoff batchSize := by
  refine ⟨textOrder_iff t₁ t₂, fun row hrow ↦ ⟨fun filter hfrom hto ↦ ?_, fun filter hfrom hto ↦ ?_⟩,
    fun s hrows cutoff hcutoff batchSize ↦ ?_⟩
  · exact resultWhere_iff hrow hfrom hto
  · exact statisticsWhere_iff hrow hfrom hto
  · exact expiredIDs_eq hrows hcutoff batchSize

/-- An upper bound at the end of the year 9999 west of Greenwich lies in the year
10000, and no row of the year 2026 is before it as text. -/
theorem bound_after_year_9999 :
    ∃ bound newYear, parseRFC3339 "9999-12-31T23:59:59-01:00" = some bound ∧
      parseRFC3339 "2026-01-01T00:00:00Z" = some newYear ∧ newYear < bound ∧
      formatTime bound < formatTime newYear ∧ parseTime (formatTime bound) = none ∧
      ∀ (filter : ResultFilter) (row : Result), filter.to = some bound →
        timestamp row = newYear → resultWhere filter row = false := by
  have htext : formatTime 253402304399000000000 < formatTime 1767225600000000000 := by
    decide +kernel
  have hnot : ¬ formatTime 1767225600000000000 < formatTime 253402304399000000000 := by
    decide +kernel
  refine ⟨253402304399000000000, 1767225600000000000, by decide +kernel, by decide +kernel,
    by decide, htext, parseTime_formatTime_none (by decide +kernel), fun filter row hto hrow ↦ ?_⟩
  unfold resultWhere
  rw [hto, Option.all_some, timestampText_eq, hrow, decide_eq_false hnot, Bool.and_false]

end MultiSpeed.Database
