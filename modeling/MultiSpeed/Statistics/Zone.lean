import MultiSpeed.Lib.Gregorian
import MultiSpeed.Lib.WallClock
import MultiSpeed.Scheduler.Memory
import Mathlib.Data.List.DropRight

/-!
# Instants on the clock of a zone

What `internal/statistics` uses of Go's `time`: the fields of an instant in a
location, `time.Date` and `AddDate`, and the layouts of keys and labels.  The
clock of a zone is counted in seconds from 1970-01-01T00:00:00, so that its days
are the numbers of the calendar.
-/

namespace MultiSpeed.Statistics

open Gregorian
open Scheduling (Location)

/-! ## Fields and construction -/

def utc : Location := ⟨fun _ ↦ 0⟩

/-- The second the clock of a location shows. -/
def localSecond (location : Location) (t : Time) : ℤ :=
  WallClock.reading location.offset (t / 1000000000)

/-- The date the clock of a location shows. -/
def localDay (location : Location) (t : Time) : ℤ := localSecond location t / 86400

/-- `time.Date`, with the time of day in seconds. -/
def date (location : Location) (year month day second nanosecond : ℤ) : Time :=
  1000000000 * WallClock.instant location.offset (86400 * dayNumber year month day + second) +
    nanosecond

/-- `Time.AddDate`: the date that the clock shows is moved, its time of day stays. -/
def addDate (location : Location) (t : Time) (years months days : ℤ) : Time :=
  let n := localDay location t
  date location (yearOf n + years) (month n + months) (day n + days)
    (localSecond location t % 86400) (t % 1000000000)

/-! ## Layouts -/

/-- Decimal digits, filled up with zeros to a width. -/
def digits (n width : ℕ) : List Char :=
  List.replicate (width - (Nat.toDigits 10 n).length) '0' ++ Nat.toDigits 10 n

/-- Decimal digits after a minus sign, or to a width. -/
def signed (x : ℤ) (negative width : ℕ) : List Char :=
  if x < 0 then '-' :: digits x.natAbs negative else digits x.natAbs width

/-- A field of a time layout: the sign does not count for the width. -/
def appendInt (x : ℤ) (width : ℕ) : List Char := signed x width width

/-- The verb `%0wd` of `fmt`: the sign counts for the width. -/
def sprintInt (x : ℤ) (width : ℕ) : List Char := signed x (width - 1) width

/-- The layouts `2006`, `2006-01` and `2006-01-02`. -/
def yearLayout (n : ℤ) : List Char := appendInt (yearOf n) 4

def monthLayout (n : ℤ) : List Char := yearLayout n ++ '-' :: appendInt (month n) 2

def dayLayout (n : ℤ) : List Char := monthLayout n ++ '-' :: appendInt (day n) 2

/-- The format `%04d-W%02d` of an ISO week. -/
def weekLayout (n : ℤ) : List Char :=
  sprintInt (isoYear n) 4 ++ '-' :: 'W' :: sprintInt (isoWeek n) 2

/-- The layout `15:04:05` of a second of the day. -/
def clockLayout (second : ℤ) : List Char :=
  appendInt (second / 3600) 2 ++ ':' :: appendInt (second / 60 % 60) 2 ++
    ':' :: appendInt (second % 60) 2

/-- The fraction of `RFC3339Nano`, without its trailing zeros. -/
def fractionLayout (nanosecond : ℤ) : List Char :=
  if nanosecond = 0 then [] else '.' :: (digits nanosecond.toNat 9).rdropWhile (· = '0')

/-- The zone of `RFC3339`. -/
def zoneLayout (offset : ℤ) : List Char :=
  if offset = 0 then ['Z']
  else
    -- Go divides towards zero before it takes the sign
    let zone := offset.tdiv 60
    (if zone < 0 then '-' else '+') :: appendInt (zone.natAbs / 60 : ℕ) 2 ++
      ':' :: appendInt (zone.natAbs % 60 : ℕ) 2

def formatRFC3339 (location : Location) (t : Time) : String :=
  .ofList (dayLayout (localDay location t) ++
    'T' :: clockLayout (localSecond location t % 86400) ++
    zoneLayout (location.offset (t / 1000000000)))

def formatRFC3339Nano (location : Location) (t : Time) : String :=
  .ofList (dayLayout (localDay location t) ++
    'T' :: clockLayout (localSecond location t % 86400) ++
    fractionLayout (t % 1000000000) ++ zoneLayout (location.offset (t / 1000000000)))

/-! ## The layouts can be read back -/

theorem ofDigitChars_digits (n width : ℕ) : Nat.ofDigitChars 10 (digits n width) 0 = n := by
  unfold digits
  rw [Nat.ofDigitChars_append, Nat.ofDigitChars_replicate_zero, Nat.mul_zero,
    Nat.ofDigitChars_ten_toDigits]

theorem digits_inj {m n width width' : ℕ} (h : digits m width = digits n width') : m = n := by
  rw [← ofDigitChars_digits m width, h, ofDigitChars_digits]

theorem isDigit_of_mem_digits {n width : ℕ} {c : Char} (hc : c ∈ digits n width) :
    c.isDigit = true := by
  rcases List.mem_append.mp hc with hzero | hdigit
  · rw [List.eq_of_mem_replicate hzero]
    rfl
  · exact Nat.isDigit_of_mem_toDigits (by decide) (by decide) hdigit

theorem digits_ne_sign {m n width width' : ℕ} : digits m width ≠ '-' :: digits n width' := by
  intro h
  have hsign : '-' ∈ digits m width := by
    rw [h]
    exact List.mem_cons_self
  cases isDigit_of_mem_digits hsign

theorem signed_inj {x y : ℤ} {negative width : ℕ}
    (h : signed x negative width = signed y negative width) : x = y := by
  unfold signed at h
  split at h <;> split at h
  · have habs := digits_inj (List.cons.inj h).2
    omega
  · exact absurd h.symm digits_ne_sign
  · exact absurd h digits_ne_sign
  · have habs := digits_inj h
    omega

theorem length_digits {n width : ℕ} (hwidth : 0 < width) (hn : n < 10 ^ width) :
    (digits n width).length = width := by
  have hle := (Nat.length_toDigits_le_iff (by decide) hwidth).mpr hn
  unfold digits
  rw [List.length_append, List.length_replicate]
  omega

theorem length_appendInt {x : ℤ} (hx : 0 ≤ x ∧ x < 100) : (appendInt x 2).length = 2 := by
  unfold appendInt signed
  rw [if_neg (by omega)]
  exact length_digits (by decide) (by omega)

/-- A separator and a field of two digits at the end of a layout. -/
theorem field_inj {l l' : List Char} {c : Char} {x y : ℤ} (hx : 0 ≤ x ∧ x < 100)
    (hy : 0 ≤ y ∧ y < 100) (h : l ++ c :: appendInt x 2 = l' ++ c :: appendInt y 2) :
    l = l' ∧ x = y := by
  have hlength : (c :: appendInt x 2).length = (c :: appendInt y 2).length := by
    rw [List.length_cons, List.length_cons, length_appendInt hx, length_appendInt hy]
  obtain ⟨hfront, hfield⟩ := List.append_inj' h hlength
  exact ⟨hfront, signed_inj (List.cons.inj hfield).2⟩

theorem yearLayout_inj {a b : ℤ} : yearLayout a = yearLayout b ↔ yearOf a = yearOf b := by
  constructor
  · exact signed_inj
  · intro h
    unfold yearLayout
    rw [h]

theorem monthLayout_inj {a b : ℤ} : monthLayout a = monthLayout b ↔ monthOf a = monthOf b := by
  have ha := month_mem a
  have hb := month_mem b
  rw [monthOf_eq_iff]
  constructor
  · intro h
    obtain ⟨hyear, hmonth⟩ := field_inj (by omega) (by omega) h
    exact ⟨yearLayout_inj.mp hyear, hmonth⟩
  · rintro ⟨hyear, hmonth⟩
    unfold monthLayout
    rw [yearLayout_inj.mpr hyear, hmonth]

theorem dayLayout_inj {a b : ℤ} : dayLayout a = dayLayout b ↔ a = b := by
  have ha := day_mem a
  have hb := day_mem b
  constructor
  · intro h
    obtain ⟨hmonth, hday⟩ := field_inj (by omega) (by omega) h
    obtain ⟨hyear, hmonth⟩ := monthOf_eq_iff.mp (monthLayout_inj.mp hmonth)
    exact date_inj hyear hmonth hday
  · intro h
    rw [h]

theorem weekLayout_inj {a b : ℤ} :
    weekLayout a = weekLayout b ↔ isoYear a = isoYear b ∧ isoWeek a = isoWeek b := by
  have hfields : ∀ n, weekLayout n =
      (sprintInt (isoYear n) 4 ++ ['-']) ++ 'W' :: appendInt (isoWeek n) 2 := by
    intro n
    have hweek := isoWeek_mem n
    have hsigned : sprintInt (isoWeek n) 2 = appendInt (isoWeek n) 2 := by
      unfold sprintInt appendInt signed
      rw [if_neg (by omega), if_neg (by omega)]
    unfold weekLayout
    rw [hsigned, List.append_assoc]
    rfl
  have ha := isoWeek_mem a
  have hb := isoWeek_mem b
  constructor
  · intro h
    rw [hfields, hfields] at h
    obtain ⟨hfront, hweek⟩ := field_inj (by omega) (by omega) h
    exact ⟨signed_inj (List.append_cancel_right hfront), hweek⟩
  · rintro ⟨hyear, hweek⟩
    unfold weekLayout
    rw [hyear, hweek]

theorem clockLayout_inj {a b : ℤ} (ha : 0 ≤ a ∧ a < 86400) (hb : 0 ≤ b ∧ b < 86400)
    {l l' : List Char} (h : l ++ 'T' :: clockLayout a = l' ++ 'T' :: clockLayout b) :
    l = l' ∧ a = b := by
  have hfields : ∀ (l : List Char) (a : ℤ), l ++ 'T' :: clockLayout a =
      (l ++ 'T' :: appendInt (a / 3600) 2) ++ ':' :: appendInt (a / 60 % 60) 2 ++
        ':' :: appendInt (a % 60) 2 := by
    intro l a
    simp only [clockLayout, List.append_assoc, List.cons_append]
  rw [hfields, hfields] at h
  obtain ⟨hminute, hsecond⟩ := field_inj (by omega) (by omega) h
  obtain ⟨hhour, hminute⟩ := field_inj (by omega) (by omega) hminute
  obtain ⟨hfront, hhour⟩ := field_inj (by omega) (by omega) hhour
  exact ⟨hfront, by omega⟩

theorem formatRFC3339Nano_utc_inj {s s' : ℤ} (h : formatRFC3339Nano utc (1000000000 * s) =
    formatRFC3339Nano utc (1000000000 * s')) : s = s' := by
  have hsecond : ∀ s : ℤ, localSecond utc (1000000000 * s) = s := by
    intro s
    change 1000000000 * s / 1000000000 + 0 = s
    omega
  have hfraction : ∀ s : ℤ, fractionLayout (1000000000 * s % 1000000000) = [] := by
    intro s
    rw [Int.mul_emod_right]
    rfl
  unfold formatRFC3339Nano localDay at h
  rw [hsecond, hsecond, hfraction, hfraction, List.append_nil, List.append_nil] at h
  have hlayout := List.append_cancel_right (String.ofList_injective h)
  obtain ⟨hday, hclock⟩ := clockLayout_inj (by omega) (by omega) hlayout
  have hday := dayLayout_inj.mp hday
  omega

/-! ## Instants between two seconds -/

/-- What stands before the first separator can be told from the rest. -/
theorem separator_inj {l l' rest rest' : List Char} {c : Char} (hl : c ∉ l) (hl' : c ∉ l')
    (hrest : ∀ x ∈ rest.head?, x = c) (hrest' : ∀ x ∈ rest'.head?, x = c)
    (h : l ++ rest = l' ++ rest') : l = l' ∧ rest = rest' := by
  have hfront : ∀ l rest : List Char, c ∉ l → (∀ x ∈ rest.head?, x = c) →
      (l ++ rest).takeWhile (· ≠ c) = l := by
    intro l rest hl hrest
    have hnone : rest.takeWhile (· ≠ c) = [] := by
      cases rest with
      | nil => rfl
      | cons x rest => rw [hrest x rfl, List.takeWhile_cons_of_neg (by simp)]
    rw [List.takeWhile_append_of_pos, hnone, List.append_nil]
    intro x hx
    exact decide_eq_true fun hc ↦ hl (hc ▸ hx)
  have hsame : l = l' := by rw [← hfront l rest hl hrest, h, hfront l' rest' hl' hrest']
  rw [hsame] at h
  exact ⟨hsame, List.append_cancel_left h⟩

/-- The characters of a date and a time of day. -/
theorem mem_layout {n second : ℤ} {c : Char}
    (hc : c ∈ dayLayout n ++ 'T' :: clockLayout second) :
    c.isDigit = true ∨ c ∈ ['-', ':', 'T'] := by
  have hfield : ∀ {x : ℤ} {width : ℕ}, c ∈ appendInt x width → c.isDigit = true ∨ c = '-' := by
    intro x width hx
    unfold appendInt signed at hx
    split at hx
    · rcases List.mem_cons.mp hx with rfl | hdigit
      · exact .inr rfl
      · exact .inl (isDigit_of_mem_digits hdigit)
    · exact .inl (isDigit_of_mem_digits hx)
  simp only [dayLayout, monthLayout, yearLayout, clockLayout, List.mem_append,
    List.mem_cons] at hc ⊢
  grind

/-- The digits come back when the zeros are filled in again. -/
theorem fractionLayout_inj {a b : ℤ} (ha : 0 ≤ a ∧ a < 1000000000) (hb : 0 ≤ b ∧ b < 1000000000)
    (h : fractionLayout a = fractionLayout b) : a = b := by
  have hfilled : ∀ n : ℕ, n < 10 ^ 9 → digits n 9 =
      (digits n 9).rdropWhile (· = '0') ++
        List.replicate (9 - ((digits n 9).rdropWhile (· = '0')).length) '0' := by
    intro n hn
    have hsplit : (digits n 9).rdropWhile (· = '0') ++ (digits n 9).rtakeWhile (· = '0') =
        digits n 9 := List.rdropWhile_append_rtakeWhile
    have hzeros : (digits n 9).rtakeWhile (· = '0') =
        List.replicate ((digits n 9).rtakeWhile (· = '0')).length '0' :=
      List.eq_replicate_of_mem fun c hc ↦ of_decide_eq_true (List.mem_rtakeWhile_imp (p := (· = '0')) hc)
    have hlength := congrArg List.length hsplit
    rw [List.length_append, length_digits (by decide) hn] at hlength
    rw [show 9 - ((digits n 9).rdropWhile (· = '0')).length =
      ((digits n 9).rtakeWhile (· = '0')).length by omega, ← hzeros]
    exact hsplit.symm
  unfold fractionLayout at h
  split at h
  · split at h
    · omega
    · cases h
  · split at h
    · cases h
    · have hkept := (List.cons.inj h).2
      have hdigits : digits a.toNat 9 = digits b.toNat 9 := by
        rw [hfilled a.toNat (by omega), hkept, ← hfilled b.toNat (by omega)]
      have hnat := digits_inj hdigits
      omega

theorem formatRFC3339Nano_utc (t : Time) : formatRFC3339Nano utc t =
    .ofList (dayLayout (localDay utc t) ++ 'T' :: clockLayout (localSecond utc t % 86400) ++
      (fractionLayout (t % 1000000000) ++ ['Z'])) := by
  unfold formatRFC3339Nano
  rw [← List.append_assoc]
  rfl

/-- The text of an instant in UTC determines it, down to the nanosecond. -/
theorem formatRFC3339Nano_utc_injective {t t' : ℤ}
    (h : formatRFC3339Nano utc t = formatRFC3339Nano utc t') : t = t' := by
  rw [formatRFC3339Nano_utc, formatRFC3339Nano_utc] at h
  have hlayout := String.ofList_injective h
  rw [← List.append_assoc, ← List.append_assoc] at hlayout
  have hpoint : ∀ n second : ℤ, '.' ∉ dayLayout n ++ 'T' :: clockLayout second := by
    intro n second hmem
    rcases mem_layout hmem with hdigit | hmark
    · cases hdigit
    · exact absurd hmark (by decide)
  have hfraction : ∀ a : ℤ, ∀ x ∈ (fractionLayout a).head?, x = '.' := by
    intro a x hx
    unfold fractionLayout at hx
    split at hx
    · cases hx
    · exact (Option.some.inj hx).symm
  obtain ⟨hseconds, hnanoseconds⟩ := separator_inj (hpoint _ _) (hpoint _ _) (hfraction _)
    (hfraction _) (List.append_cancel_right hlayout)
  obtain ⟨hday, hclock⟩ := clockLayout_inj (by omega) (by omega) hseconds
  have hday := dayLayout_inj.mp hday
  have hnanosecond := fractionLayout_inj (by omega) (by omega) hnanoseconds
  have hsecond : ∀ t : Time, localSecond utc t = t / 1000000000 := fun t ↦ add_zero _
  unfold localDay at hday
  rw [hsecond, hsecond] at hday hclock
  omega

/-- An instant in UTC and a text behind a zero byte. -/
theorem formatRFC3339Nano_utc_append_inj {t t' : ℤ} {id id' : String}
    (h : formatRFC3339Nano utc t ++ "\x00" ++ id = formatRFC3339Nano utc t' ++ "\x00" ++ id') :
    t = t' ∧ id = id' := by
  have hzero : ∀ t : Time, '\x00' ∉ (formatRFC3339Nano utc t).toList := by
    intro t hmem
    rw [formatRFC3339Nano_utc, String.toList_ofList] at hmem
    rcases List.mem_append.mp hmem with hseconds | hrest
    · rcases mem_layout hseconds with hdigit | hmark
      · cases hdigit
      · exact absurd hmark (by decide)
    · rcases List.mem_append.mp hrest with hfraction | hzone
      · unfold fractionLayout at hfraction
        split at hfraction
        · cases hfraction
        · rcases List.mem_cons.mp hfraction with hpoint | hdigit
          · exact absurd hpoint (by decide)
          · have hdigit := isDigit_of_mem_digits ((List.rdropWhile_prefix _ _).mem hdigit)
            cases hdigit
      · exact absurd hzone (by decide)
  have hlists := congrArg String.toList h
  simp only [String.toList_append, List.append_assoc] at hlists
  have hbehind : ∀ (id : String), ∀ x ∈ ("\x00".toList ++ id.toList).head?, x = '\x00' :=
    fun id x hx ↦ (Option.some.inj (show some '\x00' = some x from hx)).symm
  obtain ⟨htime, hrest⟩ := separator_inj (hzero t) (hzero t') (hbehind id) (hbehind id') hlists
  exact ⟨formatRFC3339Nano_utc_injective (String.toList_injective htime),
    String.toList_injective (List.append_cancel_left hrest)⟩

end MultiSpeed.Statistics
