import MultiSpeed.Lib.CronText
import MultiSpeed.Lib.Utf8
import Mathlib.Computability.RegularExpressions

/-!
# The schedule check of the editor

`validateCron` of `web/src/lib/cron.ts`.  Its regular expression is one over characters;
`cronPart_rmatch_iff` says which fields it describes.
-/

namespace MultiSpeed.Web

open CronText RegularExpression

/-- `\d` -/
def digit : RegularExpression Char := ("0123456789".toList.map char).foldr (· + ·) 0

/-- `\d+` -/
def digits : RegularExpression Char := digit * star digit

/-- `P?` -/
def optional (P : RegularExpression Char) : RegularExpression Char := 1 + P

/-- `\d+(?:-\d+)?(?:\/\d+)?` -/
def rangePart : RegularExpression Char :=
  digits * optional (char '-' * digits) * optional (char '/' * digits)

def cronPart : RegularExpression Char :=
  (char '*' + rangePart + char '*' * (char '/' * digits)) * star (char ',' * rangePart)

/-- `\s`, and what `trim` trims. -/
def isWhiteSpace (c : Char) : Bool :=
  decide (9 ≤ c.toNat ∧ c.toNat ≤ 13) || decide (0x2000 ≤ c.toNat ∧ c.toNat ≤ 0x200A) ||
    decide (c.toNat ∈ [0x20, 0xA0, 0x1680, 0x2028, 0x2029, 0x202F, 0x205F, 0x3000, 0xFEFF])

/-- `expression.trim().split(/\s+/)`, which answers one empty part where no other is. -/
def parts (expression : String) : List (List Char) :=
  match words isWhiteSpace expression.toList with
  | [] => [[]]
  | part :: rest => part :: rest

/-- `Number(part)`, if the part has only digits. -/
def numeric (part : List Char) : Option ℕ :=
  if digits.rmatch part then some (Nat.ofDigitChars 10 part 0) else none

def validateCron (expression : String) : Bool :=
  let parts := parts expression
  if parts.length ≠ 5 || !parts.all cronPart.rmatch then false
  else
    let numeric (i : ℕ) := parts[i]?.bind numeric
    (numeric 0).all (fun n ↦ n ≤ 59) && (numeric 1).all (fun n ↦ n ≤ 23) &&
      (numeric 2).all (fun n ↦ decide (1 ≤ n) && n ≤ 31) &&
      (numeric 3).all (fun n ↦ decide (1 ≤ n) && n ≤ 12) &&
      (numeric 4).all fun n ↦ n ≤ 7

example : validateCron "*/15 * * * *" = true := by decide +kernel

example : validateCron "60 25 * * *" = false := by decide +kernel

/-! ## The fields of the regular expression -/

section

variable {s : List Char}

theorem mem_char {c : Char} : s ∈ (char c).matches' ↔ s = [c] := by
  rw [matches'_char]
  exact Set.mem_singleton_iff

theorem mem_foldr_char {chars : List Char} :
    s ∈ ((chars.map char).foldr (· + ·) 0).matches' ↔ ∃ c ∈ chars, s = [c] := by
  induction chars with
  | nil =>
      rw [List.map_nil, List.foldr_nil, matches'_zero]
      simp [Language.notMem_zero]
  | cons c chars ih =>
      rw [List.map_cons, List.foldr_cons, matches'_add, Language.mem_add, ih, mem_char]
      simp

theorem mem_digit : s ∈ digit.matches' ↔ ∃ c, c.isDigit = true ∧ s = [c] := by
  have hdigits (c : Char) : c ∈ "0123456789".toList ↔ c.isDigit = true := by
    constructor
    · exact fun hc ↦ List.all_eq_true.mp (by decide) c hc
    · intro hc
      have hmem : c.isDigit = true → c ∈ "0123456789".toList := by
        apply Utf8.forall_ascii _ ((Char.isDigit_iff_toNat.mp hc).2.trans_lt (by decide))
        decide +kernel
      exact hmem hc
  rw [digit, mem_foldr_char]
  simp only [hdigits]

theorem mem_digits : s ∈ digits.matches' ↔ ∃ n : Numeral, s = n.digits := by
  rw [digits, matches'_mul, matches'_star, Language.mem_mul]
  constructor
  · rintro ⟨first, hfirst, rest, hrest, rfl⟩
    obtain ⟨c, hc, rfl⟩ := mem_digit.mp hfirst
    obtain ⟨parts, rfl, hparts⟩ := Language.mem_kstar.mp hrest
    refine ⟨⟨[c] ++ parts.flatten, by simp, fun c' hc' ↦ ?_⟩, rfl⟩
    rcases List.mem_append.mp hc' with hc' | hc'
    · rwa [List.mem_singleton.mp hc']
    · obtain ⟨part, hpart, hmem⟩ := List.mem_flatten.mp hc'
      obtain ⟨c'', hdigit, rfl⟩ := mem_digit.mp (hparts part hpart)
      rwa [List.mem_singleton.mp hmem]
  · rintro ⟨⟨digits, hne, hall⟩, rfl⟩
    obtain ⟨c, rest, rfl⟩ := List.exists_cons_of_ne_nil hne
    refine ⟨[c], mem_digit.mpr ⟨c, hall c List.mem_cons_self, rfl⟩, rest, ?_, rfl⟩
    refine Language.mem_kstar.mpr ⟨rest.map fun c ↦ [c], ?_, ?_⟩
    · rw [← List.flatMap_def, List.flatMap_singleton']
    · intro part hpart
      obtain ⟨c', hc', rfl⟩ := List.mem_map.mp hpart
      exact mem_digit.mpr ⟨c', hall c' (List.mem_cons_of_mem _ hc'), rfl⟩

theorem mem_char_mul {c : Char} {P : RegularExpression Char} :
    s ∈ (char c * P).matches' ↔ ∃ t ∈ P.matches', s = c :: t := by
  rw [matches'_mul, Language.mem_mul]
  constructor
  · rintro ⟨first, hfirst, t, ht, rfl⟩
    rw [mem_char.mp hfirst]
    exact ⟨t, ht, rfl⟩
  · rintro ⟨t, ht, rfl⟩
    exact ⟨[c], mem_char.mpr rfl, t, ht, rfl⟩

theorem mem_signed {sign : Char} :
    s ∈ (optional (char sign * digits)).matches' ↔ ∃ n, s = signed sign n := by
  rw [optional, matches'_add, Language.mem_add, mem_char_mul]
  constructor
  · rintro (hnone | ⟨t, ht, rfl⟩)
    · exact ⟨none, (Language.mem_one s).mp hnone⟩
    · obtain ⟨n, rfl⟩ := mem_digits.mp ht
      exact ⟨some n, rfl⟩
  · rintro ⟨n, rfl⟩
    cases n with
    | none => exact .inl ((Language.mem_one _).mpr rfl)
    | some n => exact .inr ⟨n.digits, mem_digits.mpr ⟨n, rfl⟩, rfl⟩

theorem mem_rangePart : s ∈ rangePart.matches' ↔ ∃ r : Range, s = r.text := by
  rw [rangePart, matches'_mul, matches'_mul, Language.mem_mul]
  constructor
  · rintro ⟨front, hfront, back, hback, rfl⟩
    obtain ⟨low, hlow, high, hhigh, rfl⟩ := Language.mem_mul.mp hfront
    obtain ⟨low, rfl⟩ := mem_digits.mp hlow
    obtain ⟨high, rfl⟩ := mem_signed.mp hhigh
    obtain ⟨step, rfl⟩ := mem_signed.mp hback
    exact ⟨⟨low, high, step⟩, rfl⟩
  · rintro ⟨⟨low, high, step⟩, rfl⟩
    refine ⟨_, Language.mem_mul.mpr ⟨_, ?_, _, ?_, rfl⟩, _, ?_, rfl⟩
    · exact mem_digits.mpr ⟨low, rfl⟩
    · exact mem_signed.mpr ⟨high, rfl⟩
    · exact mem_signed.mpr ⟨step, rfl⟩

theorem mem_firstPart :
    s ∈ (char '*' + rangePart + char '*' * (char '/' * digits)).matches' ↔
      ∃ i : Item, s = i.text := by
  rw [matches'_add, matches'_add, Language.mem_add, Language.mem_add, mem_char, mem_rangePart,
    mem_char_mul]
  constructor
  · rintro ((rfl | ⟨r, rfl⟩) | ⟨t, ht, rfl⟩)
    · exact ⟨.all none, rfl⟩
    · exact ⟨.range r, rfl⟩
    · obtain ⟨u, hu, rfl⟩ := mem_char_mul.mp ht
      obtain ⟨n, rfl⟩ := mem_digits.mp hu
      exact ⟨.all (some n), rfl⟩
  · rintro ⟨i, rfl⟩
    cases i with
    | all step =>
        cases step with
        | none => exact .inl (.inl rfl)
        | some n =>
            exact .inr ⟨_, mem_char_mul.mpr ⟨n.digits, mem_digits.mpr ⟨n, rfl⟩, rfl⟩, rfl⟩
    | range r => exact .inl (.inr ⟨r, rfl⟩)

/-- The expression describes the fields. -/
theorem cronPart_rmatch_iff : cronPart.rmatch s = true ↔ ∃ f : Field, s = f.text := by
  rw [rmatch_iff_matches', cronPart, matches'_mul, matches'_star, Language.mem_mul]
  constructor
  · rintro ⟨first, hfirst, rest, hrest, rfl⟩
    obtain ⟨i, rfl⟩ := mem_firstPart.mp hfirst
    obtain ⟨items, rfl, hitems⟩ := Language.mem_kstar.mp hrest
    have hranges : ∃ ranges : List Range, items.flatten = ranges.flatMap fun r ↦ ',' :: r.text := by
      clear hrest
      induction items with
      | nil => exact ⟨[], rfl⟩
      | cons item items ih =>
          obtain ⟨ranges, hranges⟩ := ih fun y hy ↦ hitems y (List.mem_cons_of_mem _ hy)
          obtain ⟨t, ht, rfl⟩ := mem_char_mul.mp (hitems item List.mem_cons_self)
          obtain ⟨r, rfl⟩ := mem_rangePart.mp ht
          refine ⟨r :: ranges, ?_⟩
          rw [List.flatten_cons, hranges, List.flatMap_cons]
    obtain ⟨ranges, hranges⟩ := hranges
    exact ⟨⟨i, ranges⟩, by rw [hranges]; rfl⟩
  · rintro ⟨⟨i, ranges⟩, rfl⟩
    refine ⟨_, mem_firstPart.mpr ⟨i, rfl⟩, _, ?_, rfl⟩
    refine Language.mem_kstar.mpr ⟨ranges.map fun r ↦ ',' :: r.text, List.flatMap_def, ?_⟩
    intro item hitem
    obtain ⟨r, -, rfl⟩ := List.mem_map.mp hitem
    exact mem_char_mul.mpr ⟨r.text, mem_rangePart.mpr ⟨r, rfl⟩, rfl⟩

theorem digits_rmatch_iff : digits.rmatch s = true ↔ ∃ n : Numeral, s = n.digits := by
  rw [rmatch_iff_matches', mem_digits]

end

end MultiSpeed.Web
