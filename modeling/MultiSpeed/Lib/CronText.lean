import Mathlib.Data.List.Basic
import Mathlib.Data.Nat.Notation

/-!
# Fields of numbers, ranges and steps

The texts of schedule fields: lists of numbers and ranges, the first of which may be an
asterisk, each with an optional step; and the words of an expression.
-/

namespace CronText

/-! ## Words -/

section

variable {α : Type}

/-- What is between the separators, where it is not empty. -/
def words [DecidableEq α] (separator : α → Bool) (s : List α) : List (List α) :=
  (s.splitOnP separator).filter fun word ↦ word ≠ []

theorem splitOnP_congr {p q : α → Bool} {s : List α} (h : ∀ a ∈ s, p a = q a) :
    s.splitOnP p = s.splitOnP q := by
  induction s with
  | nil => rfl
  | cons a s ih =>
      rw [List.splitOnP_cons_eq_if_modifyHead, List.splitOnP_cons_eq_if_modifyHead,
        h a List.mem_cons_self, ih fun b hb ↦ h b (List.mem_cons_of_mem _ hb)]

theorem exists_mem_splitOnP {p : α → Bool} {s : List α} {a : α} (ha : a ∈ s) (hp : p a = false) :
    ∃ part ∈ s.splitOnP p, a ∈ part := by
  induction s with
  | nil => cases ha
  | cons b s ih =>
      rw [List.splitOnP_cons_eq_if_modifyHead]
      obtain ⟨first, rest, hparts⟩ := List.exists_cons_of_ne_nil (List.splitOnP_ne_nil p s)
      rw [hparts] at ih ⊢
      rcases List.mem_cons.mp ha with rfl | ha
      · rw [hp]
        exact ⟨a :: first, List.mem_cons_self, List.mem_cons_self⟩
      obtain ⟨part, hpart, hmem⟩ := ih ha
      split
      · exact ⟨part, List.mem_cons_of_mem _ hpart, hmem⟩
      rcases List.mem_cons.mp hpart with rfl | hpart
      · exact ⟨b :: part, List.mem_cons_self, List.mem_cons_of_mem _ hmem⟩
      · exact ⟨part, List.mem_cons_of_mem _ hpart, hmem⟩

variable [DecidableEq α]

theorem words_congr {p q : α → Bool} {s : List α} (h : ∀ a ∈ s, p a = q a) :
    words p s = words q s := by
  rw [words, words, splitOnP_congr h]

/-- What is no separator is in a word. -/
theorem exists_mem_words {p : α → Bool} {s : List α} {a : α} (ha : a ∈ s) (hp : p a = false) :
    ∃ word ∈ words p s, a ∈ word := by
  obtain ⟨part, hpart, hmem⟩ := exists_mem_splitOnP ha hp
  refine ⟨part, List.mem_filter.mpr ⟨hpart, ?_⟩, hmem⟩
  exact decide_eq_true (List.ne_nil_of_mem hmem)

end

/-! ## Numbers, ranges and steps -/

structure Numeral where
  digits : List Char
  nonempty : digits ≠ []
  digit : ∀ c ∈ digits, c.isDigit = true

def Numeral.value (n : Numeral) : ℕ := Nat.ofDigitChars 10 n.digits 0

/-- A number or a range, with an optional step. -/
structure Range where
  low : Numeral
  high : Option Numeral
  step : Option Numeral

/-- The sign and the number, where there is one. -/
def signed (sign : Char) : Option Numeral → List Char
  | none => []
  | some n => sign :: n.digits

def Range.text (r : Range) : List Char := r.low.digits ++ signed '-' r.high ++ signed '/' r.step

inductive Item where
  | all (step : Option Numeral)
  | range (r : Range)

def Item.text : Item → List Char
  | all step => '*' :: signed '/' step
  | range r => r.text

/-- The items of a field; only the first one may be the asterisk. -/
structure Field where
  first : Item
  rest : List Range

def Field.text (f : Field) : List Char := f.first.text ++ f.rest.flatMap fun r ↦ ',' :: r.text

/-! ## Bounds -/

structure Bounds where
  min : ℕ
  max : ℕ

def Bounds.Has (b : Bounds) (n : Numeral) : Prop := b.min ≤ n.value ∧ n.value ≤ b.max

/-- The step is positive, and not too large. -/
def StepFits (maxStep : ℕ) (step : Option Numeral) : Prop :=
  ∀ n ∈ step, 1 ≤ n.value ∧ n.value ≤ maxStep

/-- The ends are in the bounds and in order, and the step fits. -/
def Range.Fits (b : Bounds) (maxStep : ℕ) (r : Range) : Prop :=
  b.Has r.low ∧ (∀ high ∈ r.high, b.Has high ∧ r.low.value ≤ high.value) ∧ StepFits maxStep r.step

def Item.Fits (b : Bounds) (maxStep : ℕ) : Item → Prop
  | all step => StepFits maxStep step
  | range r => r.Fits b maxStep

def Field.Fits (b : Bounds) (maxStep : ℕ) (f : Field) : Prop :=
  f.first.Fits b maxStep ∧ ∀ r ∈ f.rest, r.Fits b maxStep

/-! ## Characters -/

/-- The characters of a field. -/
def isFieldCharacter (c : Char) : Bool := c.isDigit || c ∈ ['*', '/', '-', ',']

theorem isFieldCharacter_of_signed {sign c : Char} {n : Option Numeral}
    (hsign : isFieldCharacter sign = true) (hc : c ∈ signed sign n) : isFieldCharacter c = true := by
  cases n with
  | none => cases hc
  | some n =>
      rcases List.mem_cons.mp hc with rfl | hc
      · exact hsign
      · rw [isFieldCharacter, n.digit c hc, Bool.true_or]

theorem Range.isFieldCharacter {r : Range} {c : Char} (hc : c ∈ r.text) :
    isFieldCharacter c = true := by
  rcases List.mem_append.mp hc with hc | hc
  · rcases List.mem_append.mp hc with hc | hc
    · rw [CronText.isFieldCharacter, r.low.digit c hc, Bool.true_or]
    · exact isFieldCharacter_of_signed rfl hc
  · exact isFieldCharacter_of_signed rfl hc

theorem Item.isFieldCharacter {i : Item} {c : Char} (hc : c ∈ i.text) :
    isFieldCharacter c = true := by
  cases i with
  | all step =>
      rcases List.mem_cons.mp hc with rfl | hc
      · rfl
      · exact isFieldCharacter_of_signed rfl hc
  | range r => exact r.isFieldCharacter hc

theorem Field.isFieldCharacter {f : Field} {c : Char} (hc : c ∈ f.text) :
    isFieldCharacter c = true := by
  rcases List.mem_append.mp hc with hc | hc
  · exact f.first.isFieldCharacter hc
  · obtain ⟨r, -, hc⟩ := List.mem_flatMap.mp hc
    rcases List.mem_cons.mp hc with rfl | hc
    · rfl
    · exact r.isFieldCharacter hc

end CronText
