import MultiSpeed.Providers.Output
import MultiSpeed.Web.ValidateCron

/-!
# The schedule parser of the scheduler

`New` has the five fields of a task's schedule parsed by a parser of its own library.  An
expression that the editor shows as valid is accepted where its fields fit the bounds of
that parser, and where nothing but the white space of `unicode.IsSpace` is between them.
-/

namespace MultiSpeed.Web

open CronText

/-- What the expression may be split at. -/
def isSpace (c : Char) : Bool := Providers.isSpace c.toNat

/-- White space in scripts, but not for `unicode.IsSpace`. -/
def byteOrderMark : Char := '\uFEFF'

/-- Minute, hour, day of the month, month and day of the week. -/
def cronBounds : List Bounds := [⟨0, 59⟩, ⟨0, 23⟩, ⟨1, 31⟩, ⟨1, 12⟩, ⟨0, 6⟩]

/-- The parser with these five fields. -/
structure Parser where
  /-- `Parse` answers no error. -/
  accepts : String → Bool
  /-- The largest step that is read. -/
  maxStep : ℕ

/-- The fields of an expression fit their bounds. -/
def Parser.Fits (p : Parser) (fields : List Field) : Prop :=
  List.Forall₂ (fun b f ↦ Field.Fits b p.maxStep f) cronBounds fields

/-- What is relied on of the parser. -/
structure Parser.Lawful (p : Parser) : Prop where
  /-- Values and ranges are in bounds and in order, and steps are positive. -/
  fields : ∀ spec (fields : List Field), words isSpace spec.toList = fields.map Field.text →
    fields.length = 5 → (p.accepts spec = true ↔ p.Fits fields)
  /-- A mark separates no fields, and is in none. -/
  mark : ∀ spec (fields : List Field),
    words (fun c ↦ isSpace c || c = byteOrderMark) spec.toList = fields.map Field.text →
    byteOrderMark ∈ spec.toList → p.accepts spec = false

/-! ## What the editor shows as valid -/

/-- The bounds of `validateCron`. -/
def shownBounds : List Bounds := [⟨0, 59⟩, ⟨0, 23⟩, ⟨1, 31⟩, ⟨1, 12⟩, ⟨0, 7⟩]

/-- A field that is a number is in the bounds. -/
def Shown (b : Bounds) (f : Field) : Prop := ∀ n : Numeral, f.text = n.digits → b.Has n

theorem numeric_all_iff {s : List Char} {check : ℕ → Bool} :
    (numeric s).all check = true ↔ ∀ n : Numeral, s = n.digits → check n.value = true := by
  rw [numeric]
  split
  · rename_i hdigits
    obtain ⟨n, rfl⟩ := digits_rmatch_iff.mp hdigits
    constructor
    · intro hcheck m hm
      rw [Numeral.value, ← hm]
      exact hcheck
    · exact fun hall ↦ hall n rfl
  · rename_i hdigits
    constructor
    · exact fun _ n hn ↦ absurd (digits_rmatch_iff.mpr ⟨n, hn⟩) hdigits
    · exact fun _ ↦ rfl

theorem parts_eq_words {e : String} (h : (parts e).length = 5) :
    parts e = words isWhiteSpace e.toList := by
  rw [parts] at h ⊢
  split
  · rename_i hnone
    rw [hnone] at h
    cases h
  · rename_i hwords
    exact hwords.symm

theorem shown_iff {b : Bounds} {f : Field} {check : ℕ → Bool}
    (hcheck : ∀ n, check n = true ↔ b.min ≤ n ∧ n ≤ b.max) :
    (numeric f.text).all check = true ↔ Shown b f := by
  rw [numeric_all_iff]
  constructor
  · exact fun h n hn ↦ (hcheck n.value).mp (h n hn)
  · exact fun h n hn ↦ (hcheck n.value).mpr (h n hn)

theorem exists_of_length_five {α : Type} {l : List α} (h : l.length = 5) :
    ∃ a b c d f, l = [a, b, c, d, f] := by
  match l, h with
  | [a, b, c, d, f], _ => exact ⟨a, b, c, d, f, rfl⟩

/-- The editor takes five fields of the form it knows; of their numbers it checks those
that are a field alone. -/
theorem validateCron_iff {e : String} : validateCron e = true ↔
    ∃ fields : List Field, words isWhiteSpace e.toList = fields.map Field.text ∧
      List.Forall₂ Shown shownBounds fields := by
  have hfive (a b c d f : Field) (hparts : parts e = [a, b, c, d, f].map Field.text) :
      validateCron e = true ↔ List.Forall₂ Shown shownBounds [a, b, c, d, f] := by
    have hall : (parts e).all cronPart.rmatch = true := by
      rw [hparts, List.all_map]
      apply List.all_eq_true.mpr
      exact fun f _ ↦ cronPart_rmatch_iff.mpr ⟨f, rfl⟩
    have hlength : (parts e).length = 5 := by
      rw [hparts, List.length_map]
      rfl
    rw [validateCron]
    simp only
    rw [if_neg (by simp [hlength, hall]), hparts]
    simp only [List.map_cons, List.map_nil, List.getElem?_cons_zero, List.getElem?_cons_succ,
      Option.bind_some, Bool.and_eq_true, shownBounds, List.forall₂_cons, List.Forall₂.nil]
    rw [@shown_iff ⟨0, 59⟩ a _ (by simp), @shown_iff ⟨0, 23⟩ b _ (by simp),
      @shown_iff ⟨1, 31⟩ c _ (by simp), @shown_iff ⟨1, 12⟩ d _ (by simp),
      @shown_iff ⟨0, 7⟩ f _ (by simp)]
    simp only [and_assoc, and_true]
  constructor
  · intro h
    have hform : (parts e).length = 5 ∧ (parts e).all cronPart.rmatch = true := by
      rw [validateCron] at h
      split at h
      · cases h
      · rename_i hnot
        rw [Bool.not_eq_true, Bool.or_eq_false_iff, decide_eq_false_iff_not, not_not,
          Bool.not_eq_false'] at hnot
        exact hnot
    have hrange : words isWhiteSpace e.toList ∈ Set.range (List.map Field.text) := by
      rw [Set.range_list_map, ← parts_eq_words hform.1]
      intro part hpart
      obtain ⟨f, rfl⟩ := cronPart_rmatch_iff.mp (List.all_eq_true.mp hform.2 part hpart)
      exact ⟨f, rfl⟩
    obtain ⟨fields, hfields⟩ := hrange
    have hparts : parts e = fields.map Field.text :=
      (parts_eq_words hform.1).trans hfields.symm
    have hlength : fields.length = 5 := by
      rw [← List.length_map Field.text, ← hparts]
      exact hform.1
    obtain ⟨a, b, c, d, f, rfl⟩ := exists_of_length_five hlength
    exact ⟨_, hfields.symm, (hfive a b c d f hparts).mp h⟩
  · rintro ⟨fields, hwords, hshown⟩
    obtain ⟨a, b, c, d, f, rfl⟩ := exists_of_length_five hshown.length_eq.symm
    have hparts : parts e = [a, b, c, d, f].map Field.text := by
      rw [parts, hwords]
      rfl
    exact (hfive a b c d f hparts).mpr hshown

/-! ## What the parser accepts -/

theorem eq_byteOrderMark_iff {c : Char} : c = byteOrderMark ↔ c.toNat = 0xFEFF := by
  constructor
  · rintro rfl
    rfl
  · intro h
    rw [← Char.ofNat_toNat c, h]
    rfl

theorem isSpace_of_isFieldCharacter {c : Char} (h : isFieldCharacter c = true) :
    isSpace c = false ∧ c ≠ byteOrderMark := by
  rw [isFieldCharacter, Bool.or_eq_true, decide_eq_true_eq] at h
  rcases h with hdigit | hsign
  · have hbound : 48 ≤ c.toNat ∧ c.toNat ≤ 57 := Char.isDigit_iff_toNat.mp hdigit
    have hall : ∀ n < 58, 48 ≤ n → Providers.isSpace n = false := by decide
    refine ⟨hall c.toNat (by omega) hbound.1, fun hmark ↦ ?_⟩
    have hvalue := eq_byteOrderMark_iff.mp hmark
    omega
  · simp only [List.mem_cons, List.not_mem_nil, or_false] at hsign
    rcases hsign with rfl | rfl | rfl | rfl <;> exact ⟨by decide, by decide⟩

/-- Where nothing but fields is between them, the two kinds of white space differ in one
mark. -/
theorem isWhiteSpace_eq {e : String} {fields : List Field}
    (hwords : words isWhiteSpace e.toList = fields.map Field.text) :
    ∀ c ∈ e.toList, isWhiteSpace c = (isSpace c || c = byteOrderMark) := by
  intro c hc
  cases hspace : isWhiteSpace c with
  | true =>
      symm
      rw [Bool.or_eq_true, decide_eq_true_eq, eq_byteOrderMark_iff, isSpace, Providers.isSpace]
      rw [isWhiteSpace] at hspace
      simp only [Bool.or_eq_true, decide_eq_true_eq, List.mem_cons, List.not_mem_nil,
        or_false] at hspace ⊢
      omega
  | false =>
      obtain ⟨word, hword, hmem⟩ := exists_mem_words hc hspace
      rw [hwords] at hword
      obtain ⟨f, -, rfl⟩ := List.mem_map.mp hword
      obtain ⟨hplain, hmark⟩ := isSpace_of_isFieldCharacter (f.isFieldCharacter hmem)
      rw [hplain, decide_eq_false hmark, Bool.or_false]

variable {p : Parser}

/-- An expression that the editor shows as valid is accepted if and only if no mark is in it
and its fields fit. -/
theorem validateCron_agrees_iff (hp : p.Lawful) (e : String) :
    (validateCron e = true → p.accepts e = true) ↔
      ∀ fields : List Field, words isWhiteSpace e.toList = fields.map Field.text →
        List.Forall₂ Shown shownBounds fields → byteOrderMark ∉ e.toList ∧ p.Fits fields := by
  have hread (fields : List Field) (hwords : words isWhiteSpace e.toList = fields.map Field.text)
      (hlength : fields.length = 5) :
      p.accepts e = true ↔ byteOrderMark ∉ e.toList ∧ p.Fits fields := by
    have hspaces := isWhiteSpace_eq hwords
    rw [words_congr hspaces] at hwords
    by_cases hmark : byteOrderMark ∈ e.toList
    · rw [hp.mark e fields hwords hmark]
      simp [hmark]
    · have hplain : words isSpace e.toList = fields.map Field.text := by
        rw [← hwords]
        apply words_congr
        intro c hc
        have hne : c ≠ byteOrderMark := fun heq ↦ hmark (heq ▸ hc)
        simp [hne]
      rw [hp.fields e fields hplain hlength]
      simp [hmark]
  constructor
  · intro h fields hwords hshown
    have hlength : fields.length = 5 := hshown.length_eq.symm
    exact (hread fields hwords hlength).mp (h (validateCron_iff.mpr ⟨fields, hwords, hshown⟩))
  · intro h hvalid
    obtain ⟨fields, hwords, hshown⟩ := validateCron_iff.mp hvalid
    exact (hread fields hwords hshown.length_eq.symm).mpr (h fields hwords hshown)

/-! ## A parser -/

def maxStep : ℕ := 2 ^ 63 - 1

def number? (s : List Char) : Option ℕ :=
  if s ≠ [] ∧ s.all Char.isDigit then some (Nat.ofDigitChars 10 s 0) else none

/-- The ends of a range; a number with a step is a range to the end of the bounds. -/
def rangeEnds (b : Bounds) (stepped : Bool) (s : List Char) : Option (ℕ × ℕ) :=
  match s.splitOn '-' with
  | [low] =>
      if low = ['*'] then some (b.min, b.max)
      else (number? low).map fun n ↦ (n, if stepped then b.max else n)
  | [low, high] => (number? low).bind fun l ↦ (number? high).map fun h ↦ (l, h)
  | _ => none

def inBounds (b : Bounds) (ends : ℕ × ℕ) : Bool :=
  b.min ≤ ends.1 && (decide (ends.2 ≤ b.max) && ends.1 ≤ ends.2)

def getRange (b : Bounds) (s : List Char) : Bool :=
  match s.splitOn '/' with
  | [range] => (rangeEnds b false range).any (inBounds b)
  | [range, step] =>
      (rangeEnds b true range).any (inBounds b) &&
        (number? step).any fun n ↦ decide (1 ≤ n) && n ≤ maxStep
  | _ => false

def getField (b : Bounds) (s : List Char) : Bool :=
  ((s.splitOn ',').filter fun item ↦ item ≠ []).all (getRange b)

/-- A parser of numbers, ranges and steps, without the names of months and days. -/
def fiveFields : Parser where
  accepts spec :=
    let fields := words isSpace spec.toList
    fields.length = 5 && (cronBounds.zip fields).all fun part ↦ getField part.1 part.2
  maxStep := maxStep

theorem number?_digits (n : Numeral) : number? n.digits = some n.value := by
  rw [number?, if_pos ⟨n.nonempty, List.all_eq_true.mpr n.digit⟩]
  rfl

theorem not_mem_digits {n : Numeral} {c : Char} (hc : c.isDigit = false) : c ∉ n.digits := by
  intro hmem
  rw [n.digit c hmem] at hc
  cases hc

theorem splitOn_signed {sign : Char} {front : List Char} (hfront : sign ∉ front)
    (hsign : sign.isDigit = false) (n : Option Numeral) :
    (front ++ signed sign n).splitOn sign = front :: (n.map Numeral.digits).toList := by
  cases n with
  | none =>
      rw [signed, List.append_nil]
      exact List.splitOn_eq_singleton hfront
  | some n =>
      rw [signed, List.splitOn_append_cons_self_of_not_mem hfront,
        List.splitOn_eq_singleton (not_mem_digits hsign)]
      rfl

theorem rangeEnds_range (b : Bounds) (stepped : Bool) (low : Numeral) (high : Option Numeral) :
    rangeEnds b stepped (low.digits ++ signed '-' high) =
      some (low.value, match high with
        | none => if stepped then b.max else low.value
        | some high => high.value) := by
  rw [rangeEnds, splitOn_signed (not_mem_digits rfl) rfl]
  cases high with
  | none =>
      have hne : low.digits ≠ ['*'] := by
        intro heq
        have hdigit := low.digit '*' (heq ▸ List.mem_cons_self)
        cases hdigit
      simp only [Option.map_none, Option.toList_none, if_neg hne, number?_digits, Option.map_some]
  | some high =>
      simp only [Option.map_some, Option.toList_some, number?_digits, Option.bind_some]

theorem getRange_range {b : Bounds} {r : Range} :
    getRange b r.text = true ↔ r.Fits b maxStep := by
  obtain ⟨low, high, step⟩ := r
  have hfront : '/' ∉ low.digits ++ signed '-' high := by
    rw [List.mem_append, not_or]
    refine ⟨not_mem_digits rfl, ?_⟩
    cases high with
    | none => simp [signed]
    | some high =>
        rw [signed, List.mem_cons, not_or]
        exact ⟨by decide, not_mem_digits rfl⟩
  rw [getRange, Range.text, splitOn_signed hfront rfl]
  cases step with
  | none =>
      simp only [Option.map_none, Option.toList_none]
      rw [rangeEnds_range]
      cases high with
      | none =>
          simp [inBounds, Range.Fits, Bounds.Has, StepFits]
      | some high =>
          simp [inBounds, Range.Fits, Bounds.Has, StepFits]
          omega
  | some step =>
      simp only [Option.map_some, Option.toList_some]
      rw [rangeEnds_range, number?_digits]
      cases high with
      | none =>
          simp [inBounds, Range.Fits, Bounds.Has, StepFits]
      | some high =>
          simp [inBounds, Range.Fits, Bounds.Has, StepFits]
          omega

theorem getRange_item {b : Bounds} (hb : b.min ≤ b.max) {i : Item} :
    getRange b i.text = true ↔ i.Fits b maxStep := by
  cases i with
  | range r => exact getRange_range
  | all step =>
      have hends (stepped : Bool) : rangeEnds b stepped ['*'] = some (b.min, b.max) := rfl
      have hbounds : inBounds b (b.min, b.max) = true := by simp [inBounds, hb]
      have htext : (Item.all step).text = ['*'] ++ signed '/' step := rfl
      rw [getRange, htext, splitOn_signed (by decide) rfl]
      cases step with
      | none =>
          simp only [Option.map_none, Option.toList_none]
          rw [hends, Option.any_some, hbounds]
          simp [Item.Fits, StepFits]
      | some step =>
          simp only [Option.map_some, Option.toList_some]
          rw [hends, Option.any_some, hbounds, number?_digits]
          simp [Item.Fits, StepFits]

theorem comma_not_mem_signed {sign : Char} (hsign : sign ≠ ',') (n : Option Numeral) :
    ',' ∉ signed sign n := by
  cases n with
  | none => simp [signed]
  | some n =>
      rw [signed, List.mem_cons, not_or]
      exact ⟨hsign.symm, not_mem_digits rfl⟩

theorem comma_not_mem_range (r : Range) : ',' ∉ r.text := by
  rw [Range.text, List.mem_append, List.mem_append, not_or, not_or]
  exact ⟨⟨not_mem_digits rfl, comma_not_mem_signed (by decide) _⟩,
    comma_not_mem_signed (by decide) _⟩

theorem comma_not_mem_item (i : Item) : ',' ∉ i.text := by
  cases i with
  | range r => exact comma_not_mem_range r
  | all step =>
      rw [Item.text, List.mem_cons, not_or]
      exact ⟨by decide, comma_not_mem_signed (by decide) step⟩

theorem splitOn_field (front : List Char) (hfront : ',' ∉ front) (rest : List Range) :
    (front ++ rest.flatMap fun r ↦ ',' :: r.text).splitOn ',' = front :: rest.map Range.text := by
  induction rest generalizing front with
  | nil =>
      rw [List.flatMap_nil, List.append_nil]
      exact List.splitOn_eq_singleton hfront
  | cons r rest ih =>
      rw [List.flatMap_cons, List.cons_append, List.splitOn_append_cons_self_of_not_mem hfront,
        ih r.text (comma_not_mem_range r)]
      rfl

theorem range_text_ne_nil (r : Range) : r.text ≠ [] := by
  rw [Range.text, ne_eq, List.append_eq_nil_iff, List.append_eq_nil_iff]
  exact fun h ↦ r.low.nonempty h.1.1

theorem item_text_ne_nil (i : Item) : i.text ≠ [] := by
  cases i with
  | range r => exact range_text_ne_nil r
  | all step => exact List.cons_ne_nil _ _

theorem getField_text {b : Bounds} (hb : b.min ≤ b.max) {f : Field} :
    getField b f.text = true ↔ f.Fits b maxStep := by
  have hitems : ∀ item ∈ f.first.text :: f.rest.map Range.text, decide (item ≠ []) = true := by
    intro item hitem
    apply decide_eq_true
    rcases List.mem_cons.mp hitem with rfl | hitem
    · exact item_text_ne_nil f.first
    · obtain ⟨r, -, rfl⟩ := List.mem_map.mp hitem
      exact range_text_ne_nil r
  rw [getField, Field.text, splitOn_field _ (comma_not_mem_item f.first),
    List.filter_eq_self.mpr hitems, List.all_cons, Bool.and_eq_true, getRange_item hb,
    List.all_map, List.all_eq_true]
  simp only [Function.comp_apply, getRange_range]
  rfl

/-! ### Marks -/

theorem mem_splitOn {s : List Char} {sep c : Char} (hc : c ∈ s) :
    c = sep ∨ ∃ part ∈ s.splitOn sep, c ∈ part := by
  by_cases hsep : c = sep
  · exact .inl hsep
  · right
    rw [List.splitOn_eq_splitOnP]
    exact exists_mem_splitOnP hc (beq_eq_false_iff_ne.mpr hsep)

theorem isFieldCharacter_of_number {s : List Char} {n : ℕ} (h : number? s = some n) :
    ∀ c ∈ s, isFieldCharacter c = true := by
  intro c hc
  rw [number?] at h
  split at h
  · rename_i hdigits
    rw [isFieldCharacter, List.all_eq_true.mp hdigits.2 c hc, Bool.true_or]
  · cases h

theorem isFieldCharacter_of_rangeEnds {b : Bounds} {stepped : Bool} {s : List Char} {ends : ℕ × ℕ}
    (h : rangeEnds b stepped s = some ends) : ∀ c ∈ s, isFieldCharacter c = true := by
  intro c hc
  rcases @mem_splitOn s '-' c hc with rfl | ⟨part, hpart, hmem⟩
  · rfl
  rw [rangeEnds] at h
  split at h
  · rename_i low heq
    rw [heq] at hpart
    obtain rfl := List.mem_singleton.mp hpart
    split at h
    · rename_i hstar
      rw [hstar] at hmem
      obtain rfl := List.mem_singleton.mp hmem
      rfl
    · obtain ⟨n, hn, -⟩ := Option.map_eq_some_iff.mp h
      exact isFieldCharacter_of_number hn c hmem
  · rename_i low high heq
    obtain ⟨l, hl, hrest⟩ := Option.bind_eq_some_iff.mp h
    obtain ⟨m, hm, -⟩ := Option.map_eq_some_iff.mp hrest
    rw [heq] at hpart
    rcases List.mem_cons.mp hpart with rfl | hpart
    · exact isFieldCharacter_of_number hl c hmem
    · obtain rfl := List.mem_singleton.mp hpart
      exact isFieldCharacter_of_number hm c hmem
  · cases h

theorem isFieldCharacter_of_getRange {b : Bounds} {s : List Char} (h : getRange b s = true) :
    ∀ c ∈ s, isFieldCharacter c = true := by
  intro c hc
  rcases @mem_splitOn s '/' c hc with rfl | ⟨part, hpart, hmem⟩
  · rfl
  rw [getRange] at h
  split at h
  · rename_i range heq
    rw [heq] at hpart
    obtain rfl := List.mem_singleton.mp hpart
    cases hends : rangeEnds b false part with
    | none =>
        rw [hends] at h
        cases h
    | some ends => exact isFieldCharacter_of_rangeEnds hends c hmem
  · rename_i range step heq
    rw [Bool.and_eq_true] at h
    rw [heq] at hpart
    rcases List.mem_cons.mp hpart with rfl | hpart
    · cases hends : rangeEnds b true part with
      | none =>
          rw [hends] at h
          cases h.1
      | some ends => exact isFieldCharacter_of_rangeEnds hends c hmem
    · obtain rfl := List.mem_singleton.mp hpart
      cases hstep : number? part with
      | none =>
          rw [hstep] at h
          cases h.2
      | some n => exact isFieldCharacter_of_number hstep c hmem
  · cases h

theorem isFieldCharacter_of_getField {b : Bounds} {s : List Char} (h : getField b s = true) :
    ∀ c ∈ s, isFieldCharacter c = true := by
  intro c hc
  rcases @mem_splitOn s ',' c hc with rfl | ⟨item, hitem, hmem⟩
  · rfl
  · have hne : decide (item ≠ []) = true := decide_eq_true (List.ne_nil_of_mem hmem)
    exact isFieldCharacter_of_getRange
      (List.all_eq_true.mp h item (List.mem_filter.mpr ⟨hitem, hne⟩)) c hmem

theorem lawful_fiveFields : fiveFields.Lawful where
  fields := by
    intro spec fields hwords hlength
    obtain ⟨a, b, c, d, f, rfl⟩ := exists_of_length_five hlength
    simp only [fiveFields, hwords, Parser.Fits, cronBounds, List.map_cons, List.map_nil,
      List.length_cons, List.length_nil, List.zip_cons_cons, List.zip_nil_right, List.all_cons,
      List.all_nil, Bool.and_true, Bool.and_eq_true, decide_true, Bool.true_and,
      List.forall₂_cons, List.Forall₂.nil, and_true]
    rw [getField_text (by decide), getField_text (by decide), getField_text (by decide),
      getField_text (by decide), getField_text (by decide)]
  mark := by
    intro spec fields _ hmark
    by_contra haccepts
    rw [Bool.not_eq_false] at haccepts
    simp only [fiveFields, Bool.and_eq_true, decide_eq_true_eq] at haccepts
    obtain ⟨hlength, hall⟩ := haccepts
    obtain ⟨word, hword, hmem⟩ := exists_mem_words hmark
      (show isSpace byteOrderMark = false by decide)
    have hsecond : (cronBounds.zip (words isSpace spec.toList)).map Prod.snd =
        words isSpace spec.toList := List.map_snd_zip hlength.le
    rw [← hsecond] at hword
    obtain ⟨⟨b, field⟩, hpair, rfl⟩ := List.mem_map.mp hword
    have hcharacter := isFieldCharacter_of_getField (List.all_eq_true.mp hall _ hpair) _ hmem
    exact (isSpace_of_isFieldCharacter hcharacter).2 rfl

/-- Sunday as a seven. -/
theorem validateCron_disagrees : ∃ p : Parser, p.Lawful ∧
    validateCron "0 0 * * 7" = true ∧ p.accepts "0 0 * * 7" = false :=
  ⟨fiveFields, lawful_fiveFields, by decide +kernel, by decide +kernel⟩

/-- An expression with a range and a step that is shown as valid, and fits. -/
theorem validateCron_agrees_iff_workdays : validateCron "0 8-18/2 * * 1-5" = true ∧
    ∀ fields : List Field, words isWhiteSpace "0 8-18/2 * * 1-5".toList = fields.map Field.text →
      List.Forall₂ Shown shownBounds fields →
        byteOrderMark ∉ "0 8-18/2 * * 1-5".toList ∧ fiveFields.Fits fields :=
  ⟨by decide +kernel,
    (validateCron_agrees_iff lawful_fiveFields "0 8-18/2 * * 1-5").mp fun _ ↦ by decide +kernel⟩

end MultiSpeed.Web
