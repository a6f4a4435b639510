import Mathlib.Data.List.Forall2
import Mathlib.Data.List.Induction
import Mathlib.Data.Nat.Digits.Defs
import Mathlib.Tactic.Common
import Mathlib.Tactic.IntervalCases
import Mathlib.Tactic.Ring

/-!
# Texts of internet addresses

An address of version 4 is written as four octets in base ten with points between
them, one of version 6 as eight groups in base sixteen with colons between them, the
longest run of zero groups as `::`.  Any run may be written so, and the last two
groups as four octets, so that an address has several texts of which one is its own.
-/

namespace AddressText

/-! ## Places -/

/-- The last `k` digits of `n` in base `b`, the highest first. -/
def places (b : ℕ) : ℕ → ℕ → List ℕ
  | 0, _ => []
  | k + 1, n => places b k (n / b) ++ [n % b]

def value (b : ℕ) (digits : List ℕ) : ℕ := digits.foldl (fun n d ↦ b * n + d) 0

theorem value_append_singleton (b : ℕ) (digits : List ℕ) (d : ℕ) :
    value b (digits ++ [d]) = b * value b digits + d := by
  simp [value]

@[simp] theorem length_places (b k n : ℕ) : (places b k n).length = k := by
  induction k generalizing n with
  | zero => rfl
  | succ k ih => simp [places, ih]

theorem lt_of_mem_places {b k n d : ℕ} (hb : 0 < b) (hd : d ∈ places b k n) : d < b := by
  induction k generalizing n with
  | zero => simp [places] at hd
  | succ k ih =>
      rcases List.mem_append.mp hd with hd | hd
      · exact ih hd
      · obtain rfl := List.mem_singleton.mp hd
        exact Nat.mod_lt n hb

theorem value_places {b k n : ℕ} (hn : n < b ^ k) : value b (places b k n) = n := by
  induction k generalizing n with
  | zero =>
      obtain rfl : n = 0 := by simpa using hn
      rfl
  | succ k ih =>
      rw [places, value_append_singleton, ih, Nat.div_add_mod]
      apply Nat.div_lt_of_lt_mul
      rwa [Nat.pow_succ'] at hn

theorem places_value {b : ℕ} {digits : List ℕ} (h : ∀ d ∈ digits, d < b) :
    places b digits.length (value b digits) = digits := by
  induction digits using List.reverseRecOn with
  | nil => rfl
  | append_singleton digits d ih =>
      have hd : d < b := h d (by simp)
      have hdigits := ih fun d' hd' ↦ h d' (by simp [hd'])
      rw [List.length_append, List.length_singleton, places, value_append_singleton,
        Nat.mul_add_div (by omega), Nat.div_eq_of_lt hd, Nat.add_zero, hdigits,
        Nat.mul_add_mod, Nat.mod_eq_of_lt hd]

theorem value_lt {b : ℕ} {digits : List ℕ} (h : ∀ d ∈ digits, d < b) :
    value b digits < b ^ digits.length := by
  induction digits using List.reverseRecOn with
  | nil => simp [value]
  | append_singleton digits d ih =>
      have hd : d < b := h d (by simp)
      have hdigits := ih fun d' hd' ↦ h d' (by simp [hd'])
      have hscaled : b * (value b digits + 1) ≤ b * b ^ digits.length :=
        Nat.mul_le_mul_left b hdigits
      rw [value_append_singleton, List.length_append, List.length_singleton, Nat.pow_succ']
      rw [Nat.mul_add, Nat.mul_one] at hscaled
      omega

theorem value_cons (b d : ℕ) (digits : List ℕ) :
    value b (d :: digits) = d * b ^ digits.length + value b digits := by
  induction digits using List.reverseRecOn with
  | nil => simp [value]
  | append_singleton digits d' ih =>
      rw [← List.cons_append, value_append_singleton, ih, value_append_singleton,
        List.length_append, List.length_singleton, Nat.pow_succ]
      ring

/-! ## Separators -/

/-- The text before the last `c` and the text after it. -/
def cutLast (c : Char) (s : List Char) : Option (List Char × List Char) :=
  if c ∈ s then
    some ((s.reverse.dropWhile (· ≠ c)).tail.reverse, (s.reverse.takeWhile (· ≠ c)).reverse)
  else none

theorem cutLast_append {c : Char} {s s' : List Char} (h : c ∉ s') :
    cutLast c (s ++ c :: s') = some (s, s') := by
  have hother : ∀ x ∈ s'.reverse, decide (x ≠ c) = true := by
    intro x hx
    rw [decide_eq_true_eq]
    rintro rfl
    exact h (List.mem_reverse.mp hx)
  rw [cutLast, if_pos (by simp), List.reverse_append, List.reverse_cons, List.append_assoc,
    List.dropWhile_append_of_pos hother, List.takeWhile_append_of_pos hother]
  simp

theorem cutLast_eq {c : Char} {s before after : List Char}
    (h : cutLast c s = some (before, after)) : s = before ++ c :: after := by
  rw [cutLast] at h
  split at h
  · rename_i hmem
    obtain ⟨as, bs, hs, has⟩ := List.eq_append_cons_of_mem (List.mem_reverse.mpr hmem)
    have hs' : s = bs.reverse ++ c :: as.reverse := by
      have hreverse := congrArg List.reverse hs
      rw [List.reverse_reverse] at hreverse
      rw [hreverse]
      simp
    have hcut := cutLast_append (s := bs.reverse) (fun hmem ↦ has (List.mem_reverse.mp hmem))
    rw [← hs', cutLast, if_pos hmem, h] at hcut
    obtain ⟨rfl, rfl⟩ := Prod.mk.inj (Option.some.inj hcut)
    exact hs'
  · cases h

/-- The text before the first `c` and the text after it. -/
def cutFirst (c : Char) (s : List Char) : Option (List Char × List Char) :=
  if c ∈ s then some (s.takeWhile (· ≠ c), (s.dropWhile (· ≠ c)).tail) else none

theorem cutFirst_append {c : Char} {s s' : List Char} (h : c ∉ s) :
    cutFirst c (s ++ c :: s') = some (s, s') := by
  have hother : ∀ x ∈ s, decide (x ≠ c) = true := by
    intro x hx
    rw [decide_eq_true_eq]
    rintro rfl
    exact h hx
  rw [cutFirst, if_pos (by simp), List.takeWhile_append_of_pos hother,
    List.dropWhile_append_of_pos hother]
  simp

theorem cutFirst_eq {c : Char} {s before after : List Char}
    (h : cutFirst c s = some (before, after)) : s = before ++ c :: after := by
  rw [cutFirst] at h
  split at h
  · rename_i hmem
    obtain ⟨as, bs, rfl, has⟩ := List.eq_append_cons_of_mem hmem
    have hcut := @cutFirst_append c as bs has
    rw [cutFirst, if_pos (by simp), h] at hcut
    obtain ⟨rfl, rfl⟩ := Prod.mk.inj (Option.some.inj hcut)
    rfl
  · cases h

/-! ## Numerals -/

theorem mapM_eq_some_iff {α β : Type*} {f : α → Option β} {l : List α} {l' : List β} :
    l.mapM f = some l' ↔ List.Forall₂ (fun a b ↦ f a = some b) l l' := by
  induction l generalizing l' with
  | nil => simp [eq_comm]
  | cons a l ih =>
      rw [List.mapM_cons, List.forall₂_cons_left_iff]
      constructor
      · intro h
        obtain ⟨b, hb, h⟩ := Option.bind_eq_some_iff.mp h
        obtain ⟨rest, hrest, h⟩ := Option.bind_eq_some_iff.mp h
        obtain rfl := Option.some.inj h
        exact ⟨b, rest, hb, ih.mp hrest, rfl⟩
      · rintro ⟨b, rest, hb, hrest, rfl⟩
        simp [hb, ih.mpr hrest]

theorem exists_of_mapM {α β : Type*} {f : α → Option β} {l : List α} {l' : List β}
    (h : l.mapM f = some l') {a : α} (ha : a ∈ l) : ∃ b, f a = some b := by
  obtain ⟨n, hn, rfl⟩ := List.mem_iff_getElem.mp ha
  have hall := mapM_eq_some_iff.mp h
  exact ⟨_, List.Forall₂.get hall hn (hall.length_eq ▸ hn)⟩

theorem exists_of_mem_mapM {α β : Type*} {f : α → Option β} {l : List α} {l' : List β}
    (h : l.mapM f = some l') {b : β} (hb : b ∈ l') : ∃ a ∈ l, f a = some b := by
  obtain ⟨n, hn, rfl⟩ := List.mem_iff_getElem.mp hb
  have hall := mapM_eq_some_iff.mp h
  have hn' : n < l.length := hall.length_eq ▸ hn
  exact ⟨l[n], List.getElem_mem hn', List.Forall₂.get hall hn' hn⟩

theorem mapM_map_of_forall {α β : Type*} {f : α → Option β} {g : β → α} {l : List β}
    (h : ∀ b ∈ l, f (g b) = some b) : (l.map g).mapM f = some l := by
  rw [mapM_eq_some_iff, List.forall₂_map_left_iff, List.forall₂_same]
  exact h

/-- The value of a digit, of either case. -/
def digit? (c : Char) : Option ℕ :=
  if '0' ≤ c ∧ c ≤ '9' then some (c.toNat - 48)
  else if 'a' ≤ c ∧ c ≤ 'f' then some (c.toNat - 87)
  else if 'A' ≤ c ∧ c ≤ 'F' then some (c.toNat - 55)
  else none

/-- The number a text is in base `b`, if all its characters are digits. -/
def number? (b : ℕ) (s : List Char) : Option ℕ :=
  (s.mapM fun c ↦ (digit? c).filter (· < b)).map (value b)

theorem digit?_digitChar {d : ℕ} (hd : d < 16) : digit? d.digitChar = some d := by
  interval_cases d <;> rfl

theorem exists_of_mem_toDigits {b n : ℕ} (hb : 1 < b) {c : Char} (hc : c ∈ Nat.toDigits b n) :
    ∃ d < b, c = d.digitChar := by
  induction n using Nat.strongRecOn with
  | ind n ih =>
      rw [Nat.toDigits_eq_if hb] at hc
      split at hc
      · exact ⟨n, ‹_›, List.mem_singleton.mp hc⟩
      · rcases List.mem_append.mp hc with hc | hc
        · exact ih (n / b) (Nat.div_lt_self (by omega) hb) hc
        · exact ⟨n % b, Nat.mod_lt n (by omega), List.mem_singleton.mp hc⟩

/-- A numeral has no character that is not a digit. -/
theorem not_mem_toDigits {b n : ℕ} (hb : 1 < b) (hb16 : b ≤ 16) {c : Char}
    (hc : digit? c = none) : c ∉ Nat.toDigits b n := by
  intro hmem
  obtain ⟨d, hd, rfl⟩ := exists_of_mem_toDigits hb hmem
  rw [digit?_digitChar (by omega)] at hc
  cases hc

theorem mapM_digit?_toDigits {b : ℕ} (hb : 1 < b) (hb16 : b ≤ 16) (n : ℕ) :
    ∃ digits, ((Nat.toDigits b n).mapM fun c ↦ (digit? c).filter (· < b)) = some digits ∧
      value b digits = n := by
  induction n using Nat.strongRecOn with
  | ind n ih =>
      have hsingle (d : ℕ) (hd : d < b) : (digit? d.digitChar).filter (· < b) = some d := by
        rw [digit?_digitChar (by omega)]
        simp [hd]
      by_cases hn : n < b
      · refine ⟨[n], ?_, by simp [value]⟩
        rw [Nat.toDigits_of_lt_base hn, List.mapM_cons, hsingle n hn]
        rfl
      · obtain ⟨digits, hdigits, hvalue⟩ := ih (n / b) (Nat.div_lt_self (by omega) hb)
        refine ⟨digits ++ [n % b], ?_, ?_⟩
        · rw [Nat.toDigits_of_base_le hb (by omega), List.mapM_append, hdigits, List.mapM_cons,
            hsingle _ (Nat.mod_lt n (by omega))]
          rfl
        · rw [value_append_singleton, hvalue, Nat.div_add_mod]

theorem number?_toDigits {b : ℕ} (hb : 1 < b) (hb16 : b ≤ 16) (n : ℕ) :
    number? b (Nat.toDigits b n) = some n := by
  obtain ⟨digits, hdigits, hvalue⟩ := mapM_digit?_toDigits hb hb16 n
  rw [number?, hdigits, Option.map_some, hvalue]

theorem digits_of_number? {b n : ℕ} {s : List Char} (h : number? b s = some n) :
    ∃ digits, (s.mapM fun c ↦ (digit? c).filter (· < b)) = some digits ∧
      digits.length = s.length ∧ (∀ d ∈ digits, d < b) ∧ value b digits = n := by
  obtain ⟨digits, hdigits, hvalue⟩ := Option.map_eq_some_iff.mp h
  refine ⟨digits, hdigits, (mapM_eq_some_iff.mp hdigits).length_eq.symm, ?_, hvalue⟩
  intro d hd
  obtain ⟨c, -, hc⟩ := exists_of_mem_mapM hdigits hd
  exact of_decide_eq_true (Option.filter_eq_some_iff.mp hc).2

theorem number?_lt {b n : ℕ} {s : List Char} (h : number? b s = some n) : n < b ^ s.length := by
  obtain ⟨digits, -, hlength, hlt, rfl⟩ := digits_of_number? h
  exact hlength ▸ value_lt hlt

/-- The numeral of a number is not longer than any text of it. -/
theorem length_toDigits_le {b n : ℕ} {s : List Char} (hb : 1 < b) (hs : s ≠ [])
    (h : number? b s = some n) : (Nat.toDigits b n).length ≤ s.length :=
  (Nat.length_toDigits_le_iff hb (List.length_pos_iff.mpr hs)).mpr (number?_lt h)

theorem digit?_eq_zero {c : Char} (h : digit? c = some 0) : c = '0' := by
  rw [digit?] at h
  split_ifs at h with hdecimal hlower hupper
  · have hle : c.toNat - 48 = 0 := Option.some.inj h
    have hge : 48 ≤ c.toNat := hdecimal.1
    exact Char.toNat_inj.mp (by simp only [Char.reduceToNat]; omega)
  · have hle : c.toNat - 87 = 0 := Option.some.inj h
    have hge : 97 ≤ c.toNat := hlower.1
    omega
  · have hle : c.toNat - 55 = 0 := Option.some.inj h
    have hge : 65 ≤ c.toNat := hupper.1
    omega

/-- It is shorter exactly where the text has leading zeros. -/
theorem length_toDigits_lt_iff {b n : ℕ} {s : List Char} (hb : 1 < b) (hn : 0 < n)
    (h : number? b s = some n) :
    (Nat.toDigits b n).length < s.length ↔ s.head? = some '0' := by
  cases s with
  | nil =>
      obtain rfl : 0 = n := Option.some.inj h
      exact absurd hn (lt_irrefl 0)
  | cons c s =>
      obtain ⟨digits, hdigits, hlength, hlt, hvalue⟩ := digits_of_number? h
      rw [List.mapM_cons] at hdigits
      obtain ⟨d, hd, hdigits⟩ := Option.bind_eq_some_iff.mp hdigits
      obtain ⟨ds, hds, hdigits⟩ := Option.bind_eq_some_iff.mp hdigits
      obtain rfl := Option.some.inj hdigits
      have hds_length : ds.length = s.length := by simpa using hlength
      have hrest : value b ds < b ^ s.length :=
        hds_length ▸ value_lt fun d' hd' ↦ hlt d' (List.mem_cons_of_mem d hd')
      rw [value_cons, hds_length] at hvalue
      have hdigit := (Option.filter_eq_some_iff.mp hd).1
      have hshort : (Nat.toDigits b n).length ≤ s.length ↔ n < b ^ s.length ∧ s ≠ [] := by
        cases s with
        | nil => simp
        | cons c' s => simpa using Nat.length_toDigits_le_iff hb (Nat.succ_pos s.length)
      rw [List.length_cons, Nat.lt_succ_iff, hshort, List.head?_cons, Option.some.injEq]
      constructor
      · rintro ⟨hlt_pow, -⟩
        by_cases hzero : d = 0
        · exact digit?_eq_zero (hzero ▸ hdigit)
        · have hone : 1 * b ^ s.length ≤ d * b ^ s.length :=
            Nat.mul_le_mul_right _ (Nat.one_le_iff_ne_zero.mpr hzero)
          omega
      · rintro rfl
        obtain rfl : 0 = d := Option.some.inj hdigit
        rw [Nat.zero_mul, Nat.zero_add] at hvalue
        refine ⟨hvalue ▸ hrest, ?_⟩
        rintro rfl
        rw [List.length_nil, Nat.pow_zero] at hrest
        omega

/-- A decimal numeral below 256 without leading zeros. -/
def octet? (s : List Char) : Option ℕ :=
  if s = [] ∨ (s.head? = some '0' ∧ 1 < s.length) then none
  else (number? 10 s).filter (· < 256)

/-- One to four hexadecimal digits. -/
def group? (s : List Char) : Option ℕ :=
  if s = [] ∨ 4 < s.length then none else number? 16 s

theorem octet?_toDigits {n : ℕ} (hn : n < 256) : octet? (Nat.toDigits 10 n) = some n := by
  have hlead : ∀ n < 256, ¬((Nat.toDigits 10 n).head? = some '0' ∧
      1 < (Nat.toDigits 10 n).length) := by
    decide +kernel
  rw [octet?, if_neg, number?_toDigits (by decide) (by decide)]
  · simp [hn]
  · rintro (hnil | hzero)
    · exact Nat.toDigits_ne_nil hnil
    · exact hlead n hn hzero

theorem group?_toDigits {n : ℕ} (hn : n < 65536) : group? (Nat.toDigits 16 n) = some n := by
  rw [group?, if_neg, number?_toDigits (by decide) (by decide)]
  rintro (hnil | hlong)
  · exact Nat.toDigits_ne_nil hnil
  · have hshort := (Nat.length_toDigits_le_iff (by decide : 1 < 16) (by decide : 0 < 4)).mpr hn
    omega

/-- A digit that a numeral of base ten is written with. -/
theorem isDigit_of_number? {s : List Char} {n : ℕ} (h : number? 10 s = some n) {c : Char}
    (hc : c ∈ s) : c.isDigit := by
  rw [number?, Option.map_eq_some_iff] at h
  obtain ⟨digits, hdigits, -⟩ := h
  obtain ⟨d, hd⟩ := exists_of_mapM hdigits hc
  rw [Option.filter_eq_some_iff] at hd
  obtain ⟨hd, hlt⟩ := hd
  have hten : d < 10 := of_decide_eq_true hlt
  rw [digit?] at hd
  rw [Char.isDigit_iff_toNat]
  split_ifs at hd with hdecimal hlower hupper
  · exact ⟨hdecimal.1, hdecimal.2⟩
  · have hc : 97 ≤ c.toNat := hlower.1
    have := Option.some.inj hd
    omega
  · have hc : 65 ≤ c.toNat := hupper.1
    have := Option.some.inj hd
    omega

theorem isDigit_of_octet? {s : List Char} {n : ℕ} (h : octet? s = some n) {c : Char}
    (hc : c ∈ s) : c.isDigit := by
  rw [octet?] at h
  split at h
  · cases h
  · exact isDigit_of_number? (Option.filter_eq_some_iff.mp h).1 hc

/-! ## Version 4 -/

def octets? (s : List Char) : Option (List ℕ) :=
  if (s.splitOn '.').length = 4 then (s.splitOn '.').mapM octet? else none

def octetsText (octets : List ℕ) : List Char := ['.'].intercalate (octets.map (Nat.toDigits 10))

theorem octets?_octetsText {octets : List ℕ} (hlength : octets.length = 4)
    (h : ∀ o ∈ octets, o < 256) : octets? (octetsText octets) = some octets := by
  have hfields : (octetsText octets).splitOn '.' = octets.map (Nat.toDigits 10) := by
    apply List.splitOn_intercalate
    · intro field hfield
      obtain ⟨o, -, rfl⟩ := List.mem_map.mp hfield
      exact not_mem_toDigits (by decide) (by decide) (by decide)
    · intro hnil
      rw [List.map_eq_nil_iff] at hnil
      simp [hnil] at hlength
  rw [octets?, hfields, List.length_map, if_pos hlength]
  exact mapM_map_of_forall fun o ho ↦ octet?_toDigits (h o ho)

theorem mem_intercalate {α : Type*} {separator x : α} {parts : List (List α)}
    (hx : x ∈ [separator].intercalate parts) : x = separator ∨ ∃ part ∈ parts, x ∈ part := by
  induction parts with
  | nil => simp at hx
  | cons part parts ih =>
      cases parts with
      | nil => exact .inr ⟨part, by simp, by simpa using hx⟩
      | cons part' parts =>
          rw [List.intercalate_cons_cons] at hx
          rcases List.mem_append.mp hx with hx | hx
          · rcases List.mem_append.mp hx with hx | hx
            · exact .inr ⟨part, by simp, hx⟩
            · exact .inl (List.mem_singleton.mp hx)
          · rcases ih hx with hx | ⟨p, hp, hx⟩
            · exact .inl hx
            · exact .inr ⟨p, List.mem_cons_of_mem part hp, hx⟩

theorem mem_octetsText {octets : List ℕ} {c : Char} (hc : c ∈ octetsText octets) :
    c = '.' ∨ c.isDigit := by
  rcases mem_intercalate hc with hc | ⟨field, hfield, hc⟩
  · exact .inl hc
  · obtain ⟨o, -, rfl⟩ := List.mem_map.mp hfield
    exact .inr (Nat.isDigit_of_mem_toDigits (by decide) (by decide) hc)

/-- A text of octets has only digits and points. -/
theorem isDigit_of_octets? {s : List Char} {octets : List ℕ} (h : octets? s = some octets)
    {c : Char} (hc : c ∈ s) : c = '.' ∨ c.isDigit := by
  rw [octets?] at h
  split at h
  · have hjoined : ['.'].intercalate (s.splitOn '.') = s := List.intercalate_splitOn '.'
    rw [← hjoined] at hc
    rcases mem_intercalate hc with hc | ⟨field, hfield, hc⟩
    · exact .inl hc
    · obtain ⟨o, ho⟩ := exists_of_mapM h hfield
      exact .inr (isDigit_of_octet? ho hc)
  · cases h

/-! ## Version 6 -/

/-- The groups that octets stand for. -/
def pairs : List ℕ → List ℕ
  | high :: low :: rest => (256 * high + low) :: pairs rest
  | _ => []

/-- The groups of the fields between colons, of which the last may hold octets. -/
def groups? : List (List Char) → Option (List ℕ)
  | [] => some []
  | [field] => if '.' ∈ field then (octets? field).map pairs else (group? field).map ([·])
  | field :: fields => do
      let group ← group? field
      let groups ← groups? fields
      return group :: groups

/-- The text before the first `::` and the text after it. -/
def cutEllipsis : List Char → Option (List Char × List Char)
  | [] => none
  | [_] => none
  | c :: c' :: rest =>
      if c = ':' ∧ c' = ':' then some ([], rest)
      else (cutEllipsis (c' :: rest)).map fun (left, right) ↦ (c :: left, right)

/-- The fields between colons. -/
def fieldsOf (s : List Char) : List (List Char) := if s = [] then [] else s.splitOn ':'

def sixGroups? (s : List Char) : Option (List ℕ) :=
  match cutEllipsis s with
  | none => (groups? (fieldsOf s)).filter (·.length = 8)
  | some (left, right) =>
      match (fieldsOf left).mapM group?, groups? (fieldsOf right) with
      | some left, some right =>
          if left.length + right.length < 8 then
            some (left ++ List.replicate (8 - left.length - right.length) 0 ++ right)
          else none
      | _, _ => none

/-- The number of zeros a list begins with. -/
def leadingZeros (groups : List ℕ) : ℕ := (groups.takeWhile (· = 0)).length

/-- The first longest run of two zeros at least, from its start to its end; at the end
of the list if there is none. -/
def longestRun (groups : List ℕ) : ℕ × ℕ :=
  (List.range groups.length).foldl
    (fun best i ↦
      let run := leadingZeros (groups.drop i)
      if 2 ≤ run ∧ best.2 - best.1 < run then (i, i + run) else best)
    (groups.length, groups.length)

def colons (groups : List ℕ) : List Char := [':'].intercalate (groups.map (Nat.toDigits 16))

def groupsText (groups : List ℕ) : List Char :=
  let run := longestRun groups
  if run.1 = run.2 then colons groups
  else colons (groups.take run.1) ++ [':', ':'] ++ colons (groups.drop run.2)


/-! ### Reading a text of groups back -/

theorem colon_not_mem_toDigits (n : ℕ) : ':' ∉ Nat.toDigits 16 n :=
  not_mem_toDigits (by decide) (by decide) (by decide)

theorem fieldsOf_colons (groups : List ℕ) :
    fieldsOf (colons groups) = groups.map (Nat.toDigits 16) := by
  by_cases hnil : groups = []
  · rw [hnil]
    rfl
  have hfields : (colons groups).splitOn ':' = groups.map (Nat.toDigits 16) := by
    apply List.splitOn_intercalate
    · intro field hfield
      obtain ⟨g, -, rfl⟩ := List.mem_map.mp hfield
      exact colon_not_mem_toDigits g
    · simpa using hnil
  rw [fieldsOf, if_neg, hfields]
  intro htext
  rw [htext, List.splitOn_nil] at hfields
  obtain ⟨g, -, hg⟩ := List.mem_map.mp (hfields ▸ List.mem_singleton_self [])
  exact Nat.toDigits_ne_nil hg

theorem groups?_toDigits {groups : List ℕ} (h : ∀ g ∈ groups, g < 65536) :
    groups? (groups.map (Nat.toDigits 16)) = some groups := by
  induction groups with
  | nil => rfl
  | cons g groups ih =>
      have hg := group?_toDigits (h g (by simp))
      cases groups with
      | nil =>
          have hpoint : '.' ∉ Nat.toDigits 16 g :=
            not_mem_toDigits (by decide) (by decide) (by decide)
          simp [groups?, hpoint, hg]
      | cons g' groups =>
          have hrest := ih fun g hg ↦ h g (List.mem_cons_of_mem _ hg)
          rw [List.map_cons] at hrest ⊢
          simp [groups?, hg, hrest]

theorem cutEllipsis_append {field : List Char} (hfield : ':' ∉ field) (s : List Char) :
    cutEllipsis (field ++ s) =
      (cutEllipsis s).map fun (left, right) ↦ (field ++ left, right) := by
  induction field with
  | nil => simp
  | cons c field ih =>
      rw [List.mem_cons, not_or] at hfield
      have hrest := ih hfield.2
      cases hs : field ++ s with
      | nil =>
          obtain ⟨rfl, rfl⟩ := List.append_eq_nil_iff.mp hs
          rfl
      | cons c' rest =>
          rw [List.cons_append, hs, cutEllipsis, if_neg (fun h ↦ hfield.1 h.1.symm), ← hs, hrest,
            Option.map_map]
          rfl

theorem cutEllipsis_colon_append {field : List Char} (hne : field ≠ []) (hfield : ':' ∉ field)
    (s : List Char) :
    cutEllipsis (':' :: (field ++ s)) =
      (cutEllipsis (field ++ s)).map fun (left, right) ↦ (':' :: left, right) := by
  cases field with
  | nil => exact absurd rfl hne
  | cons c field =>
      rw [List.mem_cons, not_or] at hfield
      rw [List.cons_append, cutEllipsis, if_neg (fun h ↦ hfield.1 h.2.symm)]

/-- Fields that are not empty do not make an ellipsis. -/
theorem cutEllipsis_fields {fields : List (List Char)} (h : ∀ f ∈ fields, f ≠ [] ∧ ':' ∉ f)
    (s : List Char) :
    cutEllipsis ([':'].intercalate fields ++ s) =
      (cutEllipsis s).map fun (left, right) ↦ ([':'].intercalate fields ++ left, right) := by
  induction fields with
  | nil => simp
  | cons f fields ih =>
      have hf := h f (by simp)
      have hrest := ih fun f hf ↦ h f (List.mem_cons_of_mem _ hf)
      cases fields with
      | nil => simpa using cutEllipsis_append hf.2 s
      | cons f' fields =>
          have hf' := h f' (by simp)
          obtain ⟨tail, htail⟩ : ∃ tail, [':'].intercalate (f' :: fields) = f' ++ tail := by
            cases fields with
            | nil => exact ⟨[], by simp⟩
            | cons f'' fields => exact ⟨_, by rw [List.intercalate_cons_cons, List.append_assoc]⟩
          rw [List.intercalate_cons_cons, List.append_assoc, List.append_assoc,
            cutEllipsis_append hf.2, List.singleton_append, htail, List.append_assoc,
            cutEllipsis_colon_append hf'.1 hf'.2, ← List.append_assoc, ← htail, hrest]
          cases cutEllipsis s with
          | none => rfl
          | some cut => simp

/-! ### The longest run -/

theorem leadingZeros_eq (groups : List ℕ) :
    groups.take (leadingZeros groups) = List.replicate (leadingZeros groups) 0 := by
  induction groups with
  | nil => rfl
  | cons g groups ih =>
      by_cases hg : g = 0
      · simpa [leadingZeros, hg, List.replicate_succ] using ih
      · simp [leadingZeros, hg]

theorem leadingZeros_le (groups : List ℕ) : leadingZeros groups ≤ groups.length :=
  (List.takeWhile_prefix _).length_le

/-- From `start` to `stop` there are zeros, two at least. -/
def IsRun (groups : List ℕ) (run : ℕ × ℕ) : Prop :=
  run.1 + 2 ≤ run.2 ∧ run.2 ≤ groups.length ∧
    (groups.drop run.1).take (run.2 - run.1) = List.replicate (run.2 - run.1) 0

theorem longestRun_eq (groups : List ℕ) :
    longestRun groups = (groups.length, groups.length) ∨ IsRun groups (longestRun groups) := by
  rw [longestRun]
  apply List.foldlRecOn
    (motive := fun run ↦ run = (groups.length, groups.length) ∨ IsRun groups run)
  · exact .inl rfl
  · intro best hbest i _
    simp only
    split
    · rename_i hrun
      right
      have hle := leadingZeros_le (groups.drop i)
      rw [List.length_drop] at hle
      have hzeros := leadingZeros_eq (groups.drop i)
      refine ⟨by omega, by omega, ?_⟩
      rwa [Nat.add_sub_cancel_left]
    · exact hbest

theorem IsRun.eq_append {groups : List ℕ} {run : ℕ × ℕ} (h : IsRun groups run) :
    groups =
      groups.take run.1 ++ List.replicate (run.2 - run.1) 0 ++ groups.drop run.2 := by
  obtain ⟨hlength, -, hzeros⟩ := h
  have hdrop : groups.drop run.2 = (groups.drop run.1).drop (run.2 - run.1) := by
    rw [List.drop_drop]
    congr 1
    omega
  rw [← hzeros, hdrop, List.append_assoc, List.take_append_drop, List.take_append_drop]

theorem sixGroups?_groupsText {groups : List ℕ} (hlength : groups.length = 8)
    (h : ∀ g ∈ groups, g < 65536) : sixGroups? (groupsText groups) = some groups := by
  have hfields (l : List ℕ) : ∀ f ∈ l.map (Nat.toDigits 16), f ≠ [] ∧ ':' ∉ f := by
    intro f hf
    obtain ⟨g, -, rfl⟩ := List.mem_map.mp hf
    exact ⟨Nat.toDigits_ne_nil, colon_not_mem_toDigits g⟩
  rw [groupsText]
  split
  · have hcut : cutEllipsis (colons groups) = none := by
      have hcut := cutEllipsis_fields (hfields groups) []
      rwa [List.append_nil] at hcut
    rw [sixGroups?, hcut]
    simp [fieldsOf_colons, groups?_toDigits h, hlength]
  · rename_i hrun
    have hisRun : IsRun groups (longestRun groups) := by
      rcases longestRun_eq groups with hnone | hrun'
      · rw [hnone] at hrun
        exact absurd rfl hrun
      · exact hrun'
    generalize longestRun groups = run at hisRun
    have hcut : cutEllipsis (colons (groups.take run.1) ++ [':', ':'] ++
        colons (groups.drop run.2)) =
        some (colons (groups.take run.1), colons (groups.drop run.2)) := by
      have hcut := cutEllipsis_fields (hfields (groups.take run.1))
        (':' :: ':' :: colons (groups.drop run.2))
      rw [List.append_assoc]
      simpa only [colons, cutEllipsis, and_self, if_true, Option.map_some, List.append_nil,
        List.cons_append, List.nil_append] using hcut
    have hleft : (fieldsOf (colons (groups.take run.1))).mapM group? =
        some (groups.take run.1) := by
      rw [fieldsOf_colons]
      exact mapM_map_of_forall fun g hg ↦ group?_toDigits (h g (List.mem_of_mem_take hg))
    have hright : groups? (fieldsOf (colons (groups.drop run.2))) = some (groups.drop run.2) := by
      rw [fieldsOf_colons]
      exact groups?_toDigits fun g hg ↦ h g (List.mem_of_mem_drop hg)
    have hsum : (groups.take run.1).length + (groups.drop run.2).length < 8 := by
      have := hisRun.1
      have := hisRun.2.1
      rw [List.length_take, List.length_drop]
      omega
    have hzeros : 8 - (groups.take run.1).length - (groups.drop run.2).length =
        run.2 - run.1 := by
      have := hisRun.1
      have := hisRun.2.1
      rw [List.length_take, List.length_drop]
      omega
    rw [sixGroups?, hcut]
    simp only [hleft, hright, if_pos hsum, hzeros]
    exact congrArg some hisRun.eq_append.symm

example : groupsText [1, 0, 3, 4, 5, 0, 0, 8] = "1:0:3:4:5::8".toList := by decide +kernel

theorem mem_colons {groups : List ℕ} {c : Char} (hc : c ∈ colons groups) :
    c = ':' ∨ ∃ d < 16, c = d.digitChar := by
  rcases mem_intercalate hc with hc | ⟨field, hfield, hc⟩
  · exact .inl hc
  · obtain ⟨g, -, rfl⟩ := List.mem_map.mp hfield
    exact .inr (exists_of_mem_toDigits (by decide) hc)

theorem mem_groupsText {groups : List ℕ} {c : Char} (hc : c ∈ groupsText groups) :
    c = ':' ∨ ∃ d < 16, c = d.digitChar := by
  rw [groupsText] at hc
  split at hc
  · exact mem_colons hc
  · rcases List.mem_append.mp hc with hc | hc
    · rcases List.mem_append.mp hc with hc | hc
      · exact mem_colons hc
      · exact .inl (by simpa using hc)
    · exact mem_colons hc

theorem colon_mem_groupsText {groups : List ℕ} (h : 2 ≤ groups.length) :
    ':' ∈ groupsText groups := by
  rw [groupsText]
  split
  · obtain ⟨g, g', groups, rfl⟩ : ∃ g g' rest, groups = g :: g' :: rest := by
      match groups, h with
      | g :: g' :: rest, _ => exact ⟨g, g', rest, rfl⟩
    simp [colons]
  · simp

/-! ## Addresses -/

/-- An address of version 4, or one of version 6 with its zone, which may be empty. -/
inductive Address where
  | v4 (bits : BitVec 32)
  | v6 (bits : BitVec 128) (zone : List Char)
  deriving DecidableEq

namespace Address

def zone : Address → List Char
  | v4 _ => []
  | v6 _ zone => zone

def is6 : Address → Bool
  | v4 _ => false
  | v6 _ _ => true

/-- The address of version 6 stands for one of version 4. -/
def mapped (bits : BitVec 128) : Bool := bits.toNat / 2 ^ 32 = 0xFFFF

def is4In6 : Address → Bool
  | v4 _ => false
  | v6 bits _ => mapped bits

def text6 (bits : BitVec 128) : List Char :=
  if mapped bits then "::ffff:".toList ++ octetsText (places 256 4 bits.toNat)
  else groupsText (places 65536 8 bits.toNat)

def text : Address → List Char
  | v4 bits => octetsText (places 256 4 bits.toNat)
  | v6 bits zone => text6 bits ++ if zone = [] then [] else '%' :: zone

def parseGroups (s : List Char) : Option Address :=
  let zone := s.dropWhile (· ≠ '%')
  if zone = ['%'] then none
  else (sixGroups? (s.takeWhile (· ≠ '%'))).map fun groups ↦
    .v6 (BitVec.ofNat 128 (value 65536 groups)) (zone.drop 1)

def mark (c : Char) : Bool := c = '.' ∨ c = ':' ∨ c = '%'

/-- The first mark of a text decides how it is read. -/
def parse (s : List Char) : Option Address :=
  match s.find? mark with
  | some '.' => (octets? s).map fun octets ↦ .v4 (BitVec.ofNat 32 (value 256 octets))
  | some ':' => parseGroups s
  | _ => none

theorem find?_mark {s : List Char} {m : Char} (hm : mark m) (hmem : m ∈ s)
    (h : ∀ c ∈ s, mark c → c = m) : s.find? mark = some m := by
  cases hfind : s.find? mark with
  | none => exact absurd hm (List.find?_eq_none.mp hfind m hmem)
  | some c => rw [h c (List.mem_of_find?_eq_some hfind) (List.find?_some hfind)]

theorem not_mark_digitChar {d : ℕ} (hd : d < 16) : mark d.digitChar = false := by
  interval_cases d <;> rfl

theorem not_mark_of_isDigit {c : Char} (hc : c.isDigit) : mark c = false := by
  rw [Bool.eq_false_iff]
  intro hmark
  rw [mark, decide_eq_true_eq] at hmark
  rcases hmark with rfl | rfl | rfl <;> cases hc

theorem point_mem_octetsText {octets : List ℕ} (h : octets.length = 4) :
    '.' ∈ octetsText octets := by
  obtain ⟨o, o', octets, rfl⟩ : ∃ o o' rest, octets = o :: o' :: rest := by
    match octets, h with
    | o :: o' :: rest, _ => exact ⟨o, o', rest, rfl⟩
  simp [octetsText]

theorem parse_octetsText (bits : BitVec 32) :
    parse (octetsText (places 256 4 bits.toNat)) = some (v4 bits) := by
  have hfind : (octetsText (places 256 4 bits.toNat)).find? mark = some '.' := by
    apply find?_mark rfl (point_mem_octetsText (length_places 256 4 bits.toNat))
    intro c hc hmark
    rcases mem_octetsText hc with rfl | hdigit
    · rfl
    · rw [not_mark_of_isDigit hdigit] at hmark
      cases hmark
  have hread := octets?_octetsText (length_places 256 4 bits.toNat)
    fun o ho ↦ lt_of_mem_places (by decide) ho
  have hvalue : value 256 (places 256 4 bits.toNat) = bits.toNat := value_places bits.isLt
  rw [parse, hfind]
  simp only [hread, Option.map_some, hvalue, BitVec.ofNat_toNat, BitVec.setWidth_eq]

theorem sixGroups?_mapped {octets : List ℕ} (hlength : octets.length = 4)
    (h : ∀ o ∈ octets, o < 256) :
    sixGroups? ("::ffff:".toList ++ octetsText octets) =
      some ([0, 0, 0, 0, 0, 65535] ++ pairs octets) := by
  have hcolon : ':' ∉ octetsText octets := by
    intro hmem
    rcases mem_octetsText hmem with h | h <;> cases h
  have hcut : cutEllipsis ("::ffff:".toList ++ octetsText octets) =
      some ([], "ffff:".toList ++ octetsText octets) := rfl
  have hfields : fieldsOf ("ffff:".toList ++ octetsText octets) =
      ["ffff".toList, octetsText octets] := by
    have hsplit := List.splitOn_append_cons_self_of_not_mem
      (by decide : ':' ∉ "ffff".toList) (octetsText octets)
    rw [List.splitOn_eq_singleton hcolon] at hsplit
    exact hsplit
  have hpairs : (pairs octets).length = 2 := by
    match octets, hlength with
    | [_, _, _, _], _ => rfl
  have hread : groups? ["ffff".toList, octetsText octets] = some (65535 :: pairs octets) := by
    have hgroup : group? "ffff".toList = some 65535 := by decide
    simp only [groups?, hgroup, if_pos (point_mem_octetsText hlength),
      octets?_octetsText hlength h]
    rfl
  rw [sixGroups?, hcut]
  simp only [hfields, hread]
  simp [fieldsOf, hpairs, List.replicate_succ]

theorem value_mapped {bits : BitVec 128} (h : bits.toNat / 2 ^ 32 = 0xFFFF) :
    value 65536 ([0, 0, 0, 0, 0, 65535] ++ pairs (places 256 4 bits.toNat)) = bits.toNat := by
  simp only [value, places, pairs, List.nil_append, List.cons_append, List.foldl_cons,
    List.foldl_nil]
  omega

theorem sixGroups?_text6 (bits : BitVec 128) :
    ∃ groups, sixGroups? (text6 bits) = some groups ∧ value 65536 groups = bits.toNat := by
  rw [text6]
  split
  · rename_i hmapped
    refine ⟨_, sixGroups?_mapped (length_places 256 4 bits.toNat) ?_, ?_⟩
    · exact fun o ho ↦ lt_of_mem_places (by decide) ho
    · exact value_mapped (of_decide_eq_true hmapped)
  · refine ⟨_, sixGroups?_groupsText (length_places 65536 8 bits.toNat) ?_, ?_⟩
    · exact fun g hg ↦ lt_of_mem_places (by decide) hg
    · exact value_places bits.isLt

/-- Only the text of a mapped address has points. -/
theorem mem_text6 {bits : BitVec 128} {c : Char} (hc : c ∈ text6 bits) :
    c = ':' ∨ (∃ d < 16, c = d.digitChar) ∨ mapped bits ∧ c = '.' := by
  rw [text6] at hc
  split at hc
  · rename_i hmapped
    rcases List.mem_append.mp hc with hc | hc
    · simp only [String.reduceToList, List.mem_cons, List.not_mem_nil, or_false] at hc
      rcases hc with rfl | rfl | rfl | rfl | rfl | rfl | rfl
      · exact .inl rfl
      · exact .inl rfl
      · exact .inr (.inl ⟨15, by decide, rfl⟩)
      · exact .inr (.inl ⟨15, by decide, rfl⟩)
      · exact .inr (.inl ⟨15, by decide, rfl⟩)
      · exact .inr (.inl ⟨15, by decide, rfl⟩)
      · exact .inl rfl
    · rcases mem_intercalate hc with hc | ⟨field, hfield, hc⟩
      · exact .inr (.inr ⟨hmapped, hc⟩)
      · obtain ⟨o, -, rfl⟩ := List.mem_map.mp hfield
        obtain ⟨d, hd, rfl⟩ := exists_of_mem_toDigits (by decide) hc
        exact .inr (.inl ⟨d, by omega, rfl⟩)
  · rcases mem_groupsText hc with hc | hc
    · exact .inl hc
    · exact .inr (.inl hc)

theorem colon_mem_text6 (bits : BitVec 128) : ':' ∈ text6 bits := by
  rw [text6]
  split
  · simp
  · exact colon_mem_groupsText (by simp)

theorem percent_not_mem_text6 (bits : BitVec 128) : '%' ∉ text6 bits := by
  intro hmem
  rcases mem_text6 hmem with h | ⟨d, hd, h⟩ | ⟨-, h⟩
  · cases h
  · have hmark := not_mark_digitChar hd
    rw [← h] at hmark
    cases hmark
  · cases h

theorem find?_mark_text6 (bits : BitVec 128) : (text6 bits).find? mark = some ':' := by
  by_cases hmapped : mapped bits
  · rw [text6, if_pos hmapped]
    rfl
  · apply find?_mark rfl (colon_mem_text6 bits)
    intro c hc hmark
    rcases mem_text6 hc with h | ⟨d, hd, rfl⟩ | ⟨h, -⟩
    · exact h
    · rw [not_mark_digitChar hd] at hmark
      cases hmark
    · exact absurd h hmapped

theorem parseGroups_text6 (bits : BitVec 128) (zone : List Char) :
    parseGroups (text6 bits ++ if zone = [] then [] else '%' :: zone) = some (v6 bits zone) := by
  obtain ⟨groups, hgroups, hvalue⟩ := sixGroups?_text6 bits
  have hplain : ∀ c ∈ text6 bits, decide (c ≠ '%') = true := by
    intro c hc
    rw [decide_eq_true_eq]
    rintro rfl
    exact percent_not_mem_text6 bits hc
  have htake : (text6 bits ++ if zone = [] then [] else '%' :: zone).takeWhile (· ≠ '%') =
      text6 bits := by
    rw [List.takeWhile_append_of_pos hplain]
    split <;> simp
  have hdrop : (text6 bits ++ if zone = [] then [] else '%' :: zone).dropWhile (· ≠ '%') =
      if zone = [] then [] else '%' :: zone := by
    rw [List.dropWhile_append_of_pos hplain]
    split <;> simp
  have hread : some (v6 (BitVec.ofNat 128 (value 65536 groups)) zone) = some (v6 bits zone) := by
    rw [hvalue, BitVec.ofNat_toNat, BitVec.setWidth_eq]
  simp only [parseGroups, htake, hdrop, hgroups, Option.map_some, ← hread]
  by_cases hzone : zone = []
  · simp [hzone]
  · simp [hzone]

theorem parse_text (a : Address) : parse a.text = some a := by
  cases a with
  | v4 bits => exact parse_octetsText bits
  | v6 bits zone =>
      have hfind : (text (v6 bits zone)).find? mark = some ':' := by
        rw [text, List.find?_append, find?_mark_text6, Option.some_or]
      rw [parse, hfind]
      exact parseGroups_text6 bits zone

theorem text_injective : Function.Injective text := by
  intro a b hab
  have hparse := parse_text a
  rw [hab, parse_text] at hparse
  exact (Option.some.inj hparse).symm

theorem colon_mem_of_parse {s : List Char} {bits : BitVec 128} {zone : List Char}
    (h : parse s = some (v6 bits zone)) : ':' ∈ s := by
  rw [parse] at h
  split at h
  · obtain ⟨octets, -, hv4⟩ := Option.map_eq_some_iff.mp h
    cases hv4
  · rename_i hfind
    exact List.mem_of_find?_eq_some hfind
  · cases h

/-- A text without colons that is an address is none with a colon behind it. -/
theorem parse_append_colon {s : List Char} {a : Address} (h : parse s = some a) (hs : ':' ∉ s)
    (rest : List Char) : parse (s ++ ':' :: rest) = none := by
  rw [parse] at h
  split at h
  · rename_i hfind
    rw [parse, List.find?_append, hfind, Option.some_or]
    simp only
    cases hoctets : octets? (s ++ ':' :: rest) with
    | none => rfl
    | some octets =>
        have hmem : ':' ∈ s ++ ':' :: rest := by simp
        rcases isDigit_of_octets? hoctets hmem with hc | hc <;> cases hc
  · rename_i hfind
    exact absurd (List.mem_of_find?_eq_some hfind) hs
  · cases h

/-- A text without colons that is an address is one of digits and points. -/
theorem isDigit_of_parse {s : List Char} {a : Address} (h : parse s = some a) (hs : ':' ∉ s)
    {c : Char} (hc : c ∈ s) : c = '.' ∨ c.isDigit := by
  rw [parse] at h
  split at h
  · obtain ⟨octets, hoctets, -⟩ := Option.map_eq_some_iff.mp h
    exact isDigit_of_octets? hoctets hc
  · rename_i hfind
    exact absurd (List.mem_of_find?_eq_some hfind) hs
  · cases h

end Address

end AddressText
