import Mathlib.Data.List.Infix
import Mathlib.Tactic.Common

/-!
# Query strings

Pairs of texts as one text: the bytes of names and values are percent-encoded, a name and
its value are joined with `=`, and the pairs with `&`.  A reader splits at these bytes and
decodes the pieces; a piece that it cannot decode is left out.
-/

namespace QueryStrings

abbrev Bytes := List UInt8

/-! ## Writing -/

/-- The bytes that stand for themselves: letters, digits and `*-._`. -/
def plain (b : UInt8) : Bool :=
  decide (0x30 ≤ b ∧ b ≤ 0x39) || decide (0x41 ≤ b ∧ b ≤ 0x5A) || decide (0x61 ≤ b ∧ b ≤ 0x7A) ||
    decide (b ∈ [0x2A, 0x2D, 0x2E, 0x5F])

def hexDigit (n : ℕ) : UInt8 := if n < 10 then .ofNat (0x30 + n) else .ofNat (0x37 + n)

/-- A blank is written as `+`. -/
def encodeByte (b : UInt8) : Bytes :=
  if b = 0x20 then [0x2B]
  else if plain b then [b]
  else [0x25, hexDigit (b.toNat / 16), hexDigit (b.toNat % 16)]

def encode (text : Bytes) : Bytes := text.flatMap encodeByte

def writePair (pair : Bytes × Bytes) : Bytes := encode pair.1 ++ 0x3D :: encode pair.2

def serialize : List (Bytes × Bytes) → Bytes
  | [] => []
  | [pair] => writePair pair
  | pair :: next :: rest => writePair pair ++ 0x26 :: serialize (next :: rest)

/-! ## Reading -/

def hexValue (b : UInt8) : Option ℕ :=
  if 0x30 ≤ b ∧ b ≤ 0x39 then some (b.toNat - 0x30)
  else if 0x41 ≤ b ∧ b ≤ 0x46 then some (b.toNat - 0x37)
  else if 0x61 ≤ b ∧ b ≤ 0x66 then some (b.toNat - 0x57)
  else none

def unescape : Bytes → Option Bytes
  | [] => some []
  | b :: rest =>
      if b = 0x25 then
        match rest with
        | high :: low :: rest => do
            let high ← hexValue high
            let low ← hexValue low
            let rest ← unescape rest
            some (.ofNat (16 * high + low) :: rest)
        | _ => none
      else do
        let rest ← unescape rest
        some ((if b = 0x2B then 0x20 else b) :: rest)

/-- What stands before the first separator, and what stands after it. -/
def cut (sep : UInt8) : Bytes → Bytes × Bytes
  | [] => ([], [])
  | b :: rest =>
      if b = sep then ([], rest)
      else (b :: (cut sep rest).1, (cut sep rest).2)

/-- A piece with a semicolon in it is no pair. -/
def readPair (piece : Bytes) : Option (Bytes × Bytes) :=
  if 0x3B ∈ piece ∨ piece = [] then none
  else do
    let name ← unescape (cut 0x3D piece).1
    let value ← unescape (cut 0x3D piece).2
    some (name, value)

def parse (query : Bytes) : List (Bytes × Bytes) := go query.length query
where
  go : ℕ → Bytes → List (Bytes × Bytes)
    | 0, _ => []
    | fuel + 1, query =>
        if query = [] then []
        else (readPair (cut 0x26 query).1).toList ++ go fuel (cut 0x26 query).2

/-! ## The pieces -/

theorem hexDigit_facts : ∀ n < 16, hexValue (hexDigit n) = some n ∧
    hexDigit n ∉ [0x26, 0x3D, 0x3B] := by decide

theorem plain_ne {b : UInt8} (h : plain b = true) : b ∉ [0x25, 0x2B, 0x26, 0x3D, 0x3B] := by
  intro hmem
  simp only [List.mem_cons, List.not_mem_nil, or_false] at hmem
  rcases hmem with rfl | rfl | rfl | rfl | rfl <;> cases h

/-- What is encoded has no separator in it. -/
theorem not_mem_encode {text : Bytes} {c : UInt8} (h : c ∈ encode text) :
    c ∉ [0x26, 0x3D, 0x3B] := by
  obtain ⟨b, -, hc⟩ := List.mem_flatMap.mp h
  unfold encodeByte at hc
  split at hc
  · obtain rfl := List.mem_singleton.mp hc
    decide
  split at hc
  · rename_i hplain
    obtain rfl := List.mem_singleton.mp hc
    have hne := plain_ne hplain
    simp only [List.mem_cons, not_or] at hne ⊢
    exact hne.2.2
  · have hhigh := (hexDigit_facts (b.toNat / 16) (by have := b.toNat_lt; omega)).2
    have hlow := (hexDigit_facts (b.toNat % 16) (by omega)).2
    rcases List.mem_cons.mp hc with rfl | hc
    · decide
    rcases List.mem_cons.mp hc with rfl | hc
    · exact hhigh
    · obtain rfl := List.mem_singleton.mp hc
      exact hlow

theorem unescape_unescaped {b : UInt8} (h : b ≠ 0x25) (rest : Bytes) :
    unescape (b :: rest) = (unescape rest).map ((if b = 0x2B then 0x20 else b) :: ·) := by
  rcases rest with _ | ⟨high, _ | ⟨low, rest⟩⟩
  · simp [unescape, h]
  · by_cases hhigh : high = 0x25 <;> simp [unescape, h, hhigh]
  · rw [unescape, if_neg h]
    cases unescape (high :: low :: rest) <;> rfl

theorem unescape_escaped {high low : UInt8} {m n : ℕ} (hhigh : hexValue high = some m)
    (hlow : hexValue low = some n) (rest : Bytes) :
    unescape (0x25 :: high :: low :: rest) = (unescape rest).map (.ofNat (16 * m + n) :: ·) := by
  rw [unescape, if_pos rfl, hhigh, hlow]
  cases unescape rest <;> rfl

theorem unescape_encodeByte (b : UInt8) (rest : Bytes) :
    unescape (encodeByte b ++ rest) = (unescape rest).map (b :: ·) := by
  unfold encodeByte
  split
  · rename_i hblank
    rw [hblank]
    exact unescape_unescaped (by decide) rest
  split
  · rename_i hplain
    have hne := plain_ne hplain
    simp only [List.mem_cons, not_or] at hne
    rw [List.singleton_append, unescape_unescaped hne.1, if_neg hne.2.1]
  · have hlt := b.toNat_lt
    have hhigh := (hexDigit_facts (b.toNat / 16) (by omega)).1
    have hlow := (hexDigit_facts (b.toNat % 16) (by omega)).1
    rw [List.cons_append, List.cons_append, List.singleton_append, unescape_escaped hhigh hlow,
      Nat.div_add_mod, UInt8.ofNat_toNat]

theorem unescape_encode (text : Bytes) : unescape (encode text) = some text := by
  induction text with
  | nil => rfl
  | cons b text ih =>
      have hcons : encode (b :: text) = encodeByte b ++ encode text := rfl
      rw [hcons, unescape_encodeByte, ih]
      rfl

theorem cut_append {sep : UInt8} {before : Bytes} (h : sep ∉ before) (after : Bytes) :
    cut sep (before ++ sep :: after) = (before, after) := by
  induction before with
  | nil => rw [List.nil_append, cut, if_pos rfl]
  | cons b before ih =>
      rw [List.mem_cons, not_or] at h
      rw [List.cons_append, cut, if_neg (Ne.symm h.1), ih h.2]

theorem cut_of_not_mem {sep : UInt8} {text : Bytes} (h : sep ∉ text) : cut sep text = (text, []) := by
  induction text with
  | nil => rfl
  | cons b text ih =>
      rw [List.mem_cons, not_or] at h
      rw [cut, if_neg (Ne.symm h.1), ih h.2]

/-! ## The round trip -/

theorem mem_writePair {pair : Bytes × Bytes} {c : UInt8} (h : c ∈ writePair pair) :
    c ≠ 0x26 ∧ c ≠ 0x3B := by
  rcases List.mem_append.mp h with h | h
  · have hne := not_mem_encode h
    simp only [List.mem_cons, not_or] at hne
    exact ⟨hne.1, hne.2.2.1⟩
  rcases List.mem_cons.mp h with rfl | h
  · decide
  · have hne := not_mem_encode h
    simp only [List.mem_cons, not_or] at hne
    exact ⟨hne.1, hne.2.2.1⟩

theorem writePair_ne_nil (pair : Bytes × Bytes) : writePair pair ≠ [] := by
  simp [writePair]

theorem readPair_writePair (pair : Bytes × Bytes) : readPair (writePair pair) = some pair := by
  have hvalid : ¬ (0x3B ∈ writePair pair ∨ writePair pair = []) := by
    rw [not_or]
    exact ⟨fun h ↦ (mem_writePair h).2 rfl, writePair_ne_nil pair⟩
  have hname : 0x3D ∉ encode pair.1 := fun h ↦ by simpa using not_mem_encode h
  rw [readPair, if_neg hvalid, writePair, cut_append hname, unescape_encode, unescape_encode]
  rfl

theorem go_serialize (pairs : List (Bytes × Bytes)) {fuel : ℕ}
    (h : (serialize pairs).length ≤ fuel) : parse.go fuel (serialize pairs) = pairs := by
  induction pairs generalizing fuel with
  | nil =>
      cases fuel with
      | zero => rfl
      | succ fuel => rw [serialize, parse.go, if_pos rfl]
  | cons pair rest ih =>
      have hsep : 0x26 ∉ writePair pair := fun hmem ↦ (mem_writePair hmem).1 rfl
      have hpos : 0 < (writePair pair).length := List.length_pos_of_ne_nil (writePair_ne_nil pair)
      cases rest with
      | nil =>
          rw [serialize] at h ⊢
          obtain ⟨fuel, rfl⟩ := Nat.exists_eq_succ_of_ne_zero (show fuel ≠ 0 by omega)
          rw [parse.go, if_neg (writePair_ne_nil pair), cut_of_not_mem hsep, readPair_writePair]
          cases fuel with
          | zero => rfl
          | succ fuel => rw [parse.go, if_pos rfl]; rfl
      | cons next rest =>
          rw [serialize, List.length_append, List.length_cons] at h
          rw [serialize]
          obtain ⟨fuel, rfl⟩ := Nat.exists_eq_succ_of_ne_zero (show fuel ≠ 0 by omega)
          have hne : writePair pair ++ 0x26 :: serialize (next :: rest) ≠ [] := by simp
          rw [parse.go, if_neg hne, cut_append hsep, readPair_writePair, ih (by omega)]
          rfl

/-- What is written is read. -/
theorem parse_serialize (pairs : List (Bytes × Bytes)) : parse (serialize pairs) = pairs :=
  go_serialize pairs le_rfl

theorem count_serialize (pairs : List (Bytes × Bytes)) :
    (serialize pairs).count 0x26 = pairs.length - 1 := by
  have hpair (pair : Bytes × Bytes) : (writePair pair).count 0x26 = 0 :=
    List.count_eq_zero.mpr fun hmem ↦ (mem_writePair hmem).1 rfl
  induction pairs with
  | nil => rfl
  | cons pair rest ih =>
      cases rest with
      | nil => exact hpair pair
      | cons next rest =>
          rw [serialize, List.count_append, hpair, List.count_cons_self, ih]
          simp

end QueryStrings
