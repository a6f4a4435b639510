import Mathlib.Tactic.Common

/-!
# Encoded characters

The bytes of a list of characters in UTF-8.  The encoding of one character is never a
proper prefix of that of another, and only the first byte of a character can begin one.
So what is cut off inside a character is not made valid by what is written behind it.
-/

namespace Utf8

def encode (cs : List Char) : List UInt8 := cs.flatMap String.utf8EncodeChar

@[simp] theorem encode_nil : encode [] = [] := rfl

theorem encode_cons (c : Char) (cs : List Char) :
    encode (c :: cs) = String.utf8EncodeChar c ++ encode cs := rfl

theorem encode_append (cs ds : List Char) : encode (cs ++ ds) = encode cs ++ encode ds :=
  List.flatMap_append

/-- What holds of the codes of one byte holds of the characters they encode. -/
theorem forall_ascii {P : Char → Prop} (h : ∀ n < 128, P (Char.ofNat n)) {c : Char}
    (hc : c.toNat < 128) : P c := by
  have hcode := h c.toNat hc
  rwa [Char.ofNat_toNat] at hcode

/-- The bytes are those of some characters. -/
def Valid (bytes : List UInt8) : Prop := bytes.toByteArray.IsValidUTF8

theorem valid_encode (cs : List Char) : Valid (encode cs) := ⟨cs, rfl⟩

theorem exists_of_valid {bytes : List UInt8} (h : Valid bytes) : ∃ cs, encode cs = bytes := by
  obtain ⟨cs, hcs⟩ := h
  exact ⟨cs, (List.toByteArray_inj.mp hcs).symm⟩

theorem encodeChar_ne_nil (c : Char) : String.utf8EncodeChar c ≠ [] := by
  have hlength := String.length_utf8EncodeChar c
  have hpos := c.utf8Size_pos
  exact List.ne_nil_of_length_pos (by omega)

theorem encodeChar_append_inj {c d : Char} {xs ys : List UInt8}
    (h : String.utf8EncodeChar c ++ xs = String.utf8EncodeChar d ++ ys) : c = d ∧ xs = ys := by
  have hdecode : ∀ (c : Char) (xs : List UInt8),
      (String.utf8EncodeChar c ++ xs).toByteArray.utf8DecodeChar? 0 = some c := by
    intro c xs
    rw [List.toByteArray_append]
    exact ByteArray.utf8DecodeChar?_utf8EncodeChar_append
  have hsame : some c = some d := by rw [← hdecode c xs, ← hdecode d ys, h]
  obtain rfl := Option.some.inj hsame
  exact ⟨rfl, List.append_cancel_left h⟩

theorem eq_append_of_encode {cs ds : List Char} {xs : List UInt8}
    (h : encode ds = encode cs ++ xs) : ∃ es, ds = cs ++ es ∧ encode es = xs := by
  induction cs generalizing ds with
  | nil => exact ⟨ds, rfl, h⟩
  | cons c cs ih =>
      rw [encode_cons, List.append_assoc] at h
      cases ds with
      | nil => exact absurd (List.append_eq_nil_iff.mp h.symm).1 (encodeChar_ne_nil c)
      | cons d ds =>
          rw [encode_cons] at h
          obtain ⟨rfl, hrest⟩ := encodeChar_append_inj h
          obtain ⟨es, rfl, hes⟩ := ih hrest
          exact ⟨es, rfl, hes⟩

/-! ## Cuts -/

/-- No character reaches across the byte at `n`. -/
def Boundary (cs : List Char) (n : ℕ) : Prop := ∃ ds, ds <+: cs ∧ (encode ds).length = n

theorem take_encode {cs ds : List Char} (h : ds <+: cs) :
    (encode cs).take (encode ds).length = encode ds := by
  obtain ⟨es, rfl⟩ := h
  rw [encode_append, List.take_left]

theorem boundary_of_first {cs : List Char} {n : ℕ} {b : UInt8} (hb : b.IsUTF8FirstByte)
    (h : (encode cs)[n]? = some b) : Boundary cs n := by
  induction cs generalizing n with
  | nil => cases h
  | cons c cs ih =>
      rw [encode_cons] at h
      rcases Nat.lt_or_ge n (String.utf8EncodeChar c).length with hlt | hle
      · rw [List.getElem?_append_left hlt, List.getElem?_eq_getElem hlt] at h
        rw [← Option.some.inj h, UInt8.isUTF8FirstByte_getElem_utf8EncodeChar] at hb
        exact ⟨[], List.nil_prefix, hb.symm⟩
      · rw [List.getElem?_append_right hle] at h
        obtain ⟨ds, hds, hlength⟩ := ih h
        refine ⟨c :: ds, List.cons_prefix_cons.mpr ⟨rfl, hds⟩, ?_⟩
        rw [encode_cons, List.length_append]
        omega

/-- What is cut off may be followed by other characters only where a character ends. -/
theorem valid_take_append_iff {cs ms : List Char} {n : ℕ} (hn : n ≤ (encode cs).length)
    (hms : ms ≠ []) : Valid ((encode cs).take n ++ encode ms) ↔ Boundary cs n := by
  constructor
  · intro h
    obtain ⟨ds, hds⟩ := exists_of_valid h
    obtain ⟨m, ms, rfl⟩ := List.exists_cons_of_ne_nil hms
    obtain ⟨b, rest, hbytes⟩ := List.exists_cons_of_ne_nil (encodeChar_ne_nil m)
    have hb : b.IsUTF8FirstByte := by
      have hfirst := UInt8.isUTF8FirstByte_getElem_zero_utf8EncodeChar (c := m)
      simpa only [hbytes, List.getElem_cons_zero] using hfirst
    have hlength : ((encode cs).take n).length = n := List.length_take_of_le hn
    have hget : (encode ds)[n]? = some b := by
      rw [hds, List.getElem?_append_right (Nat.le_of_eq hlength), hlength, Nat.sub_self, encode_cons, hbytes]
      rfl
    obtain ⟨es, hes, hn'⟩ := boundary_of_first hb hget
    have hcut : encode es = (encode cs).take n := by
      rw [← take_encode hes, hds, hn', List.take_left' hlength]
    obtain ⟨fs, rfl, -⟩ := @eq_append_of_encode es cs ((encode cs).drop n)
      (by rw [hcut, List.take_append_drop])
    exact ⟨es, List.prefix_append es fs, hn'⟩
  · rintro ⟨ds, hds, rfl⟩
    rw [take_encode hds, ← encode_append]
    exact valid_encode _

end Utf8
