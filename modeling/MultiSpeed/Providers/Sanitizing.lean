import MultiSpeed.Lib.Utf8
import MultiSpeed.Providers.Output

/-!
# Sanitized output

`SanitizeOutput` reads a text rune by rune and writes what it keeps as characters again.
Where nothing is cut off, or the cut falls between two characters, the result is made of
characters and a second pass with the same limit leaves it alone.
-/

namespace MultiSpeed.Providers

open Utf8

/-! ## Runes -/

theorem toNat_ofNat_of_lt {n : ℕ} (h : n < 256) : (UInt8.ofNat n).toNat = n := by
  rw [UInt8.toNat_ofNat']
  exact Nat.mod_eq_of_lt h

theorem continues_iff {low high b : UInt8} :
    continues low high b = true ↔ low.toNat ≤ b.toNat ∧ b.toNat ≤ high.toNat := by
  rw [continues, decide_eq_true_eq]
  rfl

theorem decodeRune_encodeChar (c : Char) (rest : Text) :
    decodeRune (String.utf8EncodeChar c ++ rest) =
      (c.toNat, (String.utf8EncodeChar c).length) := by
  have hvalid : c.toNat < 0xD800 ∨ 0xDFFF < c.toNat ∧ c.toNat < 0x110000 := c.valid
  unfold String.utf8EncodeChar
  change c.toNat < 0xD800 ∨ _ at hvalid
  simp only [show c.val.toNat = c.toNat from rfl]
  generalize c.toNat = n at hvalid
  split
  · simp only [List.cons_append, List.nil_append, decodeRune, UInt8.lt_iff_toNat_lt]
    rw [toNat_ofNat_of_lt (by omega), if_pos]
    · rfl
    · change n < 128
      omega
  split
  · simp only [List.cons_append, List.nil_append, decodeRune, UInt8.lt_iff_toNat_lt,
      UInt8.le_iff_toNat_le, continues_iff, UInt8.reduceToNat, UInt8.toNat_ofNat']
    rw [if_neg (by omega), if_pos (by omega), if_pos (by omega)]
    refine Prod.ext ?_ rfl
    dsimp only
    omega
  split
  · simp only [List.cons_append, List.nil_append, decodeRune, UInt8.lt_iff_toNat_lt,
      UInt8.le_iff_toNat_le, Bool.and_eq_true, continues_iff, ← UInt8.toNat_inj,
      apply_ite UInt8.toNat, UInt8.reduceToNat, UInt8.toNat_ofNat']
    rw [if_neg (by omega), if_neg (by omega), if_pos (by omega), if_pos]
    · refine Prod.ext ?_ rfl
      dsimp only
      omega
    · split <;> split <;> omega
  · simp only [List.cons_append, List.nil_append, decodeRune, UInt8.lt_iff_toNat_lt,
      UInt8.le_iff_toNat_le, Bool.and_eq_true, continues_iff, ← UInt8.toNat_inj,
      apply_ite UInt8.toNat, UInt8.reduceToNat, UInt8.toNat_ofNat']
    rw [if_neg (by omega), if_neg (by omega), if_neg (by omega), if_pos (by omega), if_pos]
    · refine Prod.ext ?_ rfl
      dsimp only
      omega
    · split <;> split <;> omega

theorem valid_ite {p : Prop} [Decidable p] {rune width : ℕ} (hwidth : 0 < width)
    (h : p → rune.isValidChar) :
    (if p then (rune, width) else (0xFFFD, 1)).1.isValidChar ∧
      0 < (if p then (rune, width) else (0xFFFD, 1)).2 := by
  split
  · rename_i hp
    exact ⟨h hp, hwidth⟩
  · exact ⟨by decide, Nat.one_pos⟩

theorem valid_decodeRune (b : UInt8) (rest : Text) :
    (decodeRune (b :: rest)).1.isValidChar ∧ 0 < (decodeRune (b :: rest)).2 := by
  have hinvalid : (0xFFFD : ℕ).isValidChar ∧ 0 < 1 := by decide
  have hb := b.toNat_lt
  unfold decodeRune
  simp only [UInt8.lt_iff_toNat_lt, UInt8.le_iff_toNat_le, Bool.and_eq_true, continues_iff,
    ← UInt8.toNat_inj, apply_ite UInt8.toNat, UInt8.reduceToNat]
  split
  · exact ⟨.inl (by omega), Nat.one_pos⟩
  split
  · cases rest with
    | nil => exact hinvalid
    | cons c rest => exact valid_ite (by decide) fun _ ↦ .inl (by omega)
  split
  · rcases rest with _ | ⟨c, _ | ⟨d, rest⟩⟩
    · exact hinvalid
    · exact hinvalid
    · apply valid_ite (by decide)
      intro h
      unfold Nat.isValidChar
      split at h <;> split at h <;> omega
  split
  · rcases rest with _ | ⟨c, _ | ⟨d, _ | ⟨e, rest⟩⟩⟩
    · exact hinvalid
    · exact hinvalid
    · exact hinvalid
    · apply valid_ite (by decide)
      intro h
      unfold Nat.isValidChar
      split at h <;> split at h <;> omega
  · exact hinvalid
theorem go_encode {cs : List Char} {fuel : ℕ} (h : (encode cs).length ≤ fuel) :
    decodeRunes.go fuel (encode cs) = cs.map Char.toNat := by
  induction cs generalizing fuel with
  | nil => cases fuel <;> rfl
  | cons c cs ih =>
      have hdecode := decodeRune_encodeChar c (encode cs)
      rw [encode_cons, List.length_append] at h
      rw [encode_cons]
      obtain ⟨b, bytes, hbytes⟩ := List.exists_cons_of_ne_nil (encodeChar_ne_nil c)
      rw [hbytes, List.cons_append] at hdecode ⊢
      rw [hbytes, List.length_cons] at h
      cases fuel with
      | zero => omega
      | succ fuel =>
          rw [decodeRunes.go, hdecode, List.map_cons]
          dsimp only
          rw [List.length_cons, List.drop_succ_cons, List.drop_left, ih (by omega)]

theorem decodeRunes_encode (cs : List Char) : decodeRunes (encode cs) = cs.map Char.toNat :=
  go_encode le_rfl

theorem isValidChar_of_mem_go {fuel : ℕ} {text : Text} {rune : ℕ}
    (h : rune ∈ decodeRunes.go fuel text) : rune.isValidChar := by
  induction fuel generalizing text with
  | zero => cases h
  | succ fuel ih =>
      cases text with
      | nil => cases h
      | cons b rest =>
          rw [decodeRunes.go] at h
          rcases List.mem_cons.mp h with rfl | h
          · exact (valid_decodeRune b rest).1
          · exact ih h

theorem toNat_ofNat {n : ℕ} (h : n.isValidChar) : (Char.ofNat n).toNat = n := by
  have hchar : Char.ofNat n = Char.ofNatAux n h := dif_pos h
  rw [hchar]
  rfl

theorem exists_decodeRunes (text : Text) :
    ∃ cs : List Char, decodeRunes text = cs.map Char.toNat := by
  refine ⟨(decodeRunes text).map Char.ofNat, ?_⟩
  rw [List.map_map]
  symm
  rw [List.map_congr_left (g := id), List.map_id]
  intro rune hrune
  exact toNat_ofNat (isValidChar_of_mem_go hrune)

theorem encodeRunes_map (cs : List Char) : encodeRunes (cs.map Char.toNat) = encode cs := by
  rw [encodeRunes, encode, List.flatMap_map]
  simp only [Char.ofNat_toNat]

/-! ## Trimming -/

theorem trimSpace_eq_self {runes : List ℕ} (hhead : ∀ r ∈ runes.head?, isSpace r = false)
    (hlast : ∀ r ∈ runes.getLast?, isSpace r = false) : trimSpace runes = runes := by
  have hdrop : ∀ l : List ℕ, (∀ r ∈ l.head?, isSpace r = false) → l.dropWhile isSpace = l := by
    intro l hl
    cases l with
    | nil => rfl
    | cons r l => rw [List.dropWhile_cons, hl r rfl, if_neg Bool.false_ne_true]
  rw [trimSpace, hdrop _ hhead, hdrop, List.reverse_reverse]
  rw [List.head?_reverse]
  exact hlast

theorem isSpace_of_head?_dropWhile {l : List ℕ} {r : ℕ} (h : r ∈ (l.dropWhile isSpace).head?) :
    isSpace r = false := by
  have hnot := List.head?_dropWhile_not isSpace l
  rw [Option.mem_def.mp h] at hnot
  exact hnot

theorem prefix_trimSpace (runes : List ℕ) : trimSpace runes <+: runes.dropWhile isSpace := by
  rw [← List.reverse_suffix, trimSpace, List.reverse_reverse]
  exact List.dropWhile_suffix _

theorem isSpace_of_head?_trimSpace {runes : List ℕ} {r : ℕ} (h : r ∈ (trimSpace runes).head?) :
    isSpace r = false := by
  obtain ⟨rest, hrest⟩ := prefix_trimSpace runes
  apply isSpace_of_head?_dropWhile (l := runes)
  rw [← hrest, List.head?_append]
  exact Option.mem_def.mpr (by rw [Option.mem_def.mp h]; rfl)

theorem isSpace_of_getLast?_trimSpace {runes : List ℕ} {r : ℕ}
    (h : r ∈ (trimSpace runes).getLast?) : isSpace r = false := by
  rw [trimSpace, List.getLast?_reverse] at h
  exact isSpace_of_head?_dropWhile h

theorem trimSpace_map (cs : List Char) :
    ∃ ds : List Char, ds <:+: cs ∧ trimSpace (cs.map Char.toNat) = ds.map Char.toNat := by
  refine ⟨((cs.dropWhile (isSpace ∘ Char.toNat)).reverse.dropWhile
    (isSpace ∘ Char.toNat)).reverse, ?_, ?_⟩
  · have hstart := List.reverse_prefix.mpr (List.dropWhile_suffix (isSpace ∘ Char.toNat)
      (l := (cs.dropWhile (isSpace ∘ Char.toNat)).reverse))
    rw [List.reverse_reverse] at hstart
    exact hstart.isInfix.trans (List.dropWhile_suffix _).isInfix
  · rw [trimSpace, List.dropWhile_map, ← List.map_reverse, List.dropWhile_map, List.map_reverse]

/-! ## What is kept -/

/-- The runes that are dropped. -/
def controlRune (rune : ℕ) : Bool :=
  decide (rune < 32) && !decide (rune = 10 ∨ rune = 13 ∨ rune = 9)

/-- The runes that are kept and trimmed, before the cut. -/
def cleaned (value : Text) : List ℕ :=
  trimSpace ((decodeRunes value).filter fun rune ↦ !controlRune rune)

def effectiveLimit (limit : ℤ) : ℕ :=
  if limit < 1 ∨ maxStoredOutput < limit then maxStoredOutput else limit.toNat

def truncationMarker : List Char := "…[truncated]".toList

theorem effectiveLimit_pos (limit : ℤ) : 0 < effectiveLimit limit := by
  unfold effectiveLimit
  split
  · decide
  · omega

theorem sanitizeOutput_eq (value : Text) (limit : ℤ) :
    sanitizeOutput value limit =
      if effectiveLimit limit < (encodeRunes (cleaned value)).length then
        (encodeRunes (cleaned value)).take (effectiveLimit limit) ++ encode truncationMarker
      else encodeRunes (cleaned value) := rfl

/-- Characters that cleaning leaves alone. -/
structure Clean (cs : List Char) : Prop where
  kept : ∀ c ∈ cs, controlRune c.toNat = false
  head : ∀ c ∈ cs.head?, isSpace c.toNat = false
  last : ∀ c ∈ cs.getLast?, isSpace c.toNat = false

theorem exists_cleaned (value : Text) :
    ∃ cs : List Char, Clean cs ∧ cleaned value = cs.map Char.toNat := by
  obtain ⟨ds, hds⟩ := exists_decodeRunes value
  obtain ⟨cs, hpart, hcs⟩ := trimSpace_map (ds.filter fun c ↦ !controlRune c.toNat)
  have hcleaned : cleaned value = cs.map Char.toNat := by
    rw [cleaned, hds, List.filter_map, ← hcs]
    rfl
  refine ⟨cs, ⟨?_, ?_, ?_⟩, hcleaned⟩
  · intro c hc
    have hkept := (List.mem_filter.mp (hpart.subset hc)).2
    exact Bool.not_eq_true' _ ▸ hkept
  · intro c hc
    apply isSpace_of_head?_trimSpace
    rw [hcs, List.head?_map]
    exact Option.mem_map_of_mem _ hc
  · intro c hc
    apply isSpace_of_getLast?_trimSpace
    rw [hcs, List.getLast?_map]
    exact Option.mem_map_of_mem _ hc

theorem Clean.cleaned_encode {cs : List Char} (h : Clean cs) :
    cleaned (encode cs) = cs.map Char.toNat := by
  have hkept : (cs.map Char.toNat).filter (fun rune ↦ !controlRune rune) = cs.map Char.toNat := by
    rw [List.filter_eq_self]
    intro rune hrune
    obtain ⟨c, hc, rfl⟩ := List.mem_map.mp hrune
    rw [h.kept c hc]
    rfl
  rw [cleaned, decodeRunes_encode, hkept]
  apply trimSpace_eq_self
  · intro rune hrune
    rw [List.head?_map] at hrune
    obtain ⟨c, hc, rfl⟩ := Option.map_eq_some_iff.mp hrune
    exact h.head c hc
  · intro rune hrune
    rw [List.getLast?_map] at hrune
    obtain ⟨c, hc, rfl⟩ := Option.map_eq_some_iff.mp hrune
    exact h.last c hc

theorem Clean.truncated {cs ds : List Char} (h : Clean cs) (hstart : ds <+: cs) (hds : ds ≠ []) :
    Clean (ds ++ truncationMarker) := by
  refine ⟨?_, ?_, ?_⟩
  · intro c hc
    rcases List.mem_append.mp hc with hc | hc
    · exact h.kept c (hstart.subset hc)
    · have hmarker : (truncationMarker.all fun c ↦ !controlRune c.toNat) = true := by decide
      exact (Bool.not_eq_true' _).mp (List.all_eq_true.mp hmarker c hc)
  · intro c hc
    obtain ⟨rest, rfl⟩ := hstart
    obtain ⟨d, ds, rfl⟩ := List.exists_cons_of_ne_nil hds
    exact h.head c hc
  · intro c hc
    rw [List.getLast?_append] at hc
    obtain rfl : ']' = c := Option.some.inj hc
    decide

/-! ## The cut -/

theorem Clean.sanitizeOutput_encode {cs : List Char} (h : Clean cs) (limit : ℤ) :
    sanitizeOutput (encode cs) limit =
      if effectiveLimit limit < (encode cs).length then
        (encode cs).take (effectiveLimit limit) ++ encode truncationMarker
      else encode cs := by
  rw [sanitizeOutput_eq, h.cleaned_encode, encodeRunes_map]

theorem sanitizeOutput_congr {value : Text} {cs : List Char} (h : Clean cs)
    (hcs : cleaned value = cs.map Char.toNat) (limit : ℤ) :
    sanitizeOutput value limit = sanitizeOutput (encode cs) limit := by
  rw [sanitizeOutput_eq, h.sanitizeOutput_encode, hcs, encodeRunes_map]

/-- Characters that end at the limit are followed by the marker. -/
theorem Clean.sanitizeOutput_cut {cs ds : List Char} (h : Clean cs) (hstart : ds <+: cs)
    {limit : ℤ} (hlength : (encode ds).length = effectiveLimit limit)
    (hlong : effectiveLimit limit < (encode cs).length) :
    sanitizeOutput (encode cs) limit = encode (ds ++ truncationMarker) := by
  rw [h.sanitizeOutput_encode, if_pos hlong, ← hlength, take_encode hstart, encode_append]

/-- The cut, where there is one, falls between two characters. -/
def CutsBetween (value : Text) (limit : ℤ) : Prop :=
  (encodeRunes (cleaned value)).length ≤ effectiveLimit limit ∨
    Boundary ((cleaned value).map Char.ofNat) (effectiveLimit limit)

theorem cutsBetween_iff {value : Text} {cs : List Char}
    (hcs : cleaned value = cs.map Char.toNat) (limit : ℤ) : CutsBetween value limit ↔
      (encode cs).length ≤ effectiveLimit limit ∨ Boundary cs (effectiveLimit limit) := by
  have hid : Char.ofNat ∘ Char.toNat = id := funext Char.ofNat_toNat
  rw [CutsBetween, hcs, encodeRunes_map, List.map_map, hid, List.map_id]

/-- What is expected of a sanitized text. -/
structure Sanitized (value : Text) (limit : ℤ) : Prop where
  valid : Valid (sanitizeOutput value limit)
  controls : ∀ rune ∈ decodeRunes (sanitizeOutput value limit),
    rune < 0x20 → rune = 10 ∨ rune = 13 ∨ rune = 9
  length : (sanitizeOutput value limit).length ≤
    effectiveLimit limit + (encode truncationMarker).length
  fixed : sanitizeOutput (sanitizeOutput value limit) limit = sanitizeOutput value limit

theorem length_sanitizeOutput_le (value : Text) (limit : ℤ) :
    (sanitizeOutput value limit).length ≤
      effectiveLimit limit + (encode truncationMarker).length := by
  rw [sanitizeOutput_eq]
  split
  · rw [List.length_append, List.length_take]
    omega
  · omega

/-- A text that ends up as characters which a second pass leaves alone. -/
theorem Clean.sanitized {value : Text} {limit : ℤ} {es : List Char} (h : Clean es)
    (hout : sanitizeOutput value limit = encode es)
    (hagain : sanitizeOutput (encode es) limit = encode es) : Sanitized value limit where
  valid := hout ▸ valid_encode es
  controls := by
    intro rune hrune hlow
    rw [hout, decodeRunes_encode] at hrune
    obtain ⟨c, hc, rfl⟩ := List.mem_map.mp hrune
    by_contra hnot
    have hcontrol : controlRune c.toNat = true := by
      rw [controlRune, decide_eq_true hlow, decide_eq_false hnot]
      rfl
    rw [h.kept c hc] at hcontrol
    cases hcontrol
  length := length_sanitizeOutput_le value limit
  fixed := by rw [hout, hagain]

theorem cutsBetween_of_valid {value : Text} {limit : ℤ}
    (h : Valid (sanitizeOutput value limit)) : CutsBetween value limit := by
  obtain ⟨cs, hclean, hcs⟩ := exists_cleaned value
  rw [cutsBetween_iff hcs]
  by_contra hnot
  obtain ⟨hlong, hinside⟩ := not_or.mp hnot
  rw [sanitizeOutput_congr hclean hcs, hclean.sanitizeOutput_encode, if_pos (not_le.mp hlong)] at h
  exact hinside ((valid_take_append_iff (not_le.mp hlong).le (by decide)).mp h)

theorem sanitized_of_cutsBetween {value : Text} {limit : ℤ} (h : CutsBetween value limit) :
    Sanitized value limit := by
  obtain ⟨cs, hclean, hcs⟩ := exists_cleaned value
  have hout := sanitizeOutput_congr hclean hcs limit
  rw [cutsBetween_iff hcs] at h
  by_cases hfits : (encode cs).length ≤ effectiveLimit limit
  · have hsame : sanitizeOutput (encode cs) limit = encode cs := by
      rw [hclean.sanitizeOutput_encode, if_neg (not_lt.mpr hfits)]
    exact hclean.sanitized (hout.trans hsame) hsame
  · have hlong := not_le.mp hfits
    obtain ⟨ds, hstart, hlength⟩ := h.resolve_left hfits
    have hds : ds ≠ [] := by
      rintro rfl
      exact (effectiveLimit_pos limit).ne hlength
    have hcut := hclean.truncated hstart hds
    apply hcut.sanitized (hout.trans (hclean.sanitizeOutput_cut hstart hlength hlong))
    -- the marker ends beyond the limit again, and the same characters stand before it
    apply hcut.sanitizeOutput_cut (List.prefix_append ds _) hlength
    rw [encode_append, List.length_append, hlength]
    have hmarker : 0 < (encode truncationMarker).length := by decide
    omega

/-- A text is sanitized as expected exactly when it is not cut inside a character. -/
theorem sanitized_iff_cutsBetween (value : Text) (limit : ℤ) :
    Sanitized value limit ↔ CutsBetween value limit :=
  ⟨fun h ↦ cutsBetween_of_valid h.valid, sanitized_of_cutsBetween⟩

/-- A message one byte longer than a limit, with a character of two bytes at its end. -/
def longMessage : List Char := List.replicate 511 'a' ++ ['é']

theorem clean_longMessage : Clean longMessage := by
  refine ⟨?_, ?_, ?_⟩
  · intro c hc
    rcases List.mem_append.mp hc with hc | hc
    · rw [List.eq_of_mem_replicate hc]
      decide
    · rw [List.mem_singleton.mp hc]
      decide
  · intro c hc
    obtain rfl : 'a' = c := Option.some.inj hc
    decide
  · intro c hc
    rw [longMessage, List.getLast?_append] at hc
    obtain rfl : 'é' = c := Option.some.inj hc
    decide

theorem length_encode_replicate (n : ℕ) : (encode (List.replicate n 'a')).length = n := by
  induction n with
  | zero => rfl
  | succ n ih =>
      rw [List.replicate_succ, encode_cons, List.length_append, ih, Nat.add_comm]
      rfl

theorem sanitized_longMessage_fails : ¬Sanitized (encode longMessage) 512 := by
  intro h
  rcases (cutsBetween_iff clean_longMessage.cleaned_encode 512).mp (cutsBetween_of_valid h.valid)
    with hle | ⟨ds, hstart, hlength⟩
  · rw [longMessage, encode_append, List.length_append, length_encode_replicate] at hle
    exact absurd hle (by decide)
  · have hlimit : effectiveLimit 512 = 512 := by decide
    rw [hlimit] at hlength
    rcases List.prefix_concat_iff.mp hstart with rfl | ⟨es, hes⟩
    · rw [encode_append, List.length_append, length_encode_replicate] at hlength
      exact absurd hlength (by decide)
    · have hshort := length_encode_replicate 511
      rw [← hes, encode_append, List.length_append] at hshort
      omega

end MultiSpeed.Providers
