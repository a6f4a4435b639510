import MultiSpeed.Api.HostPolicy
import MultiSpeed.Lib.Utf8
import MultiSpeed.Providers.CanonicalURL

/-!
# Authorities

How an authority is read does not depend on the case of its letters, nor on which text of
an address it has.
-/

namespace MultiSpeed.Api

open AddressText Execution Network Providers

/-- What `unicode.ToLower` does to the letters of ASCII, and to nothing else that an
address, a port or a trimmed text depends on. -/
structure LawfulLower (lower : Char → Char) : Prop where
  ascii : ∀ c, c.toNat < 128 → lower c = c.toLower
  /-- The dotted capital I and the Kelvin sign. -/
  letters : ∀ c, 128 ≤ c.toNat → (lower c).toNat < 128 → lower c = 'i' ∨ lower c = 'k'
  space : ∀ c, isSpace (lower c).toNat = isSpace c.toNat
  idempotent : ∀ c, lower (lower c) = lower c

theorem toLower_of_large {c : Char} (hc : 128 ≤ c.toNat) : c.toLower = c := by
  refine dif_neg ?_
  rintro ⟨-, hle⟩
  have hsmall : c.toNat ≤ 90 := hle
  omega

theorem lawful_toLower : LawfulLower Char.toLower where
  ascii := fun _ _ ↦ rfl
  letters := by
    intro c hc hsmall
    rw [toLower_of_large hc] at hsmall
    omega
  space := by
    intro c
    by_cases hc : c.toNat < 128
    · apply Utf8.forall_ascii _ hc
      decide +kernel
    · rw [toLower_of_large (not_lt.mp hc)]
  idempotent := by
    intro c
    by_cases hc : c.toNat < 128
    · apply Utf8.forall_ascii _ hc
      decide +kernel
    · rw [toLower_of_large (not_lt.mp hc), toLower_of_large (not_lt.mp hc)]

/-! ## White space -/

theorem trimSpaces_eq (s : List Char) : trimSpaces s =
    ((s.dropWhile fun c ↦ isSpace c.toNat).reverse.dropWhile fun c ↦ isSpace c.toNat).reverse := by
  have hid : (fun c : Char ↦ Char.ofNat c.toNat) = id := funext Char.ofNat_toNat
  rw [trimSpaces, trimmed, String.toList_ofList, String.toList_ofList, trimSpace,
    List.dropWhile_map, ← List.map_reverse, List.dropWhile_map, ← List.map_reverse, List.map_map]
  change List.map (fun c : Char ↦ Char.ofNat c.toNat) _ = _
  rw [hid, List.map_id]
  rfl

theorem trimSpaces_isInfix (s : List Char) : trimSpaces s <:+: s := by
  rw [trimSpaces_eq]
  have hsuffix := List.dropWhile_suffix (l := s) fun c ↦ isSpace c.toNat
  have hprefix := List.dropWhile_suffix
    (l := (s.dropWhile fun c ↦ isSpace c.toNat).reverse) fun c ↦ isSpace c.toNat
  rw [← List.reverse_prefix, List.reverse_reverse] at hprefix
  exact hprefix.isInfix.trans hsuffix.isInfix

section

variable {lower : Char → Char} (hlower : LawfulLower lower)

include hlower

theorem trimSpaces_map (s : List Char) :
    trimSpaces (s.map lower) = (trimSpaces s).map lower := by
  have hspace : (fun c ↦ isSpace c.toNat) ∘ lower = fun c ↦ isSpace c.toNat :=
    funext hlower.space
  rw [trimSpaces_eq, trimSpaces_eq, List.dropWhile_map, hspace, ← List.map_reverse,
    List.dropWhile_map, hspace, ← List.map_reverse]

theorem trimSpaces_map_eq_iff (s : List Char) :
    trimSpaces (s.map lower) = s.map lower ↔ trimSpaces s = s := by
  rw [trimSpaces_map hlower]
  constructor
  · intro h
    apply (trimSpaces_isInfix s).eq_of_length
    have hlength := congrArg List.length h
    rwa [List.length_map, List.length_map] at hlength
  · intro h
    rw [h]

/-! ## Letters -/

/-- What is no letter of ASCII is the lower case of itself alone. -/
theorem lower_eq_iff {m : Char} (hm : m.toNat < 128) (hletter : m.isAlpha = false) (c : Char) :
    lower c = m ↔ c = m := by
  by_cases hc : c.toNat < 128
  · have hsame : c.toLower = c ∨ c.isAlpha ∧ c.toLower.isAlpha := by
      apply Utf8.forall_ascii _ hc
      decide +kernel
    rw [hlower.ascii c hc]
    rcases hsame with hsame | ⟨halpha, halpha'⟩
    · rw [hsame]
    · constructor
      · rintro rfl
        rw [hletter] at halpha'
        cases halpha'
      · rintro rfl
        rw [hletter] at halpha
        cases halpha
  · constructor
    · rintro rfl
      rcases hlower.letters c (not_lt.mp hc) hm with h | h
      · rw [h] at hletter
        cases hletter
      · rw [h] at hletter
        cases hletter
    · rintro rfl
      exact absurd hm hc

theorem keepsDigits_lower : KeepsDigits lower where
  digit := by
    intro c
    have hlarge : ∀ c : Char, 128 ≤ c.toNat → digit? c = none := by
      intro c hc
      have hle (m : Char) (hm : m.toNat < 128) : ¬c ≤ m := by
        intro h
        have hnat : c.toNat ≤ m.toNat := h
        omega
      rw [digit?, if_neg fun h ↦ hle '9' (by decide) h.2,
        if_neg fun h ↦ hle 'f' (by decide) h.2, if_neg fun h ↦ hle 'F' (by decide) h.2]
    by_cases hc : c.toNat < 128
    · rw [hlower.ascii c hc]
      apply Utf8.forall_ascii _ hc
      decide +kernel
    · rw [hlarge c (not_lt.mp hc)]
      by_cases hsmall : (lower c).toNat < 128
      · rcases hlower.letters c (not_lt.mp hc) hsmall with h | h
        · rw [h]
          rfl
        · rw [h]
          rfl
      · exact hlarge _ (not_lt.mp hsmall)
  mark := by
    intro c m hm
    rw [Address.mark, decide_eq_true_eq] at hm
    rcases hm with rfl | rfl | rfl <;> exact lower_eq_iff hlower (by decide) rfl c

/-! ## The case of an authority -/

theorem parseIP_lower (s : List Char) : Address.parseIP (s.map lower) = Address.parseIP s :=
  Address.parseIP_map (keepsDigits_lower hlower) s

theorem normalizeHost_map (s : List Char) :
    normalizeHost lower (s.map lower) = normalizeHost lower s := by
  have hidempotent : lower ∘ lower = lower := funext hlower.idempotent
  rw [normalizeHost, normalizeHost, trimSpaces_map hlower, List.map_map, hidempotent]

theorem atoi_map (s : List Char) : atoi (s.map lower) = atoi s := by
  have hminus := head?_map_iff (lower_eq_iff hlower (m := '-') (by decide) rfl) s
  have hplus := head?_map_iff (lower_eq_iff hlower (m := '+') (by decide) rfl) s
  have hdigits (signed : Prop) [Decidable signed] :
      (if signed then (s.map lower).tail else s.map lower) =
        (if signed then s.tail else s).map lower := by
    split
    · rw [List.map_tail]
    · rfl
  rw [atoi, atoi]
  simp only [hminus, hplus, hdigits, List.map_eq_nil_iff,
    number?_map (keepsDigits_lower hlower)]

theorem portNumber_map (s : List Char) : portNumber (s.map lower) = portNumber s := by
  rw [portNumber, portNumber, atoi_map hlower]

end

/-! ## The parts of an authority -/

/-- One colon is between the host and the port. -/
theorem authorityParts_one {a : List Char} (hhead : a.head? ≠ some '[') (hcount : a.count ':' = 1) :
    authorityParts a = if '[' ∈ a ∨ ']' ∈ a then none
      else (cutLast ':' a).map fun parts ↦ (parts.1, some parts.2) := by
  rw [authorityParts, if_neg hhead, if_pos hcount, splitHostPort]
  cases hcut : cutLast ':' a with
  | none => simp
  | some parts =>
      obtain ⟨before, port⟩ := parts
      have hbefore : ':' ∉ before := by
        intro hmem
        have hpos := List.count_pos_iff.mpr hmem
        rw [cutLast_eq hcut, List.count_append, List.count_cons_self] at hcount
        omega
      simp only
      rw [if_neg hhead, if_neg hbefore]
      by_cases hopen : '[' ∈ a
      · simp [hopen]
      by_cases hclose : ']' ∈ a
      · simp [hopen, hclose]
      · simp [hopen, hclose]

section

variable {lower : Char → Char} (hlower : LawfulLower lower)

include hlower

theorem authorityParts_map (a : List Char) :
    authorityParts (a.map lower) = (authorityParts a).map fun parts ↦
      (parts.1.map lower, parts.2.map (List.map lower)) := by
  have hopen := lower_eq_iff hlower (m := '[') (by decide) rfl
  have hclose := lower_eq_iff hlower (m := ']') (by decide) rfl
  have hcolon := lower_eq_iff hlower (m := ':') (by decide) rfl
  by_cases hhead : a.head? = some '['
  · rw [authorityParts, authorityParts, if_pos ((head?_map_iff hopen a).mpr hhead), if_pos hhead,
      cutFirst_map hclose]
    cases cutFirst ']' a with
    | none => rfl
    | some parts =>
        obtain ⟨opened, remainder⟩ := parts
        simp only [Option.map_some, List.map_eq_nil_iff, ne_eq, head?_map_iff hcolon,
          ← List.map_tail]
        by_cases hend : remainder = []
        · rw [if_pos hend, if_pos hend]
          rfl
        · rw [if_neg hend, if_neg hend]
          split
          · rfl
          · rfl
  · have hhead' : (a.map lower).head? ≠ some '[' := fun h ↦ hhead ((head?_map_iff hopen a).mp h)
    by_cases hcount : a.count ':' = 1
    · have hcount' : (a.map lower).count ':' = 1 := (count_map_of_eq_iff hcolon a).trans hcount
      rw [authorityParts_one hhead' hcount', authorityParts_one hhead hcount,
        cutLast_map hcolon]
      simp only [mem_map_iff_of_eq_iff hopen, mem_map_iff_of_eq_iff hclose]
      split
      · rfl
      · rw [Option.map_map, Option.map_map]
        rfl
    · rw [authorityParts, authorityParts, if_neg hhead, if_neg hhead',
        count_map_of_eq_iff hcolon, if_neg hcount, if_neg hcount, parseIP_lower hlower]
      split
      · rfl
      · rfl

theorem parseAuthority_map (a : List Char) :
    parseAuthority lower (a.map lower) = parseAuthority lower a := by
  have hforbidden (c : Char) : forbidden (lower c) = forbidden c := by
    have hiff (m : Char) (hm : m.toNat < 128) (hletter : m.isAlpha = false) :=
      lower_eq_iff hlower hm hletter c
    apply decide_eq_decide.mpr
    simp only [List.mem_cons, List.not_mem_nil, or_false]
    rw [hiff '/' (by decide) rfl, hiff '\\' (by decide) rfl, hiff '@' (by decide) rfl,
      hiff '\r' (by decide) rfl, hiff '\n' (by decide) rfl, hiff '\t' (by decide) rfl]
  have hany : (a.map lower).any forbidden = a.any forbidden := by
    rw [List.any_map]
    congr 1
    exact funext hforbidden
  rw [parseAuthority, parseAuthority, hany, authorityParts_map hlower]
  simp only [List.map_eq_nil_iff, ne_eq, trimSpaces_map_eq_iff hlower]
  split
  · rfl
  · cases authorityParts a with
    | none => rfl
    | some parts =>
        obtain ⟨hostText, portText⟩ := parts
        cases portText with
        | none => simp only [Option.map_some, Option.map_none, normalizeHost_map hlower]
        | some portText =>
            simp only [Option.map_some, normalizeHost_map hlower, portNumber_map hlower]

/-- The case of its letters does not decide about an authority. -/
theorem parseAuthority_congr {a b : List Char} (h : a.map lower = b.map lower) :
    parseAuthority lower a = parseAuthority lower b := by
  rw [← parseAuthority_map hlower a, h, parseAuthority_map hlower b]

end

end MultiSpeed.Api
