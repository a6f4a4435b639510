import MultiSpeed.Lib.Endpoints

/-!
# Texts with a zone

What the text of an address is made of before its zone, and of what shape a text is that
is an endpoint.
-/

namespace AddressText

theorem addressCharacter_ne {c : Char} (h : addressCharacter c = true) :
    c ≠ '[' ∧ c ≠ ']' ∧ c ≠ '%' := by
  refine ⟨?_, ?_, ?_⟩
  all_goals
    rintro rfl
    cases h

namespace Address

theorem isDigit_of_parse_v4 {s : List Char} {bits : BitVec 32} (h : parse s = some (v4 bits))
    {c : Char} (hc : c ∈ s) : c = '.' ∨ c.isDigit := by
  rw [parse] at h
  split at h
  · obtain ⟨octets, hoctets, -⟩ := Option.map_eq_some_iff.mp h
    exact isDigit_of_octets? hoctets hc
  · rw [parseGroups] at h
    split at h
    · cases h
    · obtain ⟨groups, -, hv6⟩ := Option.map_eq_some_iff.mp h
      cases hv6
  · cases h

theorem dropWhile_ne (c : Char) (s : List Char) :
    s.dropWhile (· ≠ c) = [] ∨ ∃ rest, s.dropWhile (· ≠ c) = c :: rest := by
  induction s with
  | nil => exact .inl rfl
  | cons head s ih =>
      by_cases hhead : head = c
      · refine .inr ⟨s, ?_⟩
        rw [List.dropWhile_cons_of_neg (by simpa using hhead), hhead]
      · rw [List.dropWhile_cons_of_pos (by simpa using hhead)]
        exact ih

/-- A text of version 6 is one without a zone and the zone behind it. -/
theorem text_of_parse_v6 {s : List Char} {bits : BitVec 128} {zone : List Char}
    (h : parse s = some (v6 bits zone)) :
    ∃ text, s = text ++ (if zone = [] then [] else '%' :: zone) ∧
      parse text = some (v6 bits []) ∧ ∀ c ∈ text, addressCharacter c = true := by
  have hfind : s.find? mark = some ':' := by
    rw [parse] at h
    split at h
    · obtain ⟨octets, -, hv4⟩ := Option.map_eq_some_iff.mp h
      cases hv4
    · assumption
    · cases h
  have hsplit := List.takeWhile_append_dropWhile (p := fun c ↦ decide (c ≠ '%')) (l := s)
  rw [parse, hfind] at h
  simp only [parseGroups] at h
  split at h
  · cases h
  rename_i hzone
  obtain ⟨groups, hgroups, hv6⟩ := Option.map_eq_some_iff.mp h
  obtain ⟨rfl, rfl⟩ := v6.inj hv6
  have hspelled : ∀ c ∈ s.takeWhile (· ≠ '%'), addressCharacter c = true := fun c hc ↦
    addressCharacter_of_sixGroups? hgroups hc
  have hnot : '%' ∉ s.takeWhile (· ≠ '%') := fun hmem ↦
    (addressCharacter_ne (hspelled _ hmem)).2.2 rfl
  refine ⟨s.takeWhile (· ≠ '%'), ?_, ?_, hspelled⟩
  · rcases dropWhile_ne '%' s with hnil | ⟨zone, hcons⟩
    · rw [hnil, List.append_nil] at hsplit
      rw [hnil, List.drop_nil, if_pos rfl, List.append_nil]
      exact hsplit.symm
    · have hne : zone ≠ [] := by
        rintro rfl
        exact hzone hcons
      rw [hcons] at hsplit
      rw [hcons, List.drop_succ_cons, List.drop_zero, if_neg hne]
      exact hsplit.symm
  · have hmark : (s.takeWhile (· ≠ '%')).find? mark = some ':' := by
      rw [← hsplit, List.find?_append] at hfind
      cases htext : (s.takeWhile (· ≠ '%')).find? mark with
      | some c =>
          rw [htext, Option.some_or] at hfind
          exact hfind
      | none =>
          rw [htext, Option.none_or] at hfind
          rcases dropWhile_ne '%' s with hnil | ⟨zone, hcons⟩
          · rw [hnil] at hfind
            cases hfind
          · rw [hcons] at hfind
            cases hfind
    have hall : ∀ c ∈ s.takeWhile (· ≠ '%'), decide (c ≠ '%') = true := by
      intro c hc
      rw [decide_eq_true_eq]
      rintro rfl
      exact hnot hc
    rw [parse, hmark]
    simp only [parseGroups]
    rw [List.dropWhile_eq_nil_iff.mpr hall, if_neg (List.cons_ne_nil '%' []).symm,
      List.takeWhile_eq_self_iff.mpr hall, hgroups]
    rfl

theorem percent_not_mem_of_parseIP {s : List Char} {ip : BitVec 128} (h : parseIP s = some ip) :
    '%' ∉ s := by
  rw [parseIP] at h
  split at h
  · rename_i a hparse
    split at h
    · rename_i hzone
      exact percent_not_mem_of_parse hparse hzone
    · cases h
  · cases h

/-! ## Values -/

/-- `netip.Addr.IsLoopback` -/
def isLoopback (a : Address) : Bool :=
  match a.unmap with
  | v4 bits => bits.toNat / 2 ^ 24 = 127
  | v6 bits _ => bits.toNat = 1

theorem mapped_toIP_v4 (bits : BitVec 32) : mapped (v4 bits).toIP = true := by
  have hlt := bits.isLt
  rw [mapped, decide_eq_true_eq, toIP, BitVec.toNat_ofNat]
  omega

/-- Only the zone of an address of version 6 is not in its value. -/
theorem unmap_eq (a : Address) :
    a.unmap = if mapped a.toIP then v4 (BitVec.ofNat 32 a.toIP.toNat) else v6 a.toIP a.zone := by
  cases a with
  | v4 bits =>
      have hlt := bits.isLt
      rw [if_pos (mapped_toIP_v4 bits), unmap, v4.injEq]
      apply BitVec.eq_of_toNat_eq
      rw [toIP, BitVec.toNat_ofNat, BitVec.toNat_ofNat]
      omega
  | v6 bits zone => rfl

theorem toIP_unmap (a : Address) : a.unmap.toIP = a.toIP := by
  rw [unmap_eq]
  split
  · rename_i hmapped
    have hhigh : a.toIP.toNat / 2 ^ 32 = 0xFFFF := of_decide_eq_true hmapped
    apply BitVec.eq_of_toNat_eq
    rw [toIP, BitVec.toNat_ofNat, BitVec.toNat_ofNat]
    omega
  · rfl

theorem is6_unmap (a : Address) : a.unmap.is6 = !mapped a.toIP := by
  rw [unmap_eq]
  cases mapped a.toIP <;> rfl

end Address

namespace Endpoint

theorem port_lt {s : List Char} {port : ℕ} (h : port? s = some port) : port < 65536 := by
  rw [port?] at h
  split at h
  · cases h
  · exact of_decide_eq_true (Option.filter_eq_some_iff.mp h).2

theorem isDigit_of_port? {s : List Char} {port : ℕ} (h : port? s = some port) {c : Char}
    (hc : c ∈ s) : c.isDigit := by
  rw [port?] at h
  split at h
  · cases h
  · exact isDigit_of_number? (Option.filter_eq_some_iff.mp h).1 hc

theorem bracketed {s : List Char} (hhead : s.head? = some '[') (hlast : s.getLast? = some ']') :
    '[' :: s.tail.dropLast ++ [']'] = s := by
  cases s with
  | nil => cases hhead
  | cons c s =>
      obtain rfl : c = '[' := Option.some.inj hhead
      cases s with
      | nil => cases hlast
      | cons c' s =>
          have hend : (c' :: s).getLast? = some ']' := by
            rw [← hlast, List.getLast?_cons_cons]
          rw [List.tail_cons, List.cons_append, List.dropLast_append_getLast? ']' hend]

/-- The text of an endpoint, of version 4 or in brackets. -/
theorem text_of_parse {s : List Char} {a : Address} {port : ℕ} (h : parse s = some (a, port)) :
    ∃ host digits, port? digits = some port ∧ Address.parse host = some a ∧
      s = if a.is6 then '[' :: host ++ ']' :: ':' :: digits else host ++ ':' :: digits := by
  rw [parse] at h
  split at h
  · cases h
  rename_i host digits hcut
  split at h
  · cases h
  rename_i hhost
  rw [not_or, not_and] at hhost
  dsimp only at h
  split at h
  · rename_i port' a' hport haddress
    split at h
    · rename_i hversion
      obtain ⟨rfl, rfl⟩ := Prod.mk.inj (Option.some.inj h)
      have hs := cutLast_eq hcut
      cases h6 : a'.is6 with
      | false =>
          rw [h6] at hversion
          have hplain : ¬host.head? = some '[' := fun hhead ↦ Bool.false_ne_true (hversion.mp hhead)
          rw [if_neg hplain] at haddress
          exact ⟨host, digits, hport, haddress, hs⟩
      | true =>
          have hhead := hversion.mpr h6
          rw [if_pos hhead] at haddress
          refine ⟨host.tail.dropLast, digits, hport, haddress, ?_⟩
          have hinner := bracketed hhead (not_not.mp (hhost.2 hhead))
          calc s = host ++ ':' :: digits := hs
            _ = ('[' :: host.tail.dropLast ++ [']']) ++ ':' :: digits := by rw [hinner]
            _ = '[' :: host.tail.dropLast ++ ']' :: ':' :: digits := List.append_assoc _ _ _
    · cases h
  · cases h

end Endpoint

end AddressText
