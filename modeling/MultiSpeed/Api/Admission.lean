import MultiSpeed.Api.Authorities

/-!
# Admitted authorities

Every authority that the host policy admits names a host it has a reason for, and neither
the case of its letters nor the text of its address makes a difference.
-/

namespace MultiSpeed.Api

open AddressText Execution Network Providers

/-! ## Texts of authorities -/

/-- What stands after the host. -/
def portSuffix : Option (List Char) → List Char
  | none => []
  | some portText => ':' :: portText

/-- An authority with this text of its host, in brackets or without, and of its port. -/
inductive Writes (hostText : List Char) (portText : Option (List Char)) : List Char → Prop
  | plain : Writes hostText portText (hostText ++ portSuffix portText)
  | bracketed : Writes hostText portText ('[' :: hostText ++ ']' :: portSuffix portText)

/-- An authority with a text of the address. -/
def Spells (ip : BitVec 128) (portText : Option (List Char)) (authority : List Char) : Prop :=
  ∃ s, Address.parseIP s = some ip ∧
    (authority = '[' :: s ++ ']' :: portSuffix portText ∨
      (portText = none ∨ ':' ∉ s) ∧ authority = s ++ portSuffix portText)

theorem writes_of_authorityParts {a hostText : List Char} {portText : Option (List Char)}
    (h : authorityParts a = some (hostText, portText)) : Writes hostText portText a := by
  by_cases hhead : a.head? = some '['
  · rw [authorityParts, if_pos hhead] at h
    cases hcut : cutFirst ']' a with
    | none =>
        rw [hcut] at h
        cases h
    | some parts =>
        obtain ⟨opened, remainder⟩ := parts
        rw [hcut] at h
        simp only at h
        obtain ⟨rest, rfl⟩ := List.head?_eq_some_iff.mp hhead
        have heq := cutFirst_eq hcut
        obtain ⟨host, rfl⟩ : ∃ host, opened = '[' :: host := by
          cases opened with
          | nil => cases heq
          | cons c host => exact ⟨host, by rw [(List.cons.inj heq).1]⟩
        rw [heq]
        split at h
        · rename_i hend
          obtain ⟨rfl, rfl⟩ := Prod.mk.inj (Option.some.inj h)
          rw [hend]
          exact Writes.bracketed
        · split at h
          · cases h
          · rename_i hcolon
            rw [not_or, not_not] at hcolon
            obtain ⟨port, rfl⟩ := List.head?_eq_some_iff.mp hcolon.1
            obtain ⟨rfl, rfl⟩ := Prod.mk.inj (Option.some.inj h)
            exact Writes.bracketed
  · by_cases hcount : a.count ':' = 1
    · rw [authorityParts_one hhead hcount] at h
      split at h
      · cases h
      · obtain ⟨⟨before, port⟩, hcut, heq⟩ := Option.map_eq_some_iff.mp h
        obtain ⟨rfl, rfl⟩ := Prod.mk.inj heq
        rw [cutLast_eq hcut]
        exact Writes.plain
    · rw [authorityParts, if_neg hhead, if_neg hcount] at h
      split at h
      · cases h
      · obtain ⟨rfl, rfl⟩ := Prod.mk.inj (Option.some.inj h)
        have hplain := @Writes.plain a none
        rwa [portSuffix, List.append_nil] at hplain

section

variable {lower : Char → Char}

/-- What is read of an authority is written in it. -/
theorem parseAuthority_spec {a host : List Char} {port : Option ℕ}
    (h : parseAuthority lower a = some (host, port)) :
    ∃ hostText portText, Writes hostText portText a ∧ host = normalizeHost lower hostText ∧
      portText.map portNumber = port.map some ∧ host ≠ [] ∧ validHostNameOrIP host := by
  rw [parseAuthority] at h
  split at h
  · cases h
  cases hparts : authorityParts a with
  | none =>
      rw [hparts] at h
      cases h
  | some parts =>
      obtain ⟨hostText, portText⟩ := parts
      have hwrites := writes_of_authorityParts hparts
      rw [hparts] at h
      cases portText with
      | none =>
          simp only at h
          split at h
          · rename_i hvalid
            obtain ⟨rfl, rfl⟩ := Prod.mk.inj (Option.some.inj h)
            exact ⟨hostText, none, hwrites, rfl, rfl, hvalid⟩
          · cases h
      | some portText =>
          simp only at h
          split at h
          · cases h
          rename_i n hport
          split at h
          · rename_i hvalid
            obtain ⟨rfl, rfl⟩ := Prod.mk.inj (Option.some.inj h)
            exact ⟨hostText, some portText, hwrites, rfl,
              by rw [Option.map_some, Option.map_some, hport], hvalid⟩
          · cases h

/-! ## Authorities that are read -/

/-- The host with the port of the text. -/
def withPort (host : List Char) : Option (List Char) → Option (List Char × Option ℕ)
  | none => some (host, none)
  | some portText => (portNumber portText).map fun port ↦ (host, some port)

/-- A character that stands in an authority as it is. -/
def Clean (c : Char) : Prop := Graphic c ∧ forbidden c = false

theorem clean_of_isDigit {c : Char} (h : c.isDigit) : Clean c := by
  refine ⟨graphic_of_isDigit h, ?_⟩
  rw [forbidden, decide_eq_false_iff_not]
  intro hmem
  simp only [List.mem_cons, List.not_mem_nil, or_false] at hmem
  rcases hmem with rfl | rfl | rfl | rfl | rfl | rfl <;> cases h

/-- A port is written with a sign and digits. -/
theorem isDigit_of_portNumber {portText : List Char} {port : ℕ}
    (h : portNumber portText = some port) {c : Char} (hc : c ∈ portText) :
    c = '-' ∨ c = '+' ∨ c.isDigit := by
  have hread : ∃ value, atoi portText = some value := by
    rw [portNumber] at h
    cases hatoi : atoi portText with
    | none =>
        rw [hatoi] at h
        cases h
    | some value => exact ⟨value, rfl⟩
  obtain ⟨value, hatoi⟩ := hread
  rw [atoi] at hatoi
  simp only at hatoi
  generalize hdigits : (if portText.head? = some '-' ∨ portText.head? = some '+' then
    portText.tail else portText) = digits at hatoi
  split at hatoi
  · cases hatoi
  cases hnumber : number? 10 digits with
  | none =>
      rw [hnumber] at hatoi
      cases hatoi
  | some n =>
      split at hdigits
      · rename_i hsigned
        rcases hsigned with hsign | hsign
        · obtain ⟨rest, rfl⟩ := List.head?_eq_some_iff.mp hsign
          rcases List.mem_cons.mp hc with rfl | hc
          · exact .inl rfl
          · exact .inr (.inr (isDigit_of_number? hnumber (hdigits ▸ hc)))
        · obtain ⟨rest, rfl⟩ := List.head?_eq_some_iff.mp hsign
          rcases List.mem_cons.mp hc with rfl | hc
          · exact .inr (.inl rfl)
          · exact .inr (.inr (isDigit_of_number? hnumber (hdigits ▸ hc)))
      · exact .inr (.inr (isDigit_of_number? hnumber (hdigits ▸ hc)))

theorem clean_of_portNumber {portText : List Char} {port : ℕ}
    (h : portNumber portText = some port) : ∀ c ∈ portText, Clean c := by
  intro c hc
  rcases isDigit_of_portNumber h hc with rfl | rfl | hdigit
  · exact ⟨⟨by decide, by decide⟩, rfl⟩
  · exact ⟨⟨by decide, by decide⟩, rfl⟩
  · exact clean_of_isDigit hdigit

theorem not_mem_of_portNumber {portText : List Char} {port : ℕ}
    (h : portNumber portText = some port) {m : Char} (hm : m = ':' ∨ m = '[' ∨ m = ']') :
    m ∉ portText := by
  intro hmem
  rcases isDigit_of_portNumber h hmem with rfl | rfl | hdigit
  · rcases hm with h | h | h <;> cases h
  · rcases hm with h | h | h <;> cases h
  · rcases hm with rfl | rfl | rfl <;> cases hdigit

/-- The text of a host that is read as `host`. -/
structure HostText (lower : Char → Char) (hostText host : List Char) : Prop where
  clean : ∀ c ∈ hostText, Clean c ∧ c ≠ '[' ∧ c ≠ ']'
  ne_nil : hostText ≠ []
  normalize : normalizeHost lower hostText = host
  valid : host ≠ [] ∧ validHostNameOrIP host

theorem parseAuthority_of_parts {a hostText host : List Char} {portText : Option (List Char)}
    (hhost : HostText lower hostText host)
    (hparts : authorityParts a = some (hostText, portText)) (ha : a ≠ [])
    (hclean : (∀ t ∈ portText, portNumber t ≠ none) → ∀ c ∈ a, Clean c) :
    parseAuthority lower a = withPort host portText := by
  have hvalid := hhost.valid
  rw [parseAuthority, hparts]
  simp only [hhost.normalize]
  by_cases hport : ∀ t ∈ portText, portNumber t ≠ none
  · have hall := hclean hport
    have htrimmed : trimSpaces a = a := by
      rw [trimSpaces, trimmed_of_graphic fun c hc ↦ (hall c hc).1, String.toList_ofList]
    have hforbidden : a.any forbidden = false := by
      rw [List.any_eq_false]
      intro c hc
      rw [(hall c hc).2]
      exact Bool.false_ne_true
    rw [if_neg (by simp [ha, htrimmed, hforbidden])]
    cases portText with
    | none => rw [if_pos hvalid, withPort]
    | some t =>
        obtain ⟨port, hnumber⟩ := Option.ne_none_iff_exists'.mp (hport t rfl)
        simp only [hnumber]
        rw [if_pos hvalid, withPort, hnumber, Option.map_some]
  · push Not at hport
    obtain ⟨t, ht, hnumber⟩ := hport
    obtain rfl : portText = some t := ht
    have hnone : withPort host (some t) = none := by rw [withPort, hnumber, Option.map_none]
    rw [hnone]
    simp only [hnumber]
    split <;> rfl

theorem clean_append {hostText host : List Char} {portText : Option (List Char)}
    (hhost : HostText lower hostText host) (hport : ∀ t ∈ portText, portNumber t ≠ none) :
    ∀ c ∈ hostText ++ portSuffix portText, Clean c := by
  intro c hc
  rcases List.mem_append.mp hc with hc | hc
  · exact (hhost.clean c hc).1
  · cases portText with
    | none => cases hc
    | some t =>
        obtain ⟨port, hnumber⟩ := Option.ne_none_iff_exists'.mp (hport t rfl)
        rcases List.mem_cons.mp hc with rfl | hc
        · exact ⟨⟨by decide, by decide⟩, rfl⟩
        · exact clean_of_portNumber hnumber c hc

theorem parseAuthority_bracketed {hostText host : List Char} (portText : Option (List Char))
    (hhost : HostText lower hostText host) :
    parseAuthority lower ('[' :: hostText ++ ']' :: portSuffix portText) =
      withPort host portText := by
  have hclose : ']' ∉ '[' :: hostText := by
    intro hmem
    rcases List.mem_cons.mp hmem with h | h
    · cases h
    · exact (hhost.clean _ h).2.2 rfl
  have hcut := @cutFirst_append ']' _ (portSuffix portText) hclose
  have hclean (hport : ∀ t ∈ portText, portNumber t ≠ none) :
      ∀ c ∈ '[' :: hostText ++ ']' :: portSuffix portText, Clean c := by
    intro c hc
    have hall := clean_append hhost hport
    simp only [List.cons_append, List.mem_cons, List.mem_append] at hc hall
    rcases hc with rfl | hc | rfl | hc
    · exact ⟨⟨by decide, by decide⟩, rfl⟩
    · exact hall c (.inl hc)
    · exact ⟨⟨by decide, by decide⟩, rfl⟩
    · exact hall c (.inr hc)
  by_cases hempty : portText = some []
  · rw [hempty]
    rw [hempty] at hcut
    have hparts : authorityParts ('[' :: hostText ++ ']' :: portSuffix (some [])) = none := by
      rw [authorityParts, hcut]
      rfl
    rw [parseAuthority, hparts]
    split <;> rfl
  · apply parseAuthority_of_parts hhost _ (by simp) hclean
    rw [authorityParts, hcut]
    cases portText with
    | none => rfl
    | some t =>
        have ht : t ≠ [] := fun h ↦ hempty (by rw [h])
        simp [portSuffix, ht]

theorem head?_hostText {hostText host : List Char} (hhost : HostText lower hostText host)
    (rest : List Char) : (hostText ++ rest).head? ≠ some '[' := by
  obtain ⟨c, text, rfl⟩ := List.exists_cons_of_ne_nil hhost.ne_nil
  intro hhead
  have hopen := (hhost.clean c List.mem_cons_self).2.1
  exact hopen (Option.some.inj hhead)

theorem parseAuthority_bare {hostText host : List Char} (hhost : HostText lower hostText host)
    (hcolons : ':' ∉ hostText ∨
      hostText.count ':' ≠ 1 ∧ Address.parseIP hostText ≠ none) :
    parseAuthority lower hostText = withPort host none := by
  apply parseAuthority_of_parts hhost _ hhost.ne_nil fun _ c hc ↦ (hhost.clean c hc).1
  have hhead := head?_hostText hhost []
  rw [List.append_nil] at hhead
  rw [authorityParts, if_neg hhead]
  rcases hcolons with hcolon | ⟨hcount, hparse⟩
  · rw [List.count_eq_zero.mpr hcolon, if_neg (by decide), if_neg fun h ↦ absurd h.1 (by decide)]
  · rw [if_neg hcount, if_neg fun h ↦ hparse h.2]

theorem parseAuthority_port {hostText host portText : List Char}
    (hhost : HostText lower hostText host) (hcolon : ':' ∉ hostText)
    (hparse : ':' ∈ portText → Address.parseIP (hostText ++ ':' :: portText) = none) :
    parseAuthority lower (hostText ++ ':' :: portText) = withPort host (some portText) := by
  have hhead := head?_hostText hhost (':' :: portText)
  have hcount : (hostText ++ ':' :: portText).count ':' = portText.count ':' + 1 := by
    rw [List.count_append, List.count_eq_zero.mpr hcolon, List.count_cons_self, Nat.zero_add]
  have hnone (hportNone : portNumber portText = none)
      (hparts : authorityParts (hostText ++ ':' :: portText) = none) :
      parseAuthority lower (hostText ++ ':' :: portText) = withPort host (some portText) := by
    rw [parseAuthority, hparts, withPort, hportNone]
    split <;> rfl
  by_cases hmem : ':' ∈ portText
  · have hpos := List.count_pos_iff.mpr hmem
    apply hnone
    · cases hport : portNumber portText with
      | none => rfl
      | some port => exact absurd hmem (not_mem_of_portNumber hport (.inl rfl))
    · rw [authorityParts, if_neg hhead, if_neg (by omega), if_pos ⟨by omega, hparse hmem⟩]
  · rw [List.count_eq_zero.mpr hmem] at hcount
    have hparts := authorityParts_one hhead hcount
    rw [cutLast_append hmem, Option.map_some] at hparts
    by_cases hbrackets : '[' ∈ hostText ++ ':' :: portText ∨ ']' ∈ hostText ++ ':' :: portText
    · rw [if_pos hbrackets] at hparts
      apply hnone _ hparts
      cases hport : portNumber portText with
      | none => rfl
      | some port =>
          exfalso
          have hplain : ∀ m : Char, m = '[' ∨ m = ']' → m ∉ hostText ++ ':' :: portText := by
            intro m hm hmem
            rcases List.mem_append.mp hmem with hmem | hmem
            · rcases hm with rfl | rfl
              · exact (hhost.clean _ hmem).2.1 rfl
              · exact (hhost.clean _ hmem).2.2 rfl
            · rcases List.mem_cons.mp hmem with rfl | hmem
              · rcases hm with h | h <;> cases h
              · exact not_mem_of_portNumber hport (.inr hm) hmem
          rcases hbrackets with h | h
          · exact hplain _ (.inl rfl) h
          · exact hplain _ (.inr rfl) h
    · rw [if_neg hbrackets] at hparts
      apply parseAuthority_of_parts hhost hparts (by simp)
      exact @clean_append lower hostText host (some portText) hhost

end

end MultiSpeed.Api
