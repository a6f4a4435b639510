import MultiSpeed.Providers.Allowlist
import MultiSpeed.Providers.Environment
import MultiSpeed.Providers.LibreSpeed

/-!
# Pinned destinations

The addresses a custom server has are resolved before its test starts, and handed to
the command in its environment.  There the dialer is restricted to them
(`restrictDialerToAllowedServerEndpoints` of `third_party/librespeed`).
-/

namespace MultiSpeed.Providers.LibreSpeed

open AddressText Concurrent Execution Network

/-! ## The dialer -/

/-- The turn of the loop over the entries of the guard. -/
def guardEndpoint (allowed : Finset Endpoint) (entry : List Char) :
    Except String (Finset Endpoint) :=
  let invalid := "custom server destination guard contains an invalid IP:port endpoint"
  match Endpoint.parse (trimSpaces entry) with
  | none => .error invalid
  | some (address, port) =>
      if address.zone ≠ [] ∨ address.isUnspecified ∨ address.isMulticast ∨ port = 0 then
        .error invalid
      else .ok (insert (address.unmap, port) allowed)

/-- `restrictDialerToAllowedServerEndpoints`, given the value of the variable; `none`
where the dialer is not restricted. -/
def restrictDialer (raw : Option (List Char)) : Except String (Option (Finset Endpoint)) :=
  match raw with
  | none => .ok none
  | some raw =>
      let entries := raw.splitOn ','
      if trimSpaces raw = [] ∨ 64 < entries.length then
        .error "custom server destination guard is empty or too large"
      else
        match entries.foldlM guardEndpoint ∅ with
        | .error message => .error message
        | .ok allowed =>
            if allowed = ∅ then .error "custom server destination guard has no endpoints"
            else .ok (some allowed)

/-- The check of a restricted dialer before it dials, up to the check it had before. -/
def dialError (allowed : Finset Endpoint) (address : List Char) : Option String :=
  let unresolved := some "custom server dial target was not resolved to a valid IP:port endpoint"
  match Endpoint.parse address with
  | none => unresolved
  | some (destination, port) =>
      if destination.zone ≠ [] ∨ port = 0 then unresolved
      else if (destination.unmap, port) ∈ allowed then none
      else
        some ("custom server dial target " ++
          String.ofList (Endpoint.text (destination.unmap, port)) ++
          " changed after authorization")

/-! ## The addresses of a server -/

/-- An address a test may be pinned to, in the family of its source. -/
def Pinnable (wantIPv4 : Bool) (ip : BitVec 128) : Prop :=
  isIPv4 ip = wantIPv4 ∧ isUnspecified ip = false ∧ isMulticast ip = false

/-- One to sixty-four canonical addresses. -/
structure Resolved (wantIPv4 : Bool) (ips : List String) : Prop where
  nonempty : ips ≠ []
  length_le : ips.length ≤ 64
  nodup : ips.Nodup
  canonical : ∀ ip ∈ ips, ∃ bits, ip = String.ofList (Address.ipText bits) ∧
    Pinnable wantIPv4 bits

theorem selectAddress_spec {wantIPv4 : Bool} {address : IPAddr} {seen result : Finset String}
    (hcard : seen.card ≤ 64)
    (hall : ∀ ip ∈ seen, ∃ bits, ip = String.ofList (Address.ipText bits) ∧
      Pinnable wantIPv4 bits)
    (h : selectAddress wantIPv4 seen address = .ok result) :
    result.card ≤ 64 ∧ ∀ ip ∈ result, ∃ bits, ip = String.ofList (Address.ipText bits) ∧
      Pinnable wantIPv4 bits := by
  rw [selectAddress] at h
  cases hip : address.ip with
  | none =>
      rw [hip] at h
      cases h
  | some bits =>
      rw [hip] at h
      simp only at h
      split at h
      · cases h
      rename_i hvalid
      simp only [not_or, not_not, Bool.not_eq_true] at hvalid
      split at h
      · obtain rfl := Except.ok.inj h
        exact ⟨hcard, hall⟩
      rename_i hfamily
      split at h
      · cases h
      rename_i hfits
      obtain rfl := Except.ok.inj h
      refine ⟨not_lt.mp hfits, ?_⟩
      intro ip hip
      rcases Finset.mem_insert.mp hip with rfl | hip
      · exact ⟨bits, rfl, not_not.mp hfamily, hvalid.2.1, hvalid.2.2⟩
      · exact hall ip hip

theorem selectAddresses_spec {wantIPv4 : Bool} {addresses : List IPAddr} {ips : List String}
    (h : selectAddresses wantIPv4 addresses = .ok ips) : Resolved wantIPv4 ips := by
  rw [selectAddresses] at h
  cases hfold : addresses.foldlM (selectAddress wantIPv4) ∅ with
  | error message =>
      rw [hfold] at h
      cases h
  | ok seen =>
      rw [hfold] at h
      simp only at h
      split at h
      · cases h
      rename_i hne
      obtain rfl := Except.ok.inj h
      have hseen : seen.card ≤ 64 ∧ ∀ ip ∈ seen, ∃ bits,
          ip = String.ofList (Address.ipText bits) ∧ Pinnable wantIPv4 bits := by
        refine Loops.foldlM_invariant (P := fun seen : Finset String ↦ seen.card ≤ 64 ∧ ∀ ip ∈ seen,
          ∃ bits, ip = String.ofList (Address.ipText bits) ∧ Pinnable wantIPv4 bits) ?_ ?_ hfold
        · rintro address - s t ⟨hcard, hall⟩ hstep
          exact selectAddress_spec hcard hall hstep
        · simp
      refine ⟨?_, ?_, Finset.sort_nodup _ _, ?_⟩
      · intro hnil
        apply hne
        rw [← Finset.card_eq_zero, ← Finset.length_sort (· ≤ ·), hnil]
        rfl
      · rw [Finset.length_sort]
        exact hseen.1
      · exact fun ip hip ↦ hseen.2 ip ((Finset.mem_sort _).mp hip)

theorem resolveCustomServerIPs_spec {lib : URLLibrary} {rawURL sourceIP ipFamily : String}
    {ips : List String}
    (h : (resolveCustomServerIPs lib rawURL sourceIP ipFamily).Returns (.ok ips)) :
    ∃ source, Address.parseIP sourceIP.toList = some source ∧
      Resolved (isIPv4 source) ips := by
  rw [resolveCustomServerIPs] at h
  split at h
  · cases h
  split at h
  · cases h
  split at h
  · cases h
  rename_i source hsource
  refine ⟨source, hsource, ?_⟩
  simp only at h
  split at h
  · cases h
  split at h
  · cases h
  split at h
  · cases h
  split at h
  · exact selectAddresses_spec h
  · obtain ⟨resolver, h⟩ := h
    cases resolver with
    | error message => cases h
    | ok _ =>
        obtain ⟨addresses, h⟩ := h
        cases addresses with
        | error message => cases h
        | ok addresses => exact selectAddresses_spec h

/-! ## The endpoints of a run -/

theorem isUnspecified_ofIP (ip : BitVec 128) :
    (Address.ofIP ip).isUnspecified = isUnspecified ip := Address.isUnspecified_ofIP ip

theorem isMulticast_ofIP (ip : BitVec 128) :
    (Address.ofIP ip).isMulticast = isMulticast ip := by
  rw [Address.isMulticast_ofIP, isMulticast]
  rfl

/-- The endpoint of an address at a port. -/
def EndpointOf (port : ℕ) (ip : String) (e : Endpoint) : Prop :=
  ∃ a, Address.parse ip.toList = some a ∧ e = (a, port)

theorem endpointOf_ipText {port : ℕ} {bits : BitVec 128} {e : Endpoint} :
    EndpointOf port (String.ofList (Address.ipText bits)) e ↔ e = (Address.ofIP bits, port) := by
  rw [EndpointOf, String.toList_ofList, Address.parse_ipText]
  constructor
  · rintro ⟨a, ha, rfl⟩
    rw [Option.some.inj ha]
  · rintro rfl
    exact ⟨_, rfl, rfl⟩

theorem addEndpoint_ipText {port : ℕ} {wantIPv4 : Bool} {bits : BitVec 128}
    (hbits : Pinnable wantIPv4 bits) (seen : Finset Endpoint) :
    addEndpoint port seen (String.ofList (Address.ipText bits)) =
      .ok (insert (Address.ofIP bits, port) seen) := by
  obtain ⟨-, hunspecified, hmulticast⟩ := hbits
  rw [addEndpoint, String.toList_ofList, Address.parse_ipText]
  simp only [Address.zone_ofIP, isUnspecified_ofIP, isMulticast_ofIP, hunspecified, hmulticast,
    Address.unmap_ofIP]
  simp

theorem port_url_some {l : Location} (h : l.Valid) :
    ∃ portText, number? 10 portText = some l.port ∧
      (if l.url.port ≠ [] then some l.url.port
        else if l.url.scheme = "http".toList then some "80".toList
        else if l.url.scheme = "https".toList then some "443".toList
        else none) = some portText := by
  rw [h.port_url, show l.url.scheme = l.scheme from rfl, Location.portText]
  by_cases hdefault : l.port = defaultPort l.scheme
  · rw [if_pos hdefault, if_neg (by simp), hdefault]
    rcases h.scheme with hscheme | hscheme
    · rw [hscheme]
      exact ⟨"80".toList, by decide, rfl⟩
    · rw [hscheme]
      exact ⟨"443".toList, by decide, rfl⟩
  · rw [if_neg hdefault, if_pos Nat.toDigits_ne_nil]
    exact ⟨_, number?_toDigits (by decide) (by decide) l.port, rfl⟩

/-- The endpoints of a canonical URL are the addresses at the port it stands for. -/
theorem customServerEndpoints_spec {lib : URLLibrary} (hlib : LawfulURLs lib) {l : Location}
    (hvalid : l.Valid) {wantIPv4 : Bool} {ips : List String} (hips : Resolved wantIPv4 ips) :
    ∃ seen : Finset Endpoint,
      customServerEndpoints lib (String.ofList l.text) ips =
        .ok ((seen.val.map fun e ↦ String.ofList e.text).sort (· ≤ ·)) ∧
      ∀ e, e ∈ seen ↔ ∃ ip ∈ ips, EndpointOf l.port ip e := by
  obtain ⟨seen, hfold, hseen⟩ := Loops.foldlM_insert (f := addEndpoint l.port)
    (g := EndpointOf l.port) (l := ips) (fun ip hip ↦ by
      obtain ⟨bits, rfl, hbits⟩ := hips.canonical ip hip
      exact ⟨_, fun e ↦ endpointOf_ipText, addEndpoint_ipText hbits⟩) ∅
  refine ⟨seen, ?_, by simpa using hseen⟩
  obtain ⟨portText, hport, hportText⟩ := port_url_some hvalid
  have hhostname : l.url.hostname ≠ [] := by
    rw [hvalid.hostname]
    exact hvalid.hostname_plain.1
  have hrange : ¬(l.port < 1 ∨ 65535 < l.port) := by
    have := hvalid.port
    omega
  rw [customServerEndpoints, String.toList_ofList, hvalid.parse_text hlib]
  simp only
  rw [if_neg hhostname, hportText]
  simp only [hport]
  rw [if_neg hrange, if_neg (not_or.mpr ⟨hips.nonempty, not_lt.mpr hips.length_le⟩), hfold]

/-! ## The guard -/

theorem graphic_endpoint {e : Endpoint} (hzone : e.1.zone = []) :
    ∀ c ∈ e.text, Graphic c ∧ c ≠ ',' := by
  have hdigits : ∀ c ∈ ':' :: Nat.toDigits 10 e.2, Graphic c ∧ c ≠ ',' := by
    intro c hc
    rcases List.mem_cons.mp hc with rfl | hc
    · exact ⟨⟨by decide, by decide⟩, by decide⟩
    · have hdigit := isDigit_toDigits c hc
      refine ⟨graphic_of_isDigit hdigit, ?_⟩
      rintro rfl
      cases hdigit
  obtain ⟨a, port⟩ := e
  intro c hc
  cases a with
  | v4 bits =>
      rcases List.mem_append.mp hc with hc | hc
      · rcases mem_octetsText hc with rfl | hdigit
        · exact ⟨⟨by decide, by decide⟩, by decide⟩
        · refine ⟨graphic_of_isDigit hdigit, ?_⟩
          rintro rfl
          cases hdigit
      · exact hdigits c hc
  | v6 bits zone =>
      obtain rfl : zone = [] := hzone
      rw [Endpoint.text, Address.text, if_pos rfl, List.append_nil] at hc
      rcases List.mem_append.mp hc with hc | hc
      · simp only [List.mem_append, List.mem_singleton] at hc
        rcases hc with (rfl | hc) | rfl
        · exact ⟨⟨by decide, by decide⟩, by decide⟩
        · rcases Address.mem_text6 hc with rfl | ⟨d, hd, rfl⟩ | ⟨-, rfl⟩
          · exact ⟨⟨by decide, by decide⟩, by decide⟩
          · refine ⟨graphic_digitChar hd, ?_⟩
            interval_cases d <;> decide
          · exact ⟨⟨by decide, by decide⟩, by decide⟩
        · exact ⟨⟨by decide, by decide⟩, by decide⟩
      · exact hdigits c hc

theorem trimSpaces_of_graphic {s : List Char} (h : ∀ c ∈ s, Graphic c) : trimSpaces s = s := by
  rw [trimSpaces, trimmed_of_graphic h, String.toList_ofList]

/-- An endpoint as the guard keeps it. -/
structure Guarded (e : Endpoint) : Prop where
  zone : e.1.zone = []
  unmap : e.1.unmap = e.1
  isUnspecified : e.1.isUnspecified = false
  isMulticast : e.1.isMulticast = false
  port : 0 < e.2 ∧ e.2 < 65536

theorem guardEndpoint_text {e : Endpoint} (h : Guarded e) (allowed : Finset Endpoint) :
    guardEndpoint allowed e.text = .ok (insert e allowed) := by
  have hparse : Endpoint.parse e.text = some (e.1, e.2) := Endpoint.parse_text h.port.2
  have hport : e.2 ≠ 0 := Nat.pos_iff_ne_zero.mp h.port.1
  rw [guardEndpoint, trimSpaces_of_graphic fun c hc ↦ (graphic_endpoint h.zone c hc).1, hparse]
  simp [h.zone, h.isUnspecified, h.isMulticast, h.unmap, hport]

/-- The texts of endpoints as `customServerEndpoints` lists them. -/
def endpointTexts (seen : Finset Endpoint) : List String :=
  (seen.val.map fun e ↦ String.ofList e.text).sort (· ≤ ·)

theorem mem_endpointTexts {seen : Finset Endpoint} {text : String} :
    text ∈ endpointTexts seen ↔ ∃ e ∈ seen, String.ofList e.text = text := by
  rw [endpointTexts, Multiset.mem_sort, Multiset.mem_map]
  rfl

theorem length_endpointTexts (seen : Finset Endpoint) :
    (endpointTexts seen).length = seen.card := by
  rw [endpointTexts, Multiset.length_sort, Multiset.card_map]
  rfl

section

variable {seen : Finset Endpoint}

/-- The texts of the endpoints in the order of the list. -/
def entryTexts (seen : Finset Endpoint) : List (List Char) :=
  (endpointTexts seen).map String.toList

theorem mem_entryTexts {entry : List Char} :
    entry ∈ entryTexts seen ↔ ∃ e ∈ seen, e.text = entry := by
  rw [entryTexts, List.mem_map]
  constructor
  · rintro ⟨text, htext, rfl⟩
    obtain ⟨e, he, rfl⟩ := mem_endpointTexts.mp htext
    exact ⟨e, he, String.toList_ofList.symm⟩
  · rintro ⟨e, he, rfl⟩
    exact ⟨_, mem_endpointTexts.mpr ⟨e, he, rfl⟩, String.toList_ofList⟩

theorem graphic_joined (hseen : ∀ e ∈ seen, Guarded e) :
    ∀ c ∈ [','].intercalate (entryTexts seen), Graphic c := by
  intro c hc
  rcases mem_intercalate hc with rfl | ⟨entry, hentry, hc⟩
  · exact ⟨by decide, by decide⟩
  · obtain ⟨e, he, rfl⟩ := mem_entryTexts.mp hentry
    exact (graphic_endpoint (hseen e he).zone c hc).1

theorem length_joined (hseen : ∀ e ∈ seen, Guarded e) (hcard : seen.card ≤ 64) :
    ([','].intercalate (entryTexts seen)).length ≤ 4096 := by
  have hextent : ∀ entries : List (List Char), (∀ entry ∈ entries, entry.length ≤ 47) →
      extent entries ≤ 48 * entries.length := by
    intro entries hentries
    induction entries with
    | nil => exact le_rfl
    | cons entry entries ih =>
        have hrest := ih fun e he ↦ hentries e (List.mem_cons_of_mem entry he)
        have hentry := hentries entry List.mem_cons_self
        rw [extent_cons, List.length_cons]
        omega
  have hlength := hextent (entryTexts seen) (by
    intro entry hentry
    obtain ⟨e, he, rfl⟩ := mem_entryTexts.mp hentry
    exact Endpoint.length_text_le (hseen e he).zone (hseen e he).port.2)
  rw [entryTexts, List.length_map, length_endpointTexts] at hlength
  rw [length_intercalate, entryTexts]
  omega

theorem joinComma_endpointTexts (seen : Finset Endpoint) :
    joinComma (endpointTexts seen) = String.ofList ([','].intercalate (entryTexts seen)) := rfl

/-- The value passes the limits of the runner. -/
theorem joinComma_valid (hseen : ∀ e ∈ seen, Guarded e) (hcard : seen.card ≤ 64) :
    (utf8 (joinComma (endpointTexts seen))).length ≤ maxArgumentLength ∧
      containsAny (joinComma (endpointTexts seen)) ['\x00', '\r', '\n'] = false := by
  have hgraphic := graphic_joined hseen
  rw [joinComma_endpointTexts]
  constructor
  · rw [length_utf8 fun c hc ↦ (hgraphic c hc).2.trans (by decide)]
    exact length_joined hseen hcard
  · rw [containsAny, String.toList_ofList, List.any_eq_false]
    intro c hc hmem
    have hlow := (hgraphic c hc).1
    rw [decide_eq_true_eq] at hmem
    simp only [List.mem_cons, List.not_mem_nil, or_false] at hmem
    rcases hmem with rfl | rfl | rfl <;> exact absurd hlow (by decide)

/-- The command reads the endpoints that were joined. -/
theorem restrictDialer_joined (hseen : ∀ e ∈ seen, Guarded e) (hne : seen.Nonempty)
    (hcard : seen.card ≤ 64) :
    restrictDialer (some (joinComma (endpointTexts seen)).toList) = .ok (some seen) := by
  have hlength : (entryTexts seen).length = seen.card := by
    rw [entryTexts, List.length_map, length_endpointTexts]
  have hentries : entryTexts seen ≠ [] := by
    intro hnil
    rw [hnil] at hlength
    exact hne.card_ne_zero hlength.symm
  have hsplit : ([','].intercalate (entryTexts seen)).splitOn ',' = entryTexts seen := by
    apply List.splitOn_intercalate _ _ hentries
    intro entry hentry hcomma
    obtain ⟨e, he, rfl⟩ := mem_entryTexts.mp hentry
    exact (graphic_endpoint (hseen e he).zone _ hcomma).2 rfl
  have htrim : trimSpaces ([','].intercalate (entryTexts seen)) ≠ [] := by
    rw [trimSpaces_of_graphic (graphic_joined hseen)]
    intro hnil
    rw [hnil, List.splitOn_nil] at hsplit
    obtain ⟨e, he, hempty⟩ := mem_entryTexts.mp (hsplit ▸ List.mem_singleton_self [])
    have hparse := Endpoint.parse_text (hseen e he).port.2
    rw [hempty] at hparse
    cases hparse
  obtain ⟨allowed, hfold, hmem⟩ := Loops.foldlM_insert (f := guardEndpoint)
    (g := fun entry e ↦ Endpoint.parse entry = some e) (l := entryTexts seen) (fun entry hentry ↦ by
      obtain ⟨e, he, rfl⟩ := mem_entryTexts.mp hentry
      refine ⟨e, fun e' ↦ ?_, guardEndpoint_text (hseen e he)⟩
      rw [Endpoint.parse_text (hseen e he).port.2, Option.some.injEq, eq_comm]) ∅
  have hallowed : allowed = seen := by
    ext e
    rw [hmem]
    constructor
    · rintro (h | ⟨entry, hentry, hparse⟩)
      · cases h
      · obtain ⟨e', he', rfl⟩ := mem_entryTexts.mp hentry
        rw [Endpoint.parse_text (hseen e' he').port.2] at hparse
        exact Option.some.inj hparse ▸ he'
    · exact fun he ↦ .inr
        ⟨e.text, mem_entryTexts.mpr ⟨e, he, rfl⟩, Endpoint.parse_text (hseen e he).port.2⟩
  subst hallowed
  rw [joinComma_endpointTexts, String.toList_ofList, restrictDialer]
  simp only [hsplit, hfold]
  rw [if_neg (not_or.mpr ⟨htrim, by rw [hlength]; exact not_lt.mpr hcard⟩),
    if_neg (Finset.nonempty_iff_ne_empty.mp hne)]

theorem dialError_eq_none_iff (hseen : ∀ e ∈ seen, Guarded e) {address : List Char} :
    dialError seen address = none ↔
      ∃ a port, Endpoint.parse address = some (a, port) ∧ a.zone = [] ∧
        (a.unmap, port) ∈ seen := by
  rw [dialError]
  cases hparse : Endpoint.parse address with
  | none => simp
  | some e =>
      obtain ⟨a, port⟩ := e
      simp only [Option.some.injEq, Prod.mk.injEq]
      constructor
      · intro h
        split at h
        · cases h
        rename_i hvalid
        rw [not_or, not_not] at hvalid
        split at h
        · rename_i hmem
          exact ⟨a, port, ⟨rfl, rfl⟩, hvalid.1, hmem⟩
        · cases h
      · rintro ⟨a', port', ⟨rfl, rfl⟩, hzone, hmem⟩
        have hport := (hseen _ hmem).port.1
        rw [if_neg (not_or.mpr ⟨not_not.mpr hzone, Nat.pos_iff_ne_zero.mp hport⟩), if_pos hmem]

end

end MultiSpeed.Providers.LibreSpeed
