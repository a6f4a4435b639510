import MultiSpeed.Providers.CanonicalURL

/-!
# The allowlist of custom servers

How long the canonical form of a URL is, and what this means for the allowlist that
the configuration is parsed to and that the service is started with.
-/

namespace MultiSpeed.Providers

open AddressText Network

/-! ## Lengths -/

/-- A URL of the full length whose address of version 6 has an own text one character
longer than the one it is written with, and of which nothing is left out. -/
def Outgrows (lib : URLLibrary) (raw : String) : Prop :=
  (utf8 raw).length = maxCustomServerURLBytes ∧
    ∃ u bits, lib.parseRequestURI raw.toList = some u ∧
      Address.parse u.hostname = some (.v6 bits []) ∧
      (Address.v6 bits []).text.length = u.hostname.length + 1 ∧
      (u.port = [] ∨ effectivePort lib u ≠ defaultPort (u.scheme.map lib.lower) ∧
        u.port.head? ≠ some '0') ∧
      u.path.getLast? ≠ some '/'

namespace URL

variable {u : URL}

/-- The host and the port make up the authority. -/
theorem host_eq (hlast : u.host.getLast? ≠ some ':') :
    u.host = (cutPort u.host).1 ++ (if u.port = [] then [] else ':' :: u.port) ∧
      ∀ c ∈ u.port, c.isDigit := by
  rw [port, cutPort]
  cases hcut : cutLast ':' u.host with
  | none => simp
  | some cut =>
      have heq := cutLast_eq hcut
      by_cases hdigits : cut.2.all Char.isDigit
      · by_cases hport : cut.2 = []
        · rw [hport] at heq
          rw [heq, List.getLast?_append] at hlast
          exact absurd rfl hlast
        · simp only [hdigits, if_true, if_neg hport]
          exact ⟨heq, List.all_eq_true.mp hdigits⟩
      · simp [hdigits]

theorem length_unbracket_le (host : List Char) : (unbracket host).length ≤ host.length := by
  rw [unbracket]
  split
  · rw [List.length_dropLast, List.length_tail]
    omega
  · exact le_rfl

theorem mem_unbracket {host : List Char} {c : Char} (hc : c ∈ host) :
    c ∈ unbracket host ∨ c = '[' ∨ c = ']' := by
  rw [unbracket]
  split
  · rename_i hbrackets
    obtain ⟨rest, rfl⟩ := List.head?_eq_some_iff.mp hbrackets.1
    rcases List.mem_cons.mp hc with rfl | hc
    · exact .inr (.inl rfl)
    · obtain ⟨inner, hinner⟩ := List.getLast?_eq_some_iff.mp hbrackets.2
      cases inner with
      | nil => cases hinner
      | cons c' inner =>
          obtain ⟨rfl, rfl⟩ := List.cons.inj hinner
          rcases List.mem_append.mp hc with hc | hc
          · exact .inl (by simpa using hc)
          · exact .inr (.inr (List.mem_singleton.mp hc))
  · exact .inl hc

end URL

theorem trimSuffix_of_getLast? {c : Char} {s : List Char} (h : s.getLast? ≠ some c) :
    trimSuffix c s = s := by
  rw [trimSuffix, if_neg h]

theorem length_trimSuffix (c : Char) (s : List Char) :
    (trimSuffix c s).length ≤ s.length ∧
      ((trimSuffix c s).length = s.length ↔ s.getLast? ≠ some c) := by
  rw [trimSuffix]
  split
  · rename_i hlast
    have hpos : 0 < s.length := by
      rw [List.length_pos_iff]
      rintro rfl
      cases hlast
    rw [List.length_dropLast]
    refine ⟨by omega, ?_⟩
    constructor
    · omega
    · exact fun h ↦ absurd hlast h
  · rename_i hlast
    exact ⟨le_rfl, iff_of_true rfl hlast⟩

section

variable {lib : URLLibrary} {u : URL}

/-- How a port is written after the host. -/
def portPart (port : List Char) : List Char := if port = [] then [] else ':' :: port

/-- The port of a location is not longer than the port it is read from. -/
theorem length_portText (hvalid : (u.location lib).Valid) :
    (portPart (u.location lib).portText).length ≤ (portPart u.port).length ∧
      ((portPart (u.location lib).portText).length = (portPart u.port).length ↔
        u.port = [] ∨ effectivePort lib u ≠ defaultPort (u.scheme.map lib.lower) ∧
          u.port.head? ≠ some '0') := by
  have hrange := hvalid.port.1
  have hportText : (u.location lib).portText =
      if effectivePort lib u = defaultPort (u.scheme.map lib.lower) then []
      else Nat.toDigits 10 (effectivePort lib u) := rfl
  have hrange : 1 ≤ effectivePort lib u := hrange
  rw [hportText]
  by_cases hport : u.port = []
  · have heffective : effectivePort lib u = defaultPort (u.scheme.map lib.lower) := by
      rw [effectivePort, if_pos hport]
    simp [heffective, hport]
  · have heffective : effectivePort lib u = (number? 10 u.port).getD 0 := by
      rw [effectivePort, if_neg hport]
    obtain ⟨value, hvalue⟩ : ∃ value, number? 10 u.port = some value := by
      cases hnumber : number? 10 u.port with
      | none =>
          rw [heffective, hnumber] at hrange
          cases hrange
      | some value => exact ⟨value, rfl⟩
    rw [hvalue, Option.getD_some] at heffective
    rw [heffective] at hrange ⊢
    have hpart : (portPart u.port).length = u.port.length + 1 := by
      rw [portPart, if_neg hport, List.length_cons]
    by_cases hdefault : value = defaultPort (u.scheme.map lib.lower)
    · rw [if_pos hdefault, hpart]
      refine ⟨Nat.zero_le _, ?_⟩
      constructor
      · intro h
        cases h
      · rintro (h | h)
        · exact absurd h hport
        · exact absurd hdefault h.1
    · have hle := length_toDigits_le (by decide) hport hvalue
      have hlt := length_toDigits_lt_iff (by decide) hrange hvalue
      rw [if_neg hdefault, hpart, portPart, if_neg Nat.toDigits_ne_nil, List.length_cons]
      refine ⟨by omega, ?_⟩
      simp only [hport, hdefault, false_or, ne_eq, not_false_iff, true_and, ← hlt]
      omega

theorem length_brackets {bits : BitVec 128} {zone : List Char}
    (hparse : Address.parse u.hostname = some (.v6 bits zone)) (hpercent : '%' ∉ u.hostname)
    (hbracketed : ':' ∈ u.hostname → u.host.head? = some '[')
    (hlast : u.host.getLast? ≠ some ':') :
    (URL.cutPort u.host).1.length = u.hostname.length + 2 := by
  have hcolon := Address.colon_mem_of_parse hparse
  have hhead := hbracketed hcolon
  have heq := (URL.host_eq hlast).1
  by_cases hwrapped : (URL.cutPort u.host).1.head? = some '[' ∧
      (URL.cutPort u.host).1.getLast? = some ']'
  · rw [URL.hostname, URL.unbracket, if_pos hwrapped, List.length_dropLast, List.length_tail]
    rcases hwrap : (URL.cutPort u.host).1 with _ | ⟨c, _ | ⟨c', rest⟩⟩
    · rw [hwrap] at hwrapped
      cases hwrapped.1
    · rw [hwrap] at hwrapped
      obtain rfl : c = '[' := Option.some.inj hwrapped.1
      cases hwrapped.2
    · simp
  · have hhostname : u.hostname = (URL.cutPort u.host).1 := by
      rw [URL.hostname, URL.unbracket, if_neg hwrapped]
    cases hwrap : (URL.cutPort u.host).1 with
    | nil =>
        rw [hhostname, hwrap] at hcolon
        cases hcolon
    | cons c rest =>
        rw [heq, hwrap] at hhead
        obtain rfl : c = '[' := Option.some.inj hhead
        have hmem : '[' ∈ u.hostname := by
          rw [hhostname, hwrap]
          exact List.mem_cons_self
        exact absurd (Address.addressCharacter_of_parse hparse hpercent hmem) (by decide)

/-- Only an address of version 6 may take more than it is written with. -/
theorem length_hostText (hvalid : (u.location lib).Valid) (hpercent : '%' ∉ u.hostname)
    (hbracketed : ':' ∈ u.hostname → u.host.head? = some '[')
    (hlast : u.host.getLast? ≠ some ':') :
    (u.location lib).host.text.length ≤ (URL.cutPort u.host).1.length + 1 ∧
      ((u.location lib).host.text.length = (URL.cutPort u.host).1.length + 1 ↔
        ∃ bits, Address.parse u.hostname = some (.v6 bits []) ∧
          (Address.v6 bits []).text.length = u.hostname.length + 1) := by
  have hunbracket : u.hostname.length ≤ (URL.cutPort u.host).1.length :=
    URL.length_unbracket_le _
  have hhost : (u.location lib).host = serverHost lib u.hostname := rfl
  have hvalidHost := hvalid.host
  rw [hhost] at hvalidHost ⊢
  cases hparse : Address.parse u.hostname with
  | none =>
      rw [serverHost, hparse]
      simp only [ServerHost.text, List.length_map]
      refine ⟨by omega, ?_⟩
      constructor
      · omega
      · rintro ⟨bits, h, -⟩
        cases h
  | some a =>
      rw [serverHost, hparse] at hvalidHost ⊢
      cases a with
      | v4 bits =>
          have hle := Address.length_text_v4 hparse
          simp only [ServerHost.text]
          refine ⟨by omega, ?_⟩
          constructor
          · omega
          · rintro ⟨bits, h, -⟩
            cases h
      | v6 bits zone =>
          obtain ⟨hzone, hmapped⟩ : zone = [] ∧ Address.mapped bits = false := by
            cases hvalidHost with
            | v6 _ hmapped => exact ⟨rfl, hmapped⟩
          subst hzone
          have hle := Address.length_text_v6 hparse hmapped
          have hbrackets := length_brackets hparse hpercent hbracketed hlast
          simp only [ServerHost.text, List.length_append, List.length_singleton]
          rw [hbrackets]
          refine ⟨by omega, ?_⟩
          constructor
          · intro h
            exact ⟨bits, rfl, by omega⟩
          · rintro ⟨bits', h, htext⟩
            obtain ⟨rfl, -⟩ := Address.v6.inj (Option.some.inj h)
            omega

/-- The canonical form is too long exactly where the URL outgrows the limit. -/
theorem length_text_location (hlib : LawfulURLs lib) {raw : String}
    (hplain : (utf8 raw).length ≤ maxCustomServerURLBytes)
    (hparse : lib.parseRequestURI raw.toList = some u) (hhost : u.host ≠ [])
    (hplainScheme : u.opaquePart = []) (huser : u.user = none) (hquery : u.rawQuery = [])
    (hforce : u.forceQuery = false) (hpercent : '%' ∉ u.hostname)
    (hlast : u.host.getLast? ≠ some ':') (hescaped : '%' ∉ u.escapedPath)
    (hvalid : (u.location lib).Valid) :
    maxCustomServerURLBytes < (u.location lib).text.length ↔ Outgrows lib raw := by
  obtain ⟨scheme, host, hraw, hscheme, hascii, hhostLength, hhostEq⟩ :=
    hlib.parts raw.toList u hparse hhost hplainScheme huser hquery hforce hescaped
  obtain ⟨hauthority, hdigits⟩ := URL.host_eq hlast
  have hhostText := length_hostText hvalid hpercent (hlib.bracketed raw.toList u hparse) hlast
  have hportText := length_portText hvalid
  have hpathText := length_trimSuffix '/' u.path
  have hschemeLength : (u.location lib).scheme.length = scheme.length := by
    have hlower : (u.location lib).scheme = u.scheme.map lib.lower := rfl
    rw [hlower, List.length_map, ← hscheme, List.length_map]
  have htext : (u.location lib).text.length = scheme.length + 3 +
      ((u.location lib).host.text.length + (portPart (u.location lib).portText).length) +
      (trimSuffix '/' u.path).length := by
    have hpath : (u.location lib).path = trimSuffix '/' u.path := rfl
    rw [Location.text, Location.authority, List.length_append, List.length_append,
      List.length_append, List.length_append, hschemeLength, hpath]
    rfl
  have hauthorityLength : u.host.length =
      (URL.cutPort u.host).1.length + (portPart u.port).length := by
    conv_lhs => rw [hauthority]
    rw [List.length_append]
    rfl
  have hrawLength : raw.toList.length = scheme.length + 3 + host.length + u.path.length := by
    rw [hraw, List.length_append, List.length_append, List.length_append]
    rfl
  have hbytes := length_le_utf8 raw
  constructor
  · intro hlong
    obtain ⟨bits, hbits, hbitsLength⟩ := hhostText.2.mp (by omega)
    exact ⟨by omega, u, bits, hparse, hbits, hbitsLength, hportText.2.mp (by omega),
      hpathText.2.mp (by omega)⟩
  · rintro ⟨hfull, u', bits, hparse', hbits, hbitsLength, hport, hpath⟩
    obtain rfl : u = u' := Option.some.inj (hparse.symm.trans hparse')
    have hgrown := hhostText.2.mpr ⟨bits, hbits, hbitsLength⟩
    have hsamePort := hportText.2.mpr hport
    have hsamePath := hpathText.2.mpr hpath
    have hhostAscii : ∀ c ∈ u.host, c ≠ '%' ∧ c.toNat < 128 := by
      intro c hc
      rw [hauthority, List.mem_append] at hc
      rcases hc with hc | hc
      · rcases URL.mem_unbracket hc with hc | rfl | rfl
        · have haddress := Address.addressCharacter_of_parse hbits hpercent hc
          refine ⟨?_, lt_of_addressCharacter haddress⟩
          rintro rfl
          exact hpercent hc
        · exact ⟨by decide, by decide⟩
        · exact ⟨by decide, by decide⟩
      · split at hc
        · cases hc
        · rcases List.mem_cons.mp hc with rfl | hc
          · exact ⟨by decide, by decide⟩
          · have hdigit := hdigits c hc
            refine ⟨?_, (graphic_of_isDigit hdigit).2.trans (by decide)⟩
            rintro rfl
            cases hdigit
    have hsameHost : host = u.host := by
      rcases hhostEq with heq | ⟨c, hc, hpercent | hwide⟩
      · exact heq
      · exact absurd hpercent (hhostAscii c hc).1
      · exact absurd (hhostAscii c hc).2 (not_lt.mpr hwide)
    have hrawAscii : ∀ c ∈ raw.toList, c.toNat < 128 := by
      intro c hc
      rw [hraw, hsameHost, List.mem_append, List.mem_append, List.mem_append] at hc
      rcases hc with ((hc | hc) | hc) | hc
      · exact hascii c hc
      · simp only [String.reduceToList, List.mem_cons, List.not_mem_nil, or_false] at hc
        rcases hc with rfl | rfl | rfl <;> decide
      · exact (hhostAscii c hc).2
      · have hpathEq : (u.location lib).path = u.path := trimSuffix_of_getLast? hpath
        have htextMem : c ∈ (u.location lib).text := by
          rw [Location.text, hpathEq]
          exact List.mem_append_right _ hc
        exact (hvalid.graphic c htextMem).2.trans (by decide)
    have hrawBytes := length_utf8 hrawAscii
    rw [String.ofList_toList] at hrawBytes
    rw [hsameHost] at hrawLength
    omega

/-! ## Canonical forms -/

variable {raw raw' canonical canonical' : String}

theorem canonicalCustomServerURL_eq_text (h : canonicalCustomServerURL lib raw = .ok canonical) :
    ∃ l, location lib raw = some l ∧ l.Valid ∧ canonical = String.ofList l.text := by
  obtain ⟨-, u, hparse, -, -, hvalid, hcanonical⟩ := canonicalCustomServerURL_spec h
  exact ⟨u.location lib, by rw [location, hparse]; rfl, hvalid, hcanonical⟩

theorem Location.Valid.location_text (hlib : LawfulURLs lib) {l : Location} (h : l.Valid) :
    location lib (String.ofList l.text) = some l := by
  rw [location, String.toList_ofList, h.parse_text hlib, Option.map_some, h.location_url hlib]

/-- The canonical form points where the URL points. -/
theorem location_canonical (hlib : LawfulURLs lib)
    (h : canonicalCustomServerURL lib raw = .ok canonical) :
    location lib canonical = location lib raw := by
  obtain ⟨l, hl, hvalid, rfl⟩ := canonicalCustomServerURL_eq_text h
  rw [hl, hvalid.location_text hlib]

/-- Two URLs have one canonical form exactly where they have one location. -/
theorem canonical_eq_iff (hlib : LawfulURLs lib)
    (h : canonicalCustomServerURL lib raw = .ok canonical)
    (h' : canonicalCustomServerURL lib raw' = .ok canonical') :
    canonical = canonical' ↔ location lib raw = location lib raw' := by
  constructor
  · rintro rfl
    rw [← location_canonical hlib h, location_canonical hlib h']
  · intro hlocation
    obtain ⟨l, hl, -, rfl⟩ := canonicalCustomServerURL_eq_text h
    obtain ⟨l', hl', -, rfl⟩ := canonicalCustomServerURL_eq_text h'
    rw [hl, hl'] at hlocation
    rw [Option.some.inj hlocation]

theorem canonical_stable_iff (hlib : LawfulURLs lib)
    (h : canonicalCustomServerURL lib raw = .ok canonical) :
    canonicalCustomServerURL lib canonical = .ok canonical ↔ ¬Outgrows lib raw := by
  obtain ⟨hplain, u, hparse, ⟨hhost, hplainScheme, huser, hquery, hforce⟩,
    ⟨hpercent, hlast, hescaped⟩, hvalid, rfl⟩ := canonicalCustomServerURL_spec h
  rw [hvalid.canonicalCustomServerURL_text hlib, ← length_text_location hlib hplain.2.1 hparse
    hhost hplainScheme huser hquery hforce hpercent hlast hescaped hvalid]
  split
  · rename_i hlong
    exact iff_of_false nofun (not_not.mpr hlong)
  · rename_i hshort
    exact iff_of_true rfl hshort

/-- A canonical form that is accepted is its own. -/
theorem canonical_of_accepted (hlib : LawfulURLs lib)
    (h : canonicalCustomServerURL lib raw = .ok canonical)
    (h' : canonicalCustomServerURL lib canonical = .ok canonical') : canonical' = canonical :=
  ((canonical_eq_iff hlib h h').mpr (location_canonical hlib h).symm).symm

/-! ## Policies -/

theorem allowEntries_ok_iff {entries : List String} {start : ℕ} {allowed result : Finset String} :
    (entries.zipIdx start).foldlM (allowEntry lib) allowed = .ok result ↔
      (∀ entry ∈ entries, ∃ canonical, canonicalCustomServerURL lib entry = .ok canonical) ∧
      ∀ canonical, canonical ∈ result ↔ canonical ∈ allowed ∨
        ∃ entry ∈ entries, canonicalCustomServerURL lib entry = .ok canonical := by
  induction entries generalizing start allowed with
  | nil =>
      rw [List.zipIdx_nil, List.foldlM_nil]
      constructor
      · intro h
        obtain rfl := Except.ok.inj h
        simp
      · rintro ⟨-, h⟩
        have hsame : allowed = result := by
          ext canonical
          rw [h]
          simp
        rw [hsame]
        rfl
  | cons entry entries ih =>
      rw [List.zipIdx_cons, List.foldlM_cons, allowEntry]
      cases hentry : canonicalCustomServerURL lib entry with
      | error err =>
          constructor
          · intro h
            cases h
          · rintro ⟨h, -⟩
            obtain ⟨canonical, hcanonical⟩ := h entry List.mem_cons_self
            rw [hentry] at hcanonical
            cases hcanonical
      | ok canonical =>
          have hrest := @ih (start + 1) (insert canonical allowed)
          simp only [bind, Except.bind]
          rw [hrest]
          simp only [List.mem_cons, forall_eq_or_imp, exists_eq_or_imp, hentry,
            Except.ok.injEq, exists_eq', true_and, Finset.mem_insert]
          refine and_congr Iff.rfl (forall_congr' fun canonical' ↦ ?_)
          rw [eq_comm (a := canonical') (b := canonical), or_assoc, or_left_comm]

theorem newCustomServerURLPolicy_ok_iff {entries : List String}
    {policy : CustomServerURLPolicy} :
    newCustomServerURLPolicy lib entries = .ok policy ↔
      (∀ entry ∈ entries, ∃ canonical, canonicalCustomServerURL lib entry = .ok canonical) ∧
      ∀ canonical, canonical ∈ policy.allowed ↔
        ∃ entry ∈ entries, canonicalCustomServerURL lib entry = .ok canonical := by
  have hentries := @allowEntries_ok_iff lib entries 0 ∅ policy.allowed
  simp only [Finset.notMem_empty, false_or] at hentries
  rw [newCustomServerURLPolicy, ← hentries]
  cases (entries.zipIdx 0).foldlM (allowEntry lib) ∅ with
  | error err => exact iff_of_false nofun nofun
  | ok allowed =>
      simp only [Except.map, Except.ok.injEq]
      constructor
      · rintro rfl
        rfl
      · rintro rfl
        rfl

/-- The policy that is built of the list has the list again. -/
def RebuildsUnchanged (lib : URLLibrary) (urls : List String) : Prop :=
  ∃ policy, newCustomServerURLPolicy lib urls = .ok policy ∧ policy.urls = urls

/-- The entries of the configured text. -/
def configuredEntries (raw : String) : List String :=
  if trimmed raw = "" then []
  else (raw.toList.splitOn ',').map fun entry ↦ trimmed (String.ofList entry)

theorem mem_urls {policy : CustomServerURLPolicy} {url : String} :
    url ∈ policy.urls ↔ url ∈ policy.allowed := Finset.mem_sort _

theorem parseAllowedCustomServerURLs_eq {text : String} {urls : List String}
    (h : parseAllowedCustomServerURLs lib text = .ok urls) :
    ∃ policy, newCustomServerURLPolicy lib (configuredEntries text) = .ok policy ∧
      policy.urls = urls := by
  rw [parseAllowedCustomServerURLs] at h
  rw [configuredEntries]
  split at h
  · rename_i hempty
    obtain rfl := Except.ok.inj h
    rw [if_pos hempty]
    exact ⟨⟨∅⟩, rfl, Finset.sort_empty _⟩
  · rename_i hne
    simp only at h
    split at h
    · cases h
    · obtain ⟨policy, hpolicy, h⟩ := Loops.bind_eq_ok h
      rw [if_neg hne]
      exact ⟨policy, hpolicy, Except.ok.inj h⟩

/-- The configured list can be used exactly where none of its entries outgrows the limit. -/
theorem rebuildsUnchanged_iff (hlib : LawfulURLs lib) {text : String} {urls : List String}
    (h : parseAllowedCustomServerURLs lib text = .ok urls) :
    RebuildsUnchanged lib urls ↔ ∀ entry ∈ configuredEntries text, ¬Outgrows lib entry := by
  obtain ⟨policy, hpolicy, rfl⟩ := parseAllowedCustomServerURLs_eq h
  obtain ⟨haccepted, hallowed⟩ := newCustomServerURLPolicy_ok_iff.mp hpolicy
  constructor
  · rintro ⟨rebuilt, hrebuilt, -⟩ entry hentry
    obtain ⟨canonical, hcanonical⟩ := haccepted entry hentry
    have hmem : canonical ∈ policy.urls := mem_urls.mpr ((hallowed _).mpr ⟨entry, hentry, hcanonical⟩)
    obtain ⟨again, hagain⟩ := (newCustomServerURLPolicy_ok_iff.mp hrebuilt).1 canonical hmem
    rw [← canonical_stable_iff hlib hcanonical]
    rwa [canonical_of_accepted hlib hcanonical hagain] at hagain
  · intro hfits
    have hstable : ∀ url ∈ policy.urls, canonicalCustomServerURL lib url = .ok url := by
      intro url hurl
      obtain ⟨entry, hentry, hcanonical⟩ := (hallowed url).mp (mem_urls.mp hurl)
      exact (canonical_stable_iff hlib hcanonical).mpr (hfits entry hentry)
    refine ⟨policy, newCustomServerURLPolicy_ok_iff.mpr ⟨?_, ?_⟩, rfl⟩
    · exact fun url hurl ↦ ⟨url, hstable url hurl⟩
    · intro canonical
      rw [← mem_urls]
      constructor
      · exact fun hmem ↦ ⟨canonical, hmem, hstable canonical hmem⟩
      · rintro ⟨url, hurl, hcanonical⟩
        rw [hstable url hurl] at hcanonical
        rwa [← Except.ok.inj hcanonical]

/-- The location is reached without encryption. -/
def Insecure (lib : URLLibrary) (url : String) : Prop :=
  ∃ l, location lib url = some l ∧ l.scheme = "http".toList

theorem take_canonical_iff (hlib : LawfulURLs lib)
    (h : canonicalCustomServerURL lib raw = .ok canonical) :
    canonical.toList.take 7 = "http://".toList ↔ Insecure lib canonical := by
  obtain ⟨l, -, hvalid, rfl⟩ := canonicalCustomServerURL_eq_text h
  have hlocation := hvalid.location_text hlib
  have hscheme : (String.ofList l.text).toList.take 7 = "http://".toList ↔
      l.scheme = "http".toList := by
    rw [String.toList_ofList, Location.text]
    rcases hvalid.scheme with hhttp | hhttps
    · rw [hhttp]
      exact iff_of_true rfl rfl
    · rw [hhttps]
      exact iff_of_false (by simp) (by decide)
  rw [hscheme]
  constructor
  · exact fun hhttp ↦ ⟨l, hlocation, hhttp⟩
  · rintro ⟨l', hl', hhttp⟩
    rw [hlocation] at hl'
    rwa [Option.some.inj hl']

theorem authorize_ok_iff (hlib : LawfulURLs lib) {entries : List String}
    {policy : CustomServerURLPolicy} (hpolicy : newCustomServerURLPolicy lib entries = .ok policy)
    {allowInsecure : Bool} {url : String} :
    policy.authorize lib raw allowInsecure = .ok url ↔
      url ∈ policy.urls ∧ (∃ canonical, canonicalCustomServerURL lib raw = .ok canonical) ∧
        location lib url = location lib raw ∧ (Insecure lib url → allowInsecure = true) := by
  have hallowed := (newCustomServerURLPolicy_ok_iff.mp hpolicy).2
  rw [CustomServerURLPolicy.authorize, mem_urls]
  cases hraw : canonicalCustomServerURL lib raw with
  | error err =>
      constructor
      · intro h
        cases h
      · rintro ⟨-, ⟨canonical, h⟩, -⟩
        cases h
  | ok canonical =>
      have hlocation := location_canonical hlib hraw
      simp only
      constructor
      · intro h
        split at h
        · cases h
        rename_i hsecure
        split at h
        · rename_i hmem
          obtain rfl := Except.ok.inj h
          refine ⟨hmem, ⟨canonical, rfl⟩, hlocation, ?_⟩
          intro hinsecure
          have htake := (take_canonical_iff hlib hraw).mpr hinsecure
          simpa [htake] using hsecure
        · cases h
      · rintro ⟨hmem, -, hsame, hinsecure⟩
        obtain ⟨entry, -, hentry⟩ := (hallowed url).mp hmem
        have heq : url = canonical := by
          rw [canonical_eq_iff hlib hentry hraw, ← location_canonical hlib hentry, hsame]
        subst heq
        rw [if_neg, if_pos hmem]
        rintro ⟨htake, hnot⟩
        exact hnot (hinsecure ((take_canonical_iff hlib hraw).mp htake))

/-- A canonical form is its own exactly where the URL does not outgrow the limit, and
one form has one location.  The allowlist answers with the configured form of the
location that is asked for, and can be configured again unless an entry outgrows the
limit. -/
theorem customServerURLs_canonical (hlib : LawfulURLs lib) :
    (∀ raw canonical, canonicalCustomServerURL lib raw = .ok canonical →
      (canonicalCustomServerURL lib canonical = .ok canonical ↔ ¬Outgrows lib raw)) ∧
    (∀ raw raw' canonical canonical', canonicalCustomServerURL lib raw = .ok canonical →
      canonicalCustomServerURL lib raw' = .ok canonical' →
      (canonical = canonical' ↔ location lib raw = location lib raw')) ∧
    (∀ entries policy, newCustomServerURLPolicy lib entries = .ok policy →
      (∀ url, url ∈ policy.urls ↔
        ∃ entry ∈ entries, canonicalCustomServerURL lib entry = .ok url) ∧
      ∀ raw allowInsecure url, policy.authorize lib raw allowInsecure = .ok url ↔
        url ∈ policy.urls ∧ (∃ canonical, canonicalCustomServerURL lib raw = .ok canonical) ∧
          location lib url = location lib raw ∧ (Insecure lib url → allowInsecure = true)) ∧
    ∀ text urls, parseAllowedCustomServerURLs lib text = .ok urls →
      (RebuildsUnchanged lib urls ↔ ∀ entry ∈ configuredEntries text, ¬Outgrows lib entry) := by
  refine ⟨?_, ?_, ?_, ?_⟩
  · exact fun raw canonical h ↦ canonical_stable_iff hlib h
  · exact fun raw raw' canonical canonical' h h' ↦ canonical_eq_iff hlib h h'
  · intro entries policy hpolicy
    refine ⟨?_, fun raw allowInsecure url ↦ authorize_ok_iff hlib hpolicy⟩
    intro url
    rw [mem_urls]
    exact (newCustomServerURLPolicy_ok_iff.mp hpolicy).2 url
  · exact fun text urls h ↦ rebuildsUnchanged_iff hlib h

end

/-! ## A library -/

/-- A character of an authority that is not decoded. -/
def authorityCharacter (c : Char) : Bool :=
  plainCharacter c || c.isUpper || c = ':' || c = '[' || c = ']'

/-- The reading of URLs that have nothing but a scheme, a host, a port and a path. -/
def plainLibrary : URLLibrary where
  lower := Char.toLower
  parseRequestURI raw :=
    let scheme := raw.takeWhile (· ≠ ':')
    let rest := raw.dropWhile (· ≠ ':')
    let authority := (rest.drop 3).takeWhile (· ≠ '/')
    let path := (rest.drop 3).dropWhile (· ≠ '/')
    let url := plainURL (scheme.map Char.toLower) authority path
    if rest.take 3 = "://".toList ∧ scheme.all Char.isAlpha ∧ authority.all authorityCharacter ∧
        path.all pathCharacter ∧ (':' ∈ url.hostname → authority.head? = some '[') then
      some url
    else none

theorem parse_plainLibrary {raw : List Char} {u : URL}
    (h : plainLibrary.parseRequestURI raw = some u) :
    ∃ scheme authority path, raw = scheme ++ "://".toList ++ authority ++ path ∧
      u = plainURL (scheme.map Char.toLower) authority path ∧ scheme.all Char.isAlpha ∧
      (':' ∈ u.hostname → authority.head? = some '[') := by
  simp only [plainLibrary] at h
  split at h
  · rename_i hplain
    obtain ⟨hmark, hscheme, -, -, hbrackets⟩ := hplain
    obtain rfl := Option.some.inj h
    refine ⟨_, _, _, ?_, rfl, hscheme, hbrackets⟩
    rw [List.append_assoc, List.takeWhile_append_dropWhile, ← hmark, List.append_assoc,
      List.take_append_drop, List.takeWhile_append_dropWhile]
  · cases h

theorem plainCharacter_digitChar {d : ℕ} (hd : d < 16) : plainCharacter d.digitChar := by
  interval_cases d <;> rfl

theorem authorityCharacter_of_plainCharacter {c : Char} (h : plainCharacter c) :
    authorityCharacter c := by
  simp [authorityCharacter, h]

theorem authorityCharacter_of_plain {host port : List Char} (hhost : PlainHost host)
    (hport : PlainPort port) : ∀ c ∈ host ++ port, authorityCharacter c := by
  intro c hc
  rcases List.mem_append.mp hc with hc | hc
  · rcases hhost with ⟨-, hall⟩ | ⟨bits, hmapped, rfl⟩
    · exact authorityCharacter_of_plainCharacter (hall c hc)
    · simp only [List.mem_append, List.mem_singleton] at hc
      rcases hc with (rfl | hc) | rfl
      · rfl
      · rcases Address.mem_text6 hc with rfl | ⟨d, hd, rfl⟩ | ⟨-, rfl⟩
        · rfl
        · exact authorityCharacter_of_plainCharacter (plainCharacter_digitChar hd)
        · rfl
      · rfl
  · rcases hport with rfl | ⟨n, rfl⟩
    · cases hc
    · rcases List.mem_cons.mp hc with rfl | hc
      · rfl
      · exact authorityCharacter_of_plainCharacter
          (plainCharacter_of_isDigit (isDigit_toDigits c hc))

theorem plainLibrary_eq {scheme authority path : List Char}
    (hscheme : scheme = "http".toList ∨ scheme = "https".toList)
    (hauthority : ∀ c ∈ authority, authorityCharacter c) (hpath : PlainPath path)
    (hbrackets : ':' ∈ (plainURL scheme authority path).hostname →
      authority.head? = some '[') :
    plainLibrary.parseRequestURI (scheme ++ "://".toList ++ authority ++ path) =
      some (plainURL scheme authority path) := by
  have hslash : ∀ c ∈ authority, decide (c ≠ '/') = true := by
    intro c hc
    rw [decide_eq_true_eq]
    rintro rfl
    exact absurd (hauthority _ hc) (by decide)
  have hpathTake : path.takeWhile (· ≠ '/') = [] ∧ path.dropWhile (· ≠ '/') = path := by
    rcases hpath with rfl | ⟨hhead, -⟩
    · exact ⟨rfl, rfl⟩
    · obtain ⟨rest, rfl⟩ := List.head?_eq_some_iff.mp hhead
      exact ⟨by simp, by simp⟩
  have htake : (authority ++ path).takeWhile (· ≠ '/') = authority := by
    rw [List.takeWhile_append_of_pos hslash, hpathTake.1, List.append_nil]
  have hdrop : (authority ++ path).dropWhile (· ≠ '/') = path := by
    rw [List.dropWhile_append_of_pos hslash, hpathTake.2]
  have hpathCharacters : path.all pathCharacter := by
    rcases hpath with rfl | ⟨-, hall⟩
    · rfl
    · exact List.all_eq_true.mpr hall
  have hparts : (scheme ++ "://".toList ++ authority ++ path).takeWhile (· ≠ ':') = scheme ∧
      (scheme ++ "://".toList ++ authority ++ path).dropWhile (· ≠ ':') =
        "://".toList ++ (authority ++ path) ∧
      scheme.map Char.toLower = scheme ∧ scheme.all Char.isAlpha := by
    rcases hscheme with rfl | rfl
    · exact ⟨by simp, by simp, rfl, rfl⟩
    · exact ⟨by simp, by simp, rfl, rfl⟩
  obtain ⟨hbefore, hafter, hlower, halpha⟩ := hparts
  have hthree : ("://".toList ++ (authority ++ path)).drop 3 = authority ++ path := rfl
  simp only [plainLibrary, hbefore, hafter, hlower]
  rw [hthree, htake, hdrop, if_pos]
  exact ⟨rfl, halpha, List.all_eq_true.mpr hauthority, hpathCharacters, hbrackets⟩

theorem plainLibrary_parse {scheme host port path : List Char}
    (hscheme : scheme = "http".toList ∨ scheme = "https".toList) (hhost : PlainHost host)
    (hport : PlainPort port) (hpath : PlainPath path) :
    plainLibrary.parseRequestURI (scheme ++ "://".toList ++ (host ++ port) ++ path) =
      some (plainURL scheme (host ++ port) path) := by
  obtain ⟨digits, hdigits, hportText⟩ : ∃ digits : List Char, (∀ c ∈ digits, c.isDigit) ∧
      port = if digits = [] then [] else ':' :: digits := by
    rcases hport with rfl | ⟨n, rfl⟩
    · exact ⟨[], by simp, rfl⟩
    · exact ⟨Nat.toDigits 10 n, isDigit_toDigits, by rw [if_neg Nat.toDigits_ne_nil]⟩
  apply plainLibrary_eq hscheme (authorityCharacter_of_plain hhost hport) hpath
  intro hcolon
  rw [URL.hostname, show (plainURL scheme (host ++ port) path).host = host ++ port from rfl,
    hportText, hhost.cutPort hdigits] at hcolon
  rcases hhost with ⟨-, hall⟩ | ⟨bits, -, rfl⟩
  · rw [URL.unbracket_of_head?] at hcolon
    · exact absurd rfl (ne_of_plainCharacter (hall _ hcolon) (by decide))
    · intro hhead
      exact ne_of_plainCharacter (hall _ (List.mem_of_mem_head? hhead)) (by decide) rfl
  · rfl

theorem lawful_plainLibrary : LawfulURLs plainLibrary where
  lower_ascii := fun _ _ ↦ rfl
  parse_plain := fun _ _ _ _ ↦ plainLibrary_parse
  parts := by
    intro raw u hparse _ _ _ _ _ _
    obtain ⟨scheme, authority, path, hraw, rfl, halpha, -⟩ := parse_plainLibrary hparse
    refine ⟨scheme, authority, hraw, rfl, ?_, le_rfl, .inl rfl⟩
    intro c hc
    have hletter := List.all_eq_true.mp halpha c hc
    rw [isAlpha_iff, isUpper_iff_toNat, isLower_iff_toNat] at hletter
    omega
  bracketed := by
    intro raw u hparse hcolon
    obtain ⟨scheme, authority, path, -, rfl, -, hbrackets⟩ := parse_plainLibrary hparse
    exact hbrackets hcolon

/-- An address whose own text is one character longer. -/
def shortGroups : List Char := ['1', ':', ':', '3', ':', '4', ':', '5', ':', '6', ':', '7', ':', '8']

/-- A URL with `n + 1` letters in its path. -/
def paddedText (n : ℕ) : List Char :=
  "https".toList ++ "://".toList ++ (['['] ++ shortGroups ++ [']']) ++
    '/' :: List.replicate (n + 1) 'a'

def paddedParts (n : ℕ) : URL :=
  plainURL "https".toList (['['] ++ shortGroups ++ [']']) ('/' :: List.replicate (n + 1) 'a')

section

variable (n : ℕ)

theorem hostname_paddedParts : (paddedParts n).hostname = shortGroups := by
  have hhost : (paddedParts n).host = (['['] ++ shortGroups ++ [']']) := rfl
  rw [URL.hostname, hhost, URL.cutPort_brackets, URL.unbracket_brackets]

theorem port_paddedParts : (paddedParts n).port = [] := by
  have hhost : (paddedParts n).host = (['['] ++ shortGroups ++ [']']) := rfl
  rw [URL.port, hhost, URL.cutPort_brackets]

theorem parse_hostname_paddedParts : Address.parse (paddedParts n).hostname =
    some (.v6 0x00010000000300040005000600070008 []) := by
  rw [hostname_paddedParts]
  decide +kernel

theorem validSegments_padded : validSegments ('/' :: List.replicate (n + 1) 'a') := by
  have hsegment : (trimPrefix '/' ('/' :: List.replicate (n + 1) 'a')).splitOn '/' =
      [List.replicate (n + 1) 'a'] := by
    apply List.splitOn_eq_singleton
    intro hmem
    exact absurd (List.eq_of_mem_replicate hmem) (by decide)
  have hvalid : validCustomServerPathSegment (List.replicate (n + 1) 'a') := by
    apply List.all_eq_true.mpr
    intro c hc
    rw [List.eq_of_mem_replicate hc]
    rfl
  rw [validSegments, hsegment, List.all_cons, List.all_nil, Bool.and_true, hvalid,
    List.replicate_succ]
  simp

theorem plainPath_padded : PlainPath ('/' :: List.replicate (n + 1) 'a') :=
  .inr ⟨rfl, pathCharacter_of_validSegments (validSegments_padded n)⟩

theorem parse_paddedText :
    plainLibrary.parseRequestURI (paddedText n) = some (paddedParts n) := by
  apply plainLibrary_eq (.inr rfl)
  · exact List.all_eq_true.mp rfl
  · exact plainPath_padded n
  · exact fun _ ↦ rfl

theorem graphic_paddedText : ∀ c ∈ paddedText n, Graphic c := by
  intro c hc
  rcases List.mem_append.mp hc with hc | hc
  · have hall : ("https".toList ++ "://".toList ++ (['['] ++ shortGroups ++ [']'])).all
        (fun c ↦ decide (32 < c.toNat ∧ c.toNat < 127)) := rfl
    have hchar := of_decide_eq_true (List.all_eq_true.mp hall c hc)
    exact ⟨hchar.1, hchar.2⟩
  · exact graphic_of_pathCharacter
      (pathCharacter_of_validSegments (validSegments_padded n) c hc)

theorem length_paddedText : (utf8 (String.ofList (paddedText n))).length = 26 + n := by
  have hlength : (paddedText n).length = 24 + ('/' :: List.replicate (n + 1) 'a').length :=
    List.length_append
  rw [List.length_cons, List.length_replicate] at hlength
  have hascii : ∀ c ∈ paddedText n, c.toNat < 128 := by
    intro c hc
    have hgraphic := (graphic_paddedText n c hc).2
    omega
  rw [length_utf8 hascii, hlength]
  omega

theorem outgrows_paddedText (hn : 26 + n = maxCustomServerURLBytes) :
    Outgrows plainLibrary (String.ofList (paddedText n)) := by
  refine ⟨by rw [length_paddedText, hn], paddedParts n, _, by rw [String.toList_ofList, parse_paddedText],
    parse_hostname_paddedParts n, ?_, .inl ?_, ?_⟩
  · rw [hostname_paddedParts]
    decide +kernel
  · exact port_paddedParts n
  · have hpath : (paddedParts n).path = '/' :: List.replicate (n + 1) 'a' := rfl
    intro hlast
    rw [hpath, List.replicate_succ', List.getLast?_cons] at hlast
    simp at hlast

def paddedLocation : Location where
  scheme := "https".toList
  host := .address (.v6 0x00010000000300040005000600070008 [])
  port := 443
  path := '/' :: List.replicate (n + 1) 'a'

theorem valid_paddedLocation : (paddedLocation n).Valid where
  scheme := .inr rfl
  host := .v6 _ (by decide)
  port := by simp [paddedLocation]
  path := .inr ⟨rfl, validSegments_padded n⟩

theorem canonicalHost_padded : canonicalCustomServerHost plainLibrary (paddedParts n) =
    .ok ((paddedLocation n).host.hostname, (paddedLocation n).host.ipv6) := by
  have hplain : ¬((paddedParts n).hostname = [] ∨ '%' ∈ (paddedParts n).hostname) := by
    rw [hostname_paddedParts]
    decide
  rw [canonicalCustomServerHost]
  simp only [parse_hostname_paddedParts]
  rw [if_neg hplain]
  rfl

theorem canonicalPort_padded :
    canonicalCustomServerPort (paddedParts n) "https".toList = .ok [] := by
  have hhost : (paddedParts n).host = (['['] ++ shortGroups ++ [']']) := rfl
  rw [canonicalCustomServerPort, port_paddedParts, hhost, if_neg (by decide), if_pos rfl]

theorem canonicalPath_padded :
    canonicalCustomServerPath (paddedParts n) = .ok (paddedLocation n).path :=
  (valid_paddedLocation n).canonicalPath

theorem accepted_paddedText (hn : 26 + n ≤ maxCustomServerURLBytes) : ∃ canonical,
    canonicalCustomServerURL plainLibrary (String.ofList (paddedText n)) = .ok canonical := by
  have hgraphic := graphic_paddedText n
  have hne : String.ofList (paddedText n) ≠ "" := by
    intro hempty
    have hlength := length_paddedText n
    rw [hempty] at hlength
    simp [utf8] at hlength
    omega
  have hscheme : (paddedParts n).scheme.map plainLibrary.lower = "https".toList := rfl
  rw [canonicalCustomServerURL, length_paddedText, trimmed_of_graphic hgraphic,
    String.toList_ofList, not_unsafe_of_graphic hgraphic,
    if_neg (by simp [hne, hn]), parse_paddedText]
  simp only [hscheme, canonicalHost_padded, canonicalPort_padded, canonicalPath_padded]
  exact ⟨_, rfl⟩

end

theorem canonical_not_accepted : LawfulURLs plainLibrary ∧ ∃ canonical,
    canonicalCustomServerURL plainLibrary (String.ofList (paddedText 2022)) = .ok canonical ∧
      canonicalCustomServerURL plainLibrary canonical ≠ .ok canonical := by
  obtain ⟨canonical, hcanonical⟩ := accepted_paddedText 2022 le_rfl
  refine ⟨lawful_plainLibrary, canonical, hcanonical, ?_⟩
  rw [ne_eq, canonical_stable_iff lawful_plainLibrary hcanonical, not_not]
  exact outgrows_paddedText 2022 rfl

theorem customServerURLs_canonical_upper :
    location plainLibrary "HTTP://A.B:80/" = location plainLibrary "http://a.b" :=
  ((customServerURLs_canonical lawful_plainLibrary).2.1 _ _ "http://a.b" "http://a.b"
    (by decide +kernel) (by decide +kernel)).mp rfl

end MultiSpeed.Providers
