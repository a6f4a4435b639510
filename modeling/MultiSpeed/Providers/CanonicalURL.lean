import MultiSpeed.Lib.Loops
import MultiSpeed.Api.Validation
import MultiSpeed.Lib.AddressLength
import MultiSpeed.Providers.CustomServerURL

/-!
# Canonical custom server URLs

Where a URL points is a scheme, a host, a port and a path.  The canonical form of a
URL is the text of its location, and a text of a location points there, so that two
URLs with one canonical form have one location.  The canonical form is its own
canonical form unless writing out an address of version 6 takes it over the limit.
-/

namespace MultiSpeed.Providers

open AddressText Network

/-! ## The library -/

def plainCharacter (c : Char) : Bool := c = '.' || isHostCharacter c

/-- A name, octets, or groups in brackets. -/
def PlainHost (host : List Char) : Prop :=
  (host ≠ [] ∧ ∀ c ∈ host, plainCharacter c) ∨
    ∃ bits, Address.mapped bits = false ∧ host = ['['] ++ Address.text6 bits ++ [']']

def PlainPort (port : List Char) : Prop := port = [] ∨ ∃ n, port = ':' :: Nat.toDigits 10 n

def pathCharacter (c : Char) : Bool := c = '/' || validCustomServerPathSegment [c]

def PlainPath (path : List Char) : Prop :=
  path = [] ∨ path.head? = some '/' ∧ ∀ c ∈ path, pathCharacter c

/-- A URL of a scheme, an authority and a path of which nothing is decoded. -/
def plainURL (scheme authority path : List Char) : URL where
  scheme := scheme
  opaquePart := []
  user := none
  host := authority
  path := path
  escapedPath := path
  forceQuery := false
  rawQuery := []
  fragment := []
  rawFragment := []

/-- What is relied on of `url.ParseRequestURI` and `unicode.ToLower`. -/
structure LawfulURLs (lib : URLLibrary) : Prop where
  lower_ascii : ∀ c, c.toNat < 128 → lib.lower c = c.toLower
  /-- The generic syntax, where no character has to be decoded. -/
  parse_plain : ∀ scheme host port path,
    scheme = "http".toList ∨ scheme = "https".toList → PlainHost host → PlainPort port →
    PlainPath path →
    lib.parseRequestURI (scheme ++ "://".toList ++ (host ++ port) ++ path) =
      some (plainURL scheme (host ++ port) path)
  /-- A text without credentials and query is its scheme, its host and its path.  The scheme
  is read in lower case, and the host is decoded only where this leaves a character
  that is not ASCII or the `%` of a zone. -/
  parts : ∀ raw u, lib.parseRequestURI raw = some u → u.host ≠ [] → u.opaquePart = [] →
    u.user = none → u.rawQuery = [] → u.forceQuery = false → '%' ∉ u.escapedPath →
    ∃ scheme host, raw = scheme ++ "://".toList ++ host ++ u.path ∧
      scheme.map Char.toLower = u.scheme ∧ (∀ c ∈ scheme, c.toNat < 128) ∧
      u.host.length ≤ host.length ∧
      (host = u.host ∨ ∃ c ∈ u.host, c = '%' ∨ 128 ≤ c.toNat)
  /-- A host that has colons is in brackets. -/
  bracketed : ∀ raw u, lib.parseRequestURI raw = some u → ':' ∈ u.hostname →
    u.host.head? = some '['

/-! ## Locations -/

/-- A host as it is compared, an address by its value and a name without its case. -/
inductive ServerHost where
  | address (a : Address)
  | name (n : List Char)
  deriving DecidableEq

structure Location where
  scheme : List Char
  host : ServerHost
  port : ℕ
  path : List Char
  deriving DecidableEq

def defaultPort (scheme : List Char) : ℕ := if scheme = "http".toList then 80 else 443

section

variable (lib : URLLibrary)

def serverHost (hostname : List Char) : ServerHost :=
  match Address.parse hostname with
  | some a => .address a
  | none => .name (hostname.map lib.lower)

def effectivePort (u : URL) : ℕ :=
  if u.port = [] then defaultPort (u.scheme.map lib.lower) else (number? 10 u.port).getD 0

/-- Where a URL points.  One slash at the end of the path makes no difference. -/
def URL.location (u : URL) : Location where
  scheme := u.scheme.map lib.lower
  host := serverHost lib u.hostname
  port := effectivePort lib u
  path := trimSuffix '/' u.path

def location (raw : String) : Option Location :=
  (lib.parseRequestURI raw.toList).map (URL.location lib)

end

namespace ServerHost

/-- The host as it stands in a URL. -/
def text : ServerHost → List Char
  | address (.v4 bits) => (Address.v4 bits).text
  | address (.v6 bits zone) => ['['] ++ (Address.v6 bits zone).text ++ [']']
  | name n => n

inductive Valid : ServerHost → Prop where
  | v4 (bits : BitVec 32) : Valid (address (.v4 bits))
  | v6 (bits : BitVec 128) : Address.mapped bits = false → Valid (address (.v6 bits []))
  | name (n : List Char) : validHostname n → numericHostnameLookalike n = false → Valid (name n)

end ServerHost

def validSegments (path : List Char) : Bool :=
  ((trimPrefix '/' path).splitOn '/').all fun segment ↦
    !(segment = [] || segment = ['.'] || segment = ['.', '.'] ||
      !validCustomServerPathSegment segment)

namespace Location

/-- The port as it is written, which the default port is not. -/
def portText (l : Location) : List Char :=
  if l.port = defaultPort l.scheme then [] else Nat.toDigits 10 l.port

def authority (l : Location) : List Char :=
  l.host.text ++ if l.portText = [] then [] else ':' :: l.portText

def text (l : Location) : List Char := l.scheme ++ "://".toList ++ l.authority ++ l.path

def url (l : Location) : URL := plainURL l.scheme l.authority l.path

/-- The locations that URLs may have. -/
structure Valid (l : Location) : Prop where
  scheme : l.scheme = "http".toList ∨ l.scheme = "https".toList
  host : l.host.Valid
  port : 1 ≤ l.port ∧ l.port ≤ 65535
  path : l.path = [] ∨ l.path.head? = some '/' ∧ validSegments l.path

end Location

/-! ## Characters -/

/-- Neither white space nor a control character, and one byte long. -/
def Graphic (c : Char) : Prop := 32 < c.toNat ∧ c.toNat < 127

theorem isLower_iff_toNat {c : Char} : c.isLower ↔ 97 ≤ c.toNat ∧ c.toNat ≤ 122 := by
  change (decide _ && decide _) = true ↔ _
  rw [Bool.and_eq_true, decide_eq_true_eq, decide_eq_true_eq]
  rfl

theorem isUpper_iff_toNat {c : Char} : c.isUpper ↔ 65 ≤ c.toNat ∧ c.toNat ≤ 90 := by
  change decide _ = true ↔ _
  rw [decide_eq_true_eq]
  rfl

theorem isAlpha_iff {c : Char} : c.isAlpha ↔ c.isUpper ∨ c.isLower :=
  Bool.or_eq_true_iff

theorem isHostCharacter_iff {c : Char} :
    isHostCharacter c ↔ c = '-' ∨ c.isDigit ∨ c.isLower := by
  simp [isHostCharacter, or_assoc]

theorem graphic_of_isDigit {c : Char} (h : c.isDigit) : Graphic c := by
  have hc := Char.isDigit_iff_toNat.mp h
  simp only [Char.reduceToNat] at hc
  exact ⟨by omega, by omega⟩

theorem graphic_of_isHostCharacter {c : Char} (h : isHostCharacter c) : Graphic c := by
  rcases isHostCharacter_iff.mp h with rfl | h | h
  · exact ⟨by decide, by decide⟩
  · exact graphic_of_isDigit h
  · have hc := isLower_iff_toNat.mp h
    exact ⟨by omega, by omega⟩

theorem graphic_of_plainCharacter {c : Char} (h : plainCharacter c) : Graphic c := by
  rw [plainCharacter, Bool.or_eq_true, decide_eq_true_eq] at h
  rcases h with rfl | h
  · exact ⟨by decide, by decide⟩
  · exact graphic_of_isHostCharacter h

theorem graphic_of_pathCharacter {c : Char} (h : pathCharacter c) : Graphic c := by
  simp only [pathCharacter, validCustomServerPathSegment, List.all_cons, List.all_nil,
    Bool.and_true, Bool.or_eq_true, decide_eq_true_eq] at h
  rcases h with rfl | (((((rfl | rfl) | rfl) | rfl) | h) | h) | h
  · exact ⟨by decide, by decide⟩
  · exact ⟨by decide, by decide⟩
  · exact ⟨by decide, by decide⟩
  · exact ⟨by decide, by decide⟩
  · exact ⟨by decide, by decide⟩
  · exact graphic_of_isDigit h
  · have hc := isUpper_iff_toNat.mp h
    exact ⟨by omega, by omega⟩
  · have hc := isLower_iff_toNat.mp h
    exact ⟨by omega, by omega⟩

theorem graphic_digitChar {d : ℕ} (hd : d < 16) : Graphic d.digitChar := by
  interval_cases d <;> exact ⟨by decide, by decide⟩

theorem toLower_of_isHostCharacter {c : Char} (h : isHostCharacter c) : c.toLower = c := by
  refine dif_neg ?_
  rintro ⟨hge, hle⟩
  rw [ge_iff_le, UInt32.le_iff_toNat_le] at hge
  rw [UInt32.le_iff_toNat_le] at hle
  rcases isHostCharacter_iff.mp h with rfl | h | h
  · exact absurd hge (by decide)
  · have hc : c.toNat ≤ 57 := (Char.isDigit_iff_toNat.mp h).2
    exact absurd (hge.trans hc) (by decide)
  · have hc : 97 ≤ c.toNat := (isLower_iff_toNat.mp h).1
    exact absurd (hc.trans hle) (by decide)

theorem map_lower_of_plainCharacter {lower : Char → Char}
    (hlower : ∀ c, c.toNat < 128 → lower c = c.toLower) {s : List Char}
    (h : ∀ c ∈ s, plainCharacter c) : s.map lower = s := by
  have hsame : ∀ c ∈ s, lower c = id c := by
    intro c hc
    have hgraphic := graphic_of_plainCharacter (h c hc)
    rw [hlower c (hgraphic.2.trans (by decide))]
    have hplain := h c hc
    rw [plainCharacter, Bool.or_eq_true, decide_eq_true_eq] at hplain
    rcases hplain with rfl | hhost
    · rfl
    · exact toLower_of_isHostCharacter hhost
  rw [List.map_congr_left hsame, List.map_id]

theorem plainCharacter_of_isDigit {c : Char} (h : c.isDigit) : plainCharacter c := by
  simp [plainCharacter, isHostCharacter, h]

theorem ne_of_plainCharacter {c c' : Char} (h : plainCharacter c)
    (h' : plainCharacter c' = false) : c ≠ c' := by
  rintro rfl
  rw [h] at h'
  cases h'

theorem isDigit_toDigits {n : ℕ} : ∀ c ∈ Nat.toDigits 10 n, c.isDigit := fun _ hc ↦
  Nat.isDigit_of_mem_toDigits (by decide) (by decide) hc

/-! ## Names -/

theorem validHostname_ne_nil {host : List Char} (h : validHostname host) : host ≠ [] := by
  rintro rfl
  revert h
  decide

theorem plainCharacter_of_validHostname {host : List Char} (h : validHostname host) :
    ∀ c ∈ host, plainCharacter c := by
  intro c hc
  rw [validHostname, Bool.and_eq_true] at h
  have hjoined : ['.'].intercalate (host.splitOn '.') = host := List.intercalate_splitOn '.'
  rw [← hjoined] at hc
  rcases mem_intercalate hc with rfl | ⟨label, hlabel, hc⟩
  · rfl
  · have hall := List.all_eq_true.mp h.2 label hlabel
    rw [Bool.and_eq_true] at hall
    rw [plainCharacter, List.all_eq_true.mp hall.2 c hc, Bool.or_true]

/-- A name that does not look like octets is no address. -/
theorem parse_of_validHostname {host : List Char} (h : validHostname host)
    (hnumeric : numericHostnameLookalike host = false) : Address.parse host = none := by
  cases hparse : Address.parse host with
  | none => rfl
  | some a =>
      have hcolon : ':' ∉ host := fun hmem ↦
        ne_of_plainCharacter (plainCharacter_of_validHostname h _ hmem) (by decide) rfl
      have hdigits : numericHostnameLookalike host := by
        apply List.all_eq_true.mpr
        intro c hc
        rw [Bool.or_eq_true, decide_eq_true_eq]
        exact Address.isDigit_of_parse hparse hcolon hc
      rw [hnumeric] at hdigits
      cases hdigits

/-! ## Hosts and ports -/

namespace URL

theorem cutPort_of_not_mem {host : List Char} (h : ':' ∉ host) : cutPort host = (host, []) := by
  rw [cutPort, cutLast, if_neg h]

theorem cutPort_append {host port : List Char} (h : ∀ c ∈ port, c.isDigit) :
    cutPort (host ++ ':' :: port) = (host, port) := by
  have hcolon : ':' ∉ port := fun hmem ↦ absurd (h _ hmem) (by decide)
  rw [cutPort, cutLast_append hcolon]
  simp only
  rw [if_pos (List.all_eq_true.mpr h)]

theorem cutPort_brackets (host : List Char) :
    cutPort (['['] ++ host ++ [']']) = (['['] ++ host ++ [']'], []) := by
  by_cases hcolon : ':' ∈ host
  · obtain ⟨after, before, hhost, hafter⟩ :=
      List.eq_append_cons_of_mem (List.mem_reverse.mpr hcolon)
    have heq : ['['] ++ host ++ [']'] =
        (['['] ++ before.reverse) ++ ':' :: (after.reverse ++ [']']) := by
      have hreverse := congrArg List.reverse hhost
      rw [List.reverse_reverse] at hreverse
      rw [hreverse]
      simp
    rw [heq, cutPort, cutLast_append (by simpa using hafter)]
    simp
  · apply cutPort_of_not_mem
    simpa using hcolon

theorem unbracket_brackets (host : List Char) : unbracket (['['] ++ host ++ [']']) = host := by
  rw [unbracket, if_pos ⟨rfl, by rw [List.getLast?_append]; rfl⟩]
  simp

theorem unbracket_of_head? {host : List Char} (h : host.head? ≠ some '[') :
    unbracket host = host := by
  rw [unbracket, if_neg fun hbrackets ↦ h hbrackets.1]

end URL

theorem PlainHost.cutPort {host port : List Char} (h : PlainHost host)
    (hport : ∀ c ∈ port, c.isDigit) :
    URL.cutPort (host ++ if port = [] then [] else ':' :: port) = (host, port) := by
  by_cases hnil : port = []
  · rw [if_pos hnil, List.append_nil, hnil]
    rcases h with ⟨-, hall⟩ | ⟨bits, -, rfl⟩
    · apply URL.cutPort_of_not_mem
      exact fun hmem ↦ ne_of_plainCharacter (hall _ hmem) (by decide) rfl
    · exact URL.cutPort_brackets _
  · rw [if_neg hnil]
    exact URL.cutPort_append hport

namespace ServerHost

/-- The host without the brackets. -/
def hostname : ServerHost → List Char
  | address a => a.text
  | name n => n

def ipv6 : ServerHost → Bool
  | address a => a.is6
  | name _ => false

theorem Valid.text_eq {h : ServerHost} (hvalid : h.Valid) :
    (h.text = h.hostname ∧ h.ipv6 = false ∧ h.hostname ≠ [] ∧ ∀ c ∈ h.hostname, plainCharacter c) ∨
      ∃ bits, Address.mapped bits = false ∧ h = address (.v6 bits []) ∧
        h.hostname = Address.text6 bits ∧ h.text = ['['] ++ h.hostname ++ [']'] := by
  cases hvalid with
  | v4 bits =>
      left
      refine ⟨rfl, rfl, ?_, ?_⟩
      · exact List.ne_nil_of_mem (Address.point_mem_octetsText (length_places 256 4 bits.toNat))
      · intro c hc
        rcases mem_octetsText hc with rfl | hc
        · rfl
        · exact plainCharacter_of_isDigit hc
  | v6 bits hmapped =>
      right
      refine ⟨bits, hmapped, rfl, ?_, rfl⟩
      rw [hostname, Address.text, if_pos rfl, List.append_nil]
  | name n hn hnumeric =>
      exact .inl ⟨rfl, rfl, validHostname_ne_nil hn, plainCharacter_of_validHostname hn⟩

theorem Valid.text_ne_nil {h : ServerHost} (hvalid : h.Valid) : h.text ≠ [] := by
  rcases hvalid.text_eq with ⟨htext, -, hne, -⟩ | ⟨_, -, -, -, htext⟩
  · rwa [htext]
  · rw [htext]
    simp

theorem Valid.plainHost {h : ServerHost} (hvalid : h.Valid) : PlainHost h.text := by
  rcases hvalid.text_eq with ⟨htext, -, hne, hall⟩ | ⟨bits, hmapped, -, hhostname, htext⟩
  · rw [htext]
    exact .inl ⟨hne, hall⟩
  · rw [htext, hhostname]
    exact .inr ⟨bits, hmapped, rfl⟩

theorem Valid.cutPort {h : ServerHost} (hvalid : h.Valid) (port : List Char)
    (hport : ∀ c ∈ port, c.isDigit) :
    URL.cutPort (h.text ++ if port = [] then [] else ':' :: port) = (h.text, port) :=
  hvalid.plainHost.cutPort hport

theorem Valid.unbracket {h : ServerHost} (hvalid : h.Valid) :
    URL.unbracket h.text = h.hostname := by
  rcases hvalid.text_eq with ⟨htext, -, -, hall⟩ | ⟨_, -, -, -, htext⟩
  · rw [htext]
    apply URL.unbracket_of_head?
    intro hhead
    exact ne_of_plainCharacter (hall _ (List.mem_of_mem_head? hhead)) (by decide) rfl
  · rw [htext]
    exact URL.unbracket_brackets _

end ServerHost

/-! ## Paths -/

theorem nil_mem_splitOn_of_getLast? {c : Char} {s : List Char} (h : s.getLast? = some c) :
    [] ∈ s.splitOn c := by
  obtain ⟨rest, rfl⟩ := List.getLast?_eq_some_iff.mp h
  rw [List.splitOn_append_cons_self, List.splitOn_nil]
  simp

theorem valid_of_mem_splitOn {path segment : List Char} (h : validSegments path)
    (hmem : segment ∈ (trimPrefix '/' path).splitOn '/') :
    segment ≠ [] ∧ validCustomServerPathSegment segment := by
  have hsegment := List.all_eq_true.mp h segment hmem
  simp only [Bool.not_eq_true', Bool.or_eq_false_iff, decide_eq_false_iff_not,
    Bool.not_eq_false'] at hsegment
  exact ⟨hsegment.1.1.1, hsegment.2⟩

/-- A path of valid segments does not end with a slash. -/
theorem trimSuffix_of_validSegments {path : List Char} (hhead : path.head? = some '/')
    (h : validSegments path) : trimSuffix '/' path = path := by
  rw [trimSuffix, if_neg]
  intro hlast
  obtain ⟨rest, rfl⟩ := List.head?_eq_some_iff.mp hhead
  have htrim : trimPrefix '/' ('/' :: rest) = rest := rfl
  have hempty : [] ∈ (trimPrefix '/' ('/' :: rest)).splitOn '/' := by
    rw [htrim]
    cases rest with
    | nil => simp
    | cons c rest =>
        rw [List.getLast?_cons_cons] at hlast
        exact nil_mem_splitOn_of_getLast? hlast
  exact (valid_of_mem_splitOn h hempty).1 rfl

theorem pathCharacter_of_validSegments {path : List Char} (h : validSegments path) :
    ∀ c ∈ path, pathCharacter c := by
  intro c hc
  rw [pathCharacter, Bool.or_eq_true, decide_eq_true_eq]
  by_cases hslash : c = '/'
  · exact .inl hslash
  right
  have hmem : c ∈ trimPrefix '/' path := by
    rw [trimPrefix]
    split
    · rename_i hhead
      obtain ⟨rest, rfl⟩ := List.head?_eq_some_iff.mp hhead
      simpa [hslash] using hc
    · exact hc
  have hjoined : ['/'].intercalate ((trimPrefix '/' path).splitOn '/') = trimPrefix '/' path :=
    List.intercalate_splitOn '/'
  rw [← hjoined] at hmem
  rcases mem_intercalate hmem with rfl | ⟨segment, hsegment, hc⟩
  · exact absurd rfl hslash
  · have hall := (valid_of_mem_splitOn h hsegment).2
    rw [validCustomServerPathSegment, List.all_eq_true] at hall
    rw [validCustomServerPathSegment, List.all_cons, List.all_nil, Bool.and_true]
    exact hall c hc

/-! ## The text of a location -/

namespace Location

variable {l : Location}

theorem Valid.plainPath (h : l.Valid) : PlainPath l.path := by
  rcases h.path with hnil | ⟨hhead, hsegments⟩
  · exact .inl hnil
  · exact .inr ⟨hhead, pathCharacter_of_validSegments hsegments⟩

theorem Valid.trimSuffix_path (h : l.Valid) : trimSuffix '/' l.path = l.path := by
  rcases h.path with hnil | ⟨hhead, hsegments⟩
  · rw [hnil]
    rfl
  · exact trimSuffix_of_validSegments hhead hsegments

theorem isDigit_portText : ∀ c ∈ l.portText, c.isDigit := by
  rw [portText]
  split
  · simp
  · exact isDigit_toDigits

theorem Valid.cutPort (h : l.Valid) : URL.cutPort l.authority = (l.host.text, l.portText) :=
  h.host.cutPort l.portText isDigit_portText

theorem Valid.hostname (h : l.Valid) : l.url.hostname = l.host.hostname := by
  rw [URL.hostname, show l.url.host = l.authority from rfl, h.cutPort]
  exact h.host.unbracket

theorem Valid.port_url (h : l.Valid) : l.url.port = l.portText := by
  rw [URL.port, show l.url.host = l.authority from rfl, h.cutPort]

theorem plainPort (l : Location) :
    PlainPort (if l.portText = [] then [] else ':' :: l.portText) := by
  by_cases hport : l.port = defaultPort l.scheme
  · left
    simp [portText, hport]
  · right
    exact ⟨l.port, by simp [portText, hport]⟩

theorem Valid.plainCharacter_scheme (h : l.Valid) : ∀ c ∈ l.scheme, plainCharacter c := by
  intro c hc
  rcases h.scheme with hscheme | hscheme
  · rw [hscheme] at hc
    simp only [String.reduceToList, List.mem_cons, List.not_mem_nil, or_false] at hc
    rcases hc with rfl | rfl | rfl | rfl <;> rfl
  · rw [hscheme] at hc
    simp only [String.reduceToList, List.mem_cons, List.not_mem_nil, or_false] at hc
    rcases hc with rfl | rfl | rfl | rfl | rfl <;> rfl

variable {lib : URLLibrary}

theorem Valid.scheme_url (hlib : LawfulURLs lib) (h : l.Valid) :
    l.url.scheme.map lib.lower = l.scheme :=
  map_lower_of_plainCharacter hlib.lower_ascii h.plainCharacter_scheme

theorem Valid.serverHost (hlib : LawfulURLs lib) (h : l.Valid) :
    serverHost lib l.url.hostname = l.host := by
  rw [h.hostname, Providers.serverHost]
  have hhost := h.host
  generalize l.host = host at hhost
  cases hhost with
  | v4 bits => simp only [ServerHost.hostname, Address.parse_text]
  | v6 bits _ => simp only [ServerHost.hostname, Address.parse_text]
  | name n hn hnumeric =>
      simp only [ServerHost.hostname, parse_of_validHostname hn hnumeric]
      rw [map_lower_of_plainCharacter hlib.lower_ascii (plainCharacter_of_validHostname hn)]

theorem Valid.effectivePort (hlib : LawfulURLs lib) (h : l.Valid) :
    effectivePort lib l.url = l.port := by
  rw [Providers.effectivePort, h.port_url, h.scheme_url hlib, portText]
  by_cases hdefault : l.port = defaultPort l.scheme
  · rw [if_pos hdefault, if_pos rfl, hdefault]
  · rw [if_neg hdefault, if_neg Nat.toDigits_ne_nil, number?_toDigits (by decide) (by decide),
      Option.getD_some]

/-- The text of a location is a URL that points there. -/
theorem Valid.location_url (hlib : LawfulURLs lib) (h : l.Valid) :
    l.url.location lib = l := by
  have hpath : trimSuffix '/' l.url.path = l.path := h.trimSuffix_path
  rw [URL.location, h.scheme_url hlib, h.serverHost hlib, h.effectivePort hlib, hpath]

theorem Valid.parse_text (hlib : LawfulURLs lib) (h : l.Valid) :
    lib.parseRequestURI l.text = some l.url :=
  hlib.parse_plain l.scheme l.host.text _ l.path h.scheme h.host.plainHost
    (plainPort l) h.plainPath

theorem Valid.graphic (h : l.Valid) : ∀ c ∈ l.text, Graphic c := by
  have hhost : ∀ c ∈ l.host.text, Graphic c := by
    intro c hc
    rcases h.host.text_eq with ⟨htext, -, -, hall⟩ | ⟨bits, hmapped, -, hhostname, htext⟩
    · exact graphic_of_plainCharacter (hall c (htext ▸ hc))
    · rw [htext, hhostname] at hc
      simp only [List.mem_append, List.mem_singleton] at hc
      rcases hc with (rfl | hc) | rfl
      · exact ⟨by decide, by decide⟩
      · rcases Address.mem_text6 hc with rfl | ⟨d, hd, rfl⟩ | ⟨hmapped', -⟩
        · exact ⟨by decide, by decide⟩
        · exact graphic_digitChar hd
        · rw [hmapped] at hmapped'
          cases hmapped'
      · exact ⟨by decide, by decide⟩
  have hport : ∀ c ∈ (if l.portText = [] then [] else ':' :: l.portText), Graphic c := by
    intro c hc
    split at hc
    · cases hc
    · rcases List.mem_cons.mp hc with rfl | hc
      · exact ⟨by decide, by decide⟩
      · exact graphic_of_isDigit (isDigit_portText c hc)
  have hpath : ∀ c ∈ l.path, Graphic c := by
    intro c hc
    rcases h.plainPath with hnil | ⟨-, hall⟩
    · rw [hnil] at hc
      cases hc
    · exact graphic_of_pathCharacter (hall c hc)
  intro c hc
  rw [text, authority, List.mem_append, List.mem_append, List.mem_append, List.mem_append] at hc
  rcases hc with ((hc | hc) | hc | hc) | hc
  · exact graphic_of_plainCharacter (h.plainCharacter_scheme c hc)
  · simp only [String.reduceToList, List.mem_cons, List.not_mem_nil, or_false] at hc
    rcases hc with rfl | rfl | rfl <;> exact ⟨by decide, by decide⟩
  · exact hhost c hc
  · exact hport c hc
  · exact hpath c hc

end Location

/-! ## Texts of graphic characters -/

theorem length_utf8 {s : List Char} (h : ∀ c ∈ s, c.toNat < 128) :
    (utf8 (String.ofList s)).length = s.length := by
  rw [utf8, String.toList_ofList]
  induction s with
  | nil => rfl
  | cons c s ih =>
      have hc : c.toNat ≤ 127 := Nat.lt_succ_iff.mp (h c (by simp))
      have hsize : (String.utf8EncodeChar c).length = 1 := by
        rw [String.length_utf8EncodeChar, Char.utf8Size_eq_one_iff]
        exact hc
      have hrest := ih fun c hc ↦ h c (List.mem_cons_of_mem _ hc)
      rw [List.flatMap_cons, List.length_append, hsize, hrest, List.length_cons]
      omega

theorem length_le_utf8 (s : String) : s.toList.length ≤ (utf8 s).length := by
  rw [utf8]
  induction s.toList with
  | nil => rfl
  | cons c s ih =>
      have hsize := Char.utf8Size_pos c
      rw [← String.length_utf8EncodeChar] at hsize
      rw [List.flatMap_cons, List.length_append, List.length_cons]
      omega

theorem trimmed_of_graphic {s : List Char} (h : ∀ c ∈ s, Graphic c) :
    trimmed (String.ofList s) = String.ofList s := by
  apply Api.trimmed_of_no_space
  intro c hc
  have hgraphic := h c (by simpa using hc)
  have hlo := hgraphic.1
  have hhi := hgraphic.2
  simp only [isSpace, Bool.or_eq_false_iff, decide_eq_false_iff_not, List.mem_cons,
    List.not_mem_nil, or_false]
  omega

theorem not_unsafe_of_graphic {s : List Char} (h : ∀ c ∈ s, Graphic c) :
    s.any unsafeURLRune = false := by
  rw [List.any_eq_false]
  intro c hc
  have hgraphic := h c hc
  have hlo := hgraphic.1
  have hhi := hgraphic.2
  simp only [unsafeURLRune, Bool.or_eq_true, decide_eq_true_eq]
  omega

/-! ## What is accepted -/

namespace ServerHost

/-- The authority is the host as it stands in a URL, with the port. -/
theorem Valid.authority {h : ServerHost} (hvalid : h.Valid) (port : List Char) :
    (if port ≠ [] then joinHostPort h.hostname port
      else if h.ipv6 then ['['] ++ h.hostname ++ [']'] else h.hostname) =
      h.text ++ if port = [] then [] else ':' :: port := by
  rcases hvalid.text_eq with ⟨htext, hipv6, -, hall⟩ | ⟨bits, -, rfl, hhostname, htext⟩
  · have hcolon : ':' ∉ h.hostname := fun hmem ↦
      ne_of_plainCharacter (hall _ hmem) (by decide) rfl
    by_cases hport : port = []
    · simp [hport, hipv6, htext]
    · simp [hport, joinHostPort, hcolon, htext]
  · have hcolon : ':' ∈ (address (.v6 bits [])).hostname := by
      rw [hhostname]
      exact Address.colon_mem_text6 bits
    by_cases hport : port = []
    · simp [hport, ipv6, Address.is6, htext]
    · simp [hport, joinHostPort, hcolon, htext]

end ServerHost

section

variable {lib : URLLibrary} {u : URL}

theorem canonicalCustomServerHost_spec {host : List Char} {ipv6 : Bool}
    (h : canonicalCustomServerHost lib u = .ok (host, ipv6)) :
    '%' ∉ u.hostname ∧ (serverHost lib u.hostname).Valid ∧
      host = (serverHost lib u.hostname).hostname ∧ ipv6 = (serverHost lib u.hostname).ipv6 := by
  rw [canonicalCustomServerHost] at h
  simp only at h
  split at h
  · cases h
  rename_i hraw
  rw [not_or] at hraw
  refine ⟨hraw.2, ?_⟩
  cases hparse : Address.parse u.hostname with
  | some a =>
      rw [hparse] at h
      simp only at h
      split at h
      · cases h
      rename_i haddress
      rw [not_or, not_not, Bool.not_eq_true] at haddress
      obtain ⟨rfl, rfl⟩ := Prod.mk.inj (Except.ok.inj h)
      have hhost : serverHost lib u.hostname = .address a := by
        rw [serverHost, hparse]
      rw [hhost]
      refine ⟨?_, rfl, rfl⟩
      cases a with
      | v4 bits => exact .v4 bits
      | v6 bits zone =>
          obtain ⟨hzone, hmapped⟩ := haddress
          obtain rfl : zone = [] := hzone
          exact .v6 bits hmapped
  | none =>
      rw [hparse] at h
      simp only at h
      split at h
      · cases h
      split at h
      · cases h
      rename_i hname
      rw [not_or, not_not, Bool.not_eq_true] at hname
      obtain ⟨rfl, rfl⟩ := Prod.mk.inj (Except.ok.inj h)
      have hhost : serverHost lib u.hostname = .name (u.hostname.map lib.lower) := by
        rw [serverHost, hparse]
      rw [hhost]
      exact ⟨.name _ hname.1 hname.2, rfl, rfl⟩

theorem canonicalCustomServerPort_spec {port : List Char}
    (hscheme : u.scheme.map lib.lower = "http".toList ∨ u.scheme.map lib.lower = "https".toList)
    (h : canonicalCustomServerPort u (u.scheme.map lib.lower) = .ok port) :
    u.host.getLast? ≠ some ':' ∧ (1 ≤ effectivePort lib u ∧ effectivePort lib u ≤ 65535) ∧
      port = (URL.location lib u).portText := by
  have hdefault : 1 ≤ defaultPort (u.scheme.map lib.lower) ∧
      defaultPort (u.scheme.map lib.lower) ≤ 65535 := by
    rw [defaultPort]
    split <;> decide
  have hlocation : (URL.location lib u).portText =
      if effectivePort lib u = defaultPort (u.scheme.map lib.lower) then []
      else Nat.toDigits 10 (effectivePort lib u) := rfl
  rw [hlocation]
  rw [canonicalCustomServerPort] at h
  split at h
  · cases h
  rename_i hlast
  refine ⟨hlast, ?_⟩
  split at h
  · rename_i hnil
    rw [effectivePort, if_pos hnil, if_pos rfl]
    exact ⟨hdefault, (Except.ok.inj h).symm⟩
  · rename_i hne
    cases hnumber : number? 10 u.port with
    | none =>
        rw [hnumber] at h
        cases h
    | some value =>
        rw [hnumber] at h
        simp only at h
        split at h
        · cases h
        rename_i hrange
        rw [effectivePort, if_neg hne, hnumber, Option.getD_some]
        refine ⟨by omega, ?_⟩
        have hvalue : (u.scheme.map lib.lower = "http".toList ∧ value = 80 ∨
            u.scheme.map lib.lower = "https".toList ∧ value = 443) ↔
            value = defaultPort (u.scheme.map lib.lower) := by
          rcases hscheme with hscheme | hscheme <;> simp [hscheme, defaultPort]
        rw [if_congr hvalue rfl rfl] at h
        split at h
        · rename_i heq
          rw [if_pos heq]
          exact (Except.ok.inj h).symm
        · rename_i hneq
          rw [if_neg hneq]
          exact (Except.ok.inj h).symm

theorem canonicalCustomServerPath_spec {path : List Char}
    (h : canonicalCustomServerPath u = .ok path) :
    '%' ∉ u.escapedPath ∧ path = trimSuffix '/' u.path ∧
      (path = [] ∨ path.head? = some '/' ∧ validSegments path) := by
  rw [canonicalCustomServerPath] at h
  simp only at h
  split at h
  · cases h
  rename_i hescaped
  rw [not_or] at hescaped
  refine ⟨hescaped.1, ?_⟩
  split at h
  · rename_i hempty
    obtain rfl := Except.ok.inj h
    refine ⟨?_, .inl rfl⟩
    rcases hempty with hnil | hslash
    · rw [hnil]
      rfl
    · rw [hslash]
      rfl
  rename_i hlong
  rw [not_or] at hlong
  split at h
  · cases h
  rename_i hhead
  split at h
  · cases h
  rename_i hsegments
  obtain rfl := Except.ok.inj h
  refine ⟨rfl, .inr ⟨?_, ?_⟩⟩
  · obtain ⟨rest, hrest⟩ := List.head?_eq_some_iff.mp (not_not.mp hhead)
    rw [trimSuffix, hrest]
    split
    · cases rest with
      | nil => exact absurd hrest hlong.2
      | cons c rest => rfl
    · rfl
  · rw [validSegments, List.all_eq_not_any_not, Bool.not_eq_true', ← Bool.not_eq_true]
    simpa using hsegments

/-! ### Accepted texts -/

/-- The checks of the text as a whole. -/
def PlainText (raw : String) : Prop :=
  raw ≠ "" ∧ (utf8 raw).length ≤ maxCustomServerURLBytes ∧ trimmed raw = raw ∧
    raw.toList.any unsafeURLRune = false

theorem canonicalCustomServerURL_spec {raw canonical : String}
    (h : canonicalCustomServerURL lib raw = .ok canonical) :
    PlainText raw ∧ ∃ u, lib.parseRequestURI raw.toList = some u ∧
      (u.host ≠ [] ∧ u.opaquePart = [] ∧ u.user = none ∧ u.rawQuery = [] ∧
        u.forceQuery = false) ∧
      ('%' ∉ u.hostname ∧ u.host.getLast? ≠ some ':' ∧ '%' ∉ u.escapedPath) ∧
      (u.location lib).Valid ∧ canonical = String.ofList (u.location lib).text := by
  rw [canonicalCustomServerURL] at h
  split at h
  · cases h
  rename_i hraw
  rw [not_or, not_or, not_or, not_lt, not_not, Bool.not_eq_true] at hraw
  refine ⟨hraw, ?_⟩
  cases hparse : lib.parseRequestURI raw.toList with
  | none =>
      rw [hparse] at h
      cases h
  | some u =>
      rw [hparse] at h
      simp only at h
      split at h
      · cases h
      rename_i habsolute
      rw [not_or, not_not] at habsolute
      split at h
      · cases h
      rename_i hscheme
      split at h
      · cases h
      rename_i huser
      split at h
      · cases h
      rename_i hquery
      simp only [not_or, not_not, Bool.not_eq_true] at huser hquery
      have hscheme' : (u.location lib).scheme = "http".toList ∨
          (u.location lib).scheme = "https".toList := by
        by_cases hhttp : u.scheme.map lib.lower = "http".toList
        · exact .inl hhttp
        · exact .inr (not_not.mp fun hhttps ↦ hscheme ⟨hhttp, hhttps⟩)
      obtain ⟨⟨host, ipv6⟩, hhost, h⟩ := Loops.bind_eq_ok h
      obtain ⟨port, hport, h⟩ := Loops.bind_eq_ok h
      obtain ⟨path, hpath, h⟩ := Loops.bind_eq_ok h
      obtain ⟨hpercent, hhostValid, rfl, rfl⟩ := canonicalCustomServerHost_spec hhost
      obtain ⟨hlast, hportRange, rfl⟩ := canonicalCustomServerPort_spec hscheme' hport
      obtain ⟨hescaped, rfl, hpathValid⟩ := canonicalCustomServerPath_spec hpath
      have hvalid : (u.location lib).Valid := ⟨hscheme', hhostValid, hportRange, hpathValid⟩
      refine ⟨u, rfl, ⟨habsolute.1, habsolute.2, huser, hquery.1, hquery.2.1⟩,
        ⟨hpercent, hlast, hescaped⟩, hvalid, ?_⟩
      rw [← Except.ok.inj h, hhostValid.authority]
      rfl

end

namespace Location

variable {lib : URLLibrary} {l : Location}

theorem Valid.hostname_plain (h : l.Valid) :
    l.host.hostname ≠ [] ∧ '%' ∉ l.host.hostname := by
  rcases h.host.text_eq with ⟨-, -, hne, hall⟩ | ⟨bits, -, -, hhostname, -⟩
  · exact ⟨hne, fun hmem ↦ ne_of_plainCharacter (hall _ hmem) (by decide) rfl⟩
  · rw [hhostname]
    exact ⟨List.ne_nil_of_mem (Address.colon_mem_text6 bits), Address.percent_not_mem_text6 bits⟩

theorem Valid.canonicalHost (hlib : LawfulURLs lib) (h : l.Valid) :
    canonicalCustomServerHost lib l.url = .ok (l.host.hostname, l.host.ipv6) := by
  have hplain := h.hostname_plain
  rw [canonicalCustomServerHost, h.hostname]
  simp only
  rw [if_neg (not_or.mpr hplain)]
  have hhost := h.host
  generalize l.host = host at hhost
  cases hhost with
  | v4 bits =>
      simp only [ServerHost.hostname, Address.parse_text]
      rfl
  | v6 bits hmapped =>
      simp only [ServerHost.hostname, Address.parse_text]
      rw [if_neg]
      · rfl
      · rintro (hzone | h4in6)
        · exact hzone rfl
        · rw [Address.is4In6, hmapped] at h4in6
          cases h4in6
  | name n hn hnumeric =>
      have hchars := plainCharacter_of_validHostname hn
      have hcolon : ':' ∉ n := fun hmem ↦ ne_of_plainCharacter (hchars _ hmem) (by decide) rfl
      simp only [ServerHost.hostname, parse_of_validHostname hn hnumeric,
        map_lower_of_plainCharacter hlib.lower_ascii hchars, hcolon, hn, hnumeric]
      rfl

theorem Valid.getLast?_authority (h : l.Valid) : l.authority.getLast? ≠ some ':' := by
  intro hlast
  rw [authority, List.getLast?_append] at hlast
  by_cases hport : l.portText = []
  · rw [if_pos hport, List.getLast?_nil, Option.none_or] at hlast
    rcases h.host.text_eq with ⟨htext, -, -, hall⟩ | ⟨bits, -, -, -, htext⟩
    · rw [htext] at hlast
      exact ne_of_plainCharacter (hall _ (List.mem_of_getLast? hlast)) (by decide) rfl
    · rw [htext, List.getLast?_append] at hlast
      cases hlast
  · rw [if_neg hport] at hlast
    cases hdigits : l.portText with
    | nil => exact hport hdigits
    | cons c rest =>
        have hmem : ':' ∈ l.portText := by
          rw [hdigits] at hlast ⊢
          rw [List.getLast?_cons_cons, List.getLast?_eq_some_getLast (List.cons_ne_nil c rest),
            Option.some_or] at hlast
          rw [← Option.some.inj hlast]
          exact List.getLast_mem _
        exact absurd (isDigit_portText _ hmem) (by decide)

theorem Valid.canonicalPort (h : l.Valid) :
    canonicalCustomServerPort l.url l.scheme = .ok l.portText := by
  rw [canonicalCustomServerPort, if_neg (show ¬l.url.host.getLast? = some ':' from
    h.getLast?_authority), h.port_url]
  by_cases hdefault : l.port = defaultPort l.scheme
  · rw [portText, if_pos hdefault, if_pos rfl]
  · have hvalue : ¬(l.scheme = "http".toList ∧ l.port = 80 ∨
        l.scheme = "https".toList ∧ l.port = 443) := by
      rcases h.scheme with hscheme | hscheme
      · simpa [hscheme, defaultPort] using hdefault
      · simpa [hscheme, defaultPort] using hdefault
    have hrange : ¬(l.port < 1 ∨ 65535 < l.port) := by
      have := h.port
      omega
    rw [portText, if_neg hdefault, if_neg Nat.toDigits_ne_nil,
      number?_toDigits (by decide) (by decide)]
    simp only
    rw [if_neg hrange, if_neg hvalue]

theorem Valid.canonicalPath (h : l.Valid) : canonicalCustomServerPath l.url = .ok l.path := by
  have hplain : ∀ c, pathCharacter c = false → c ∉ l.path := by
    intro c hc hmem
    rcases h.plainPath with hnil | ⟨-, hall⟩
    · rw [hnil] at hmem
      cases hmem
    · rw [hall c hmem] at hc
      cases hc
  have hpath : l.url.path = l.path := rfl
  have hescaped : l.url.escapedPath = l.path := rfl
  rw [canonicalCustomServerPath, hpath, hescaped]
  simp only
  rw [if_neg (not_or.mpr ⟨hplain '%' (by decide), hplain '\\' (by decide)⟩)]
  rcases h.path with hnil | ⟨hhead, hsegments⟩
  · rw [if_pos (.inl hnil), hnil]
  · have hlong : ¬(l.path = [] ∨ l.path = ['/']) := by
      rintro (hnil | hslash)
      · rw [hnil] at hhead
        cases hhead
      · rw [hslash] at hsegments
        revert hsegments
        decide
    have hany : ((trimPrefix '/' l.path).splitOn '/').any (fun segment ↦
        segment = [] || segment = ['.'] || segment = ['.', '.'] ||
          !validCustomServerPathSegment segment) = false := by
      rw [validSegments, List.all_eq_not_any_not, Bool.not_eq_true'] at hsegments
      simpa using hsegments
    rw [if_neg hlong, if_neg (not_not.mpr hhead), h.trimSuffix_path, hany]
    rfl

/-- The text of a location is canonical, if it is not too long. -/
theorem Valid.canonicalCustomServerURL_text (hlib : LawfulURLs lib) (h : l.Valid) :
    canonicalCustomServerURL lib (String.ofList l.text) =
      if maxCustomServerURLBytes < l.text.length then
        .error (invalidCustomServerURL "custom server URL is invalid")
      else .ok (String.ofList l.text) := by
  have hgraphic := h.graphic
  have hne : String.ofList l.text ≠ "" := by
    intro hempty
    have htext : l.text = [] := by
      rw [← String.toList_ofList (l := l.text), hempty]
      rfl
    rw [text] at htext
    simp at htext
  rw [canonicalCustomServerURL, length_utf8 fun c hc ↦ (hgraphic c hc).2.trans (by decide), trimmed_of_graphic hgraphic,
    String.toList_ofList, not_unsafe_of_graphic hgraphic]
  by_cases hlong : maxCustomServerURLBytes < l.text.length
  · rw [if_pos (.inr (.inl hlong)), if_pos hlong]
  · rw [if_neg (by simp [hne, hlong]), if_neg hlong, h.parse_text hlib]
    simp only [h.scheme_url hlib, h.canonicalHost hlib, h.canonicalPort, h.canonicalPath]
    have hauthority : l.url.host ≠ [] := by
      intro hnil
      have hne := h.host.text_ne_nil
      rw [show l.url.host = l.authority from rfl, authority, List.append_eq_nil_iff] at hnil
      exact hne hnil.1
    have hscheme : ¬(l.scheme ≠ "http".toList ∧ l.scheme ≠ "https".toList) := by
      rcases h.scheme with hscheme | hscheme <;> simp [hscheme]
    have hauthority' : ¬(l.url.host = [] ∨ l.url.opaquePart ≠ []) :=
      not_or.mpr ⟨hauthority, not_not.mpr rfl⟩
    have huser : ¬l.url.user ≠ none := not_not.mpr rfl
    have hquery : ¬(l.url.rawQuery ≠ [] ∨ l.url.forceQuery = true ∨ l.url.fragment ≠ [] ∨
        l.url.rawFragment ≠ []) := by
      simp [url, plainURL]
    rw [if_neg hauthority', if_neg hscheme, if_neg huser, if_neg hquery]
    simp only [bind, Except.bind, pure, Except.pure, h.host.authority]
    rfl

end Location

end MultiSpeed.Providers
