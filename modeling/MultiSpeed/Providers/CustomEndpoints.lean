import MultiSpeed.Lib.Utf8
import MultiSpeed.Providers.Allowlist
import MultiSpeed.Providers.LibreSpeed

/-!
# Custom endpoints

A custom LibreSpeed server may have endpoints of its own, as references that are relative
to its URL.  `customDefinition` has them read by `url.ParseRequestURI`, which knows no
relative references.
-/

namespace MultiSpeed.Providers.LibreSpeed

open AddressText Network

/-- What is relied on of `url.ParseRequestURI` beyond the plain URLs: it reads absolute
URIs, absolute paths and the asterisk, and an asterisk in a path is read as it is. -/
structure LawfulRequestURIs (lib : URLLibrary) : Prop extends LawfulURLs lib where
  absolute : ∀ raw u, lib.parseRequestURI raw = some u →
    u.scheme ≠ [] ∨ raw.head? = some '/' ∨ raw = ['*']
  asterisk : lib.parseRequestURI ['*'] = some (plainURL [] [] ['*'])
  parse_asterisk : ∀ scheme host port path,
    scheme = "http".toList ∨ scheme = "https".toList → PlainHost host → PlainPort port →
    PlainPath path →
    lib.parseRequestURI (scheme ++ "://".toList ++ (host ++ port) ++ (path ++ ['/', '*'])) =
      some (plainURL scheme (host ++ port) (path ++ ['/', '*']))

/-! ## Relative references -/

/-- The characters of a text, each escape read as the byte it stands for. -/
def unescape : List Char → Option (List Char)
  | [] => some []
  | '%' :: a :: b :: rest =>
      match digit? a, digit? b with
      | some high, some low => (unescape rest).map (Char.ofNat (16 * high + low) :: ·)
      | _, _ => none
  | '%' :: _ => none
  | c :: rest => (unescape rest).map (c :: ·)

/-- The slash, the backslash, NUL and the ends of a line. -/
def forbiddenEscapes : List (List Char) :=
  ["%2f".toList, "%5c".toList, "%00".toList, "%0a".toList, "%0d".toList]

/-- A reference that stays below the URL it is relative to. -/
structure RelativeReference (value : String) : Prop where
  length : 1 ≤ (utf8 value).length ∧ (utf8 value).length ≤ 2048
  /-- Neither a slash nor a scheme begins it. -/
  slash : value.toList.head? ≠ some '/'
  scheme : ':' ∉ value.toList.takeWhile fun c ↦ c ≠ '/' ∧ c ≠ '?'
  fragment : '#' ∉ value.toList
  backslash : '\\' ∉ value.toList
  control : ∀ c ∈ value.toList, unsafeURLRune c = false
  escapes : ∀ escape ∈ forbiddenEscapes, ¬escape <:+: value.toList.map Char.toLower
  path : ∃ path, unescape (value.toList.takeWhile fun c ↦ c ≠ '?') = some path ∧
    ∀ segment ∈ path.splitOn '/', segment ≠ [] ∧ segment ≠ ['.'] ∧ segment ≠ ['.', '.']

/-- A value of a definition that is a relative reference. -/
def IsReference (value : Json) : Prop := ∃ text, value = .string text ∧ RelativeReference text

theorem relativeReference_asterisk : RelativeReference "*" where
  length := by decide
  slash := by decide
  scheme := by decide
  fragment := by decide
  backslash := by decide
  control := by simp [unsafeURLRune]
  escapes := by
    have hlong : ∀ escape ∈ forbiddenEscapes, 1 < escape.length := by decide
    intro escape hescape hwithin
    exact absurd hwithin.length_le (not_le.mpr (hlong escape hescape))
  path := ⟨['*'], by decide, by decide⟩

theorem unescape_of_not_mem {s : List Char} (h : '%' ∉ s) : unescape s = some s := by
  induction s with
  | nil => rfl
  | cons c s ih =>
      rw [List.mem_cons, not_or] at h
      have hs := ih h.2
      rw [unescape.eq_def]
      split
      · rename_i heq
        cases heq
      · rename_i heq
        exact absurd (List.cons.inj heq).1.symm h.1
      · rename_i heq
        exact absurd (List.cons.inj heq).1.symm h.1
      · rename_i heq
        obtain ⟨rfl, rfl⟩ := List.cons.inj heq
        rw [hs]
        rfl

/-- A segment that the path of a server may have is a relative reference. -/
theorem relativeReference_segment {name : String} (hne : name.toList ≠ [])
    (hlength : (utf8 name).length ≤ 2048) (hsegment : validCustomServerPathSegment name.toList = true)
    (hdots : name.toList ≠ ['.'] ∧ name.toList ≠ ['.', '.']) : RelativeReference name := by
  have hall : ∀ c ∈ name.toList, validCustomServerPathSegment [c] = true := by
    intro c hc
    have hcharacter := List.all_eq_true.mp hsegment c hc
    rw [validCustomServerPathSegment, List.all_cons, hcharacter]
    rfl
  have hnot {c : Char} (hc : validCustomServerPathSegment [c] = false) : c ∉ name.toList := by
    intro hmem
    rw [hall c hmem] at hc
    cases hc
  have hgraphic : ∀ c ∈ name.toList, Graphic c := by
    intro c hc
    apply graphic_of_pathCharacter
    rw [pathCharacter, hall c hc, Bool.or_true]
  refine ⟨⟨?_, hlength⟩, ?_, ?_, hnot (by decide), hnot (by decide), ?_, ?_, name.toList, ?_, ?_⟩
  · exact (List.length_pos_iff.mpr hne).trans_le (length_le_utf8 name)
  · exact fun hhead ↦ hnot (by decide) (List.mem_of_mem_head? hhead)
  · exact fun hmem ↦ hnot (by decide) ((List.takeWhile_prefix _).subset hmem)
  · intro c hc
    obtain ⟨hlow, hhigh⟩ := hgraphic c hc
    rw [unsafeURLRune, Bool.or_eq_false_iff, decide_eq_false_iff_not, decide_eq_false_iff_not]
    exact ⟨by omega, by omega⟩
  · intro escape hescape hwithin
    have hpercent : ∀ escape ∈ forbiddenEscapes, '%' ∈ escape := by decide
    obtain ⟨c, hc, hlower⟩ := List.mem_map.mp (hwithin.subset (hpercent escape hescape))
    have heq : c.toLower = '%' → c = '%' := by
      apply Utf8.forall_ascii _ ((hgraphic c hc).2.trans (by decide))
      decide
    exact hnot (by decide) (heq hlower ▸ hc)
  · have hwhole : name.toList.takeWhile (fun c ↦ decide (c ≠ '?')) = name.toList := by
      apply List.takeWhile_eq_self_iff.mpr
      intro c hc
      apply decide_eq_true
      rintro rfl
      exact hnot (by decide) hc
    rw [hwhole]
    exact unescape_of_not_mem (hnot (by decide))
  · rw [List.splitOn_eq_singleton (hnot (by decide))]
    intro segment hmem
    obtain rfl := List.mem_singleton.mp hmem
    exact ⟨hne, hdots⟩

/-! ## What is accepted -/

section

variable {lib : URLLibrary} {quote : String → String}

theorem validCustomEndpoint_asterisk (hlib : LawfulRequestURIs lib) :
    validCustomEndpoint lib "*" = true := by
  have hlower : toLower lib.lower "*" = "*" := by
    have hasterisk : lib.lower '*' = '*' := hlib.lower_ascii '*' (by decide)
    change String.ofList [lib.lower '*'] = "*"
    exact congrArg (fun c ↦ String.ofList [c]) hasterisk
  have hscreen : ¬("*".toList.head? = some '/' ∨ '\\' ∈ "*".toList ∨
      ["%2f", "%5c", "%00", "%0a", "%0d"].any (Statistics.contains "*" ·)) := by
    decide
  have hparse : lib.parseRequestURI "*".toList = some (plainURL [] [] ['*']) := hlib.asterisk
  rw [validCustomEndpoint, hlower, if_neg hscreen, hparse]
  decide

/-- A text that begins with no slash and has no scheme is no request URI, but for the
asterisk. -/
theorem validCustomEndpoint_iff (hlib : LawfulRequestURIs lib) (value : String) :
    validCustomEndpoint lib value = true ↔ value = "*" := by
  constructor
  · intro h
    rw [validCustomEndpoint] at h
    split at h
    · cases h
    rename_i hscreen
    split at h
    · cases h
    rename_i endpoint hparse
    rw [Bool.and_eq_true, Bool.not_eq_true'] at h
    have hscheme : endpoint.scheme = [] := by
      by_contra hne
      simp [hne] at h
    rcases hlib.absolute _ _ hparse with hne | hslash | hraw
    · exact absurd hscheme hne
    · exact absurd (.inl hslash) hscreen
    · have htext := congrArg String.ofList hraw
      rwa [String.ofList_toList] at htext
  · rintro rfl
    exact validCustomEndpoint_asterisk hlib

variable (lib quote) in
/-- The fields of a definition are accepted. -/
def Accepts (target : TestTarget) (definition : JsonObject) : Prop :=
  ∃ accepted, customDefinition lib quote { target with customServerDefinition := some definition } =
    .ok accepted

theorem addField_ok_congr {field : String × Json} {definition added : JsonObject}
    (h : addField lib quote definition field = .ok added) (definition' : JsonObject) :
    ∃ added', addField lib quote definition' field = .ok added' := by
  obtain ⟨key, value⟩ := field
  simp only [addField] at h ⊢
  split at h
  · rename_i hinsecure
    rw [if_pos hinsecure]
    split at h
    · exact ⟨_, rfl⟩
    · cases h
  · rename_i hinsecure
    rw [if_neg hinsecure]
    split at h
    · rename_i hkey
      rw [if_pos hkey]
      split at h
      · split at h
        · cases h
        · rename_i hlength
          rw [if_neg hlength]
          split at h
          · cases h
          · rename_i hvalid
            rw [if_neg hvalid]
            exact ⟨_, rfl⟩
      · cases h
    · cases h

/-- A definition is accepted where each of its fields is. -/
theorem accepts_iff {target : TestTarget} {definition : JsonObject} :
    Accepts lib quote target definition ↔
      ∀ field ∈ definition, ∃ added, addField lib quote [] field = .ok added := by
  have hfold : ∀ (fields start : JsonObject),
      (∃ accepted, fields.foldlM (addField lib quote) start = .ok accepted) ↔
        ∀ field ∈ fields, ∃ added, addField lib quote [] field = .ok added := by
    intro fields
    induction fields with
    | nil => exact fun start ↦ ⟨fun _ ↦ by simp, fun _ ↦ ⟨start, rfl⟩⟩
    | cons field fields ih =>
        intro start
        rw [List.foldlM_cons, List.forall_mem_cons]
        constructor
        · rintro ⟨accepted, h⟩
          obtain ⟨added, hadded, hrest⟩ := Loops.bind_eq_ok h
          exact ⟨addField_ok_congr hadded [], (ih added).mp ⟨accepted, hrest⟩⟩
        · rintro ⟨⟨added, hadded⟩, hall⟩
          obtain ⟨added', hadded'⟩ := addField_ok_congr hadded start
          obtain ⟨accepted, haccepted⟩ := (ih added').mpr hall
          refine ⟨accepted, ?_⟩
          rw [hadded']
          exact haccepted
  exact hfold definition _

theorem accepts_append_cons_iff {target : TestTarget} {before after : JsonObject}
    {field : String × Json} (hothers : ∀ field ∈ before ++ after, Accepts lib quote target [field]) :
    Accepts lib quote target (before ++ field :: after) ↔
      ∃ added, addField lib quote [] field = .ok added := by
  rw [accepts_iff]
  constructor
  · exact fun h ↦ h field (List.mem_append_right _ List.mem_cons_self)
  · intro hfield other hother
    rcases List.mem_append.mp hother with hmem | hmem
    · exact accepts_iff.mp (hothers other (List.mem_append_left _ hmem)) other List.mem_cons_self
    rcases List.mem_cons.mp hmem with rfl | hmem
    · exact hfield
    · exact accepts_iff.mp (hothers other (List.mem_append_right _ hmem)) other List.mem_cons_self

def endpointKeys : List String := ["dlURL", "ulURL", "pingURL", "getIpURL"]

/-- Of all values of an endpoint the asterisk is accepted. -/
theorem addField_endpoint_iff (hlib : LawfulRequestURIs lib) {key : String}
    (hkey : key ∈ endpointKeys) (value : Json) :
    (∃ added, addField lib quote [] (key, value) = .ok added) ↔ value = .string "*" := by
  have hinsecure : key ≠ "allowInsecure" := by
    rintro rfl
    revert hkey
    decide
  have hname : key ≠ "name" := by
    rintro rfl
    revert hkey
    decide
  have hknown : key ∈ ["name", "dlURL", "ulURL", "pingURL", "getIpURL"] :=
    List.mem_cons_of_mem _ hkey
  simp only [addField]
  rw [if_neg hinsecure, if_pos hknown]
  cases value with
  | string text =>
      simp only [Json.string.injEq]
      rw [← validCustomEndpoint_iff hlib]
      constructor
      · rintro ⟨added, h⟩
        split at h
        · cases h
        split at h
        · cases h
        rename_i hvalid
        simpa [hname] using hvalid
      · intro hvalid
        obtain rfl := (validCustomEndpoint_iff hlib text).mp hvalid
        rw [if_neg (by decide), hvalid, if_neg (by simp)]
        exact ⟨_, rfl⟩
  | _ => simp

/-! ## Joining -/

/-- The URL of an endpoint, from the URL of the server in the definition. -/
def joined (serverURL value : String) : String := trimSlashes serverURL ++ "/" ++ value

/-- The endpoint is on the server, and below its path. -/
def Below (lib : URLLibrary) (serverURL value : String) : Prop :=
  ∃ base l, location lib serverURL = some base ∧ location lib (joined serverURL value) = some l ∧
    (l.scheme = base.scheme ∧ l.host = base.host ∧ l.port = base.port) ∧
    base.path ++ ['/'] <+: l.path

theorem slash_not_mem_authority {l : Location} (h : l.Valid) : '/' ∉ l.authority := by
  intro hmem
  have hcharacter := authorityCharacter_of_plain h.host.plainHost l.plainPort _ hmem
  revert hcharacter
  decide

theorem getLast?_text {l : Location} (h : l.Valid) : l.text.getLast? ≠ some '/' := by
  have hauthority : l.authority ≠ [] := by
    intro hnil
    rw [Location.authority, List.append_eq_nil_iff] at hnil
    exact h.host.text_ne_nil hnil.1
  intro hlast
  rcases h.path with hnil | ⟨hhead, -⟩
  · rw [Location.text, hnil, List.append_nil, List.getLast?_append_of_ne_nil _ hauthority] at hlast
    exact slash_not_mem_authority h (List.mem_of_mem_getLast? hlast)
  · have hne : l.path ≠ [] := by
      intro hnil
      rw [hnil] at hhead
      cases hhead
    rw [Location.text, List.getLast?_append_of_ne_nil _ hne] at hlast
    have htrim := congrArg List.length h.trimSuffix_path
    rw [trimSuffix, if_pos hlast, List.length_dropLast] at htrim
    have hpos := List.length_pos_iff.mpr hne
    omega

theorem trimSlashes_text {l : Location} (h : l.Valid) :
    trimSlashes (String.ofList l.text) = String.ofList l.text := by
  rw [trimSlashes, String.toList_ofList]
  congr 1
  have hhead : l.text.reverse.head? ≠ some '/' := by
    rw [List.head?_reverse]
    exact getLast?_text h
  cases hreverse : l.text.reverse with
  | nil => simpa using congrArg List.reverse hreverse
  | cons c rest =>
      rw [hreverse] at hhead
      have hc : c ≠ '/' := fun heq ↦ hhead (congrArg some heq)
      rw [List.dropWhile_cons_of_neg (by simpa using hc), ← hreverse, List.reverse_reverse]

theorem below_asterisk (hlib : LawfulRequestURIs lib) {raw serverURL : String}
    (h : canonicalCustomServerURL lib raw = .ok serverURL) : Below lib serverURL "*" := by
  obtain ⟨-, u, -, -, -, hvalid, rfl⟩ := canonicalCustomServerURL_spec h
  generalize u.location lib = l at hvalid
  have hbase : location lib (String.ofList l.text) = some l := by
    rw [location, String.toList_ofList, hvalid.parse_text hlib.toLawfulURLs, Option.map_some,
      hvalid.location_url hlib.toLawfulURLs]
  have htext : (joined (String.ofList l.text) "*").toList =
      l.scheme ++ "://".toList ++ l.authority ++ (l.path ++ ['/', '*']) := by
    rw [joined, trimSlashes_text hvalid, String.toList_append, String.toList_append,
      String.toList_ofList, Location.text]
    simp
  have hparse := hlib.parse_asterisk l.scheme l.host.text _ l.path hvalid.scheme
    hvalid.host.plainHost l.plainPort hvalid.plainPath
  have hjoined : location lib (joined (String.ofList l.text) "*") =
      some ((plainURL l.scheme l.authority (l.path ++ ['/', '*'])).location lib) := by
    rw [location, htext]
    exact congrArg (Option.map (URL.location lib)) hparse
  refine ⟨l, _, hbase, hjoined, ?_, ?_⟩
  · have hsame := hvalid.location_url hlib.toLawfulURLs
    have hscheme := congrArg Location.scheme hsame
    have hhost := congrArg Location.host hsame
    have hport := congrArg Location.port hsame
    exact ⟨hscheme, hhost, hport⟩
  · have hlast : (l.path ++ ['/', '*']).getLast? = some '*' := by simp
    change l.path ++ ['/'] <+: trimSuffix '/' (l.path ++ ['/', '*'])
    rw [trimSuffix, hlast, if_neg (by decide)]
    exact ⟨['*'], by simp⟩

/-- An endpoint is accepted where it is a relative reference, and is then on the server,
if and only if it is the asterisk or no relative reference. -/
theorem customDefinition_endpoint_iff (hlib : LawfulRequestURIs lib) {key : String}
    (hkey : key ∈ endpointKeys) {target : TestTarget} {before after : JsonObject}
    (hothers : ∀ field ∈ before ++ after, Accepts lib quote target [field]) (value : Json) :
    ((Accepts lib quote target (before ++ (key, value) :: after) ↔ IsReference value) ∧
      ∀ text, value = .string text → Accepts lib quote target (before ++ (key, value) :: after) →
        ∀ raw serverURL, canonicalCustomServerURL lib raw = .ok serverURL →
          Below lib serverURL text) ↔
      (value = .string "*" ∨ ¬IsReference value) := by
  have haccepts : Accepts lib quote target (before ++ (key, value) :: after) ↔
      value = .string "*" :=
    (accepts_append_cons_iff hothers).trans (addField_endpoint_iff hlib hkey value)
  rw [haccepts]
  constructor
  · rintro ⟨hreference, -⟩
    rw [hreference]
    exact em _
  · intro hcase
    have hasterisk : value = .string "*" → IsReference value := fun hvalue ↦
      ⟨"*", hvalue, relativeReference_asterisk⟩
    constructor
    · constructor
      · exact hasterisk
      · exact fun hreference ↦ hcase.resolve_right (not_not.mpr hreference)
    · rintro text rfl htext raw serverURL hcanonical
      obtain rfl := Json.string.inj htext
      exact below_asterisk hlib hcanonical

end

/-! ## A library -/

/-- The reading of the plain URLs, and of an asterisk alone or at the end of a path. -/
def requestLibrary : URLLibrary where
  lower := Char.toLower
  parseRequestURI raw :=
    if raw = ['*'] then some (plainURL [] [] ['*'])
    else
      let ends := decide (['/', '*'] <:+ raw)
      let last := if ends then ['/', '*'] else []
      match plainLibrary.parseRequestURI (if ends then raw.dropLast.dropLast else raw) with
      | none => none
      | some u =>
          if u.scheme = [] then none
          else some { u with path := u.path ++ last, escapedPath := u.escapedPath ++ last }

theorem parse_requestLibrary {raw : List Char} {u : URL} (hne : raw ≠ ['*'])
    (h : requestLibrary.parseRequestURI raw = some u) :
    ∃ front last v, raw = front ++ last ∧ plainLibrary.parseRequestURI front = some v ∧
      v.scheme ≠ [] ∧ u = { v with path := v.path ++ last, escapedPath := v.escapedPath ++ last } := by
  simp only [requestLibrary, if_neg hne] at h
  by_cases hends : ['/', '*'] <:+ raw
  · obtain ⟨front, rfl⟩ := hends
    have hdrop : (front ++ ['/', '*']).dropLast.dropLast = front := by simp
    simp only [List.suffix_append, decide_true, if_true, hdrop] at h
    cases hparse : plainLibrary.parseRequestURI front with
    | none =>
        rw [hparse] at h
        cases h
    | some v =>
        rw [hparse] at h
        simp only at h
        split at h
        · cases h
        · rename_i hscheme
          exact ⟨front, _, v, rfl, hparse, hscheme, (Option.some.inj h).symm⟩
  · simp only [hends, decide_false, Bool.false_eq_true, if_false] at h
    cases hparse : plainLibrary.parseRequestURI raw with
    | none =>
        rw [hparse] at h
        cases h
    | some v =>
        rw [hparse] at h
        simp only at h
        split at h
        · cases h
        · rename_i hscheme
          exact ⟨raw, [], v, (List.append_nil _).symm, hparse, hscheme, (Option.some.inj h).symm⟩

theorem asterisk_not_mem {scheme host port path : List Char}
    (hscheme : scheme = "http".toList ∨ scheme = "https".toList) (hhost : PlainHost host)
    (hport : PlainPort port) (hpath : PlainPath path) :
    '*' ∉ scheme ++ "://".toList ++ (host ++ port) ++ path := by
  have hletters : '*' ∉ scheme ++ "://".toList := by
    rcases hscheme with rfl | rfl
    · decide
    · decide
  have hauthority : '*' ∉ host ++ port := by
    intro hmem
    have hcharacter := authorityCharacter_of_plain hhost hport _ hmem
    revert hcharacter
    decide
  have hpath' : '*' ∉ path := by
    intro hmem
    rcases hpath with rfl | ⟨-, hall⟩
    · cases hmem
    · have hcharacter := hall _ hmem
      revert hcharacter
      decide
  rw [List.mem_append, List.mem_append]
  rintro ((hmem | hmem) | hmem)
  · exact hletters hmem
  · exact hauthority hmem
  · exact hpath' hmem

theorem lawful_requestLibrary : LawfulRequestURIs requestLibrary where
  lower_ascii := fun _ _ ↦ rfl
  parse_plain := by
    intro scheme host port path hscheme hhost hport hpath
    have hnot := asterisk_not_mem hscheme hhost hport hpath
    have hparse := plainLibrary_parse hscheme hhost hport hpath
    generalize scheme ++ "://".toList ++ (host ++ port) ++ path = raw at hnot hparse
    have hne : raw ≠ ['*'] := by
      rintro rfl
      exact hnot List.mem_cons_self
    have hends : ¬['/', '*'] <:+ raw := fun hsuffix ↦
      hnot (hsuffix.subset (List.mem_cons_of_mem _ List.mem_cons_self))
    have hnonempty : (plainURL scheme (host ++ port) path).scheme ≠ [] := by
      change scheme ≠ []
      rcases hscheme with rfl | rfl
      · decide
      · decide
    simp only [requestLibrary, if_neg hne, hends, decide_false, Bool.false_eq_true, if_false, hparse,
      if_neg hnonempty, List.append_nil]
  parts := by
    intro raw u hparse hhost hopaque huser hquery hforce hpercent
    have hne : raw ≠ ['*'] := by
      rintro rfl
      obtain rfl := Option.some.inj hparse
      exact hhost rfl
    obtain ⟨front, last, v, rfl, hfront, -, rfl⟩ := parse_requestLibrary hne hparse
    obtain ⟨scheme, host, hraw, hlower, hascii, hlength, hcase⟩ :=
      lawful_plainLibrary.parts front v hfront hhost hopaque huser hquery hforce
        fun hmem ↦ hpercent (List.mem_append_left _ hmem)
    refine ⟨scheme, host, ?_, hlower, hascii, hlength, hcase⟩
    rw [hraw, List.append_assoc]
  bracketed := by
    intro raw u hparse hcolon
    have hne : raw ≠ ['*'] := by
      rintro rfl
      obtain rfl := Option.some.inj hparse
      revert hcolon
      decide
    obtain ⟨front, last, v, rfl, hfront, -, rfl⟩ := parse_requestLibrary hne hparse
    exact lawful_plainLibrary.bracketed front v hfront hcolon
  absolute := by
    intro raw u hparse
    by_cases hne : raw = ['*']
    · exact .inr (.inr hne)
    · obtain ⟨front, last, v, -, -, hscheme, rfl⟩ := parse_requestLibrary hne hparse
      exact .inl hscheme
  asterisk := rfl
  parse_asterisk := by
    intro scheme host port path hscheme hhost hport hpath
    have hparse := plainLibrary_parse hscheme hhost hport hpath
    rw [← List.append_assoc]
    generalize scheme ++ "://".toList ++ (host ++ port) ++ path = raw at hparse
    have hne : raw ++ ['/', '*'] ≠ ['*'] := by
      intro heq
      have hlength := congrArg List.length heq
      simp at hlength
    have hdrop : (raw ++ ['/', '*']).dropLast.dropLast = raw := by simp
    have hnonempty : (plainURL scheme (host ++ port) path).scheme ≠ [] := by
      change scheme ≠ []
      rcases hscheme with rfl | rfl
      · decide
      · decide
    simp only [requestLibrary, if_neg hne, List.suffix_append, decide_true, if_true, hdrop, hparse,
      if_neg hnonempty]
    rfl

/-- The endpoints of `customDefinition`, spelled out. -/
def defaultEndpoints : JsonObject :=
  [("dlURL", .string "garbage.php"), ("ulURL", .string "empty.php"),
    ("pingURL", .string "empty.php"), ("getIpURL", .string "getIP.php")]

def customTarget : TestTarget := ⟨"custom", "", "https://speed.test", none⟩

theorem isReference_defaultEndpoints : ∀ field ∈ defaultEndpoints,
    field.1 ∈ endpointKeys ∧ IsReference field.2 := by
  intro field hfield
  simp only [defaultEndpoints, List.mem_cons, List.not_mem_nil, or_false] at hfield
  rcases hfield with rfl | rfl | rfl | rfl
  all_goals
    exact ⟨by decide, _, rfl, relativeReference_segment (by decide) (by decide) (by decide)
      ⟨by decide, by decide⟩⟩

/-- A definition that spells out the default endpoints is refused. -/
theorem customDefinition_refuses_defaults :
    (∀ field ∈ defaultEndpoints, field.1 ∈ endpointKeys ∧ IsReference field.2) ∧
      ¬Accepts requestLibrary id customTarget defaultEndpoints := by
  refine ⟨isReference_defaultEndpoints, fun haccepts ↦ ?_⟩
  have hfirst := accepts_iff.mp haccepts _ List.mem_cons_self
  rw [addField_endpoint_iff lawful_requestLibrary List.mem_cons_self] at hfirst
  revert hfirst
  simp

/-- The asterisk is accepted next to a name, and is on the server. -/
theorem customDefinition_endpoint_iff_asterisk :
    Accepts requestLibrary id customTarget [("name", .string "Lab"), ("dlURL", .string "*")] ∧
      Below requestLibrary "https://speed.test" "*" := by
  have hothers : ∀ field ∈ [("name", Json.string "Lab")] ++ [],
      Accepts requestLibrary id customTarget [field] := by
    intro field hfield
    obtain rfl := List.mem_singleton.mp hfield
    exact ⟨_, rfl⟩
  obtain ⟨hreference, hbelow⟩ := (customDefinition_endpoint_iff lawful_requestLibrary
    List.mem_cons_self hothers (.string "*")).mpr (.inl rfl)
  have haccepts := hreference.mpr ⟨"*", rfl, relativeReference_asterisk⟩
  exact ⟨haccepts, hbelow "*" rfl haccepts "https://speed.test" _ (by decide +kernel)⟩

end MultiSpeed.Providers.LibreSpeed
