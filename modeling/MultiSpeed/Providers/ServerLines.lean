import MultiSpeed.Lib.Substrings
import MultiSpeed.Api.Authorities
import MultiSpeed.Providers.Allowlist
import MultiSpeed.Providers.Requests
import MultiSpeed.Providers.Sanitizing

/-!
# The server list of the CLI

`parseServerLines` of `internal/providers/librespeed`: the servers that the CLI prints one
a line, with or without a sponsor.
-/

namespace MultiSpeed.Providers.LibreSpeed

open Network Execution Api Substrings

/-- `providers.Server`; its country is empty and its distance zero where it is read from a
line. -/
structure Server extends ProviderServer where
  url : String

/-- `strings.ReplaceAll(output, "\r\n", "\n")` -/
def replaceLineEndings : List Char → List Char
  | '\r' :: '\n' :: s => '\n' :: replaceLineEndings s
  | c :: s => c :: replaceLineEndings s
  | [] => []

/-- `"  [Sponsor: "` -/
def sponsorMarker : List Char :=
  [' ', ' ', '[', 'S', 'p', 'o', 'n', 's', 'o', 'r', ':', ' ']

/-- `" @ "`, which separates the name of a sponsor from its address. -/
def sponsorSeparator : List Char := [' ', '@', ' ']

def serverLineError (lineNumber : ℕ) (problem : String) : String :=
  "parse LibreSpeed server list line " ++ toString lineNumber ++ ": " ++ problem

section

variable (lib : URLLibrary)

/-- The sponsor of a line behind the identifier, and the line without it. -/
def cutSponsor (remainder : List Char) : List Char × List Char :=
  match lastIndex sponsorMarker remainder with
  | some marker =>
      if remainder.getLast? = some ']' then
        (trimSuffix ']' (remainder.drop (marker + sponsorMarker.length)),
          trimSpaces (remainder.take marker))
      else ([], remainder)
  | none => ([], remainder)

/-- The name of a sponsor without its address. -/
def sponsorName (sponsor : List Char) : List Char :=
  match index sponsorSeparator sponsor with
  | some place => trimSpaces (sponsor.take place)
  | none => sponsor

/-- The body of the loop for a line that is not blank. -/
def parseServerLine (lineNumber : ℕ) (line : List Char) : Except String Server :=
  match AddressText.cutFirst ':' line with
  | none => .error (serverLineError lineNumber "invalid server ID")
  | some (before, after) =>
      let id := String.ofList (trimSpaces before)
      if before = [] ∨ numericID id = false then
        .error (serverLineError lineNumber "invalid server ID")
      else
        let (sponsor, remainder) := cutSponsor (trimSpaces after)
        match lastIndex [' ', '('] remainder with
        | none => .error (serverLineError lineNumber "missing server URL")
        | some urlStart =>
            if urlStart < 1 ∨ remainder.getLast? ≠ some ')' then
              .error (serverLineError lineNumber "missing server URL")
            else
              let name := String.ofList (trimSpaces (remainder.take urlStart))
              let serverURL := trimSpaces (remainder.drop (urlStart + 2)).dropLast
              match lib.parseRequestURI serverURL with
              | none => .error (serverLineError lineNumber "invalid server URL")
              | some parsedURL =>
                  if parsedURL.scheme ≠ "http".toList ∧ parsedURL.scheme ≠ "https".toList ∨
                      parsedURL.host = [] then
                    .error (serverLineError lineNumber "invalid server URL")
                  else .ok {
                    id := id
                    name := name
                    host := String.ofList parsedURL.host
                    sponsor := String.ofList (sponsorName sponsor)
                    location := name
                    country := ""
                    url := String.ofList serverURL }

/-- The loop over the lines. -/
def parseLines (lineNumber : ℕ) : List (List Char) → Except String (List Server)
  | [] => .ok []
  | rawLine :: lines =>
      let line := trimSpaces rawLine
      if line = [] then parseLines (lineNumber + 1) lines
      else
        match parseServerLine lib (lineNumber + 1) line with
        | .error err => .error err
        | .ok item =>
            match parseLines (lineNumber + 1) lines with
            | .error err => .error err
            | .ok items => .ok (item :: items)

def parseServerLines (output : List Char) : Except String (List Server) :=
  match parseLines lib 0 ((replaceLineEndings output).splitOn '\n') with
  | .error err => .error err
  | .ok items =>
      if items.isEmpty then .error "parse LibreSpeed server list: no servers returned"
      else .ok items

end

/-! ## The format of the CLI -/

/-- What the CLI prints of a server. -/
structure PrintedServer where
  id : List Char
  name : List Char
  url : List Char
  sponsor : Option (List Char × List Char)

namespace PrintedServer

/-- `" [Sponsor: <sponsor> @ <sponsor url>]"`, with one blank less than the marker. -/
def sponsorText : Option (List Char × List Char) → List Char
  | none => []
  | some (sponsor, sponsorURL) =>
      sponsorMarker.tail ++ sponsor ++ sponsorSeparator ++ sponsorURL ++ [']']

/-- `"<id>: <name> (<url>) "`, and the sponsor where there is one. -/
def text (s : PrintedServer) : List Char :=
  s.id ++ [':', ' '] ++ s.name ++ [' ', '('] ++ s.url ++ [')', ' '] ++ sponsorText s.sponsor

/-- The server of a line whose URL has the host. -/
def server (s : PrintedServer) (host : List Char) : Server where
  id := String.ofList s.id
  name := String.ofList s.name
  host := String.ofList host
  sponsor := String.ofList ((s.sponsor.map Prod.fst).getD [])
  location := String.ofList s.name
  country := ""
  url := String.ofList s.url

end PrintedServer

/-- A trimmed text of one line. -/
structure SingleLine (s : List Char) : Prop where
  trimmed : trimSpaces s = s
  nonempty : s ≠ []
  newline : '\n' ∉ s

/-- No character is white space. -/
def Unspaced (s : List Char) : Prop := ∀ c ∈ s, isSpace c.toNat = false

/-- A server as the CLI prints it, where `named` says what the name of a sponsor may be. -/
structure PrintedServer.Regular (lib : URLLibrary) (named : List Char → Prop)
    (s : PrintedServer) (host : List Char) : Prop where
  id : numericID (String.ofList s.id) = true
  name : SingleLine s.name
  unmarked : ¬sponsorMarker <:+: s.name
  unspaced : Unspaced s.url
  url : ∃ parsed, lib.parseRequestURI s.url = some parsed ∧
    (parsed.scheme = "http".toList ∨ parsed.scheme = "https".toList) ∧
    parsed.host ≠ [] ∧ parsed.host = host
  sponsor : ∀ sponsor ∈ s.sponsor, SingleLine sponsor.1 ∧ named sponsor.1 ∧ Unspaced sponsor.2

inductive Ending where
  | lf
  | crlf

def Ending.text : Ending → List Char
  | lf => ['\n']
  | crlf => ['\r', '\n']

/-- A line of the list, with the host of its server. -/
inductive Line where
  | server (s : PrintedServer) (host : List Char)
  | blank (spaces : List Char)

namespace Line

def text : Line → List Char
  | server s _ => s.text
  | blank spaces => spaces

def server? : Line → Option Server
  | server s host => some (s.server host)
  | blank _ => none

def Regular (lib : URLLibrary) (named : List Char → Prop) : Line → Prop
  | server s host => s.Regular lib named host
  | blank spaces => ∀ c ∈ spaces, isSpace c.toNat = true ∧ c ≠ '\n'

end Line

/-- The lines with their endings, and what stands behind the last of these. -/
def listing (lines : List (Line × Ending)) (last : Line) : List Char :=
  (lines.flatMap fun line ↦ line.1.text ++ line.2.text) ++ last.text

/-- A list that is printed is read back. -/
def ReadsBack (lib : URLLibrary) (named : List Char → Prop) : Prop :=
  ∀ (lines : List (Line × Ending)) (last : Line),
    (∀ line ∈ lines, line.1.Regular lib named) → last.Regular lib named →
      ∀ servers, servers = (lines.map Prod.fst ++ [last]).filterMap Line.server? →
        servers ≠ [] → parseServerLines lib (listing lines last) = .ok servers

/-- What the name of a sponsor must not have in it. -/
def PlainSponsor (sponsor : List Char) : Prop :=
  ¬sponsorSeparator <:+: sponsor ∧ ¬sponsorMarker <:+: sponsor

/-- What it must not have in it even with the blank behind it. -/
def SeparateSponsor (sponsor : List Char) : Prop := PlainSponsor (sponsor ++ [' '])

/-! ## White space -/

/-- White space at both ends is trimmed. -/
theorem trimSpaces_append {before after : List Char}
    (hbefore : ∀ c ∈ before, isSpace c.toNat = true) (hafter : ∀ c ∈ after, isSpace c.toNat = true)
    (s : List Char) : trimSpaces (before ++ s ++ after) = trimSpaces s := by
  rw [trimSpaces_eq, trimSpaces_eq, List.append_assoc, List.dropWhile_append_of_pos hbefore,
    List.dropWhile_append]
  cases hs : s.dropWhile (fun c ↦ isSpace c.toNat) with
  | nil =>
      have hnil : after.dropWhile (fun c ↦ isSpace c.toNat) = [] :=
        List.dropWhile_eq_nil_iff.mpr hafter
      rw [List.isEmpty_nil, if_pos rfl, hnil]
  | cons c s =>
      have hreverse : ∀ c ∈ after.reverse, isSpace c.toNat = true := fun c hc ↦
        hafter c (List.mem_reverse.mp hc)
      rw [List.isEmpty_cons, if_neg Bool.false_ne_true, List.reverse_append,
        List.dropWhile_append_of_pos hreverse]

theorem trimSpaces_of_blank {s : List Char} (h : ∀ c ∈ s, isSpace c.toNat = true) :
    trimSpaces s = [] := by
  have hs := @trimSpaces_append s [] h nofun []
  rw [List.append_nil, List.append_nil] at hs
  rw [hs]
  rfl

/-- A text is trimmed where neither of its ends is white space. -/
theorem trimSpaces_eq_self_iff {s : List Char} : trimSpaces s = s ↔
    (∀ c ∈ s.head?, isSpace c.toNat = false) ∧ ∀ c ∈ s.getLast?, isSpace c.toNat = false := by
  have hrunes : trimSpaces s = (trimSpace (s.map Char.toNat)).map Char.ofNat := by
    rw [trimSpaces, trimmed, String.toList_ofList, String.toList_ofList]
  have hback (l : List Char) : (l.map Char.toNat).map Char.ofNat = l := by
    rw [List.map_map]
    exact (List.map_congr_left fun c _ ↦ Char.ofNat_toNat c).trans (List.map_id l)
  rw [hrunes]
  constructor
  · intro h
    obtain ⟨ds, -, hds⟩ := trimSpace_map s
    rw [hds, hback] at h
    rw [h] at hds
    constructor
    · intro c hc
      apply @isSpace_of_head?_trimSpace (s.map Char.toNat)
      rw [hds, List.head?_map, Option.mem_def.mp hc]
      rfl
    · intro c hc
      apply @isSpace_of_getLast?_trimSpace (s.map Char.toNat)
      rw [hds, List.getLast?_map, Option.mem_def.mp hc]
      rfl
  · rintro ⟨hhead, hlast⟩
    rw [trimSpace_eq_self, hback]
    · intro r hr
      rw [List.head?_map] at hr
      obtain ⟨c, hc, rfl⟩ := Option.mem_map.mp hr
      exact hhead c hc
    · intro r hr
      rw [List.getLast?_map] at hr
      obtain ⟨c, hc, rfl⟩ := Option.mem_map.mp hr
      exact hlast c hc

/-! ## Lines -/

theorem trimSpaces_carriageReturn (s : List Char) : trimSpaces (s ++ ['\r']) = trimSpaces s := by
  have hreturn : ∀ c ∈ ['\r'], isSpace c.toNat = true := List.forall_mem_singleton.mpr rfl
  exact @trimSpaces_append [] ['\r'] nofun hreturn s

theorem splitOn_replaceLineEndings (s : List Char) :
    List.Forall₂ (fun line stripped ↦ line = stripped ∨ line = stripped ++ ['\r'])
      (s.splitOn '\n') ((replaceLineEndings s).splitOn '\n') := by
  induction s using replaceLineEndings.induct with
  | case1 s ih =>
      rw [replaceLineEndings, List.splitOn_cons_eq_if_modifyHead, List.splitOn_cons_eq_if_modifyHead,
        List.splitOn_cons_eq_if_modifyHead]
      exact .cons (.inr rfl) ih
  | case2 c s hnot ih =>
      rw [replaceLineEndings, List.splitOn_cons_eq_if_modifyHead, List.splitOn_cons_eq_if_modifyHead]
      · split
        · exact .cons (.inl rfl) ih
        · generalize s.splitOn '\n' = lines at ih ⊢
          generalize (replaceLineEndings s).splitOn '\n' = stripped at ih ⊢
          cases ih with
          | nil => exact .nil
          | cons hline hlines =>
              refine .cons ?_ hlines
              rcases hline with rfl | rfl
              · exact .inl rfl
              · exact .inr rfl
      · exact hnot
  | case3 =>
      rw [replaceLineEndings]
      exact .cons (.inl rfl) .nil

/-- A carriage return before the end of a line is trimmed. -/
theorem map_trimSpaces_replaceLineEndings (s : List Char) :
    ((replaceLineEndings s).splitOn '\n').map trimSpaces = (s.splitOn '\n').map trimSpaces := by
  rw [← List.forall₂_eq_eq_eq, List.forall₂_map_left_iff, List.forall₂_map_right_iff]
  apply (splitOn_replaceLineEndings s).flip.imp
  rintro stripped line (rfl | rfl)
  · rfl
  · exact (trimSpaces_carriageReturn stripped).symm

theorem parseLines_congr (lib : URLLibrary) {lines lines' : List (List Char)}
    (h : lines.map trimSpaces = lines'.map trimSpaces) (lineNumber : ℕ) :
    parseLines lib lineNumber lines = parseLines lib lineNumber lines' := by
  induction lines generalizing lines' lineNumber with
  | nil =>
      cases lines' with
      | nil => rfl
      | cons line' lines' => cases h
  | cons line lines ih =>
      cases lines' with
      | nil => cases h
      | cons line' lines' =>
          obtain ⟨hline, hlines⟩ := List.cons.inj h
          rw [parseLines, parseLines, hline]
          simp only [ih hlines]

theorem Unspaced.not_mem {s : List Char} (h : Unspaced s) {c : Char}
    (hc : isSpace c.toNat = true) : c ∉ s := by
  intro hmem
  rw [h c hmem] at hc
  cases hc

theorem isDigit_of_numericID {s : List Char} (h : numericID (String.ofList s) = true) :
    s ≠ [] ∧ ∀ c ∈ s, c.isDigit := by
  rw [numericID, Bool.and_eq_true, decide_eq_true_eq, String.toList_ofList, List.all_eq_true] at h
  refine ⟨?_, h.2⟩
  rintro rfl
  exact h.1.1 rfl

theorem isSpace_of_isDigit {c : Char} (h : c.isDigit) : isSpace c.toNat = false := by
  rw [Char.isDigit_iff_toNat] at h
  have hlow : '0'.toNat ≤ c.toNat := h.1
  have hhigh : c.toNat ≤ '9'.toNat := h.2
  simp only [isSpace, List.mem_cons, List.not_mem_nil]
  grind

theorem Line.text_newline {lib : URLLibrary} {named : List Char → Prop} {line : Line}
    (h : line.Regular lib named) : '\n' ∉ line.text := by
  cases line with
  | blank spaces => exact fun hmem ↦ (h '\n' hmem).2 rfl
  | server s host =>
      have hserver : s.Regular lib named host := h
      have hid : '\n' ∉ s.id := fun hmem ↦
        absurd ((isDigit_of_numericID hserver.id).2 '\n' hmem) (by decide)
      have hname := hserver.name.newline
      have hurl : '\n' ∉ s.url := hserver.unspaced.not_mem rfl
      rw [Line.text, PrintedServer.text]
      cases hsponsor : s.sponsor with
      | none => simp [PrintedServer.sponsorText, hid, hname, hurl]
      | some sponsor =>
          obtain ⟨hline, -, hunspaced⟩ := hserver.sponsor sponsor hsponsor
          have hsponsor' := hline.newline
          have hurl' : '\n' ∉ sponsor.2 := hunspaced.not_mem rfl
          simp [PrintedServer.sponsorText, sponsorMarker, sponsorSeparator, hid, hname, hurl,
            hsponsor', hurl']

theorem map_trimSpaces_listing {lines : List (Line × Ending)} {last : Line}
    (hlines : ∀ line ∈ lines, '\n' ∉ line.1.text) (hlast : '\n' ∉ last.text) :
    ((listing lines last).splitOn '\n').map trimSpaces =
      (lines.map Prod.fst ++ [last]).map fun line ↦ trimSpaces line.text := by
  induction lines with
  | nil =>
      rw [listing, List.flatMap_nil, List.nil_append, List.splitOn_eq_singleton hlast]
      rfl
  | cons line lines ih =>
      obtain ⟨line, ending⟩ := line
      have hline := hlines (line, ending) List.mem_cons_self
      have hrest := ih fun line hline ↦ hlines line (List.mem_cons_of_mem _ hline)
      have hlisting : listing ((line, ending) :: lines) last =
          line.text ++ (ending.text ++ listing lines last) := by
        rw [listing, List.flatMap_cons, List.append_assoc, List.append_assoc]
        rfl
      rw [hlisting, List.map_cons, List.cons_append, List.map_cons, ← hrest]
      cases ending with
      | lf =>
          rw [Ending.text, List.singleton_append,
            List.splitOn_append_cons_self_of_not_mem hline, List.map_cons]
      | crlf =>
          have hline' : '\n' ∉ line.text ++ ['\r'] := by simp [hline]
          have hassoc : line.text ++ (Ending.crlf.text ++ listing lines last) =
              (line.text ++ ['\r']) ++ '\n' :: listing lines last := by
            rw [List.append_assoc]
            rfl
          rw [hassoc, List.splitOn_append_cons_self_of_not_mem hline', List.map_cons,
            trimSpaces_carriageReturn]

/-! ## One server -/

namespace PrintedServer

/-- What stands before the sponsor, without the identifier. -/
def place (s : PrintedServer) : List Char :=
  s.name ++ ([' ', '('] ++ (s.url ++ [')']))

/-- What stands behind the identifier. -/
def remainder (s : PrintedServer) : List Char :=
  s.place ++
    match s.sponsor with
    | none => []
    | some (sponsor, sponsorURL) =>
        sponsorMarker ++ (sponsor ++ (sponsorSeparator ++ sponsorURL) ++ [']'])

theorem text_eq (s : PrintedServer) : ∃ spaces : List Char,
    (∀ c ∈ spaces, isSpace c.toNat = true) ∧
      s.text = s.id ++ ':' :: ' ' :: s.remainder ++ spaces := by
  cases hsponsor : s.sponsor with
  | none =>
      refine ⟨[' '], List.forall_mem_singleton.mpr rfl, ?_⟩
      simp [text, remainder, place, sponsorText, hsponsor]
  | some sponsor =>
      refine ⟨[], nofun, ?_⟩
      simp [text, remainder, place, sponsorText, sponsorMarker, hsponsor]

end PrintedServer

theorem SingleLine.head?_not_space {s : List Char} (h : SingleLine s) {c : Char}
    (hc : s.head? = some c) : isSpace c.toNat = false :=
  (trimSpaces_eq_self_iff.mp h.trimmed).1 c hc

/-- The part of the marker that a blank before a name can belong to is a blank. -/
theorem marker_overlap : ∀ n < 12, 0 < n → sponsorMarker.take n <:+ sponsorMarker.tail →
    (sponsorMarker.drop n).head? = some ' ' := by
  decide

/-- Behind the marker of a line there is no other one. -/
theorem not_late_marker {sponsor sponsorURL : List Char} (hline : SingleLine sponsor)
    (hsponsor : SeparateSponsor sponsor) (hurl : Unspaced sponsorURL) :
    ¬sponsorMarker <:+: sponsorMarker.tail ++
      (sponsor ++ (sponsorSeparator ++ sponsorURL) ++ [']']) := by
  have hassoc : sponsorMarker.tail ++ (sponsor ++ (sponsorSeparator ++ sponsorURL) ++ [']']) =
      (sponsorMarker.tail ++ (sponsor ++ [' '])) ++ ('@' :: ' ' :: (sponsorURL ++ [']'])) := by
    simp [sponsorSeparator]
  rw [hassoc, List.infix_append_iff_ne_nil, List.infix_append_iff_ne_nil]
  rintro ((h | h | ⟨before, after, hbefore, hafter, heq, hsuffix, hstart⟩) | h |
    ⟨before, after, -, hafter, heq, -, hstart⟩)
  · exact absurd h.length_le (by decide)
  · exact hsponsor.2 h
  · have hlength := congrArg List.length heq
    rw [List.length_append] at hlength
    have hpos := List.length_pos_iff.mpr hbefore
    have hpos' := List.length_pos_iff.mpr hafter
    have hlt : before.length < 12 := by
      have : sponsorMarker.length = 12 := rfl
      omega
    have htake : sponsorMarker.take before.length = before := by
      rw [heq, List.take_left]
    have hdrop : sponsorMarker.drop before.length = after := by
      rw [heq, List.drop_left]
    have hblank := marker_overlap before.length hlt hpos (htake.symm ▸ hsuffix)
    rw [hdrop] at hblank
    obtain ⟨rest, hrest⟩ := hstart
    have hhead := congrArg List.head? hrest
    rw [List.head?_append_of_ne_nil _ hafter, hblank,
      List.head?_append_of_ne_nil _ hline.nonempty] at hhead
    cases hline.head?_not_space hhead.symm
  · have hcount := h.sublist.count_le ' '
    have hnone : sponsorURL.count ' ' = 0 := List.count_eq_zero.mpr (hurl.not_mem rfl)
    rw [List.count_cons, List.count_cons, List.count_append, hnone] at hcount
    exact absurd hcount (by decide)
  · obtain ⟨rest, hrest⟩ := hstart
    have hhead := congrArg List.head? hrest
    rw [List.head?_append_of_ne_nil _ hafter] at hhead
    have hmem : '@' ∈ sponsorMarker := by
      rw [heq]
      exact List.mem_append_right _ (List.mem_of_mem_head? hhead)
    exact absurd hmem (by decide)

theorem sponsorName_separated {sponsor sponsorURL : List Char} (hline : SingleLine sponsor)
    (hsponsor : SeparateSponsor sponsor) :
    sponsorName (sponsor ++ (sponsorSeparator ++ sponsorURL)) = sponsor := by
  have hearly : ¬sponsorSeparator <:+: sponsor ++ sponsorSeparator.dropLast := by
    have hassoc : sponsor ++ sponsorSeparator.dropLast = (sponsor ++ [' ']) ++ ['@'] := by
      simp [sponsorSeparator]
    rw [hassoc, List.infix_append_iff_ne_nil]
    rintro (h | h | ⟨before, after, -, hafter, heq, -, hstart⟩)
    · exact hsponsor.1 h
    · exact absurd h.length_le (by decide)
    · obtain ⟨rest, hrest⟩ := hstart
      have hsingle : after = ['@'] := by
        cases after with
        | nil => exact absurd rfl hafter
        | cons c after =>
            obtain ⟨rfl, hnil⟩ := List.cons.inj hrest
            rw [(List.append_eq_nil_iff.mp hnil).1]
      have hlast : sponsorSeparator.getLast? = some '@' := by
        rw [heq, hsingle, List.getLast?_concat]
      exact absurd hlast (by decide)
  rw [sponsorName, index_append (by decide) hearly sponsorURL]
  dsimp only
  rw [List.take_left, hline.trimmed]

namespace PrintedServer

variable {lib : URLLibrary} {s : PrintedServer} {host : List Char}

theorem getLast?_place : s.place.getLast? = some ')' := by
  rw [place, ← List.append_assoc, ← List.append_assoc]
  exact List.getLast?_concat

theorem head?_place {named : List Char → Prop} (h : s.Regular lib named host) :
    s.place.head? = s.name.head? := by
  rw [place, List.head?_append_of_ne_nil _ h.name.nonempty]

theorem trimSpaces_place {named : List Char → Prop} (h : s.Regular lib named host) :
    trimSpaces s.place = s.place := by
  rw [trimSpaces_eq_self_iff, head?_place h, getLast?_place]
  refine ⟨fun c hc ↦ h.name.head?_not_space hc, fun c hc ↦ ?_⟩
  obtain rfl := Option.some.inj hc
  rfl

/-- The last blank before a bracket is the one before the URL. -/
theorem lastIndex_place {named : List Char → Prop} (h : s.Regular lib named host) :
    lastIndex [' ', '('] s.place = some s.name.length := by
  have hurl : ' ' ∉ s.url := h.unspaced.not_mem rfl
  apply lastIndex_append (by decide)
  intro hlater
  have hmem : ' ' ∈ ['('] ++ (s.url ++ [')']) := hlater.subset List.mem_cons_self
  simp [hurl] at hmem

/-- What the sponsor's part of a line is. -/
def sponsored (s : PrintedServer) : List Char :=
  match s.sponsor with
  | none => []
  | some (sponsor, sponsorURL) => sponsor ++ (sponsorSeparator ++ sponsorURL)

theorem cutSponsor_remainder (h : s.Regular lib SeparateSponsor host) :
    cutSponsor s.remainder = (s.sponsored, s.place) := by
  cases hsponsor : s.sponsor with
  | none =>
      have hremainder : s.remainder = s.place := by
        rw [remainder, hsponsor]
        exact List.append_nil _
      have hlast : s.place.getLast? ≠ some ']' := by
        rw [getLast?_place]
        decide
      rw [cutSponsor, hremainder, sponsored, hsponsor]
      split
      · rw [if_neg hlast]
      · rfl
  | some sponsor =>
      obtain ⟨sponsor, sponsorURL⟩ := sponsor
      obtain ⟨hline, hseparate, hunspaced⟩ := h.sponsor _ hsponsor
      have hremainder : s.remainder = s.place ++ (sponsorMarker ++
          (sponsor ++ (sponsorSeparator ++ sponsorURL) ++ [']'])) := by
        rw [remainder, hsponsor]
      have hlast : s.remainder.getLast? = some ']' := by
        rw [hremainder, ← List.append_assoc, ← List.append_assoc]
        exact List.getLast?_concat
      have hcut := lastIndex_append (by decide) (not_late_marker hline hseparate hunspaced) s.place
      rw [← hremainder] at hcut
      rw [cutSponsor, hcut]
      dsimp only
      rw [if_pos hlast, hremainder, ← List.drop_drop, List.drop_left, List.drop_left,
        List.take_left, trimSpaces_place h, trimSuffix, List.getLast?_concat, if_pos rfl,
        List.dropLast_concat, sponsored, hsponsor]

theorem sponsorName_sponsored (h : s.Regular lib SeparateSponsor host) :
    sponsorName s.sponsored = (s.sponsor.map Prod.fst).getD [] := by
  rw [sponsored]
  cases hsponsor : s.sponsor with
  | none => rfl
  | some sponsor =>
      obtain ⟨hline, hseparate, -⟩ := h.sponsor _ hsponsor
      exact sponsorName_separated hline hseparate

theorem head?_remainder {named : List Char → Prop} (h : s.Regular lib named host) :
    s.remainder.head? = s.name.head? := by
  have hne : s.place ≠ [] := by
    rw [place]
    exact List.append_ne_nil_of_left_ne_nil h.name.nonempty _
  rw [remainder, List.head?_append_of_ne_nil _ hne, head?_place h]

theorem getLast?_remainder : s.remainder.getLast? = some ')' ∨ s.remainder.getLast? = some ']' := by
  rw [remainder]
  cases s.sponsor with
  | none => exact .inl ((congrArg List.getLast? (List.append_nil _)).trans getLast?_place)
  | some sponsor =>
      refine .inr ?_
      rw [← List.append_assoc, ← List.append_assoc]
      exact List.getLast?_concat

theorem isSpace_last {c : Char} (hc : s.remainder.getLast? = some c) : isSpace c.toNat = false := by
  rcases @getLast?_remainder s with h | h
  · obtain rfl := Option.some.inj (h.symm.trans hc)
    rfl
  · obtain rfl := Option.some.inj (h.symm.trans hc)
    rfl

theorem trimSpaces_remainder {named : List Char → Prop} (h : s.Regular lib named host) :
    trimSpaces s.remainder = s.remainder := by
  rw [trimSpaces_eq_self_iff, head?_remainder h]
  exact ⟨fun c hc ↦ h.name.head?_not_space hc, fun c hc ↦ isSpace_last hc⟩

theorem trimSpaces_id {named : List Char → Prop} (h : s.Regular lib named host) :
    trimSpaces s.id = s.id := by
  have hdigits := (isDigit_of_numericID h.id).2
  rw [trimSpaces_eq_self_iff]
  exact ⟨fun c hc ↦ isSpace_of_isDigit (hdigits c (List.mem_of_mem_head? hc)),
    fun c hc ↦ isSpace_of_isDigit (hdigits c (List.mem_of_mem_getLast? hc))⟩

theorem trimSpaces_text {named : List Char → Prop} (h : s.Regular lib named host) :
    trimSpaces s.text = s.id ++ ':' :: ' ' :: s.remainder := by
  obtain ⟨spaces, hspaces, htext⟩ := s.text_eq
  have hblank := @trimSpaces_append [] spaces nofun hspaces (s.id ++ ':' :: ' ' :: s.remainder)
  rw [List.nil_append, ← htext] at hblank
  rw [hblank, trimSpaces_eq_self_iff]
  obtain ⟨hid, hdigits⟩ := isDigit_of_numericID h.id
  have hremainder : s.remainder ≠ [] := by
    intro hnil
    have hhead := head?_remainder h
    rw [hnil] at hhead
    exact h.name.nonempty (List.head?_eq_none_iff.mp hhead.symm)
  constructor
  · intro c hc
    rw [List.head?_append_of_ne_nil _ hid] at hc
    exact isSpace_of_isDigit (hdigits c (List.mem_of_mem_head? hc))
  · intro c hc
    have hassoc : s.id ++ ':' :: ' ' :: s.remainder = (s.id ++ [':', ' ']) ++ s.remainder := by simp
    rw [hassoc, List.getLast?_append_of_ne_nil _ hremainder] at hc
    exact isSpace_last hc

/-- A line is read as the server it was printed for. -/
theorem parseServerLine_line (h : s.Regular lib SeparateSponsor host) (lineNumber : ℕ) :
    parseServerLine lib lineNumber (s.id ++ ':' :: ' ' :: s.remainder) =
      .ok (s.server host) := by
  obtain ⟨hid, hdigits⟩ := isDigit_of_numericID h.id
  obtain ⟨parsed, hparsed, hscheme, hne, rfl⟩ := h.url
  have hcolon : ':' ∉ s.id := fun hmem ↦ absurd (hdigits ':' hmem) (by decide)
  have hafter : trimSpaces (' ' :: s.remainder) = s.remainder := by
    have hblank := @trimSpaces_append [' '] [] (List.forall_mem_singleton.mpr rfl) nofun s.remainder
    rw [List.append_nil, trimSpaces_remainder h] at hblank
    exact hblank
  have hfirst : ¬(s.id = [] ∨ numericID (String.ofList s.id) = false) := by
    rw [h.id]
    exact fun hor ↦ hor.elim hid Bool.true_eq_false.mp
  have hname : s.place.take s.name.length = s.name := by
    rw [place, List.take_left]
  have hurl : (s.place.drop (s.name.length + 2)).dropLast = s.url := by
    rw [place, ← List.drop_drop, List.drop_left]
    exact List.dropLast_concat
  have htrimURL : trimSpaces s.url = s.url := by
    rw [trimSpaces_eq_self_iff]
    exact ⟨fun c hc ↦ h.unspaced c (List.mem_of_mem_head? hc),
      fun c hc ↦ h.unspaced c (List.mem_of_mem_getLast? hc)⟩
  have hplace : ¬(s.name.length < 1 ∨ s.place.getLast? ≠ some ')') := by
    rw [getLast?_place]
    have := List.length_pos_iff.mpr h.name.nonempty
    rintro (hlt | hne)
    · omega
    · exact hne rfl
  have haccepted : ¬((parsed.scheme ≠ "http".toList ∧ parsed.scheme ≠ "https".toList) ∨
      parsed.host = []) := by
    rintro (⟨hhttp, hhttps⟩ | hhost)
    · exact hscheme.elim hhttp hhttps
    · exact hne hhost
  rw [parseServerLine, AddressText.cutFirst_append hcolon]
  dsimp only
  rw [trimSpaces_id h, if_neg hfirst, hafter, cutSponsor_remainder h]
  dsimp only
  rw [lastIndex_place h]
  dsimp only
  rw [if_neg hplace, hname, h.name.trimmed, hurl, htrimURL, hparsed]
  dsimp only
  rw [if_neg haccepted, sponsorName_sponsored h]
  rfl

end PrintedServer

/-! ## Lists that are read back -/

section

variable {lib : URLLibrary}

theorem parseLines_regular {lines : List Line}
    (h : ∀ line ∈ lines, line.Regular lib SeparateSponsor) (lineNumber : ℕ) :
    parseLines lib lineNumber (lines.map Line.text) = .ok (lines.filterMap Line.server?) := by
  induction lines generalizing lineNumber with
  | nil => rfl
  | cons line lines ih =>
      have hrest := ih fun line hline ↦ h line (List.mem_cons_of_mem _ hline)
      have hline := h line List.mem_cons_self
      rw [List.map_cons, parseLines]
      cases line with
      | blank spaces =>
          have hblank : trimSpaces (Line.blank spaces).text = [] :=
            trimSpaces_of_blank fun c hc ↦ (hline c hc).1
          rw [hblank]
          exact hrest (lineNumber + 1)
      | server s host =>
          have hserver : s.Regular lib SeparateSponsor host := hline
          have htrim := s.trimSpaces_text hserver
          have hread := s.parseServerLine_line hserver (lineNumber + 1)
          rw [Line.text, htrim]
          simp only [hread, hrest (lineNumber + 1)]
          rw [if_neg (by simp)]
          rfl

theorem readsBack_separateSponsor : ReadsBack lib SeparateSponsor := by
  rintro lines last hlines hlast servers rfl hne
  have hregular : ∀ line ∈ lines.map Prod.fst ++ [last], line.Regular lib SeparateSponsor := by
    intro line hline
    rcases List.mem_append.mp hline with hline | hline
    · obtain ⟨ended, hended, rfl⟩ := List.mem_map.mp hline
      exact hlines ended hended
    · rw [List.mem_singleton.mp hline]
      exact hlast
  have hread := parseLines_regular hregular 0
  have hsame : ((replaceLineEndings (listing lines last)).splitOn '\n').map trimSpaces =
      ((lines.map Prod.fst ++ [last]).map Line.text).map trimSpaces := by
    rw [map_trimSpaces_replaceLineEndings, map_trimSpaces_listing
      (fun line hline ↦ Line.text_newline (hlines line hline)) (Line.text_newline hlast),
      List.map_map]
    rfl
  rw [parseServerLines, parseLines_congr lib hsame, hread]
  dsimp only
  rw [if_neg (by rwa [List.isEmpty_iff])]

/-! ## Lists that are rejected -/

/-- The text before the first colon is a numeral. -/
def HasID (line : List Char) : Prop :=
  ∃ before after, line = before ++ ':' :: after ∧ ':' ∉ before ∧
    numericID (String.ofList (trimSpaces before)) = true

/-- An absolute URL stands in brackets. -/
def HasURL (lib : URLLibrary) (line : List Char) : Prop :=
  ∃ before url after, line = before ++ ('(' :: url ++ ')' :: after) ∧
    ∃ parsed, lib.parseRequestURI (trimSpaces url) = some parsed ∧
      (parsed.scheme = "http".toList ∨ parsed.scheme = "https".toList) ∧ parsed.host ≠ []

theorem not_mem_of_cutFirst {c : Char} {s before after : List Char}
    (h : AddressText.cutFirst c s = some (before, after)) : c ∉ before := by
  rw [AddressText.cutFirst] at h
  split at h
  · obtain ⟨rfl, -⟩ := Prod.mk.inj (Option.some.inj h)
    intro hmem
    have hne := List.mem_takeWhile_imp hmem
    simp at hne
  · cases h

theorem HasURL.of_infix {line part : List Char} (h : HasURL lib part) (hpart : part <:+: line) :
    HasURL lib line := by
  obtain ⟨before, url, after, rfl, hurl⟩ := h
  obtain ⟨left, right, rfl⟩ := hpart
  exact ⟨left ++ before, url, after ++ right, by simp, hurl⟩

theorem infix_of_cutSponsor (remainder : List Char) : (cutSponsor remainder).2 <:+: remainder := by
  rw [cutSponsor]
  split
  · rename_i marker hmarker
    have htrim := trimSpaces_isInfix (remainder.take marker)
    split
    · dsimp only
      exact htrim.trans (List.take_prefix marker remainder).isInfix
    · exact List.infix_rfl
  · exact List.infix_rfl

/-- The URL that is read stands in brackets at the end of its part. -/
theorem bracketed_of_lastIndex {part : List Char} {n : ℕ}
    (h : lastIndex [' ', '('] part = some n) (hlast : part.getLast? = some ')') :
    part = part.take n ++ [' '] ++ ('(' :: (part.drop (n + 2)).dropLast ++ [')']) := by
  have hpart := eq_of_lastIndex h
  have htail : (part.drop (n + 2)).getLast? = some ')' := by
    cases hdrop : part.drop (n + 2) with
    | nil =>
        rw [List.length_cons, List.length_singleton, hdrop] at hpart
        rw [hpart, List.append_nil] at hlast
        rw [List.getLast?_append] at hlast
        exact absurd (Option.some.inj hlast) (by decide)
    | cons c rest =>
        rw [List.length_cons, List.length_singleton, hdrop] at hpart
        rw [hpart, List.getLast?_append_of_ne_nil _ (List.cons_ne_nil c rest)] at hlast
        exact hlast
  have hsplit := List.dropLast_append_getLast? ')' htail
  calc part = part.take n ++ [' ', '('] ++ part.drop (n + 2) := hpart
    _ = part.take n ++ [' ', '('] ++ ((part.drop (n + 2)).dropLast ++ [')']) := by rw [hsplit]
    _ = part.take n ++ [' '] ++ ('(' :: (part.drop (n + 2)).dropLast ++ [')']) := by simp

theorem of_parseServerLine {lineNumber : ℕ} {line : List Char} {item : Server}
    (h : parseServerLine lib lineNumber line = .ok item) : HasID line ∧ HasURL lib line := by
  rw [parseServerLine] at h
  split at h
  · cases h
  rename_i before after hcut
  dsimp only at h
  split at h
  · cases h
  rename_i hid
  rw [not_or, Bool.not_eq_false] at hid
  split at h
  · cases h
  rename_i urlStart hstart
  split at h
  · cases h
  rename_i hlast
  rw [not_or, not_not] at hlast
  split at h
  · cases h
  rename_i parsed hparsed
  split at h
  · cases h
  rename_i haccepted
  have hline := AddressText.cutFirst_eq hcut
  refine ⟨⟨before, after, hline, not_mem_of_cutFirst hcut, hid.2⟩, ?_⟩
  have hpart : (cutSponsor (trimSpaces after)).2 <:+: line := by
    rw [hline]
    exact ((infix_of_cutSponsor _).trans (trimSpaces_isInfix after)).trans
      ((List.suffix_cons ':' after).trans (List.suffix_append before _)).isInfix
  refine HasURL.of_infix ⟨_, _, [], bracketed_of_lastIndex hstart hlast.2, parsed, hparsed, ?_, ?_⟩
    hpart
  · by_contra hscheme
    rw [not_or] at hscheme
    exact haccepted (.inl hscheme)
  · exact fun hhost ↦ haccepted (.inr hhost)

theorem of_parseLines {lineNumber : ℕ} {lines : List (List Char)} {items : List Server}
    (h : parseLines lib lineNumber lines = .ok items) {rawLine : List Char}
    (hline : rawLine ∈ lines) (hne : trimSpaces rawLine ≠ []) :
    HasID (trimSpaces rawLine) ∧ HasURL lib (trimSpaces rawLine) := by
  induction lines generalizing lineNumber items with
  | nil => cases hline
  | cons head lines ih =>
      rw [parseLines] at h
      rcases List.mem_cons.mp hline with rfl | hmem
      · rw [if_neg hne] at h
        split at h
        · cases h
        · rename_i item hitem
          exact of_parseServerLine hitem
      · split at h
        · exact ih h hmem
        · split at h
          · cases h
          · split at h
            · cases h
            · rename_i hrest
              exact ih hrest hmem

end

/-- What the CLI prints is read back, unless the name of a sponsor runs into what stands
behind it, and a list with another line in it is rejected as a whole. -/
theorem parseServerLines_readsBack (lib : URLLibrary) :
    ReadsBack lib SeparateSponsor ∧
      ∀ output, ∀ rawLine ∈ output.splitOn '\n', trimSpaces rawLine ≠ [] →
        ¬(HasID (trimSpaces rawLine) ∧ HasURL lib (trimSpaces rawLine)) →
        ∃ err, parseServerLines lib output = .error err := by
  refine ⟨readsBack_separateSponsor, fun output rawLine hline hne hbad ↦ ?_⟩
  have hsame := parseLines_congr lib (map_trimSpaces_replaceLineEndings output) 0
  rw [parseServerLines, hsame]
  cases hread : parseLines lib 0 (output.splitOn '\n') with
  | error err => exact ⟨err, rfl⟩
  | ok items => exact absurd (of_parseLines hread hline hne) hbad

/-! ## Sponsors that are not read back -/

/-- The sponsors that are read from a list of one server. -/
def sponsorsRead (s : PrintedServer) (host : List Char) : Option (List String) :=
  (parseServerLines plainLibrary (listing [] (.server s host))).toOption.map
    (List.map fun item ↦ item.sponsor)

theorem not_readsBack {named : List Char → Prop} {s : PrintedServer} {host : List Char}
    (hregular : s.Regular plainLibrary named host)
    (hread : sponsorsRead s host ≠ some [(s.server host).sponsor]) :
    ¬ReadsBack plainLibrary named := by
  intro h
  apply hread
  have hparse := h [] (.server s host) nofun hregular _ rfl (List.cons_ne_nil _ _)
  rw [sponsorsRead, hparse]
  rfl

/-- A server with a sponsor, at `http://a.example`. -/
def sponsoredServer (sponsor : List Char) : PrintedServer :=
  ⟨['1'], ['N'], "http://a.example".toList, some (sponsor, ['b'])⟩

theorem regular_sponsoredServer {named : List Char → Prop} {sponsor : List Char}
    (hline : SingleLine sponsor) (hnamed : named sponsor) :
    (sponsoredServer sponsor).Regular plainLibrary named "a.example".toList := by
  have hid : numericID (String.ofList ['1']) = true := by decide +kernel
  have hname : SingleLine ['N'] := ⟨by decide +kernel, nofun, by decide⟩
  have hmarker : ¬sponsorMarker <:+: ['N'] := by decide
  have hurl : ("http://a.example".toList.all fun c ↦ !isSpace c.toNat) = true := by
    decide +kernel
  have hsponsorURL : ∀ c ∈ ['b'], isSpace c.toNat = false := List.forall_mem_singleton.mpr rfl
  have hlocation : (plainLibrary.parseRequestURI "http://a.example".toList).map
      (fun parsed ↦ (parsed.scheme, parsed.host)) = some ("http".toList, "a.example".toList) := by
    decide +kernel
  have hhost : "a.example".toList ≠ [] := by decide
  obtain ⟨parsed, hparsed, hpair⟩ := Option.map_eq_some_iff.mp hlocation
  obtain ⟨hscheme, hparsedHost⟩ := Prod.mk.inj hpair
  refine ⟨hid, hname, hmarker,
    fun c hc ↦ (Bool.not_eq_true' _).mp (List.all_eq_true.mp hurl c hc),
    ⟨parsed, hparsed, .inl hscheme, hparsedHost.symm ▸ hhost, hparsedHost⟩, ?_⟩
  intro pair hpair
  obtain rfl := Option.some.inj hpair
  exact ⟨hline, hnamed, hsponsorURL⟩

/-- The name of a sponsor is cut where it ends in a blank and an at sign, and its line is
not read at all where it ends like the marker. -/
theorem readsBack_plainSponsor_fails :
    ¬ReadsBack plainLibrary PlainSponsor ∧
      ¬ReadsBack plainLibrary fun sponsor ↦ PlainSponsor sponsor ∧ ¬[' ', '@'] <:+ sponsor := by
  constructor
  · apply not_readsBack (@regular_sponsoredServer PlainSponsor ['a', ' ', '@']
      ⟨by decide +kernel, nofun, by decide⟩ ⟨by decide, by decide⟩)
    decide +kernel
  · apply not_readsBack (@regular_sponsoredServer _
      ['x', ' ', ' ', '[', 'S', 'p', 'o', 'n', 's', 'o', 'r', ':']
      ⟨by decide +kernel, nofun, by decide⟩ ⟨⟨by decide, by decide⟩, by decide⟩)
    decide +kernel

end MultiSpeed.Providers.LibreSpeed
