import MultiSpeed.Api.Authorities
import MultiSpeed.Api.NormalForms
import MultiSpeed.Database.Listing
import MultiSpeed.Lib.QueryStrings
import MultiSpeed.Providers.Output

/-!
# Queries of the API

`parseResultFilter` of `results.go`, and `parseStatisticsQuery` and `statisticsListValues` of
`statistics.go`: what they read from the query of a request, and what they refuse.
-/

namespace MultiSpeed.Api

open Database Network Providers
open Statistics (Dimension Filter Granularity)

/-! ## Values -/

/-- `url.Values`: names with their values. -/
abbrev Values := List (String × String)

/-- The most pairs that `net/url` reads. -/
def maxQueryParams : ℕ := 10000

/-- `URL.Query` -/
def queryValues (rawQuery : Text) : Values :=
  if maxQueryParams < rawQuery.count 0x26 + 1 then []
  else (QueryStrings.parse rawQuery).map fun pair ↦ (decoded pair.1, decoded pair.2)

/-- `Values.Get` -/
def getValue (values : Values) (name : String) : String :=
  ((values.find? fun pair ↦ pair.1 = name).map Prod.snd).getD ""

/-- All values of a name. -/
def allValues (values : Values) (name : String) : List String :=
  (values.filter fun pair ↦ pair.1 = name).map Prod.snd

/-- An `if` that returns an error where the condition fails. -/
def require (condition : Prop) [Decidable condition] (message : String) : Except String Unit :=
  if condition then .ok () else .error message

def orDefault (value fallback : String) : String := if value = "" then fallback else value

/-- The field of a bound that is given. -/
def parseBound (rfc3339 : String → Option Time) (name value : String) :
    Except String (Option Time) :=
  if value = "" then .ok none
  else
    match rfc3339 value with
    | none => .error (name ++ " must be RFC3339")
    | some bound => .ok (some bound)

/-! ## Results -/

/-- A number that is given; the field is zero where it is not. -/
def parseNumber (name value : String) (inRange : ℤ → Bool) (message : String) : Except String ℤ :=
  if value = "" then .ok 0
  else
    match atoi value.toList with
    | none => .error (name ++ " must be an integer")
    | some number => if inRange number then .ok number else .error message

def parsePage (value : String) : Except String ℤ :=
  parseNumber "page" value (fun page ↦ decide (1 ≤ page)) "page must be at least 1"

def parsePageSize (value : String) : Except String ℤ :=
  parseNumber "pageSize" value (fun size ↦ decide (1 ≤ size ∧ size ≤ maxResultPageSize))
    ("pageSize must be between 1 and " ++ toString maxResultPageSize)

def parseResultFilter (rfc3339 : String → Option Time) (values : Values) :
    Except String (ResultFilter × Listing) := do
  let provider := trimmed (getValue values "provider")
  require (provider ∈ ["", "ookla", "librespeed", "cloudflare"])
    "provider must be ookla, librespeed, or cloudflare"
  let status := trimmed (getValue values "status")
  require (status ∈ ["", "queued", "validating", "running", "succeeded", "failed", "skipped",
    "cancelled"]) "status is not supported"
  let sort := orDefault (trimmed (getValue values "sort")) "startedAt"
  require (sort ∈ ["startedAt", "finishedAt", "download", "upload", "latency"])
    "sort is not supported"
  let direction := orDefault (trimmed (getValue values "direction")) "desc"
  require (direction ∈ ["asc", "desc"]) "direction must be asc or desc"
  let page ← parsePage (getValue values "page")
  let pageSize ← parsePageSize (getValue values "pageSize")
  let «from» ← parseBound rfc3339 "from" (getValue values "from")
  let «to» ← parseBound rfc3339 "to" (getValue values "to")
  require (∀ first ∈ «from», ∀ last ∈ «to», first < last) "to must be later than from"
  return (
    { taskID := trimmed (getValue values "taskId")
      provider := provider
      status := status
      interface := orDefault (trimmed (getValue values "interface"))
        (trimmed (getValue values "interfaceName"))
      sourceIP := trimmed (getValue values "sourceIp")
      serverID := trimmed (getValue values "serverId")
      «from» := «from»
      «to» := «to» },
    { page := page
      pageSize := pageSize
      sort := sort
      descending := decide (direction = "desc") })

/-! ## Statistics -/

def maxStatisticsFilterValues : ℕ := 200

def maxStatisticsFilterValueLength : ℕ := 128

/-- The parts that `strings.Cut` takes off a value one after the other. -/
def cutAll (value : String) : List String := (value.toList.splitOn ',').map String.ofList

/-- The values after one more part. -/
def addPart (name : String) (result : List String) (part : String) :
    Except String (List String) := do
  let part := trimmed part
  if part = "" then return result
  else
    require (part.utf8ByteSize ≤ maxStatisticsFilterValueLength)
      (name ++ " filter values must not exceed " ++ toString maxStatisticsFilterValueLength ++
        " bytes")
    require (result.length < maxStatisticsFilterValues)
      (name ++ " filter may contain at most " ++ toString maxStatisticsFilterValues ++ " values")
    return result ++ [part]

def statisticsListValues (name : String) (valueSets : List (List String)) :
    Except String (List String) :=
  valueSets.foldlM (fun result values ↦
    values.foldlM (fun result value ↦ (cutAll value).foldlM (addPart name) result) result) []

/-- The nanoseconds of some days. -/
def days (count : ℤ) : ℤ := count * 86400000000000

/-- `parseStatisticsQuery`; `settings` is what `GetSettings` answers. -/
def parseStatisticsQuery (rfc3339 : String → Option Time) (zones : Scheduling.Env) (now : Time)
    (settings : Option Settings) (values : Values) : Except String Statistics.Query := do
  let «from» ← parseBound rfc3339 "from" (getValue values "from")
  let «from» := «from».getD (now - days 30)
  let «to» ← parseBound rfc3339 "to" (getValue values "to")
  let «to» := «to».getD now
  require («from» < «to») "to must be after from"
  require («to» - «from» ≤ days 3660) "statistics range must not exceed ten years"
  let granularity := orDefault (getValue values "granularity") "day"
  require (granularity = "raw" → «to» - «from» ≤ days 90)
    "raw statistics are limited to a 90-day range"
  require (Granularity.ofText granularity ≠ none)
    "granularity must be raw, day, iso-week, month, year, or custom"
  let timezone := orDefault (getValue values "timezone")
    ((settings.map Settings.defaultTimezone).getD "")
  require ((zones.loadLocation timezone).isSome) "timezone must be a valid IANA timezone"
  let groupBy := getValue values "groupBy"
  require (Dimension.ofText groupBy ≠ none) "groupBy is unsupported"
  let taskIDs ← statisticsListValues "taskId" [allValues values "taskId"]
  let interfaces ← statisticsListValues "interface"
    [allValues values "interface", allValues values "interfaceName"]
  let sourceIPs ← statisticsListValues "sourceIp" [allValues values "sourceIp"]
  let providers ← statisticsListValues "provider" [allValues values "provider"]
  let serverIDs ← statisticsListValues "serverId" [allValues values "serverId"]
  let routeProfileIDs ← statisticsListValues "routeProfileId" [allValues values "routeProfileId"]
  let publicIPs ← statisticsListValues "publicIp" [allValues values "publicIp"]
  return ⟨«from», «to», granularity, timezone, groupBy,
    ⟨taskIDs, interfaces, sourceIPs, providers, serverIDs, routeProfileIDs, publicIPs⟩⟩

/-! ## Steps -/

section

variable {α β : Type}

theorem bind_eq_ok_iff {x : Except String α} {next : α → Except String β} {b : β} :
    (x >>= next) = .ok b ↔ ∃ a, x = .ok a ∧ next a = .ok b := by
  cases x with
  | error message => exact ⟨fun h ↦ (by cases h), fun ⟨_, h, _⟩ ↦ (by cases h)⟩
  | ok a => exact ⟨fun h ↦ ⟨a, rfl, h⟩, fun ⟨_, ha, h⟩ ↦ (by cases ha; exact h)⟩

theorem pure_eq_ok_iff {a b : α} : (pure a : Except String α) = .ok b ↔ a = b := by
  constructor
  · intro h
    cases h
    rfl
  · rintro rfl
    rfl

theorem require_eq_ok_iff {condition : Prop} [Decidable condition] {message : String} {u : Unit} :
    require condition message = .ok u ↔ condition := by
  by_cases hcondition : condition
  · rw [require, if_pos hcondition]
    exact ⟨fun _ ↦ hcondition, fun _ ↦ rfl⟩
  · rw [require, if_neg hcondition]
    exact ⟨fun h ↦ (by cases h), fun h ↦ absurd h hcondition⟩

theorem foldlM_flatMap {γ : Type} (f : γ → α → Except String γ) (pieces : β → List α)
    (bs : List β) (c : γ) :
    bs.foldlM (fun c b ↦ (pieces b).foldlM f c) c = (bs.flatMap pieces).foldlM f c := by
  induction bs generalizing c with
  | nil => rfl
  | cons b bs ih =>
      rw [List.foldlM_cons, List.flatMap_cons, List.foldlM_append]
      exact bind_congr ih

end

/-! ## Lists -/

/-- What a list of values names. -/
def pieces (values : List String) : List String :=
  ((values.flatMap cutAll).map trimmed).filter fun part ↦ part ≠ ""

/-- A value that a list names as it is. -/
structure Listable (value : String) : Prop where
  given : value ≠ ""
  trimmed : Network.trimmed value = value
  whole : ',' ∉ value.toList

theorem addPart_eq_ok_iff {name part : String} {result after : List String} :
    addPart name result part = .ok after ↔
      (trimmed part = "" ∧ after = result) ∨
      (trimmed part ≠ "" ∧ (trimmed part).utf8ByteSize ≤ maxStatisticsFilterValueLength ∧
        result.length < maxStatisticsFilterValues ∧ after = result ++ [trimmed part]) := by
  unfold addPart
  by_cases hempty : trimmed part = ""
  · rw [if_pos hempty, pure_eq_ok_iff]
    simp [hempty, eq_comm]
  · rw [if_neg hempty]
    simp only [bind_eq_ok_iff, require_eq_ok_iff, pure_eq_ok_iff, exists_const]
    simp [hempty, eq_comm]

/-- Part after part: what is kept is in order, and the list never gets too long. -/
theorem foldlM_addPart {name : String} {parts result after : List String}
    (hresult : result.length ≤ maxStatisticsFilterValues) :
    parts.foldlM (addPart name) result = .ok after ↔
      after = result ++ (parts.map trimmed).filter (fun part ↦ part ≠ "") ∧
      after.length ≤ maxStatisticsFilterValues ∧
      ∀ part ∈ (parts.map trimmed).filter (fun part ↦ part ≠ ""),
        part.utf8ByteSize ≤ maxStatisticsFilterValueLength := by
  induction parts generalizing result with
  | nil =>
      rw [List.foldlM_nil, pure_eq_ok_iff]
      constructor
      · rintro rfl
        simpa using hresult
      · rintro ⟨rfl, -, -⟩
        simp
  | cons part parts ih =>
      rw [List.foldlM_cons, bind_eq_ok_iff]
      simp only [addPart_eq_ok_iff]
      by_cases hempty : trimmed part = ""
      · have hfilter : ((part :: parts).map trimmed).filter (fun part ↦ part ≠ "") =
            (parts.map trimmed).filter fun part ↦ part ≠ "" := by
          simp [hempty]
        rw [hfilter, ← ih hresult]
        simp [hempty]
      · have hfilter : ((part :: parts).map trimmed).filter (fun part ↦ part ≠ "") =
            trimmed part :: (parts.map trimmed).filter fun part ↦ part ≠ "" := by
          simp [hempty]
        have hroom (h : result.length < maxStatisticsFilterValues) :
            (result ++ [trimmed part]).length ≤ maxStatisticsFilterValues := by
          rw [List.length_append, List.length_singleton]
          omega
        rw [hfilter]
        constructor
        · rintro ⟨next, ⟨h, -⟩ | ⟨-, hsize, hlength, rfl⟩, hrest⟩
          · exact absurd h hempty
          obtain ⟨hafter, hlong, hsizes⟩ := (ih (hroom hlength)).mp hrest
          rw [List.append_assoc, List.singleton_append] at hafter
          exact ⟨hafter, hlong, List.forall_mem_cons.mpr ⟨hsize, hsizes⟩⟩
        · rintro ⟨hafter, hlong, hsizes⟩
          obtain ⟨hsize, hsizes⟩ := List.forall_mem_cons.mp hsizes
          have hlength : result.length < maxStatisticsFilterValues := by
            rw [hafter, List.length_append, List.length_cons] at hlong
            omega
          refine ⟨result ++ [trimmed part], .inr ⟨hempty, hsize, hlength, rfl⟩, ?_⟩
          apply (ih (hroom hlength)).mpr
          rw [List.append_assoc, List.singleton_append]
          exact ⟨hafter, hlong, hsizes⟩

/-- The values that are accepted, and what is read from them. -/
theorem statisticsListValues_eq_ok_iff {name : String} {valueSets : List (List String)}
    {result : List String} :
    statisticsListValues name valueSets = .ok result ↔
      result = pieces valueSets.flatten ∧ result.length ≤ maxStatisticsFilterValues ∧
      ∀ part ∈ result, part.utf8ByteSize ≤ maxStatisticsFilterValueLength := by
  have hfold : statisticsListValues name valueSets =
      (valueSets.flatten.flatMap cutAll).foldlM (addPart name) [] := by
    rw [statisticsListValues]
    simp only [foldlM_flatMap]
    rw [List.flatten_eq_flatMap, List.flatMap_assoc]
    simp only [id_eq]
  rw [hfold, foldlM_addPart (Nat.zero_le _), List.nil_append]
  constructor
  · rintro ⟨rfl, hlong, hsizes⟩
    exact ⟨rfl, hlong, hsizes⟩
  · rintro ⟨rfl, hlong, hsizes⟩
    exact ⟨rfl, hlong, hsizes⟩

theorem not_mem_of_mem_splitOn {c : Char} {s part : List Char} (h : part ∈ s.splitOn c) :
    c ∉ part := by
  induction s generalizing part with
  | nil =>
      rw [List.splitOn_nil, List.mem_singleton] at h
      simp [h]
  | cons d s ih =>
      rw [List.splitOn_cons_eq_if_modifyHead] at h
      obtain ⟨first, rest, hparts⟩ := List.exists_cons_of_ne_nil (List.splitOn_ne_nil c s)
      rw [hparts] at h ih
      split at h
      · rcases List.mem_cons.mp h with rfl | h
        · simp
        · exact ih h
      · rename_i hd
        rcases List.mem_cons.mp h with rfl | h
        · rw [List.mem_cons, not_or]
          exact ⟨fun heq ↦ hd (by simp [heq]), ih List.mem_cons_self⟩
        · exact ih (List.mem_cons_of_mem _ h)

theorem trimmed_isInfix (value : String) : (trimmed value).toList <:+: value.toList := by
  have h := trimSpaces_isInfix value.toList
  rwa [trimSpaces, String.ofList_toList] at h

theorem Listable.of_mem_pieces {values : List String} {part : String} (h : part ∈ pieces values) :
    Listable part := by
  obtain ⟨hmem, hne⟩ := List.mem_filter.mp h
  obtain ⟨whole, hwhole, rfl⟩ := List.mem_map.mp hmem
  obtain ⟨value, -, hcut⟩ := List.mem_flatMap.mp hwhole
  obtain ⟨chars, hchars, rfl⟩ := List.mem_map.mp hcut
  refine ⟨by simpa using hne, trimmed_trimmed _, fun hcomma ↦ ?_⟩
  have hin := (trimmed_isInfix (String.ofList chars)).subset hcomma
  rw [String.toList_ofList] at hin
  exact not_mem_of_mem_splitOn hchars hin

theorem pieces_of_listable {values : List String} (h : ∀ value ∈ values, Listable value) :
    pieces values = values := by
  induction values with
  | nil => rfl
  | cons value values ih =>
      obtain ⟨hvalue, hvalues⟩ := List.forall_mem_cons.mp h
      have hcut : cutAll value = [value] := by
        rw [cutAll, List.splitOn_eq_singleton hvalue.whole, List.map_singleton,
          String.ofList_toList]
      have hcons : pieces (value :: values) = value :: pieces values := by
        simp [pieces, hcut, hvalue.trimmed, hvalue.given]
      rw [hcons, ih hvalues]

/-- The lists that are read as they were written. -/
theorem pieces_eq_self_iff {values : List String} :
    pieces values = values ↔ ∀ value ∈ values, Listable value :=
  ⟨fun h _ hvalue ↦ .of_mem_pieces (h ▸ hvalue), pieces_of_listable⟩

end MultiSpeed.Api
