import MultiSpeed.Api.Queries

/-!
# Queries of the pages

`queryString`, and the addresses of `web/src/lib/api.ts` that are made with it.  What a page
asks for is what the API reads, whatever the order in which the page names it.
-/

namespace MultiSpeed.Web

open AddressText (number?_toDigits)
open Api Database Providers
open Statistics (Dimension Granularity)

/-! ## Parameters -/

/-- A number that JavaScript holds and shows exactly. -/
structure SafeInteger where
  value : ℤ
  safe : |value| < 2 ^ 53

/-- `undefined` and `null` are one. -/
inductive Param where
  | absent
  | text (value : String)
  | number (value : SafeInteger)
  | flag (value : Bool)
  | texts (values : List String)

def Param.omitted : Param → Bool
  | .absent => true
  | .text value => decide (value = "")
  | .texts values => values.isEmpty
  | _ => false

/-- `String` of a parameter that is no list. -/
def Param.string : Param → String
  | .text value => value
  | .number value => toString value.value
  | .flag value => toString value
  | _ => ""

/-- `URLSearchParams.set` -/
def setParam : Values → String → String → Values
  | [], key, value => [(key, value)]
  | pair :: search, key, value =>
      if pair.1 = key then (key, value) :: search.filter fun pair ↦ pair.1 ≠ key
      else pair :: setParam search key value

def addEntry (search : Values) (entry : String × Param) : Values :=
  if entry.2.omitted then search
  else
    match entry.2 with
    | .texts values => search ++ values.map fun item ↦ (entry.1, item)
    | value => setParam search entry.1 value.string

/-- The entries of an object are in an order and have different keys. -/
def queryString (params : List (String × Param)) : Text :=
  let value := QueryStrings.serialize
    ((params.foldl addEntry []).map fun pair ↦ (utf8 pair.1, utf8 pair.2))
  if value = [] then [] else 0x3F :: value

def apiRoot : String := "/api/v1"

/-- What is fetched. -/
def requestTarget (path : String) (params : List (String × Param)) : Text :=
  utf8 (apiRoot ++ path) ++ queryString params

/-- `URL.RawQuery` of a target. -/
def rawQuery (target : Text) : Text := (QueryStrings.cut 0x3F target).2

/-- What a handler reads. -/
def received (path : String) (params : List (String × Param)) : Values :=
  queryValues (rawQuery (requestTarget path params))

/-! ## What is received -/

def Param.values : Param → List String
  | .texts values => values
  | value => if value.omitted then [] else [value.string]

/-- The pairs that stand for some entries. -/
def pairs (entries : List (String × Param)) : Values :=
  entries.flatMap fun entry ↦ entry.2.values.map fun value ↦ (entry.1, value)

theorem setParam_of_not_mem {search : Values} {key : String} (h : key ∉ search.map Prod.fst)
    (value : String) : setParam search key value = search ++ [(key, value)] := by
  induction search with
  | nil => rfl
  | cons pair search ih =>
      rw [List.map_cons, List.mem_cons, not_or] at h
      rw [setParam, if_neg (Ne.symm h.1), ih h.2, List.cons_append]

theorem addEntry_of_not_mem {search : Values} {entry : String × Param}
    (h : entry.1 ∉ search.map Prod.fst) :
    addEntry search entry = search ++ entry.2.values.map fun value ↦ (entry.1, value) := by
  obtain ⟨key, param⟩ := entry
  unfold addEntry
  by_cases homitted : param.omitted
  · rw [if_pos homitted]
    cases param with
    | texts values =>
        have hnil : values = [] := by simpa [Param.omitted] using homitted
        simp [Param.values, hnil]
    | _ => simp [Param.values, homitted]
  · rw [if_neg homitted]
    cases param with
    | texts values => rfl
    | _ =>
      dsimp only
      rw [setParam_of_not_mem h]
      simp [Param.values, homitted]

theorem foldl_addEntry {entries : List (String × Param)} {search : Values}
    (hnodup : (entries.map Prod.fst).Nodup)
    (hnew : ∀ key ∈ entries.map Prod.fst, key ∉ search.map Prod.fst) :
    entries.foldl addEntry search = search ++ pairs entries := by
  induction entries generalizing search with
  | nil => exact (List.append_nil search).symm
  | cons entry entries ih =>
      rw [List.map_cons, List.nodup_cons] at hnodup
      have hentry := hnew entry.1 (by simp)
      rw [List.foldl_cons, addEntry_of_not_mem hentry, ih hnodup.2, List.append_assoc]
      · rfl
      · intro key hkey hmem
        rw [List.map_append, List.mem_append, List.map_map] at hmem
        rcases hmem with hmem | hmem
        · exact hnew key (List.mem_cons_of_mem _ hkey) hmem
        · obtain ⟨_, -, rfl⟩ := List.mem_map.mp hmem
          exact hnodup.1 hkey

theorem map_decoded (values : Values) :
    ((values.map fun pair ↦ (utf8 pair.1, utf8 pair.2)).map
      fun pair ↦ (decoded pair.1, decoded pair.2)) = values := by
  rw [List.map_map]
  conv_rhs => rw [← List.map_id values]
  apply List.map_congr_left
  intro pair _
  simp [decoded_utf8]

/-- What a handler reads is what the page wrote. -/
theorem received_eq {path : String} {entries : List (String × Param)}
    (hpath : 0x3F ∉ utf8 (apiRoot ++ path)) (hnodup : (entries.map Prod.fst).Nodup)
    (hfew : (pairs entries).length ≤ maxQueryParams) : received path entries = pairs entries := by
  have hfold : entries.foldl addEntry [] = pairs entries := foldl_addEntry hnodup (by simp)
  have hquery : rawQuery (requestTarget path entries) =
      QueryStrings.serialize ((pairs entries).map fun pair ↦ (utf8 pair.1, utf8 pair.2)) := by
    unfold rawQuery requestTarget queryString
    rw [hfold]
    dsimp only
    split
    · rename_i hnil
      rw [List.append_nil, QueryStrings.cut_of_not_mem hpath, hnil]
    · rw [QueryStrings.cut_append hpath]
  have hcount : ¬ maxQueryParams < (rawQuery (requestTarget path entries)).count 0x26 + 1 := by
    have hpos : 1 ≤ maxQueryParams := by decide
    rw [hquery, QueryStrings.count_serialize, List.length_map]
    omega
  rw [received, queryValues, if_neg hcount, hquery, QueryStrings.parse_serialize, map_decoded]

theorem allValues_append (first second : Values) (name : String) :
    allValues (first ++ second) name = allValues first name ++ allValues second name := by
  rw [allValues, List.filter_append, List.map_append]
  rfl

theorem allValues_map_self (name : String) (values : List String) :
    allValues (values.map fun value ↦ (name, value)) name = values := by
  induction values with
  | nil => rfl
  | cons value values ih => simpa [allValues] using ih

theorem allValues_map_of_ne {key name : String} (h : key ≠ name) (values : List String) :
    allValues (values.map fun value ↦ (key, value)) name = [] := by
  induction values with
  | nil => rfl
  | cons value values ih => simp [allValues, h]

theorem allValues_pairs_of_not_mem {entries : List (String × Param)} {name : String}
    (h : name ∉ entries.map Prod.fst) : allValues (pairs entries) name = [] := by
  induction entries with
  | nil => rfl
  | cons entry entries ih =>
      rw [List.map_cons, List.mem_cons, not_or] at h
      rw [pairs, List.flatMap_cons, allValues_append, allValues_map_of_ne (Ne.symm h.1)]
      exact ih h.2

theorem allValues_pairs {entries : List (String × Param)} {name : String} {param : Param}
    (hnodup : (entries.map Prod.fst).Nodup) (h : (name, param) ∈ entries) :
    allValues (pairs entries) name = param.values := by
  induction entries with
  | nil => cases h
  | cons entry entries ih =>
      rw [List.map_cons, List.nodup_cons] at hnodup
      rw [pairs, List.flatMap_cons, allValues_append]
      rcases List.mem_cons.mp h with rfl | h
      · rw [allValues_map_self]
        have hrest := allValues_pairs_of_not_mem hnodup.1
        rw [pairs] at hrest
        rw [hrest, List.append_nil]
      · have hne : entry.1 ≠ name := by
          rintro rfl
          exact hnodup.1 (List.mem_map.mpr ⟨_, h, rfl⟩)
        rw [allValues_map_of_ne hne, List.nil_append]
        exact ih hnodup.2 h

theorem getValue_eq (values : Values) (name : String) :
    getValue values name = (allValues values name).head?.getD "" := by
  rw [getValue, allValues, List.head?_map, List.head?_filter]

/-! ## Optional parameters -/

def Param.ofText (value : Option String) : Param := value.elim .absent .text

def Param.ofNumber (value : Option SafeInteger) : Param := value.elim .absent .number

def Param.ofTexts (values : Option (List String)) : Param := values.elim .absent .texts

@[simp] theorem values_ofText (value : Option String) :
    (Param.ofText value).values.head?.getD "" = value.getD "" := by
  cases value with
  | none => rfl
  | some text => by_cases h : text = "" <;> simp [Param.ofText, Param.values, Param.omitted,
      Param.string, h]

@[simp] theorem values_ofNumber (value : Option SafeInteger) :
    (Param.ofNumber value).values.head?.getD "" =
      value.elim "" fun number ↦ toString number.value := by
  cases value with
  | none => rfl
  | some number => rfl

@[simp] theorem values_ofTexts (values : Option (List String)) :
    (Param.ofTexts values).values = values.getD [] := by
  cases values with
  | none => rfl
  | some values => rfl

theorem length_values_ofText (value : Option String) : (Param.ofText value).values.length ≤ 1 := by
  cases value with
  | none => exact Nat.zero_le 1
  | some text =>
      change (if (Param.text text).omitted then [] else [text]).length ≤ 1
      split
      · exact Nat.zero_le 1
      · exact le_rfl

theorem length_values_ofNumber (value : Option SafeInteger) :
    (Param.ofNumber value).values.length ≤ 1 := by
  cases value with
  | none => exact Nat.zero_le 1
  | some number => exact le_rfl

/-! ## Numbers -/

theorem atoi_toDigits {n : ℕ} (hn : n < 2 ^ 63) : atoi (Nat.toDigits 10 n) = some (n : ℤ) := by
  have hdigit : ∀ c, (Nat.toDigits 10 n).head? = some c → c.isDigit := fun c hc ↦
    isDigit_toDigits c (List.mem_of_mem_head? hc)
  have hminus : (Nat.toDigits 10 n).head? ≠ some '-' := fun h ↦ by cases hdigit _ h
  have hplus : (Nat.toDigits 10 n).head? ≠ some '+' := fun h ↦ by cases hdigit _ h
  rw [atoi]
  simp only [if_neg (not_or.mpr ⟨hminus, hplus⟩), if_neg hminus, if_neg Nat.toDigits_ne_nil,
    number?_toDigits (show 1 < 10 by decide) (show 10 ≤ 16 by decide)]
  rw [if_neg (by omega)]

theorem atoi_neg_toDigits {n : ℕ} (hn : n < 2 ^ 63) :
    atoi ('-' :: Nat.toDigits 10 n) = some (-(n : ℤ)) := by
  rw [atoi]
  simp only [List.head?_cons, true_or, if_true, List.tail_cons, if_neg Nat.toDigits_ne_nil,
    number?_toDigits (show 1 < 10 by decide) (show 10 ≤ 16 by decide)]
  rw [if_neg (by omega)]

/-- `strconv.Atoi` reads the number that `String` wrote. -/
theorem atoi_toString (number : SafeInteger) :
    atoi (toString number.value).toList = some number.value := by
  obtain ⟨value, hsafe⟩ := number
  obtain ⟨hlow, hhigh⟩ := abs_lt.mp hsafe
  dsimp only
  rw [Int.toString_eq_repr, Int.repr_eq_if]
  split
  · rw [Nat.repr_eq_ofList_toDigits, String.toList_ofList, atoi_toDigits (by omega)]
    exact congrArg some (Int.toNat_of_nonneg ‹_›)
  · rw [Nat.repr_eq_ofList_toDigits, String.toList_append, String.toList_ofList,
      String.toList_ofList, List.singleton_append, atoi_neg_toDigits (by omega)]
    exact congrArg some (by omega)

theorem toString_ne_empty (number : SafeInteger) : toString number.value ≠ "" := by
  intro h
  have hread := atoi_toString number
  rw [h] at hread
  cases hread

theorem parseNumber_eq_ok_iff {name message : String} {inRange : ℤ → Bool}
    {given : Option SafeInteger} {number : ℤ} :
    parseNumber name (given.elim "" fun given ↦ toString given.value) inRange message = .ok number ↔
      (∀ value ∈ given, inRange value.value = true) ∧
      number = given.elim 0 SafeInteger.value := by
  cases given with
  | none =>
      rw [Option.elim_none, parseNumber, if_pos rfl, Except.ok.injEq, eq_comm]
      exact ⟨fun h ↦ ⟨fun _ h ↦ (by cases h), h⟩, fun h ↦ h.2⟩
  | some value =>
      rw [Option.elim_some, parseNumber, if_neg (toString_ne_empty value), atoi_toString]
      dsimp only
      by_cases h : inRange value.value
      · rw [if_pos h, Except.ok.injEq, eq_comm]
        exact ⟨fun heq ↦ ⟨fun _ hmem ↦ Option.some.inj hmem ▸ h, heq⟩, fun h ↦ h.2⟩
      · rw [if_neg h]
        exact ⟨fun heq ↦ (by cases heq), fun hall ↦ absurd (hall.1 value rfl) h⟩

/-! ## Bounds -/

variable {rfc3339 : String → Option Time}

/-- The bound that a text stands for. -/
def boundOf (rfc3339 : String → Option Time) (text : Option String) : Option Time :=
  (text.filter fun text ↦ text ≠ "").bind rfc3339

theorem parseBound_eq_ok_iff {name : String} {given : Option String} {bound : Option Time} :
    parseBound rfc3339 name (given.getD "") = .ok bound ↔
      (∀ text ∈ given, text ≠ "" → rfc3339 text ≠ none) ∧ bound = boundOf rfc3339 given := by
  cases given with
  | none =>
      rw [Option.getD_none, parseBound, if_pos rfl, Except.ok.injEq, eq_comm]
      exact ⟨fun h ↦ ⟨fun _ h ↦ (by cases h), h⟩, fun h ↦ h.2⟩
  | some text =>
      rw [Option.getD_some, parseBound]
      simp only [Option.mem_some_iff, forall_eq', boundOf]
      by_cases hempty : text = ""
      · rw [if_pos hempty, Except.ok.injEq, Option.filter_some_neg (by simpa using hempty), eq_comm]
        exact ⟨fun h ↦ ⟨fun hne ↦ absurd hempty hne, h⟩, fun h ↦ h.2⟩
      · rw [if_neg hempty, Option.filter_some_pos (by simpa using hempty), Option.bind_some]
        cases rfc3339 text with
        | none => exact ⟨fun h ↦ (by cases h), fun h ↦ absurd rfl (h.1 hempty)⟩
        | some time =>
            dsimp only
            rw [Except.ok.injEq, eq_comm]
            exact ⟨fun h ↦ ⟨fun _ ↦ Option.some_ne_none time, h⟩, fun h ↦ h.2⟩

/-! ## Results -/

inductive Direction where
  | asc
  | desc
  deriving DecidableEq

def Direction.text : Direction → String
  | .asc => "asc"
  | .desc => "desc"

structure ResultsQuery where
  page : Option SafeInteger
  pageSize : Option SafeInteger
  sort : Option String
  direction : Option Direction
  taskId : Option String
  provider : Option String
  interfaceName : Option String
  status : Option String
  «from» : Option String
  «to» : Option String

namespace ResultsQuery

/-- What `resultsPage` and `exportUrl` hand to `queryString`, in some order. -/
def params (query : ResultsQuery) : List (String × Param) :=
  [("page", .ofNumber query.page), ("pageSize", .ofNumber query.pageSize),
    ("sort", .ofText query.sort), ("direction", .ofText (query.direction.map Direction.text)),
    ("taskId", .ofText query.taskId), ("provider", .ofText query.provider),
    ("status", .ofText query.status), ("from", .ofText query.from), ("to", .ofText query.to),
    ("interface", .ofText query.interfaceName)]

/-- A choice of a page. -/
def chosen (value : Option String) : String := Network.trimmed (value.getD "")

def filter (rfc3339 : String → Option Time) (query : ResultsQuery) : ResultFilter where
  taskID := chosen query.taskId
  provider := chosen query.provider
  status := chosen query.status
  interface := chosen query.interfaceName
  sourceIP := ""
  serverID := ""
  «from» := boundOf rfc3339 query.from
  «to» := boundOf rfc3339 query.to

def listing (query : ResultsQuery) : Listing where
  page := query.page.elim 0 SafeInteger.value
  pageSize := query.pageSize.elim 0 SafeInteger.value
  sort := orDefault (chosen query.sort) "startedAt"
  descending := decide (query.direction ≠ some .asc)

/-- The queries that the API answers. -/
structure Accepted (rfc3339 : String → Option Time) (query : ResultsQuery) : Prop where
  provider : chosen query.provider ∈ ["", "ookla", "librespeed", "cloudflare"]
  status : chosen query.status ∈ ["", "queued", "validating", "running", "succeeded", "failed",
    "skipped", "cancelled"]
  sort : chosen query.sort ∈ ["", "startedAt", "finishedAt", "download", "upload", "latency"]
  page : ∀ page ∈ query.page, 1 ≤ page.value
  pageSize : ∀ size ∈ query.pageSize, 1 ≤ size.value ∧ size.value ≤ maxResultPageSize
  «from» : ∀ text ∈ query.from, text ≠ "" → rfc3339 text ≠ none
  «to» : ∀ text ∈ query.to, text ≠ "" → rfc3339 text ≠ none
  ordered : ∀ first ∈ boundOf rfc3339 query.from, ∀ last ∈ boundOf rfc3339 query.to, first < last

variable {query : ResultsQuery} {entries : List (String × Param)}

/-- The names under which choices are sent. -/
def names : List String :=
  ["page", "pageSize", "sort", "direction", "taskId", "provider", "status", "from", "to",
    "interface"]

theorem nodup_params (query : ResultsQuery) : (query.params.map Prod.fst).Nodup := by
  have hnames : query.params.map Prod.fst = names := rfl
  rw [hnames]
  decide

/-- The value of an entry is received under its name. -/
theorem getValue_entry (hentries : entries.Perm query.params) {name : String} {param : Param}
    (h : (name, param) ∈ query.params) :
    getValue (pairs entries) name = param.values.head?.getD "" := by
  have hnodup : (entries.map Prod.fst).Nodup :=
    (hentries.map Prod.fst).nodup_iff.mpr query.nodup_params
  rw [getValue_eq, allValues_pairs hnodup (hentries.mem_iff.mpr h)]

theorem length_pairs_params (hentries : entries.Perm query.params) :
    (pairs entries).length ≤ maxQueryParams := by
  have hperm : (pairs entries).length = (pairs query.params).length :=
    (hentries.flatMap_right _).length_eq
  have htext (value : Option String) := length_values_ofText value
  have hnumber (value : Option SafeInteger) := length_values_ofNumber value
  have hlength : (pairs query.params).length ≤ 10 := by
    simp only [pairs, params, List.flatMap_cons, List.flatMap_nil, List.length_append,
      List.length_map, List.length_nil]
    have h₁ := hnumber query.page
    have h₂ := hnumber query.pageSize
    have h₃ := htext query.sort
    have h₄ := htext (query.direction.map Direction.text)
    have h₅ := htext query.taskId
    have h₆ := htext query.provider
    have h₇ := htext query.status
    have h₈ := htext query.from
    have h₉ := htext query.to
    have h₁₀ := htext query.interfaceName
    omega
  have hmost : 10 ≤ maxQueryParams := by decide
  omega

/-- The values in which the choices of a page are read. -/
structure Received (query : ResultsQuery) (values : Values) : Prop where
  page : getValue values "page" = query.page.elim "" fun number ↦ toString number.value
  pageSize : getValue values "pageSize" = query.pageSize.elim "" fun number ↦ toString number.value
  sort : getValue values "sort" = query.sort.getD ""
  direction : getValue values "direction" = (query.direction.map Direction.text).getD ""
  taskId : getValue values "taskId" = query.taskId.getD ""
  provider : getValue values "provider" = query.provider.getD ""
  status : getValue values "status" = query.status.getD ""
  «from» : getValue values "from" = query.from.getD ""
  «to» : getValue values "to" = query.to.getD ""
  interface : getValue values "interface" = query.interfaceName.getD ""
  others : ∀ name ∈ ["interfaceName", "sourceIp", "serverId"], getValue values name = ""

theorem received (hentries : entries.Perm query.params) : query.Received (pairs entries) := by
  have htext {name : String} (value : Option String) (h : (name, .ofText value) ∈ query.params) :
      getValue (pairs entries) name = value.getD "" := by
    rw [getValue_entry hentries h, values_ofText]
  have hnumber {name : String} (value : Option SafeInteger)
      (h : (name, .ofNumber value) ∈ query.params) :
      getValue (pairs entries) name = value.elim "" fun number ↦ toString number.value := by
    rw [getValue_entry hentries h, values_ofNumber]
  exact {
    page := hnumber query.page (by simp [params])
    pageSize := hnumber query.pageSize (by simp [params])
    sort := htext query.sort (by simp [params])
    direction := htext (query.direction.map Direction.text) (by simp [params])
    taskId := htext query.taskId (by simp [params])
    provider := htext query.provider (by simp [params])
    status := htext query.status (by simp [params])
    «from» := htext query.from (by simp [params])
    «to» := htext query.to (by simp [params])
    interface := htext query.interfaceName (by simp [params])
    others := by
      intro name hname
      have hother : name ∉ query.params.map Prod.fst := by
        have hnames : query.params.map Prod.fst = names := rfl
        rw [hnames]
        revert name
        decide
      rw [getValue_eq, allValues_pairs_of_not_mem fun hmem ↦
        hother ((hentries.map Prod.fst).mem_iff.mp hmem)]
      rfl }

theorem direction_read (direction : Option Direction) :
    orDefault (Network.trimmed ((direction.map Direction.text).getD "")) "desc" =
      if direction = some .asc then "asc" else "desc" := by
  cases direction with
  | none => decide +kernel
  | some direction =>
      cases direction with
      | asc => decide +kernel
      | desc => decide +kernel

theorem sort_mem_iff {sort : String} :
    orDefault sort "startedAt" ∈ ["startedAt", "finishedAt", "download", "upload", "latency"] ↔
      sort ∈ ["", "startedAt", "finishedAt", "download", "upload", "latency"] := by
  unfold orDefault
  split
  · rename_i hempty
    simp [hempty]
  · rename_i hgiven
    rw [List.mem_cons (a := sort) (b := ""), or_iff_right hgiven]

@[simp] theorem orDefault_empty (value : String) : orDefault value "" = value := by
  unfold orDefault
  split
  · rename_i hempty
    exact hempty.symm
  · rfl

theorem Received.parseResultFilter {values : Values} (h : query.Received values)
    {asked : ResultFilter × Listing} :
    Api.parseResultFilter rfc3339 values = .ok asked ↔
      query.Accepted rfc3339 ∧ asked = (query.filter rfc3339, query.listing) := by
  have hdirection : (if query.direction = some .asc then "asc" else "desc") ∈ ["asc", "desc"] := by
    split <;> simp
  have hdescending : decide ((if query.direction = some .asc then "asc" else "desc") = "desc") =
      decide (query.direction ≠ some .asc) := by
    split <;> simp [*]
  have hempty : Network.trimmed "" = "" := by decide +kernel
  unfold Api.parseResultFilter
  simp only [bind_eq_ok_iff, require_eq_ok_iff, pure_eq_ok_iff, parsePage, parsePageSize, h.page,
    h.pageSize, h.sort, h.direction, h.taskId, h.provider, h.status, h.from, h.to, h.interface,
    h.others "interfaceName" (by simp), h.others "sourceIp" (by simp),
    h.others "serverId" (by simp), parseNumber_eq_ok_iff, parseBound_eq_ok_iff, direction_read,
    hdirection, hdescending, hempty, orDefault_empty, sort_mem_iff, exists_const,
    exists_and_left, exists_eq_left, and_assoc, decide_eq_true_eq, true_and]
  constructor
  · rintro ⟨hprovider, hstatus, hsort, hpage, hpageSize, hfrom, hto, hordered, rfl⟩
    exact ⟨⟨hprovider, hstatus, hsort, hpage, hpageSize, hfrom, hto, hordered⟩, rfl⟩
  · rintro ⟨⟨hprovider, hstatus, hsort, hpage, hpageSize, hfrom, hto, hordered⟩, rfl⟩
    exact ⟨hprovider, hstatus, hsort, hpage, hpageSize, hfrom, hto, hordered, rfl⟩

end ResultsQuery

/-- The addresses that results are asked for at. -/
def resultPaths : List String := ["/results", "/exports/results.csv", "/exports/results.json"]

theorem not_mem_resultPath {path : String} (h : path ∈ resultPaths) :
    0x3F ∉ utf8 (apiRoot ++ path) := by
  have hall : ∀ path ∈ resultPaths, 0x3F ∉ utf8 (apiRoot ++ path) := by decide +kernel
  exact hall path h

/-- What a page asks for is what is listed, in whatever order it names its choices; what is
refused is named by the fields of `Accepted`. -/
theorem results_query_received {query : ResultsQuery} {entries : List (String × Param)}
    {path : String} (hpath : path ∈ resultPaths) (hentries : entries.Perm query.params)
    {asked : ResultFilter × Listing} :
    parseResultFilter rfc3339 (received path entries) = .ok asked ↔
      query.Accepted rfc3339 ∧ asked = (query.filter rfc3339, query.listing) := by
  have hnodup : (entries.map Prod.fst).Nodup :=
    (hentries.map Prod.fst).nodup_iff.mpr query.nodup_params
  rw [received_eq (not_mem_resultPath hpath) hnodup
    (ResultsQuery.length_pairs_params hentries)]
  exact (ResultsQuery.received hentries).parseResultFilter

def secondPage : ResultsQuery where
  page := some ⟨2, by decide⟩
  pageSize := some ⟨50, by decide⟩
  sort := some "download"
  direction := some .asc
  taskId := none
  provider := some "ookla"
  interfaceName := some "eth0 & wan=1"
  status := some ""
  «from» := none
  «to» := none

theorem secondPage_received :
    parseResultFilter (fun _ ↦ none) (received "/results" secondPage.params.reverse) =
      .ok (secondPage.filter fun _ ↦ none, secondPage.listing) :=
  (results_query_received (by decide) (List.reverse_perm _)).mpr
    ⟨{ provider := by decide +kernel
       status := by decide +kernel
       sort := by decide +kernel
       page := fun _ h ↦ by cases h; decide
       pageSize := fun _ h ↦ by cases h; decide
       «from» := fun _ h ↦ by cases h
       «to» := fun _ h ↦ by cases h
       ordered := fun _ h ↦ by cases h }, rfl⟩

/-! ## Statistics -/

def granularityText : Granularity → String
  | .raw => "raw"
  | .day => "day"
  | .isoWeek => "iso-week"
  | .month => "month"
  | .year => "year"
  | .custom => "custom"

structure StatisticsQuery where
  granularity : Granularity
  metric : Option String
  «from» : Option String
  «to» : Option String
  timezone : Option String
  taskId : Option (List String)
  interfaceName : Option (List String)
  sourceIp : Option (List String)
  provider : Option (List String)
  serverId : Option (List String)
  routeProfileId : Option (List String)
  publicIp : Option (List String)
  groupBy : Option String

namespace StatisticsQuery

/-- What `statistics` hands to `queryString`, in some order. -/
def params (query : StatisticsQuery) : List (String × Param) :=
  [("granularity", .text (granularityText query.granularity)), ("metric", .absent),
    ("from", .ofText query.from), ("to", .ofText query.to), ("timezone", .ofText query.timezone),
    ("taskId", .ofTexts query.taskId), ("sourceIp", .ofTexts query.sourceIp),
    ("provider", .ofTexts query.provider), ("serverId", .ofTexts query.serverId),
    ("routeProfileId", .ofTexts query.routeProfileId), ("publicIp", .ofTexts query.publicIp),
    ("groupBy", .ofText query.groupBy), ("interface", .ofTexts query.interfaceName)]

/-- The lists of a page. -/
def filter (query : StatisticsQuery) : Statistics.Filter where
  taskIDs := query.taskId.getD []
  interfaces := query.interfaceName.getD []
  sourceIPs := query.sourceIp.getD []
  providers := query.provider.getD []
  serverIDs := query.serverId.getD []
  routeProfileIDs := query.routeProfileId.getD []
  publicIPs := query.publicIp.getD []

end StatisticsQuery

/-- The lists of a filter. -/
def lists (filter : Statistics.Filter) : List (List String) :=
  [filter.taskIDs, filter.interfaces, filter.sourceIPs, filter.providers, filter.serverIDs,
    filter.routeProfileIDs, filter.publicIPs]

def mapLists (f : List String → List String) (filter : Statistics.Filter) : Statistics.Filter where
  taskIDs := f filter.taskIDs
  interfaces := f filter.interfaces
  sourceIPs := f filter.sourceIPs
  providers := f filter.providers
  serverIDs := f filter.serverIDs
  routeProfileIDs := f filter.routeProfileIDs
  publicIPs := f filter.publicIPs

/-- Lists that are short enough. -/
def Bounded (values : List String) : Prop :=
  values.length ≤ maxStatisticsFilterValues ∧
    ∀ value ∈ values, value.utf8ByteSize ≤ maxStatisticsFilterValueLength

instance (values : List String) : Decidable (Bounded values) :=
  inferInstanceAs (Decidable (_ ∧ _))

namespace StatisticsQuery

variable {query : StatisticsQuery} {entries : List (String × Param)} {zones : Scheduling.Env}
  {now : Time} {settings : Option Settings}

/-- What is asked for: the choices of the page, or what stands for them. -/
def asked (rfc3339 : String → Option Time) (now : Time) (settings : Option Settings)
    (query : StatisticsQuery) : Statistics.Query where
  «from» := (boundOf rfc3339 query.from).getD (now - days 30)
  «to» := (boundOf rfc3339 query.to).getD now
  granularity := granularityText query.granularity
  reportingTimezone := orDefault (query.timezone.getD "")
    ((settings.map Settings.defaultTimezone).getD "")
  groupBy := query.groupBy.getD ""
  filter := mapLists pieces query.filter

/-- The queries that the API answers. -/
structure Accepted (rfc3339 : String → Option Time) (zones : Scheduling.Env) (now : Time)
    (settings : Option Settings) (query : StatisticsQuery) : Prop where
  «from» : ∀ text ∈ query.from, text ≠ "" → rfc3339 text ≠ none
  «to» : ∀ text ∈ query.to, text ≠ "" → rfc3339 text ≠ none
  ordered : (query.asked rfc3339 now settings).from < (query.asked rfc3339 now settings).to
  bounded : (query.asked rfc3339 now settings).to - (query.asked rfc3339 now settings).from ≤
    days 3660
  raw : query.granularity = .raw →
    (query.asked rfc3339 now settings).to - (query.asked rfc3339 now settings).from ≤ days 90
  timezone : (zones.loadLocation (query.asked rfc3339 now settings).reportingTimezone).isSome
  groupBy : Dimension.ofText (query.groupBy.getD "") ≠ none
  lists : ∀ values ∈ Web.lists (query.asked rfc3339 now settings).filter, Bounded values

def names : List String :=
  ["granularity", "metric", "from", "to", "timezone", "taskId", "sourceIp", "provider", "serverId",
    "routeProfileId", "publicIp", "groupBy", "interface"]

theorem nodup_params (query : StatisticsQuery) : (query.params.map Prod.fst).Nodup := by
  have hnames : query.params.map Prod.fst = names := rfl
  rw [hnames]
  decide

/-- The values in which the choices of a page are read. -/
structure Received (query : StatisticsQuery) (values : Values) : Prop where
  granularity : getValue values "granularity" = granularityText query.granularity
  «from» : getValue values "from" = query.from.getD ""
  «to» : getValue values "to" = query.to.getD ""
  timezone : getValue values "timezone" = query.timezone.getD ""
  groupBy : getValue values "groupBy" = query.groupBy.getD ""
  taskId : allValues values "taskId" = query.filter.taskIDs
  interface : allValues values "interface" = query.filter.interfaces
  interfaceName : allValues values "interfaceName" = []
  sourceIp : allValues values "sourceIp" = query.filter.sourceIPs
  provider : allValues values "provider" = query.filter.providers
  serverId : allValues values "serverId" = query.filter.serverIDs
  routeProfileId : allValues values "routeProfileId" = query.filter.routeProfileIDs
  publicIp : allValues values "publicIp" = query.filter.publicIPs

theorem received (hentries : entries.Perm query.params) : query.Received (pairs entries) := by
  have hnodup : (entries.map Prod.fst).Nodup :=
    (hentries.map Prod.fst).nodup_iff.mpr query.nodup_params
  have hall {name : String} {param : Param} (h : (name, param) ∈ query.params) :
      allValues (pairs entries) name = param.values :=
    allValues_pairs hnodup (hentries.mem_iff.mpr h)
  have htext {name : String} (value : Option String) (h : (name, .ofText value) ∈ query.params) :
      getValue (pairs entries) name = value.getD "" := by
    rw [getValue_eq, hall h, values_ofText]
  have htexts {name : String} (values : Option (List String))
      (h : (name, .ofTexts values) ∈ query.params) :
      allValues (pairs entries) name = values.getD [] := by
    rw [hall h, values_ofTexts]
  exact {
    granularity := htext (some (granularityText query.granularity)) (by simp [params, Param.ofText])
    «from» := htext query.from (by simp [params])
    «to» := htext query.to (by simp [params])
    timezone := htext query.timezone (by simp [params])
    groupBy := htext query.groupBy (by simp [params])
    taskId := htexts query.taskId (by simp [params])
    interface := htexts query.interfaceName (by simp [params])
    interfaceName := by
      have hother : "interfaceName" ∉ query.params.map Prod.fst := by
        have hnames : query.params.map Prod.fst = names := rfl
        rw [hnames]
        decide
      exact allValues_pairs_of_not_mem fun hmem ↦
        hother ((hentries.map Prod.fst).mem_iff.mp hmem)
    sourceIp := htexts query.sourceIp (by simp [params])
    provider := htexts query.provider (by simp [params])
    serverId := htexts query.serverId (by simp [params])
    routeProfileId := htexts query.routeProfileId (by simp [params])
    publicIp := htexts query.publicIp (by simp [params]) }

theorem list_eq_ok_iff {name : String} {values result : List String} :
    statisticsListValues name [values] = .ok result ↔ Bounded (pieces values) ∧ result = pieces values := by
  rw [statisticsListValues_eq_ok_iff, List.flatten_singleton]
  constructor
  · rintro ⟨rfl, hbounded⟩
    exact ⟨hbounded, rfl⟩
  · rintro ⟨hbounded, rfl⟩
    exact ⟨rfl, hbounded⟩

theorem ofText_granularityText (granularity : Granularity) :
    Granularity.ofText (granularityText granularity) = some granularity := by
  cases granularity <;> rfl

theorem granularityText_eq_raw {granularity : Granularity} :
    granularityText granularity = "raw" ↔ granularity = .raw := by
  cases granularity <;> decide

theorem granularity_read (granularity : Granularity) :
    orDefault (granularityText granularity) "day" = granularityText granularity := by
  cases granularity <;> rfl

theorem bounded_lists {filter : Statistics.Filter} {result asked : Statistics.Query} :
    Bounded (pieces filter.taskIDs) ∧ Bounded (pieces filter.interfaces) ∧
      Bounded (pieces filter.sourceIPs) ∧ Bounded (pieces filter.providers) ∧
      Bounded (pieces filter.serverIDs) ∧ Bounded (pieces filter.routeProfileIDs) ∧
      Bounded (pieces filter.publicIPs) ∧ asked = result ↔
    (∀ values ∈ Web.lists (mapLists pieces filter), Bounded values) ∧ result = asked := by
  simp [Web.lists, mapLists, and_assoc, eq_comm]

theorem Received.parseStatisticsQuery {values : Values} (h : query.Received values)
    {result : Statistics.Query} :
    Api.parseStatisticsQuery rfc3339 zones now settings values = .ok result ↔
      query.Accepted rfc3339 zones now settings ∧ result = query.asked rfc3339 now settings := by
  have hinterfaces (interfaces : List String) : statisticsListValues "interface" [interfaces, []] =
      statisticsListValues "interface" [interfaces] := rfl
  have hgranularity : Granularity.ofText (granularityText query.granularity) ≠ none := by
    rw [ofText_granularityText]
    exact Option.some_ne_none _
  unfold Api.parseStatisticsQuery
  simp only [bind_eq_ok_iff, require_eq_ok_iff, pure_eq_ok_iff, h.granularity, h.from, h.to,
    h.timezone, h.groupBy, h.taskId, h.interface, h.interfaceName, h.sourceIp, h.provider,
    h.serverId, h.routeProfileId, h.publicIp, hinterfaces, list_eq_ok_iff, parseBound_eq_ok_iff,
    granularity_read, granularityText_eq_raw, hgranularity, exists_const, exists_and_left,
    exists_eq_left, and_assoc, true_and, ne_eq, not_false_eq_true]
  constructor
  · rintro ⟨hfrom, hto, hordered, hbounded, hraw, htimezone, hgroupBy, hlists⟩
    obtain ⟨hall, hresult⟩ := bounded_lists.mp hlists
    exact ⟨⟨hfrom, hto, hordered, hbounded, hraw, htimezone, hgroupBy, hall⟩, hresult⟩
  · rintro ⟨⟨hfrom, hto, hordered, hbounded, hraw, htimezone, hgroupBy, hlists⟩, rfl⟩
    exact ⟨hfrom, hto, hordered, hbounded, hraw, htimezone, hgroupBy,
      bounded_lists.mpr ⟨hlists, rfl⟩⟩

/-- What is asked for has the lists of the page, where no value is blank, has blanks around it or
a comma in it. -/
theorem filter_asked_iff : (query.asked rfc3339 now settings).filter = query.filter ↔
    ∀ values ∈ Web.lists query.filter, ∀ value ∈ values, Listable value := by
  simp only [← pieces_eq_self_iff]
  change mapLists pieces query.filter = query.filter ↔ _
  generalize query.filter = filter
  cases filter
  simp [mapLists, Web.lists]

end StatisticsQuery

/-- What a page asks for is what is computed: each list is the parts of its values, and it is
the list of the page where every value can be listed. -/
theorem statistics_query_received {query : StatisticsQuery} {entries : List (String × Param)}
    {zones : Scheduling.Env} {now : Time} {settings : Option Settings}
    (hentries : entries.Perm query.params) (hfew : (pairs entries).length ≤ maxQueryParams)
    {result : Statistics.Query} :
    (parseStatisticsQuery rfc3339 zones now settings (received "/statistics" entries) = .ok result ↔
      query.Accepted rfc3339 zones now settings ∧ result = query.asked rfc3339 now settings) ∧
    ((query.asked rfc3339 now settings).filter = query.filter ↔
      ∀ values ∈ lists query.filter, ∀ value ∈ values, Listable value) := by
  have hnodup : (entries.map Prod.fst).Nodup :=
    (hentries.map Prod.fst).nodup_iff.mpr query.nodup_params
  have hpath : 0x3F ∉ utf8 (apiRoot ++ "/statistics") := by decide +kernel
  rw [received_eq hpath hnodup hfew]
  exact ⟨(StatisticsQuery.received hentries).parseStatisticsQuery, StatisticsQuery.filter_asked_iff⟩

def twoTasks : StatisticsQuery where
  granularity := .month
  metric := some "download"
  «from» := none
  «to» := none
  timezone := some "UTC"
  taskId := some ["a", "b"]
  interfaceName := none
  sourceIp := none
  provider := some ["ookla, cloudflare"]
  serverId := some []
  routeProfileId := none
  publicIp := none
  groupBy := some "task"

def onlyUTC : Scheduling.Env where
  loadLocation := fun name ↦ if name = "UTC" then some ⟨fun _ ↦ 0⟩ else none
  parse := fun _ ↦ none

/-- The two tasks are received as they are, two providers in one text are not. -/
theorem twoTasks_received :
    parseStatisticsQuery (fun _ ↦ none) onlyUTC 0 none
        (received "/statistics" twoTasks.params.reverse) =
      .ok (twoTasks.asked (fun _ ↦ none) 0 none) ∧
    (twoTasks.asked (fun _ ↦ none) 0 none).filter ≠ twoTasks.filter := by
  have hreceived := @statistics_query_received (fun _ ↦ none) twoTasks _ onlyUTC 0 none
    (List.reverse_perm _) (by decide +kernel) (twoTasks.asked (fun _ ↦ none) 0 none)
  constructor
  · apply hreceived.1.mpr
    exact ⟨{
      «from» := fun _ h ↦ by cases h
      «to» := fun _ h ↦ by cases h
      ordered := by decide +kernel
      bounded := by decide +kernel
      raw := by decide +kernel
      timezone := by decide +kernel
      groupBy := by decide +kernel
      lists := by decide +kernel }, rfl⟩
  · intro hsame
    have hlistable := hreceived.2.mp hsame ["ookla, cloudflare"] (by decide) "ookla, cloudflare"
      (by decide)
    exact absurd hlistable.whole (by decide +kernel)

end MultiSpeed.Web
