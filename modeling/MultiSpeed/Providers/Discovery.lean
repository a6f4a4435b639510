import MultiSpeed.Providers.LibreSpeed
import MultiSpeed.Providers.Ookla

/-!
# Server discovery

What the API asks of a provider, and how the adapters search the servers that their
command lists.
-/

namespace MultiSpeed.Providers

open Concurrent Execution Network

structure Capabilities where
  serverDiscovery : Bool
  fixedServerIDs : Bool

/-- The methods of `Provider`; what leaves the adapter are the calls of `A`. -/
structure Provider {C : Type} (A : C → Type) where
  capabilities : Capabilities
  availability : Program A Availability
  validate : TestTarget → Option Text
  listServers : ServerListRequest → Program A (Except Text (List ProviderServer))

/-! ## Searching -/

/-- `strings.Join(fields, " ")` -/
def joinSpace (fields : List String) : String :=
  String.ofList ([' '].intercalate (fields.map String.toList))

/-- A server is found when one of its fields, or several in turn, holds the text. -/
def matchesSearch (lower : Char → Char) (fields : ProviderServer → List String) (needle : String)
    (item : ProviderServer) : Bool :=
  needle = "" || Statistics.contains (toLower lower (joinSpace (fields item))) needle

/-- The loop of `filterServers`. -/
def collectServers (found : ProviderServer → Bool) (limit : ℕ) (result : List ProviderServer) :
    List ProviderServer → List ProviderServer
  | [] => result
  | item :: items =>
      if !found item then collectServers found limit result items
      else
        let result := result ++ [item]
        if result.length = limit then result else collectServers found limit result items

def filterServersBy (lower : Char → Char) (fields : ProviderServer → List String)
    (items : List ProviderServer) (search : String) (limit : ℤ) : List ProviderServer :=
  let limit := if limit < 1 ∨ 200 < limit then 100 else limit
  let needle := toLower lower (trimmed search)
  collectServers (matchesSearch lower fields needle) limit.toNat [] items

/-- What `ListServers` of an adapter makes of the output of the command. -/
def listedBy (parseServers : Text → Except Text (List ProviderServer))
    (filterServers : List ProviderServer → String → ℤ → List ProviderServer) (stdout : Text)
    (request : ServerListRequest) : Except Text (List ProviderServer) :=
  match parseServers stdout with
  | .error message => .error message
  | .ok servers => .ok (filterServers servers request.search request.limit)

theorem collectServers_eq (found : ProviderServer → Bool) {limit : ℕ}
    {result : List ProviderServer} (hlimit : result.length < limit) (items : List ProviderServer) :
    collectServers found limit result items =
      result ++ (items.filter found).take (limit - result.length) := by
  induction items generalizing result with
  | nil => simp [collectServers]
  | cons item items ih =>
      rw [collectServers]
      cases hfound : found item with
      | false =>
          rw [List.filter_cons_of_neg (by simp [hfound])]
          exact ih hlimit
      | true =>
          rw [List.filter_cons_of_pos hfound]
          have hlength : (result ++ [item]).length = result.length + 1 := by simp
          obtain ⟨room, hroom⟩ := Nat.exists_eq_add_of_lt hlimit
          have htake : limit - result.length = room + 1 := by omega
          rw [htake, List.take_succ_cons]
          change (if (result ++ [item]).length = limit then result ++ [item]
            else collectServers found limit (result ++ [item]) items) = _
          by_cases hfull : (result ++ [item]).length = limit
          · have hnone : room = 0 := by omega
            rw [if_pos hfull, hnone, List.take_zero]
          · rw [if_neg hfull, ih (by omega), List.append_assoc, hlength]
            have hrest : limit - (result.length + 1) = room := by omega
            rw [hrest]
            rfl

theorem filterServersBy_eq (lower : Char → Char) (fields : ProviderServer → List String)
    (items : List ProviderServer) (search : String) {limit : ℕ} (hpos : 0 < limit)
    (hle : limit ≤ 200) :
    filterServersBy lower fields items search limit =
      (items.filter (matchesSearch lower fields (toLower lower (trimmed search)))).take limit := by
  unfold filterServersBy
  rw [if_neg (by omega)]
  exact collectServers_eq _ hpos items

/-! ## The adapters -/

namespace LibreSpeed

def serverFields (item : ProviderServer) : List String :=
  [item.id, item.name, item.host, item.location, item.country]

def filterServers (lower : Char → Char) : List ProviderServer → String → ℤ → List ProviderServer :=
  filterServersBy lower serverFields

def provider (a : Adapter) : Provider Call.Answer where
  capabilities := ⟨true, true⟩
  availability := availability a
  validate := validate a
  listServers := listServers a

/-- No process but the question for the version. -/
def Probes : Call → Prop
  | .process p => p.arguments = ["--version"]
  | _ => True

theorem probes_availability (a : Adapter) : (availability a).Only Probes :=
  only_availability trivial rfl

/-- The calls of a discovery: the executable, its version and its list of servers. -/
def Discovers : Call → Prop
  | .lookPath _ => True
  | .process p => p.arguments = ["--version"] ∨ "--list" ∈ p.arguments
  | _ => False

theorem discovers_listServers (a : Adapter) (request : ServerListRequest) :
    (listServers a request).Only Discovers := by
  apply (only_availability trivial (.inl rfl)).bind
  intro availability
  split
  · exact Program.Only.pure
  · have hlist : Discovers (.process ⟨a.binary,
        baseArgs request.sourceIP request.ipFamily 30 none ++ ["--list"], [], maxStoredOutput, "",
        []⟩) := .inr (by simp)
    apply Program.Only.perform hlist
    rintro ⟨result, _ | message⟩ <;> exact Program.Only.pure

/-- The process that lists the servers ended so. -/
def Listed (trace : List (Sigma Call.Answer)) (stdout : Text) : Prop :=
  ∃ p result, (⟨.process p, (result, none)⟩ : Sigma Call.Answer) ∈ trace ∧
    "--list" ∈ p.arguments ∧ result.stdout = stdout

theorem not_listed_of_probes {p : ProcessRequest} (h : Probes (.process p)) :
    "--list" ∉ p.arguments := by
  have hversion : p.arguments = ["--version"] := h
  simp [hversion]

theorem listServers_listed {a : Adapter} {request : ServerListRequest}
    {trace : List (Sigma Call.Answer)} {answer : Except Text (List ProviderServer)} {stdout : Text}
    (h : (listServers a request).Runs trace answer) (hlisted : Listed trace stdout) :
    answer = a.listed stdout request := by
  obtain ⟨p, result, hmem, hlist, rfl⟩ := hlisted
  obtain ⟨front, available, back, rfl, hfront, hback⟩ := Program.runs_bind.mp h
  rcases List.mem_append.mp hmem with hmem | hmem
  · exact absurd hlist (not_listed_of_probes ((probes_availability a).of_mem_runs hfront _ hmem))
  split at hback
  · obtain ⟨rfl, -⟩ := Program.Runs.done_iff.mp hback
    cases hmem
  · obtain ⟨⟨asked, err⟩, rest, rfl, hrest⟩ := Program.Runs.perform_iff.mp hback
    cases err with
    | some message =>
        obtain ⟨rfl, -⟩ := Program.Runs.done_iff.mp hrest
        cases List.mem_singleton.mp hmem
    | none =>
        obtain ⟨rfl, rfl⟩ := Program.Runs.done_iff.mp hrest
        cases List.mem_singleton.mp hmem
        rfl

/-- The questions of a discovery, and what its command lists. -/
def discovery (a : Adapter) (request : ServerListRequest) (version listing : Text) :
    List (Sigma Call.Answer) :=
  [⟨.lookPath a.binary, true⟩,
    ⟨.process ⟨a.binary, ["--version"], [], 16384, "", []⟩, (⟨version, [], 0, 1⟩, none)⟩,
    ⟨.process ⟨a.binary, baseArgs request.sourceIP request.ipFamily 30 none ++ ["--list"], [],
      maxStoredOutput, "", []⟩, (⟨listing, [], 0, 1⟩, none)⟩]

theorem listed_discovery (a : Adapter) (request : ServerListRequest) (version listing : Text) :
    Listed (discovery a request version listing) listing :=
  ⟨_, _, List.mem_cons_of_mem _ (List.mem_cons_of_mem _ List.mem_cons_self), by simp, rfl⟩

theorem runs_discovery {a : Adapter} {request : ServerListRequest} {version listing : Text}
    (hnonempty : decoded (sanitizeOutput version 512) ≠ "")
    (hmarker : Statistics.contains (decoded (sanitizeOutput version 512)) requiredDNSPatchMarker =
      true) :
    (listServers a request).Runs (discovery a request version listing) (a.listed listing request) := by
  have hversion : (LibreSpeed.version a).Runs
      [⟨.process ⟨a.binary, ["--version"], [], 16384, "", []⟩, (⟨version, [], 0, 1⟩, none)⟩]
      (.ok (decoded (sanitizeOutput version 512))) := by
    apply Program.Runs.perform_iff.mpr
    refine ⟨_, [], rfl, ?_⟩
    simp only [if_neg hnonempty]
    exact .done _
  have havailable : ∃ available : Availability, available.available = true ∧
      (availability a).Runs
        [⟨.lookPath a.binary, true⟩, ⟨.process ⟨a.binary, ["--version"], [], 16384, "", []⟩,
          (⟨version, [], 0, 1⟩, none)⟩] available := by
    apply Exists.intro
    constructor
    case right =>
      apply Program.Runs.perform_iff.mpr
      refine ⟨true, _, rfl, ?_⟩
      apply Program.runs_bind.mpr
      refine ⟨_, _, [], (List.append_nil _).symm, hversion, ?_⟩
      simp only [hmarker, Bool.not_true, Bool.false_eq_true, if_false]
      exact .done _
    case left => rfl
  obtain ⟨available, hyes, hruns⟩ := havailable
  apply hruns.bind
  rw [hyes]
  apply Program.Runs.perform_iff.mpr
  exact ⟨_, [], rfl, .done _⟩

end LibreSpeed

namespace Ookla

def serverFields (item : ProviderServer) : List String :=
  [item.id, item.name, item.sponsor, item.location, item.country, item.host]

def filterServers (lower : Char → Char) : List ProviderServer → String → ℤ → List ProviderServer :=
  filterServersBy lower serverFields

def provider (a : Adapter) : Provider Call.Answer where
  capabilities := ⟨true, true⟩
  availability := availability a
  validate := validate
  listServers := listServers a

/-- No process but the question for the version. -/
def Probes : Call → Prop
  | .process p => p.arguments = ["--version"]
  | _ => True

theorem probes_version (a : Adapter) : (version a).Only Probes := by
  apply Program.Only.perform (c := Call.prepareRuntimeHome "" "") trivial
  rintro (message | homeDirectory)
  · exact Program.Only.pure
  have hprobe : Probes (.process ⟨a.binary, ["--version"], [], 16384, homeDirectory, []⟩) := rfl
  apply Program.Only.perform hprobe
  intro answer
  split
  · exact Program.Only.pure
  · rename_i result
    generalize decoded (sanitizeOutput result.stdout 512) = value
    exact Program.Only.ite Program.Only.pure Program.Only.pure

theorem probes_availability (a : Adapter) : (availability a).Only Probes := by
  apply Program.Only.perform (c := Call.acceptance) trivial
  rintro (message | _ | _)
  · exact Program.Only.pure
  · exact Program.Only.pure
  apply Program.Only.perform (c := Call.lookPath a.binary) trivial
  rintro (_ | _)
  · exact Program.Only.pure
  · apply (probes_version a).bind
    rintro (message | version) <;> exact Program.Only.pure

/-- The process that lists the servers ended so. -/
def Listed (trace : List (Sigma Call.Answer)) (stdout : Text) : Prop :=
  ∃ p result, (⟨.process p, (result, none)⟩ : Sigma Call.Answer) ∈ trace ∧
    "--servers" ∈ p.arguments ∧ result.stdout = stdout

theorem not_listed_of_probes {p : ProcessRequest} (h : Probes (.process p)) :
    "--servers" ∉ p.arguments := by
  have hversion : p.arguments = ["--version"] := h
  simp [hversion]

theorem listServers_listed {a : Adapter} {request : ServerListRequest}
    {trace : List (Sigma Call.Answer)} {answer : Except Text (List ProviderServer)} {stdout : Text}
    (h : (listServers a request).Runs trace answer) (hlisted : Listed trace stdout) :
    answer = a.listed stdout request := by
  obtain ⟨p, result, hmem, hlist, rfl⟩ := hlisted
  obtain ⟨front, available, back, rfl, hfront, hback⟩ := Program.runs_bind.mp h
  rcases List.mem_append.mp hmem with hmem | hmem
  · exact absurd hlist (not_listed_of_probes ((probes_availability a).of_mem_runs hfront _ hmem))
  split at hback
  · obtain ⟨rfl, -⟩ := Program.Runs.done_iff.mp hback
    cases hmem
  · obtain ⟨prepared, rest, rfl, hrest⟩ := Program.Runs.perform_iff.mp hback
    cases prepared with
    | error message =>
        obtain ⟨rfl, -⟩ := Program.Runs.done_iff.mp hrest
        cases List.mem_singleton.mp hmem
    | ok homeDirectory =>
        obtain ⟨⟨asked, err⟩, rest, rfl, hend⟩ := Program.Runs.perform_iff.mp hrest
        cases err with
        | some message =>
            obtain ⟨rfl, -⟩ := Program.Runs.done_iff.mp hend
            rcases List.mem_cons.mp hmem with hmem | hmem
            · cases hmem
            · cases List.mem_singleton.mp hmem
        | none =>
            obtain ⟨rfl, rfl⟩ := Program.Runs.done_iff.mp hend
            rcases List.mem_cons.mp hmem with hmem | hmem
            · cases hmem
            · cases List.mem_singleton.mp hmem
              rfl

end Ookla

namespace Cloudflare

def methodologyVersion : String := "cloudflare-native-bounded-v2"

def validate (target : TestTarget) : Option Text :=
  if target.selectionMode ≠ "" ∧ target.selectionMode ≠ "automatic" then
    some (utf8 "cloudflare supports only Automatic edge selection: invalid provider target")
  else if target.serverID ≠ "" ∨ target.serverURL ≠ "" then
    some (utf8 "cloudflare does not accept a server ID or custom URL: invalid provider target")
  else none

/-- The adapter answers without a call. -/
def provider : Provider fun _ : Empty ↦ Unit where
  capabilities := ⟨false, false⟩
  availability := pure ⟨true, methodologyVersion,
    utf8 "Native bounded methodology with automatic Cloudflare edge selection."⟩
  validate := validate
  listServers := fun _ ↦ pure (.ok [])

end Cloudflare

end MultiSpeed.Providers
