import MultiSpeed.Lib.Endpoints
import MultiSpeed.Lib.Program
import MultiSpeed.Providers.CustomServerURL
import MultiSpeed.Providers.Requests
import MultiSpeed.Statistics.Accumulators

/-!
# The LibreSpeed adapter

`Availability`, `Version`, `Validate`, `ListServers` and `Run` of
`internal/providers/librespeed` as programs.  Their calls are the search of the
executable, the source-bound resolver and a process.  How the output of the process is
read and how the definition of a custom server is encoded are parameters.
-/

namespace MultiSpeed.Providers.LibreSpeed

open AddressText Concurrent Execution Network

/-- `net.IPAddr` -/
structure IPAddr where
  ip : Option (BitVec 128)
  zone : String

inductive Call where
  | lookPath (binary : String)
  /-- `network.NewSourceBoundResolver` -/
  | newResolver (source : BitVec 128)
  | lookupIPAddr (source : BitVec 128) (host : String)
  | process (request : ProcessRequest)

def Call.Answer : Call → Type
  | .lookPath _ => Bool
  | .newResolver _ => Except Text Unit
  | .lookupIPAddr _ _ => Except Text (List IPAddr)
  | .process _ => ProcessResult × Option Text

abbrev Adapting := Program Call.Answer

abbrev ask (c : Call) : Adapting c.Answer := Program.perform c

structure Adapter where
  binary : String
  customServers : CustomServerURLPolicy
  lib : URLLibrary
  /-- `parseResult` -/
  parseResult : Text → Except Text ProviderResult
  /-- `parseServers` and `filterServers` -/
  listed : Text → ServerListRequest → Except Text (List ProviderServer)
  /-- `strconv.Quote` -/
  quote : String → String
  /-- `json.Marshal` of the list of one definition. -/
  marshal : JsonObject → Except Text Text

def requiredDNSPatchMarker : String := "+multispeed.dns2.xnet061"

def allowedServerEndpointsEnvironment : String := "MULTISPEED_PROVIDER_ALLOWED_SERVER_ENDPOINTS"

/-- `models.LibreSpeedBitsMethodologyVersion` -/
abbrev bitsMethodologyVersion : String := Statistics.libreSpeedBitsMethodologyVersion

/-! ## Custom servers -/

def optionBool (options : Option JsonObject) (key : String) : Bool :=
  match (options.getD []).lookup key with
  | some (.bool value) => value
  | _ => false

/-- `strings.TrimRight(value, "/")` -/
def trimSlashes (value : String) : String :=
  String.ofList (value.toList.reverse.dropWhile (· = '/')).reverse

def validCustomEndpoint (lib : URLLibrary) (value : String) : Bool :=
  let lower := toLower lib.lower value
  if value.toList.head? = some '/' ∨ '\\' ∈ value.toList ∨
      ["%2f", "%5c", "%00", "%0a", "%0d"].any (Statistics.contains lower ·) then false
  else
    match lib.parseRequestURI value.toList with
    | none => false
    | some endpoint =>
        !(endpoint.scheme ≠ [] || endpoint.host ≠ [] || endpoint.user ≠ none ||
            endpoint.fragment ≠ [] || endpoint.opaquePart ≠ [] || endpoint.path = []) &&
          (endpoint.path.splitOn '/').all fun segment ↦
            !(segment = [] || segment = ['.'] || segment = ['.', '.'])

/-- `definition[key] = value` -/
def setField (definition : JsonObject) (key : String) (value : Json) : JsonObject :=
  (key, value) :: definition.filter fun field ↦ field.1 ≠ key

/-- The turn of the loop for one field of the definition. -/
def addField (lib : URLLibrary) (quote : String → String) (definition : JsonObject) :
    String × Json → Except Text JsonObject
  | (key, rawValue) =>
      if key = "allowInsecure" then
        match rawValue with
        | .bool _ => .ok definition
        | _ => .error (utf8 "custom LibreSpeed allowInsecure must be a boolean")
      else if key ∈ ["name", "dlURL", "ulURL", "pingURL", "getIpURL"] then
        match rawValue with
        | .string value =>
            if value = "" ∨ 2048 < (utf8 value).length ∨
                containsAny value ['\x00', '\r', '\n'] then
              .error (utf8 ("custom LibreSpeed " ++ key ++ " is invalid"))
            else if key ≠ "name" ∧ !validCustomEndpoint lib value then
              .error (utf8 ("custom LibreSpeed " ++ key ++ " must be a relative endpoint"))
            else .ok (setField definition key (.string value))
        | _ => .error (utf8 ("custom LibreSpeed " ++ key ++ " is invalid"))
      else .error (utf8 ("unsupported custom LibreSpeed field " ++ quote key))

def customDefinition (lib : URLLibrary) (quote : String → String) (target : TestTarget) :
    Except Text JsonObject :=
  (target.customServerDefinition.getD []).foldlM (addField lib quote)
    [("id", .number 1), ("name", .string "Custom LibreSpeed"),
      ("server", .string (trimSlashes target.serverURL)), ("dlURL", .string "garbage.php"),
      ("ulURL", .string "empty.php"), ("pingURL", .string "empty.php"),
      ("getIpURL", .string "getIP.php")]

/-- The turn of the loop over the addresses of a server. -/
def selectAddress (wantIPv4 : Bool) (seen : Finset String) (address : IPAddr) :
    Except Text (Finset String) :=
  let invalid := utf8 "custom LibreSpeed server resolved to an invalid IP address"
  match address.ip with
  | none => .error invalid
  | some ip =>
      if address.zone ≠ "" ∨ isUnspecified ip ∨ isMulticast ip then .error invalid
      else if isIPv4 ip ≠ wantIPv4 then .ok seen
      else
        let seen := insert (String.ofList (Address.ipText ip)) seen
        if 64 < seen.card then
          .error (utf8 "custom LibreSpeed server resolved to too many IP addresses")
        else .ok seen

def selectAddresses (wantIPv4 : Bool) (addresses : List IPAddr) : Except Text (List String) :=
  match addresses.foldlM (selectAddress wantIPv4) ∅ with
  | .error message => .error message
  | .ok seen =>
      if seen = ∅ then
        .error (utf8 "custom LibreSpeed server has no address matching the selected source family")
      else .ok (seen.sort (· ≤ ·))

def resolveCustomServerIPs (lib : URLLibrary) (rawURL sourceIP ipFamily : String) :
    Adapting (Except Text (List String)) :=
  match lib.parseRequestURI rawURL.toList with
  | none => pure (.error (utf8 "custom LibreSpeed server URL is invalid"))
  | some parsed =>
      if parsed.hostname = [] then
        pure (.error (utf8 "custom LibreSpeed server URL is invalid"))
      else
        match Address.parseIP sourceIP.toList with
        | none =>
            pure (.error (utf8 "custom LibreSpeed source IP must be a concrete unicast address"))
        | some source =>
            let wantIPv4 := isIPv4 source
            if isUnspecified source ∨ isMulticast source then
              pure (.error
                (utf8 "custom LibreSpeed source IP must be a concrete unicast address"))
            else if ipFamily = "ipv4" ∧ !wantIPv4 ∨ ipFamily = "ipv6" ∧ wantIPv4 then
              pure (.error
                (utf8 "custom LibreSpeed source IP does not match the selected IP family"))
            else if ipFamily ≠ "auto" ∧ ipFamily ≠ "ipv4" ∧ ipFamily ≠ "ipv6" then
              pure (.error (utf8 "custom LibreSpeed IP family is invalid"))
            else
              match Address.parseIP parsed.hostname with
              | some literal => pure (selectAddresses wantIPv4 [⟨some literal, ""⟩])
              | none => do
                  match ← ask (.newResolver source) with
                  | .error message =>
                      pure (.error (utf8 "create source-bound resolver: " ++ message))
                  | .ok () =>
                      match ← ask (.lookupIPAddr source (String.ofList parsed.hostname)) with
                      | .error message =>
                          pure (.error
                            (utf8 "source-bound custom server lookup failed: " ++ message))
                      | .ok addresses => pure (selectAddresses wantIPv4 addresses)

/-- The turn of the loop over the addresses that are pinned. -/
def addEndpoint (port : ℕ) (seen : Finset Endpoint) (rawAddress : String) :
    Except Text (Finset Endpoint) :=
  let invalid := utf8 "custom LibreSpeed destination contains an invalid IP address"
  match Address.parse rawAddress.toList with
  | none => .error invalid
  | some address =>
      if address.zone ≠ [] ∨ address.isUnspecified ∨ address.isMulticast then .error invalid
      else .ok (insert (address.unmap, port) seen)

def customServerEndpoints (lib : URLLibrary) (rawURL : String) (addresses : List String) :
    Except Text (List String) :=
  match lib.parseRequestURI rawURL.toList with
  | none => .error (utf8 "custom LibreSpeed server URL is invalid")
  | some parsed =>
      if parsed.hostname = [] then .error (utf8 "custom LibreSpeed server URL is invalid")
      else
        let portText :=
          if parsed.port ≠ [] then some parsed.port
          else if parsed.scheme = "http".toList then some "80".toList
          else if parsed.scheme = "https".toList then some "443".toList
          else none
        match portText with
        | none => .error (utf8 "custom LibreSpeed server URL has an invalid scheme")
        | some portText =>
            match number? 10 portText with
            | none => .error (utf8 "custom LibreSpeed server URL has an invalid port")
            | some port =>
                if port < 1 ∨ 65535 < port then
                  .error (utf8 "custom LibreSpeed server URL has an invalid port")
                else if addresses = [] ∨ 64 < addresses.length then
                  .error (utf8 "custom LibreSpeed destination has an invalid address count")
                else
                  match addresses.foldlM (addEndpoint port) ∅ with
                  | .error message => .error message
                  | .ok seen =>
                      .ok ((seen.val.map fun e ↦ String.ofList (Endpoint.text e)).sort (· ≤ ·))

/-- `strings.Join(parts, ",")` -/
def joinComma (parts : List String) : String :=
  String.ofList ([','].intercalate (parts.map String.toList))

/-! ## The adapter -/

variable (a : Adapter)

def version : Adapting (Except Text String) := do
  match ← ask (.process ⟨a.binary, ["--version"], [], 16384, "", []⟩) with
  | (_, some message) => pure (.error message)
  | (result, none) =>
      let value := decoded (sanitizeOutput result.stdout 512)
      if value = "" then pure (.error (utf8 "libreSpeed CLI returned an empty version"))
      else pure (.ok value)

def availability : Adapting Availability := do
  match ← ask (.lookPath a.binary) with
  | false => pure ⟨false, "", utf8 "The LibreSpeed CLI executable was not found."⟩
  | true =>
      match ← version a with
      | .error message =>
          pure ⟨false, "", utf8 "LibreSpeed CLI could not be queried: " ++
            sanitizeOutput message 512⟩
      | .ok version =>
          if !Statistics.contains version requiredDNSPatchMarker then
            pure ⟨false, version, utf8 ("LibreSpeed CLI lacks MultiSpeed's required source-bound " ++
                "DNS, destination pinning, or patched dependency marker; use the bundled executable.")⟩
          else
            pure ⟨true, version, utf8 ("Telemetry is disabled by default." ++
              if a.customServers.enabled then ""
              else " Custom backend URLs are disabled until APP_ALLOWED_CUSTOM_SERVER_URLS is " ++
                  "configured.")⟩

def validate (target : TestTarget) : Option Text :=
  let allowInsecure := optionBool target.customServerDefinition "allowInsecure"
  match target.selectionMode with
  | "" | "automatic" => none
  | "fixed" =>
      if !numericID target.serverID then
        some (utf8 "libreSpeed server ID must contain only digits: invalid provider target")
      else none
  | "custom" =>
      match validateHTTPURL a.lib target.serverURL allowInsecure with
      | .error message => some (utf8 message)
      | .ok () =>
          match a.customServers.authorize a.lib target.serverURL allowInsecure with
          | .error message => some (utf8 message)
          | .ok _ =>
              match customDefinition a.lib a.quote target with
              | .error message => some message
              | .ok _ => none
  | _ =>
      some (utf8
        "libreSpeed target mode must be automatic, fixed, or custom: invalid provider target")

def baseArgs (sourceIP family : String) (timeout : ℤ) (options : Option JsonObject) :
    List String :=
  let timeout := if timeout < 5 then 120 else timeout
  ["--json", "--source", sourceIP, "--no-icmp", "--timeout", toString timeout,
      "--telemetry-level", "disabled"] ++
    (if family = "ipv4" then ["--ipv4"] else []) ++
    (if family = "ipv6" then ["--ipv6"] else []) ++
    if optionBool options "skipTlsVerification" then ["--skip-cert-verify"] else []

def listServers (request : ServerListRequest) : Adapting (Except Text (List ProviderServer)) := do
  let availability ← availability a
  if !availability.available then
    pure (.error (availability.message ++ utf8 ": provider unavailable"))
  else
    match ← ask (.process ⟨a.binary,
        baseArgs request.sourceIP request.ipFamily 30 none ++ ["--list"], [], maxStoredOutput,
        "", []⟩) with
    | (result, some message) =>
        pure (.error (utf8 "libreSpeed server discovery failed: " ++
          sanitizeOutput result.stderr 2048 ++ utf8 ": " ++ message))
    | (result, none) => pure (a.listed result.stdout request)

def finishRun (request : RunRequest) (result : ProcessResult) (err : Option Text) :
    Adapting RunAnswer :=
  match err with
  | some message =>
      pure ({ noResult with
        exitCode := some result.exitCode
        durationMilliseconds := result.duration
        rawResponse := sanitizeOutput result.stdout maxStoredOutput },
        some (utf8 ("libreSpeed test failed (exit " ++ toString result.exitCode ++ "): ") ++
          sanitizeOutput result.stderr 4096 ++ utf8 ": " ++ message))
  | none =>
      match a.parseResult result.stdout with
      | .error message =>
          pure ({ noResult with
            exitCode := some result.exitCode
            rawResponse := sanitizeOutput result.stdout maxStoredOutput }, some message)
      | .ok parsed => do
          let version ← version a
          pure ({ parsed with
            exitCode := some result.exitCode
            durationMilliseconds := result.duration
            rawResponse := sanitizeOutput result.stdout maxStoredOutput
            providerVersion := match version with
              | .ok cliVersion => cliVersion ++ "; " ++ bitsMethodologyVersion
              | .error _ => bitsMethodologyVersion
            tlsVerificationDisabled := optionBool request.options "skipTlsVerification"
            server := if request.target.selectionMode = "fixed" then
                { parsed.server with id := request.target.serverID }
              else parsed.server }, none)

/-- The run of a custom server, from the authorization on. -/
def runCustom (request : RunRequest) (args : List String) : Adapting RunAnswer :=
  match a.customServers.authorize a.lib request.target.serverURL
      (optionBool request.target.customServerDefinition "allowInsecure") with
  | .error message => pure (runFailed (utf8 message))
  | .ok authorizedURL =>
      match customDefinition a.lib a.quote { request.target with serverURL := authorizedURL } with
      | .error message => pure (runFailed message)
      | .ok definition => do
          match ← resolveCustomServerIPs a.lib authorizedURL request.sourceIP
              request.ipFamily with
          | .error message =>
              pure (runFailed (utf8 "authorize custom LibreSpeed destination: " ++ message))
          | .ok allowedIPs =>
              match customServerEndpoints a.lib authorizedURL allowedIPs with
              | .error message =>
                  pure (runFailed (utf8 "pin custom LibreSpeed destination: " ++ message))
              | .ok allowedEndpoints =>
                  match a.marshal definition with
                  | .error message => pure (runFailed message)
                  | .ok stdin =>
                      let answer ← ask (.process ⟨a.binary,
                        args ++ ["--local-json", "-", "--server", "1"], stdin, maxStoredOutput, "",
                        [(allowedServerEndpointsEnvironment, joinComma allowedEndpoints)]⟩)
                      finishRun a request answer.1 answer.2

def run (request : RunRequest) : Adapting RunAnswer := do
  let availability ← availability a
  if !availability.available then
    pure (runFailed (availability.message ++ utf8 ": provider unavailable"))
  else
    match validate a request.target with
    | some message => pure (runFailed message)
    | none =>
        let args := baseArgs request.sourceIP request.ipFamily request.timeoutSeconds
          request.options
        if request.target.selectionMode = "custom" then runCustom a request args
        else
          let args := if request.target.selectionMode = "fixed" then
              args ++ ["--server", request.target.serverID]
            else args
          let answer ← ask (.process ⟨a.binary, args, [], maxStoredOutput, "", []⟩)
          finishRun a request answer.1 answer.2

/-! ## What the adapter calls -/

section

variable {a} {P : Call → Prop}

theorem only_version (hversion : P (.process ⟨a.binary, ["--version"], [], 16384, "", []⟩)) :
    (version a).Only P := by
  apply Program.Only.perform hversion
  intro answer
  split
  · exact Program.Only.pure
  · rename_i result
    generalize decoded (sanitizeOutput result.stdout 512) = value
    exact Program.Only.ite Program.Only.pure Program.Only.pure

theorem only_availability (hlookPath : P (.lookPath a.binary))
    (hversion : P (.process ⟨a.binary, ["--version"], [], 16384, "", []⟩)) :
    (availability a).Only P := by
  apply Program.Only.perform hlookPath
  rintro (_ | _)
  · exact Program.Only.pure
  · apply (only_version hversion).bind
    rintro (message | version)
    · exact Program.Only.pure
    · simp only
      split <;> exact Program.Only.pure

theorem only_finishRun {request : RunRequest} {result : ProcessResult} {err : Option Text}
    (hversion : P (.process ⟨a.binary, ["--version"], [], 16384, "", []⟩)) :
    (finishRun a request result err).Only P := by
  unfold finishRun
  split
  · exact Program.Only.pure
  split
  · exact Program.Only.pure
  · apply (only_version hversion).bind
    exact fun _ ↦ Program.Only.pure

end

end MultiSpeed.Providers.LibreSpeed
