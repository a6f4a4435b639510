import MultiSpeed.Execution.Worker

/-!
# Route validation

`ValidateSource` and `RouteValidator.Validate` of `internal/network`.  The answers
one validation gets are the interface snapshot, those of the resolver, of the `ip`
command and of the trace endpoint.
-/

namespace MultiSpeed.Network

open Providers Execution

structure NetworkInterface where
  name : String
  operational : Bool
  addresses : List String

structure RouteRow where
  device : String
  preferredSource : String
  source : String
  from_ : String
  gateway : String
  /-- The decoded value, printed. -/
  table : Option String

inductive CommandError where
  | exit (stderr : Text)
  | other (message : Text)

/-- The output of the `ip` command; its rows are `none` where it is no JSON list of
routes. -/
structure CommandOutput where
  length : ℕ
  rows : Option (List RouteRow)

structure TraceResponse where
  statusCode : ℕ
  body : Except Text Text

structure Answers where
  linux : Bool
  interfaces : List NetworkInterface
  newResolver : Except Text Unit
  lookupIPAddr : String → Except Text (List (BitVec 128))
  /-- `ip -j route get <target> from <source>` -/
  routeGet : String → String → Except CommandError CommandOutput
  newDialer : Except Text Unit
  trace : Except Text TraceResponse
  started : Time
  finished : Time

/-! ## Texts and addresses -/

/-- `strings.TrimSpace` -/
def trimmed (value : String) : String :=
  String.ofList ((trimSpace (value.toList.map Char.toNat)).map Char.ofNat)

/-- `strings.TrimSpace` of a list of characters. -/
def trimSpaces (s : List Char) : List Char := (trimmed (String.ofList s)).toList

/-- `strings.ContainsAny` -/
def containsAny (value : String) (chars : List Char) : Bool :=
  value.toList.any fun c ↦ decide (c ∈ chars)

/-- `strings.ToLower`, where `lower` is `unicode.ToLower`. -/
def toLower (lower : Char → Char) (value : String) : String := String.ofList (value.toList.map lower)

/-- `IP.IsUnspecified` -/
def isUnspecified (ip : BitVec 128) : Bool := ip.toNat = 0 || ip.toNat = 0xFFFF * 2 ^ 32

/-- `IP.IsMulticast` -/
def isMulticast (ip : BitVec 128) : Bool :=
  if isIPv4 ip then ip.toNat / 2 ^ 28 % 16 = 0xE else ip.toNat / 2 ^ 120 = 0xFF

def sanitizeText (value : Text) (limit : ℕ) : Text :=
  let kept := (decodeRunes value).filter fun rune ↦
    !(rune = 0 || rune < 32 && !(rune = 10 || rune = 9))
  let value := encodeRunes (trimSpace kept)
  if limit < value.length then value.take limit ++ utf8 "…" else value

/-! ## The interface snapshot -/

/-- The error of `ValidateSource`. -/
def validateSource (env : Env) (items : List NetworkInterface) (interfaceName sourceIP : String) :
    Option String :=
  if trimmed interfaceName = "" then some "network interface is required"
  else
    let unusable :=
      some ("source IP " ++ env.quote sourceIP ++ " is not a usable concrete address")
    match env.net.parseIP sourceIP with
    | none => unusable
    | some ip =>
        if isUnspecified ip || isMulticast ip then unusable
        else
          match items.find? fun item ↦ item.name = interfaceName with
          | none =>
              some ("network interface " ++ env.quote interfaceName ++ " does not exist")
          | some item =>
              if !item.operational then
                some ("network interface " ++ env.quote interfaceName ++ " is down")
              else if env.net.ipString ip ∈ item.addresses then none
              else
                some ("source IP " ++ env.quote sourceIP ++ " is not assigned to interface " ++
                  env.quote interfaceName)

/-! ## The route lookup -/

structure RouteLookup where
  device : String
  source : String
  gateway : String
  table : String

def parseRouteLookup (output : CommandOutput) : Except Text RouteLookup :=
  match output.rows with
  | some (row :: _) =>
      let table := row.table.getD ""
      let selectedSource :=
        if row.source ≠ "" then row.source
        else if row.from_ ≠ "" then row.from_
        else row.preferredSource
      .ok ⟨row.device, selectedSource, row.gateway, if table = "" then "main" else table⟩
  | _ => .error (utf8 "ip route returned malformed or empty JSON")

def maxRouteOutput : ℕ := 65536

def linuxRouteLookup (answers : Answers) (target source interfaceName : String) :
    Except Text RouteLookup :=
  let invalid (value : String) : Bool :=
    containsAny value [Char.ofNat 0, '\r', '\n'] || trimmed value ≠ value
  if invalid target then .error (utf8 "invalid target")
  else if invalid source then .error (utf8 "invalid source")
  else if invalid interfaceName then .error (utf8 "invalid interface")
  else
    match answers.routeGet target source with
    | .error (.exit stderr) =>
        .error (utf8 "ip route lookup failed: " ++ sanitizeText stderr 2048)
    | .error (.other message) => .error (utf8 "ip route lookup failed: " ++ message)
    | .ok output =>
        if maxRouteOutput < output.length then
          .error (utf8 "ip route output exceeded safety limit")
        else parseRouteLookup output

def resolveTarget (net : Net) (answers : Answers) (target source : String) :
    Except Text String :=
  let target := trimmed target
  match net.parseIP target with
  | some ip => .ok (net.ipString ip)
  | none =>
      if target = "" || 253 < target.utf8ByteSize ||
          containsAny target [' ', '/', '\\', Char.ofNat 0, '\r', '\n'] then
        .error (utf8 "validation target is not a valid hostname or IP")
      else
        match net.parseIP source with
        | none => .error (utf8 "source IP is invalid")
        | some sourceIP =>
            match answers.newResolver with
            | .error e => .error (utf8 "create source-bound resolver: " ++ e)
            | .ok _ =>
                match answers.lookupIPAddr target with
                | .error e =>
                    .error (utf8 "resolve validation target over selected source: " ++ e)
                | .ok addresses =>
                    match addresses.find? fun address ↦ isIPv4 sourceIP = isIPv4 address with
                    | some address => .ok (net.ipString address)
                    | none => .error
                        (utf8 "validation target has no address matching the selected IP family")

/-! ## Bound reachability -/

/-- `strings.Cut(line, "=")` -/
def cutLine (line : Text) : Option (Text × Text) :=
  if 61 ∈ line then
    some (line.takeWhile fun b ↦ b ≠ 61, (line.dropWhile fun b ↦ b ≠ 61).drop 1)
  else none

/-- The last value of a key in the body of the trace. -/
def traceValue (body : Text) (key : String) : Text :=
  (((body.splitOn 10).filterMap cutLine).filterMap fun line ↦
    if line.1 = utf8 key then some line.2 else none).getLastD []

def boundTrace (net : Net) (answers : Answers) (source : String) : Except Text (String × Text) :=
  match net.parseIP source with
  | none => .error (utf8 "invalid source address")
  | some _ =>
      match answers.newDialer with
      | .error e => .error (utf8 "create source-bound dialer: " ++ e)
      | .ok _ =>
          match answers.trace with
          | .error e => .error e
          | .ok response =>
              if response.statusCode ≠ 200 then
                .error (utf8 ("trace endpoint returned HTTP " ++ toString response.statusCode))
              else
                match response.body with
                | .error e => .error e
                | .ok data =>
                    let body := data.take 16384
                    let publicIP := decoded (traceValue body "ip")
                    match net.parseIP publicIP with
                    | none =>
                        .error (utf8 "trace endpoint did not return a valid public IP")
                    | some _ => .ok (publicIP, traceValue body "colo")

/-! ## The validation -/

def ipAddressesEqual (net : Net) (actual expected : String) : Bool :=
  match net.parseIP (trimmed actual), net.parseIP (trimmed expected) with
  | some actualIP, some expectedIP => actualIP = expectedIP
  | _, _ => false

def routingTableMatches (lower : Char → Char) (actual expected : String) : Bool :=
  let actual := trimmed (toLower lower actual)
  let expected := trimmed (toLower lower expected)
  actual = expected || (actual = "main" && expected = "254") ||
    (actual = "254" && expected = "main")

/-- The first check of the looked-up route that fails. -/
def routeMismatch (env : Env) (lower : Char → Char) (profile : RouteProfile)
    (route : RouteLookup) : Option String :=
  if route.device ≠ profile.interfaceName then
    some ("route selected interface " ++ env.quote route.device ++ " instead of " ++
      env.quote profile.interfaceName)
  -- two texts that are no addresses are equal to `IP.Equal`
  else if env.net.parseIP route.source ≠ env.net.parseIP profile.sourceIP then
    some ("route selected source " ++ env.quote route.source ++ " instead of " ++
      env.quote profile.sourceIP)
  else if profile.expectedGateway ≠ "" &&
      !ipAddressesEqual env.net route.gateway profile.expectedGateway then
    some ("route selected gateway " ++ env.quote route.gateway ++ " instead of " ++
      env.quote profile.expectedGateway)
  else if profile.expectedRoutingTable ≠ "" &&
      !routingTableMatches lower route.table profile.expectedRoutingTable then
    some ("route selected table " ++ env.quote route.table ++ " instead of " ++
      env.quote profile.expectedRoutingTable)
  else none

/-- `RouteValidator.Validate` -/
def validate (env : Env) (lower : Char → Char) (answers : Answers) (profile : RouteProfile) :
    RouteValidation :=
  let result : RouteValidation := {
    success := false
    interfaceName := profile.interfaceName
    sourceIP := profile.sourceIP
    gateway := ""
    routingTable := ""
    destination := profile.validationTarget
    detectedPublicIP := ""
    reachable := false
    durationMS := milliseconds answers.started answers.finished
    validatedAt := answers.started
    message := [] }
  match validateSource env answers.interfaces profile.interfaceName profile.sourceIP with
  | some message => { result with message := utf8 message }
  | none =>
      if !answers.linux then
        { result with message := utf8 "route lookup is supported only on Linux" }
      else
        match resolveTarget env.net answers profile.validationTarget profile.sourceIP with
        | .error e => { result with message := e }
        | .ok target =>
            match linuxRouteLookup answers target profile.sourceIP profile.interfaceName with
            | .error e => { result with destination := target, message := e }
            | .ok route =>
                let result := { result with
                  destination := target
                  interfaceName := route.device
                  sourceIP := route.source
                  gateway := route.gateway
                  routingTable := route.table }
                match routeMismatch env lower profile route with
                | some message => { result with message := utf8 message }
                | none =>
                    match boundTrace env.net answers profile.sourceIP with
                    | .error e => { result with
                        message :=
                          utf8 "route lookup passed but bound reachability failed: " ++ e }
                    | .ok (publicIP, colo) => { result with
                        detectedPublicIP := publicIP
                        reachable := true
                        success := true
                        message := utf8 ("selected interface, source address, route, and " ++
                            "public reachability validated") ++
                          if colo = [] then [] else utf8 "; Cloudflare colo " ++ colo }

/-! ## What a validation shows -/

variable {env : Env} {lower : Char → Char} {answers : Answers} {profile : RouteProfile}

/-- The source is an address of the operational interface with the name. -/
structure Assigned (env : Env) (items : List NetworkInterface) (interfaceName : String)
    (ip : BitVec 128) : Prop where
  interface : ∃ item, items.find? (fun item ↦ item.name = interfaceName) = some item ∧
    item.operational = true ∧ env.net.ipString ip ∈ item.addresses
  concrete : isUnspecified ip = false ∧ isMulticast ip = false

theorem validateSource_none {items : List NetworkInterface} {interfaceName sourceIP : String}
    (h : validateSource env items interfaceName sourceIP = none) :
    ∃ ip, env.net.parseIP sourceIP = some ip ∧ Assigned env items interfaceName ip := by
  unfold validateSource at h
  split at h
  · cases h
  · dsimp only at h
    split at h
    · cases h
    · rename_i ip hip
      split at h
      · cases h
      · rename_i hconcrete
        split at h
        · cases h
        · rename_i item hitem
          split at h
          · cases h
          · rename_i hup
            split at h
            · rename_i hassigned
              refine ⟨ip, hip, ⟨item, hitem, by simpa using hup, hassigned⟩, ?_⟩
              simpa using hconcrete
            · cases h

/-- The route leaves through the interface, from the address, and as expected. -/
structure Selected (env : Env) (lower : Char → Char) (profile : RouteProfile)
    (route : RouteLookup) : Prop where
  device : route.device = profile.interfaceName
  source : env.net.parseIP route.source = env.net.parseIP profile.sourceIP
  gateway : profile.expectedGateway ≠ "" →
    ipAddressesEqual env.net route.gateway profile.expectedGateway = true
  table : profile.expectedRoutingTable ≠ "" →
    routingTableMatches lower route.table profile.expectedRoutingTable = true

theorem routeMismatch_none {route : RouteLookup}
    (h : routeMismatch env lower profile route = none) : Selected env lower profile route := by
  unfold routeMismatch at h
  split at h
  · cases h
  · rename_i hdevice
    split at h
    · cases h
    · rename_i hsource
      split at h
      · cases h
      · rename_i hgateway
        split at h
        · cases h
        · rename_i htable
          exact ⟨by simpa using hdevice, by simpa using hsource, by simpa using hgateway,
            by simpa using htable⟩

/-- What a successful validation of a profile has seen. -/
structure Validated (env : Env) (lower : Char → Char) (answers : Answers)
    (profile : RouteProfile) : Prop where
  assigned : ∃ ip, env.net.parseIP profile.sourceIP = some ip ∧
    Assigned env answers.interfaces profile.interfaceName ip
  selected : ∃ target route,
    resolveTarget env.net answers profile.validationTarget profile.sourceIP = .ok target ∧
    linuxRouteLookup answers target profile.sourceIP profile.interfaceName = .ok route ∧
    Selected env lower profile route
  reachable : ∃ trace, boundTrace env.net answers profile.sourceIP = .ok trace

theorem validated_of_success (h : (validate env lower answers profile).success = true) :
    Validated env lower answers profile := by
  unfold validate at h
  dsimp only at h
  split at h
  · cases h
  · rename_i hsource
    split at h
    · cases h
    · split at h
      · cases h
      · rename_i target htarget
        split at h
        · cases h
        · rename_i route hroute
          split at h
          · cases h
          · rename_i hmatch
            split at h
            · cases h
            · rename_i publicIP colo htrace
              exact ⟨validateSource_none hsource,
                ⟨target, route, htarget, hroute, routeMismatch_none hmatch⟩, _, htrace⟩

end MultiSpeed.Network
