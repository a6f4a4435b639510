import MultiSpeed.Database.Results
import MultiSpeed.Providers.Output

/-!
# What a run computes

The pure parts of `internal/execution`: the effective route profile of a task,
the metrics taken over from a provider, and the result rows a run writes.  The
networking library is a parameter: `parseIP` and the text of an address.
-/

namespace MultiSpeed.Execution

open Database Providers

/-- `net.ParseIP`, whose addresses have 16 bytes, and `IP.String`. -/
structure Net where
  parseIP : String → Option (BitVec 128)
  ipString : BitVec 128 → String

/-- `IP.To4` is not nil: an address in `::ffff:0:0/96`. -/
def isIPv4 (ip : BitVec 128) : Bool := ip.toNat / 2 ^ 32 = 0xFFFF

variable (net : Net)

def sameIP (first second : String) : Bool :=
  match net.parseIP first, net.parseIP second with
  | some firstIP, some secondIP => firstIP = secondIP
  | _, _ => false

def familyValidationTarget (source : String) : String :=
  match net.parseIP source with
  | some ip => if !isIPv4 ip then "2606:4700:4700::1111" else "1.1.1.1"
  | none => "1.1.1.1"

def wanPathKey (interfaceName sourceIP : String) : String :=
  let sourceIP := match net.parseIP sourceIP with
    | some parsed => net.ipString parsed
    | none => sourceIP
  interfaceName ++ "\x00" ++ sourceIP

/-- `cloneOptions`: a nil map becomes an empty one. -/
def cloneOptions (source : Option JsonObject) : Option JsonObject := some (source.getD [])

/-- `RouteProfileForTask`. -/
def routeProfileForTask (task : Task) (stored : Option RouteProfile) :
    Except String RouteProfile :=
  let profile : Except String RouteProfile :=
    match task.routeProfileID with
    | none =>
        .ok {
          id := ""
          name := ""
          description := ""
          interfaceName := task.interfaceName
          sourceIP := task.sourceIP
          expectedGateway := ""
          expectedRoutingTable := ""
          validationTarget := familyValidationTarget net task.sourceIP
          notes := ""
          createdAt := zeroTime
          updatedAt := zeroTime
          lastValidationAt := none
          lastValidationSucceeded := none
          lastValidationSnapshot := none
          deletedAt := none }
    | some id =>
        match stored with
        | none => .error "the selected route profile no longer exists"
        | some profile =>
            if profile.id ≠ id then .error "the selected route profile no longer exists"
            else if profile.interfaceName ≠ task.interfaceName ∨
                !sameIP net profile.sourceIP task.sourceIP then
              .error "the route profile interface/source does not match the task"
            else .ok profile
  match profile with
  | .error e => .error e
  | .ok profile =>
      if task.routeValidation = "interface-only" then
        .ok { profile with expectedGateway := "", expectedRoutingTable := "" }
      else .ok profile

/-- `routeSnapshot`. -/
def routeSnapshot (value : RouteValidation) : JsonObject :=
  [("success", .bool value.success), ("interfaceName", .string value.interfaceName),
    ("sourceIp", .string value.sourceIP), ("gateway", .string value.gateway),
    ("routingTable", .string value.routingTable), ("destination", .string value.destination),
    ("detectedPublicIp", .string value.detectedPublicIP), ("reachable", .bool value.reachable),
    ("durationMs", .number value.durationMS), ("validatedAt", .time value.validatedAt),
    ("message", .string (decoded value.message))]

/-! ## Provider results -/

structure ProviderServer where
  id : String
  name : String
  host : String
  sponsor : String
  location : String
  country : String

structure ProviderResult where
  downloadBitsPerSecond : Option ℤ
  uploadBitsPerSecond : Option ℤ
  latencyMilliseconds : Option Float64
  jitterMilliseconds : Option Float64
  packetLossPercent : Option Float64
  downloadBytes : Option ℤ
  uploadBytes : Option ℤ
  publicIP : String
  server : ProviderServer
  resultURL : String
  cloudflareColo : String
  durationMilliseconds : ℤ
  exitCode : Option ℤ
  rawResponse : Text
  providerVersion : String
  tlsVerificationDisabled : Bool

def negative (metric : Option ℤ) : Bool := metric.any fun v ↦ decide (v < 0)

def notFiniteNonNegative (metric : Option Float64) : Bool :=
  metric.any fun v ↦ v.lt 0 || v.isNaN || v.isInf

def outsidePercent (metric : Option Float64) : Bool :=
  metric.any fun v ↦ v.lt 0 || v.gt 100 || v.isNaN || v.isInf

/-- `validateProviderResult`.  The loops range over maps, so that `choice` says
which of several offending metrics is named. -/
def validateProviderResult (choice : ℕ) (value : ProviderResult) : Option String :=
  let integers :=
    [("download throughput", value.downloadBitsPerSecond),
      ("upload throughput", value.uploadBitsPerSecond), ("download bytes", value.downloadBytes),
      ("upload bytes", value.uploadBytes)].filter fun metric ↦ negative metric.2
  let floats :=
    [("latency", value.latencyMilliseconds), ("jitter", value.jitterMilliseconds)].filter
      fun metric ↦ notFiniteNonNegative metric.2
  match integers[choice % integers.length]? with
  | some metric => some (metric.1 ++ " is negative")
  | none =>
      match floats[choice % floats.length]? with
      | some metric => some (metric.1 ++ " is not a finite non-negative number")
      | none =>
          if outsidePercent value.packetLossPercent then
            some "packet loss is outside 0 through 100 percent"
          else if value.durationMilliseconds < 0 then some "execution duration is negative"
          else if value.downloadBitsPerSecond.isNone || value.uploadBitsPerSecond.isNone ||
              value.latencyMilliseconds.isNone then
            some "download, upload, and latency metrics are required"
          else none

/-- `safePartialProviderResult`. -/
def safePartialProviderResult (value : ProviderResult) : ProviderResult :=
  { value with
    downloadBitsPerSecond :=
      if negative value.downloadBitsPerSecond then none else value.downloadBitsPerSecond
    uploadBitsPerSecond :=
      if negative value.uploadBitsPerSecond then none else value.uploadBitsPerSecond
    downloadBytes := if negative value.downloadBytes then none else value.downloadBytes
    uploadBytes := if negative value.uploadBytes then none else value.uploadBytes
    latencyMilliseconds :=
      if notFiniteNonNegative value.latencyMilliseconds then none else value.latencyMilliseconds
    jitterMilliseconds :=
      if notFiniteNonNegative value.jitterMilliseconds then none else value.jitterMilliseconds
    packetLossPercent :=
      if outsidePercent value.packetLossPercent then none else value.packetLossPercent
    durationMilliseconds :=
      if value.durationMilliseconds < 0 then 0 else value.durationMilliseconds }

/-- `applyProviderResult`. -/
def applyProviderResult (result : Result) (value : ProviderResult) : Result :=
  { result with
    downloadBitsPerSecond := value.downloadBitsPerSecond
    uploadBitsPerSecond := value.uploadBitsPerSecond
    latencyMilliseconds := value.latencyMilliseconds
    jitterMilliseconds := value.jitterMilliseconds
    packetLossPercent := value.packetLossPercent
    downloadBytes := value.downloadBytes
    uploadBytes := value.uploadBytes
    detectedPublicIP :=
      if value.publicIP ≠ "" then value.publicIP else result.detectedPublicIP
    serverID := value.server.id
    serverName := value.server.name
    serverHost := value.server.host
    serverSponsor := value.server.sponsor
    serverLocation := value.server.location
    serverCountry := value.server.country
    providerResultURL := value.resultURL
    cloudflareColo := value.cloudflareColo
    executionDurationMS := value.durationMilliseconds
    processExitCode := value.exitCode
    rawProviderResponse := sanitizeOutput value.rawResponse maxStoredOutput
    providerVersion := value.providerVersion
    tlsVerificationDisabled := value.tlsVerificationDisabled }

/-! ## Results -/

/-- `second.Sub(first).Milliseconds()`. -/
def milliseconds (first second : Time) : ℤ := (second - first).tdiv 1000000

/-- The row `Queue` creates; `version` is the version of the application. -/
def queuedResult (version : String) (task : Task) (trigger : TriggerType)
    (scheduledAt : Option Time) (queuedAt : Time) : Result where
  id := ""
  taskID := task.id
  routeProfileID := task.routeProfileID
  trigger := trigger
  provider := task.provider
  queuedAt := queuedAt
  scheduledAt := scheduledAt
  startedAt := none
  finishedAt := none
  status := .queued
  downloadBitsPerSecond := none
  uploadBitsPerSecond := none
  latencyMilliseconds := none
  jitterMilliseconds := none
  packetLossPercent := none
  downloadBytes := none
  uploadBytes := none
  selectedInterface := task.interfaceName
  selectedSourceIP := task.sourceIP
  detectedPublicIP := ""
  serverID := ""
  serverName := ""
  serverHost := ""
  serverSponsor := ""
  serverLocation := ""
  serverCountry := ""
  providerResultURL := ""
  cloudflareColo := ""
  routeValidationSnapshot := some []
  executionDurationMS := 0
  processExitCode := none
  sanitizedError := []
  rawProviderResponse := []
  providerVersion := ""
  applicationVersion := version
  tlsVerificationDisabled := false

/-- The changes both ways of skipping in `Queue` make. -/
def skippedResult (result : Result) (finished : Time) (message : String) : Result :=
  { result with
    status := .skipped
    finishedAt := some finished
    sanitizedError := utf8 message }

/-- The changes of `finishFailure`. -/
def failedResult (result : Result) (status : ResultStatus) (message : Text) (now : Time) :
    Result :=
  { result with
    finishedAt := some now
    status := status
    sanitizedError := sanitizeOutput message 8192
    executionDurationMS :=
      match result.startedAt with
      | some started =>
          if result.executionDurationMS = 0 then milliseconds started now
          else result.executionDurationMS
      | none => result.executionDurationMS }

/-- The changes of a successful end. -/
def succeededResult (result : Result) (started finished : Time) : Result :=
  { result with
    finishedAt := some finished
    status := .succeeded
    executionDurationMS :=
      if result.executionDurationMS = 0 then milliseconds started finished
      else result.executionDurationMS }

/-- The text of a duration of whole seconds. -/
def durationText (seconds : ℤ) : String :=
  if seconds < 60 then toString seconds ++ "s"
  else if seconds < 3600 then
    toString (seconds / 60) ++ "m" ++ toString (seconds % 60) ++ "s"
  else
    toString (seconds / 3600) ++ "h" ++ toString (seconds / 60 % 60) ++ "m" ++
      toString (seconds % 60) ++ "s"

end MultiSpeed.Execution
