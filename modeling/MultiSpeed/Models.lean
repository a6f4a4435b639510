import Mathlib.Algebra.Group.Nat.Defs
import Mathlib.Data.Rat.Defs
import Mathlib.Tactic.Common

/-!
# The persisted data model

The records of `internal/models`.  An instant is its number of nanoseconds
since the Unix epoch; the zone a Go time value is displayed in is not part of
it, since every persisted instant is written and read in UTC.  A `map[string]any`
is an optional JSON object, `none` being the nil map.
-/

namespace MultiSpeed

/-- Nanoseconds since 1970-01-01T00:00:00Z. -/
abbrev Time := ℤ

/-- The bytes of a Go string.  Used for the texts that byte-level truncation
can cut inside a character; all other texts are decoded UTF-8. -/
abbrev Text := List UInt8

/-- The bytes of a string constant. -/
def utf8 (s : String) : Text := s.toList.flatMap String.utf8EncodeChar

/-- A `float64`: a finite value, an infinity or NaN.  Only comparisons of such
values are used. -/
inductive Float64 where
  | finite (value : ℚ)
  | infinity (negative : Bool)
  | nan
  deriving DecidableEq, Repr

namespace Float64

/-- `f < q` for a finite constant `q`; every comparison with NaN is false. -/
def lt : Float64 → ℚ → Bool
  | .finite value, q => decide (value < q)
  | .infinity negative, _ => negative
  | .nan, _ => false

/-- `q < f`. -/
def gt : Float64 → ℚ → Bool
  | .finite value, q => decide (q < value)
  | .infinity negative, _ => !negative
  | .nan, _ => false

/-- `math.IsNaN`. -/
def isNaN : Float64 → Bool
  | .nan => true
  | _ => false

/-- `math.IsInf(f, 0)`. -/
def isInf : Float64 → Bool
  | .infinity _ => true
  | _ => false

end Float64

/-- A value of an `any` that JSON can carry.  `nonFinite` is a NaN or an
infinity, which `json.Marshal` refuses. -/
inductive Json where
  | null
  | bool (value : Bool)
  | number (value : ℚ)
  | nonFinite
  | string (value : String)
  /-- A `time.Time`; years outside 0 to 9999 are refused. -/
  | time (value : Time)
  | array (items : List Json)
  | object (fields : List (String × Json))

/-- The fields of a JSON object. -/
abbrev JsonObject := List (String × Json)

mutual

/-- `json.Marshal` succeeds. -/
def Json.encodable : Json → Bool
  | .nonFinite => false
  | .time value => decide (-62167219200000000000 ≤ value ∧ value < 253402300800000000000)
  | .array items => Json.encodableItems items
  | .object fields => Json.encodableFields fields
  | _ => true

def Json.encodableItems : List Json → Bool
  | [] => true
  | item :: rest => item.encodable && Json.encodableItems rest

def Json.encodableFields : JsonObject → Bool
  | [] => true
  | (_, item) :: rest => item.encodable && Json.encodableFields rest

end

/-- `json.Marshal` of a `map[string]any` succeeds; a nil map is written `null`. -/
def encodableMap : Option JsonObject → Bool
  | none => true
  | some fields => Json.encodableFields fields

inductive ProviderID where
  | ookla
  | librespeed
  | cloudflare
  /-- Any other text a request may carry. -/
  | other (name : String)
  deriving DecidableEq, Repr

inductive ResultStatus where
  | queued
  | validating
  | running
  | succeeded
  | failed
  | skipped
  | cancelled
  deriving DecidableEq, Repr

namespace ResultStatus

/-- `status IN ('queued','validating','running')`. -/
def active : ResultStatus → Bool
  | queued | validating | running => true
  | succeeded | failed | skipped | cancelled => false

/-- `status IN ('succeeded','failed','skipped','cancelled')`. -/
def terminal : ResultStatus → Bool
  | succeeded | failed | skipped | cancelled => true
  | queued | validating | running => false

theorem active_eq_false_iff {status : ResultStatus} :
    status.active = false ↔ status.terminal = true := by
  cases status <;> simp [active, terminal]

end ResultStatus

inductive TriggerType where
  | manual
  | scheduled
  deriving DecidableEq, Repr

/-- A row of `tasks`. -/
structure Task where
  id : String
  name : Text
  description : String
  enabled : Bool
  provider : ProviderID
  cronExpression : String
  timezone : String
  randomJitterSeconds : ℤ
  serverSelectionMode : String
  serverID : String
  serverURL : String
  customServerDefinition : Option JsonObject
  interfaceName : String
  sourceIP : String
  ipFamily : String
  routeProfileID : Option String
  timeoutSeconds : ℤ
  providerOptions : Option JsonObject
  preventOverlap : Bool
  routeValidation : String
  createdAt : Time
  updatedAt : Time
  lastScheduledAt : Option Time
  nextScheduledAt : Option Time
  deletedAt : Option Time

/-- `deleted_at IS NULL`. -/
def Task.live (task : Task) : Bool := task.deletedAt.isNone

/-- The exported fields of a task. -/
structure ConfigurationTask where
  id : String
  name : Text
  description : String
  enabled : Bool
  provider : ProviderID
  cronExpression : String
  timezone : String
  randomJitterSeconds : ℤ
  serverSelectionMode : String
  serverID : String
  serverURL : String
  customServerDefinition : Option JsonObject
  interfaceName : String
  sourceIP : String
  ipFamily : String
  routeProfileID : Option String
  timeoutSeconds : ℤ
  providerOptions : Option JsonObject
  preventOverlap : Bool
  routeValidation : String

/-- `ConfigurationTaskFrom`. -/
def ConfigurationTask.from (task : Task) : ConfigurationTask where
  id := task.id
  name := task.name
  description := task.description
  enabled := task.enabled
  provider := task.provider
  cronExpression := task.cronExpression
  timezone := task.timezone
  randomJitterSeconds := task.randomJitterSeconds
  serverSelectionMode := task.serverSelectionMode
  serverID := task.serverID
  serverURL := task.serverURL
  customServerDefinition := task.customServerDefinition
  interfaceName := task.interfaceName
  sourceIP := task.sourceIP
  ipFamily := task.ipFamily
  routeProfileID := task.routeProfileID
  timeoutSeconds := task.timeoutSeconds
  providerOptions := task.providerOptions
  preventOverlap := task.preventOverlap
  routeValidation := task.routeValidation

/-- A row of `route_profiles`. -/
structure RouteProfile where
  id : String
  name : String
  description : String
  interfaceName : String
  sourceIP : String
  expectedGateway : String
  expectedRoutingTable : String
  validationTarget : String
  notes : String
  createdAt : Time
  updatedAt : Time
  lastValidationAt : Option Time
  lastValidationSucceeded : Option Bool
  lastValidationSnapshot : Option JsonObject
  deletedAt : Option Time

/-- `deleted_at IS NULL`. -/
def RouteProfile.live (profile : RouteProfile) : Bool := profile.deletedAt.isNone

/-- The answer of a route validation. -/
structure RouteValidation where
  success : Bool
  interfaceName : String
  sourceIP : String
  gateway : String
  routingTable : String
  destination : String
  detectedPublicIP : String
  reachable : Bool
  durationMS : ℤ
  validatedAt : Time
  message : Text

/-- A row of `results`. -/
structure Result where
  id : String
  taskID : String
  routeProfileID : Option String
  trigger : TriggerType
  provider : ProviderID
  queuedAt : Time
  scheduledAt : Option Time
  startedAt : Option Time
  finishedAt : Option Time
  status : ResultStatus
  downloadBitsPerSecond : Option ℤ
  uploadBitsPerSecond : Option ℤ
  latencyMilliseconds : Option Float64
  jitterMilliseconds : Option Float64
  packetLossPercent : Option Float64
  downloadBytes : Option ℤ
  uploadBytes : Option ℤ
  selectedInterface : String
  selectedSourceIP : String
  detectedPublicIP : String
  serverID : String
  serverName : String
  serverHost : String
  serverSponsor : String
  serverLocation : String
  serverCountry : String
  providerResultURL : String
  cloudflareColo : String
  routeValidationSnapshot : Option JsonObject
  executionDurationMS : ℤ
  processExitCode : Option ℤ
  sanitizedError : Text
  rawProviderResponse : Text
  providerVersion : String
  applicationVersion : String
  tlsVerificationDisabled : Bool

/-- The row of `settings`.  The last three fields are the separately managed
Ookla acknowledgement. -/
structure Settings where
  displayUnits : String
  defaultTimezone : String
  globalConcurrency : ℤ
  allowSeparateWANConcurrency : Bool
  retentionMode : String
  retentionValue : ℤ
  defaultChartRange : String
  interfaceRefreshInterval : ℤ
  defaultTaskTimeout : ℤ
  databaseMaintenanceSchedule : String
  ooklaEULAAccepted : Bool
  ooklaEULAAcceptedAt : Option Time
  ooklaEULAVersion : Option String

/-- The exported fields of a route profile. -/
structure ConfigurationRouteProfile where
  id : String
  name : String
  description : String
  interfaceName : String
  sourceIP : String
  expectedGateway : String
  expectedRoutingTable : String
  validationTarget : String
  notes : String

/-- `ConfigurationRouteProfileFrom`. -/
def ConfigurationRouteProfile.from (profile : RouteProfile) : ConfigurationRouteProfile where
  id := profile.id
  name := profile.name
  description := profile.description
  interfaceName := profile.interfaceName
  sourceIP := profile.sourceIP
  expectedGateway := profile.expectedGateway
  expectedRoutingTable := profile.expectedRoutingTable
  validationTarget := profile.validationTarget
  notes := profile.notes

/-- The ten portable settings. -/
structure ConfigurationSettings where
  displayUnits : String
  defaultTimezone : String
  globalConcurrency : ℤ
  allowSeparateWANConcurrency : Bool
  retentionMode : String
  retentionValue : ℤ
  defaultChartRange : String
  interfaceRefreshInterval : ℤ
  defaultTaskTimeout : ℤ
  databaseMaintenanceSchedule : String

/-- `ConfigurationSettingsFrom`. -/
def ConfigurationSettings.from (settings : Settings) : ConfigurationSettings where
  displayUnits := settings.displayUnits
  defaultTimezone := settings.defaultTimezone
  globalConcurrency := settings.globalConcurrency
  allowSeparateWANConcurrency := settings.allowSeparateWANConcurrency
  retentionMode := settings.retentionMode
  retentionValue := settings.retentionValue
  defaultChartRange := settings.defaultChartRange
  interfaceRefreshInterval := settings.interfaceRefreshInterval
  defaultTaskTimeout := settings.defaultTaskTimeout
  databaseMaintenanceSchedule := settings.databaseMaintenanceSchedule

end MultiSpeed
