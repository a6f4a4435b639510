import MultiSpeed.Api.Handlers
import MultiSpeed.Database.Replacement
import MultiSpeed.Database.Routes
import MultiSpeed.Execution.FailClosed

/-!
# Defaults and checks of requests

The inputs of `internal/api`, the defaults they get and the checks they pass:
`tasks.go`, `routes.go`, `settings_system.go` and the document of
`configuration.go`.  The reads a check makes of the store are in the handlers.
-/

namespace MultiSpeed.Api

open Database Execution Network

/-- What the checks rely on of `net.ParseIP` and `IP.String`: the text of an address
parses to the address, and has no white space around it. -/
structure LawfulNet (net : Net) : Prop where
  parseIP_ipString : ∀ ip, net.parseIP (net.ipString ip) = some ip
  trimmed_ipString : ∀ ip, trimmed (net.ipString ip) = net.ipString ip

/-- What requests are checked against beside the store. -/
structure Host where
  execution : Execution.Env
  lawful : LawfulNet execution.net
  /-- `unicode.ToLower` -/
  lower : Char → Char
  zones : Scheduling.Env
  /-- `Registry.Get`, and the error of the provider's `Validate` with the configured
  allowlist. -/
  provider : ProviderID → Option (TestTarget → Option String)
  /-- `uuid.Validate` finds no error. -/
  isUUID : String → Bool

namespace Host

def net (host : Host) : Net := host.execution.net

def quote (host : Host) : String → String := host.execution.quote

end Host

/-- The error of a check. -/
inductive Rejection where
  | text (message : String)
  /-- The error of `time.LoadLocation`. -/
  | location (name : String)
  /-- The error of the cron parser. -/
  | expression (text : String)
  | provider (id : ProviderID)
  | store (cause : StoreError)
  /-- `label: cause` -/
  | within (label : String) (cause : Rejection)

/-! ## Texts -/

/-- The encodings of the runes of a text. -/
def runeTexts (text : Text) : List Text := go text.length text
where
  go : ℕ → Text → List Text
    | 0, _ => []
    | _ + 1, [] => []
    | fuel + 1, b :: rest =>
        let width := (Providers.decodeRune (b :: rest)).2
        (b :: rest).take width :: go fuel ((b :: rest).drop width)

/-- `strings.TrimSpace` of a text that need not be valid UTF-8. -/
def trimText (text : Text) : Text :=
  let blank (rune : Text) : Bool := Providers.isSpace (Providers.decodeRune rune).1
  (((runeTexts text).dropWhile blank).reverse.dropWhile blank).reverse.flatten

/-! ## Tasks -/

/-- The body of a task request.  `routeProfileID` is `none` where the field is absent,
a map where it is absent or null. -/
structure TaskInput where
  name : String
  description : Option String
  enabled : Bool
  provider : ProviderID
  cronExpression : Option String
  timezone : Option String
  randomJitterSeconds : Option ℤ
  serverSelectionMode : Option String
  serverID : Option String
  serverURL : Option String
  customServerDefinition : Option JsonObject
  interfaceName : String
  sourceIP : String
  ipFamily : Option String
  routeProfileID : Option (Option String)
  timeoutSeconds : Option ℤ
  providerOptions : Option JsonObject
  preventOverlap : Option Bool
  routeValidation : Option String

/-- `taskInput.model` -/
def TaskInput.model (input : TaskInput) (existing : Option Task) : Task where
  id := ""
  name := utf8 input.name
  description := input.description.getD ((existing.map Task.description).getD "")
  enabled := input.enabled
  provider := input.provider
  cronExpression := input.cronExpression.getD ((existing.map Task.cronExpression).getD "")
  timezone := input.timezone.getD ((existing.map Task.timezone).getD "")
  randomJitterSeconds :=
    input.randomJitterSeconds.getD ((existing.map Task.randomJitterSeconds).getD 0)
  serverSelectionMode :=
    input.serverSelectionMode.getD ((existing.map Task.serverSelectionMode).getD "")
  serverID := input.serverID.getD ((existing.map Task.serverID).getD "")
  serverURL := input.serverURL.getD ((existing.map Task.serverURL).getD "")
  customServerDefinition :=
    input.customServerDefinition.or (existing.bind Task.customServerDefinition)
  interfaceName := input.interfaceName
  sourceIP := input.sourceIP
  ipFamily := input.ipFamily.getD ((existing.map Task.ipFamily).getD "")
  routeProfileID := input.routeProfileID.getD (existing.bind Task.routeProfileID)
  timeoutSeconds := input.timeoutSeconds.getD ((existing.map Task.timeoutSeconds).getD 0)
  providerOptions := input.providerOptions.or (existing.bind Task.providerOptions)
  preventOverlap := input.preventOverlap.getD ((existing.map Task.preventOverlap).getD true)
  routeValidation := input.routeValidation.getD ((existing.map Task.routeValidation).getD "")
  createdAt := zeroTime
  updatedAt := zeroTime
  lastScheduledAt := none
  nextScheduledAt := none
  deletedAt := none

def applyTaskDefaults (task : Task) (settings : Settings) : Task :=
  { task with
    name := trimText task.name
    description := trimmed task.description
    interfaceName := trimmed task.interfaceName
    sourceIP := trimmed task.sourceIP
    serverID := trimmed task.serverID
    serverURL := trimmed task.serverURL
    cronExpression := if task.cronExpression = "" then "0 * * * *" else task.cronExpression
    timezone := if task.timezone = "" then settings.defaultTimezone else task.timezone
    serverSelectionMode :=
      if task.serverSelectionMode = "" then "automatic" else task.serverSelectionMode
    ipFamily := if task.ipFamily = "" then "auto" else task.ipFamily
    timeoutSeconds :=
      if task.timeoutSeconds = 0 then settings.defaultTaskTimeout else task.timeoutSeconds
    routeValidation := if task.routeValidation = "" then "required" else task.routeValidation
    customServerDefinition := some (task.customServerDefinition.getD [])
    providerOptions := some (task.providerOptions.getD []) }

def validateInterfaceName (value : String) : Option Rejection :=
  if value.utf8ByteSize < 1 ∨ 64 < value.utf8ByteSize ∨ '/' ∈ value.toList ∨
      Char.ofNat 0 ∈ value.toList ∨ value.toList.any (fun c ↦ Providers.isSpace c.toNat) then
    some (.text
      "interface name must contain between 1 and 64 non-whitespace characters without slashes")
  else none

/-- `validateTaskFields`: the address of the task, and the task with its canonical
spelling. -/
def validateTaskFields (net : Net) (task : Task) : Except Rejection (BitVec 128 × Task) :=
  if task.name.length < 1 ∨ 120 < task.name.length then
    .error (.text "name must contain between 1 and 120 characters")
  else if 4000 < task.description.utf8ByteSize then
    .error (.text "description must not exceed 4000 characters")
  else
    match validateInterfaceName task.interfaceName with
    | some e => .error e
    | none =>
        if task.randomJitterSeconds < 0 ∨ 3600 < task.randomJitterSeconds then
          .error (.text "random start jitter must be between 0 and 3600 seconds")
        else if task.timeoutSeconds < 5 ∨ 3600 < task.timeoutSeconds then
          .error (.text "timeout must be between 5 and 3600 seconds")
        else if task.ipFamily ≠ "auto" ∧ task.ipFamily ≠ "ipv4" ∧ task.ipFamily ≠ "ipv6" then
          .error (.text "IP family must be auto, ipv4, or ipv6")
        else if task.routeValidation ≠ "required" ∧ task.routeValidation ≠ "interface-only" then
          .error (.text "route validation must be required or interface-only")
        else
          match net.parseIP task.sourceIP with
          | none => .error (.text "source IP is invalid")
          | some ip =>
              if task.ipFamily = "ipv4" ∧ isIPv4 ip = false then
                .error (.text "source IP is not IPv4")
              else if task.ipFamily = "ipv6" ∧ isIPv4 ip = true then
                .error (.text "source IP is not IPv6")
              else .ok (ip, { task with sourceIP := net.ipString ip })

/-- `NextRuns` with five runs. -/
def nextRunsRejection (host : Host) (task : Task) : Option Rejection :=
  match host.zones.loadLocation task.timezone with
  | none => some (.location task.timezone)
  | some _ =>
      match host.zones.parse task.cronExpression with
      | none => some (.expression task.cronExpression)
      | some _ => none

def taskTarget (task : Task) : TestTarget :=
  ⟨task.serverSelectionMode, task.serverID, task.serverURL, task.customServerDefinition⟩

def validateTaskTargetAndSchedule (host : Host) (task : Task) : Option Rejection :=
  match nextRunsRejection host task with
  | some e => some e
  | none =>
      match host.provider task.provider with
      | none => some (.provider task.provider)
      | some check => (check (taskTarget task)).map .text

/-! ## Route profiles -/

structure RouteProfileInput where
  name : String
  description : String
  interfaceName : String
  sourceIP : String
  expectedGateway : String
  expectedRoutingTable : String
  validationTarget : String
  notes : String

/-- `routeProfileInput.model` -/
def RouteProfileInput.model (input : RouteProfileInput) : RouteProfile where
  id := ""
  name := input.name
  description := input.description
  interfaceName := input.interfaceName
  sourceIP := input.sourceIP
  expectedGateway := input.expectedGateway
  expectedRoutingTable := input.expectedRoutingTable
  validationTarget := input.validationTarget
  notes := input.notes
  createdAt := zeroTime
  updatedAt := zeroTime
  lastValidationAt := none
  lastValidationSucceeded := none
  lastValidationSnapshot := some []
  deletedAt := none

/-- `applyRouteDefaults`; `validationTarget` of the source is `familyValidationTarget`. -/
def applyRouteDefaults (net : Net) (profile : RouteProfile) : RouteProfile :=
  { profile with
    name := trimmed profile.name
    description := trimmed profile.description
    interfaceName := trimmed profile.interfaceName
    sourceIP := trimmed profile.sourceIP
    expectedGateway := trimmed profile.expectedGateway
    expectedRoutingTable := trimmed profile.expectedRoutingTable
    validationTarget :=
      if trimmed profile.validationTarget = "" then
        familyValidationTarget net (trimmed profile.sourceIP)
      else trimmed profile.validationTarget
    notes := trimmed profile.notes
    lastValidationSnapshot := some (profile.lastValidationSnapshot.getD []) }

def isDigit (c : Char) : Bool := decide ('0' ≤ c ∧ c ≤ '9')

def isLetter (c : Char) : Bool := decide ('A' ≤ c ∧ c ≤ 'Z' ∨ 'a' ≤ c ∧ c ≤ 'z')

/-- `^[0-9]{1,10}$` -/
def isTableNumber (value : String) : Bool :=
  value.toList.all isDigit && decide (1 ≤ value.length ∧ value.length ≤ 10)

/-- `^[A-Za-z][A-Za-z0-9_.-]{0,63}$` -/
def isTableName (value : String) : Bool :=
  match value.toList with
  | [] => false
  | first :: rest =>
      isLetter first && decide (rest.length ≤ 63) &&
        rest.all fun c ↦ isLetter c || isDigit c || decide (c ∈ ['_', '.', '-'])

/-- The value of a list of digits. -/
def digitsValue (digits : List Char) : ℕ :=
  digits.foldl (fun value c ↦ 10 * value + (c.toNat - '0'.toNat)) 0

def validateRoutingTableToken (value : String) : Option Rejection :=
  if value = "" then none
  else if 64 < value.utf8ByteSize then
    some (.text "expected routing table must not exceed 64 characters")
  else if isTableNumber value then
    if 4294967295 < digitsValue value.toList then
      some (.text "numeric routing table ID must be between 0 and 4294967295")
    else none
  else if isTableName value then none
  else some (.text "expected routing table must be a numeric ID or a safe Linux table name")

def validateRouteFields (net : Net) (profile : RouteProfile) : Option Rejection :=
  if profile.name.utf8ByteSize < 1 ∨ 120 < profile.name.utf8ByteSize then
    some (.text "name must contain between 1 and 120 characters")
  else if 4000 < profile.description.utf8ByteSize ∨ 8000 < profile.notes.utf8ByteSize then
    some (.text "description or notes exceed their size limit")
  else
    match validateInterfaceName profile.interfaceName with
    | some e => some e
    | none =>
        if (net.parseIP profile.sourceIP).isNone then some (.text "source IP is invalid")
        else if profile.expectedGateway ≠ "" ∧ (net.parseIP profile.expectedGateway).isNone then
          some (.text "expected gateway must be an IP address")
        else
          match validateRoutingTableToken profile.expectedRoutingTable with
          | some e => some e
          | none =>
              if (net.parseIP profile.validationTarget).isNone ∧
                  (253 < profile.validationTarget.utf8ByteSize ∨
                    containsAny profile.validationTarget
                      [' ', '/', '\\', Char.ofNat 0, '\r', '\n']) then
                some (.text "validation target must be a hostname or IP address")
              else none

/-! ## Settings -/

def validateSettings (host : Host) (value : Settings) : Option Rejection :=
  if value.displayUnits.utf8ByteSize < 1 ∨ 8 < value.displayUnits.utf8ByteSize then
    some (.text "display units exceed their size limit")
  else if value.displayUnits ≠ "bits" ∧ value.displayUnits ≠ "bytes" then
    some (.text "display units must be bits or bytes")
  else if value.defaultTimezone.utf8ByteSize < 1 ∨ 128 < value.defaultTimezone.utf8ByteSize then
    some (.text "default timezone must contain between 1 and 128 characters")
  else if (host.zones.loadLocation value.defaultTimezone).isNone then
    some (.within "default timezone" (.location value.defaultTimezone))
  else if value.globalConcurrency < 1 ∨ 16 < value.globalConcurrency then
    some (.text "global concurrency must be between 1 and 16")
  else if value.retentionMode.utf8ByteSize < 1 ∨ 8 < value.retentionMode.utf8ByteSize ∨
      value.retentionMode ≠ "forever" ∧ value.retentionMode ≠ "days" ∧
        value.retentionMode ≠ "months" then
    some (.text "retention mode must be forever, days, or months")
  else if value.retentionValue < 0 ∨ 3650 < value.retentionValue then
    some (.text "retention value must be between 0 and 3650")
  else if value.retentionMode ≠ "forever" ∧ value.retentionValue < 1 then
    some (.text "retention value must be positive")
  else if value.defaultChartRange ≠ "24h" ∧ value.defaultChartRange ≠ "7d" ∧
      value.defaultChartRange ≠ "30d" ∧ value.defaultChartRange ≠ "90d" then
    some (.text "default chart range must be 24h, 7d, 30d, or 90d")
  else if value.interfaceRefreshInterval < 5 ∨ 3600 < value.interfaceRefreshInterval then
    some (.text "interface refresh interval must be between 5 and 3600 seconds")
  else if value.defaultTaskTimeout < 5 ∨ 3600 < value.defaultTaskTimeout then
    some (.text "default task timeout must be between 5 and 3600 seconds")
  else if value.databaseMaintenanceSchedule.utf8ByteSize < 9 ∨
      256 < value.databaseMaintenanceSchedule.utf8ByteSize then
    some (.text "database maintenance schedule must contain between 9 and 256 characters")
  else if (host.zones.parse value.databaseMaintenanceSchedule).isNone then
    some (.within "database maintenance schedule"
      (.expression value.databaseMaintenanceSchedule))
  else none

/-! ## The configuration document -/

def configurationFormat : String := "multispeed-config"

def configurationFormatVersion : ℤ := 1

/-- A list is `none` where it is nil. -/
structure ConfigurationDocument where
  format : String
  version : ℤ
  exportedAt : Time
  applicationVersion : String
  settings : ConfigurationSettings
  routeProfiles : Option (List ConfigurationRouteProfile)
  tasks : Option (List ConfigurationTask)

/-- A document that was decoded: its strings are valid UTF-8. -/
structure DecodedDocument extends ConfigurationDocument where
  names : ∀ task ∈ tasks.getD [], ∃ name, task.name = utf8 name

end MultiSpeed.Api

namespace MultiSpeed

open Database

/-- `ConfigurationSettings.Model` -/
def ConfigurationSettings.model (settings : ConfigurationSettings) : Settings where
  displayUnits := settings.displayUnits
  defaultTimezone := settings.defaultTimezone
  globalConcurrency := settings.globalConcurrency
  allowSeparateWANConcurrency := settings.allowSeparateWANConcurrency
  retentionMode := settings.retentionMode
  retentionValue := settings.retentionValue
  defaultChartRange := settings.defaultChartRange
  interfaceRefreshInterval := settings.interfaceRefreshInterval
  defaultTaskTimeout := settings.defaultTaskTimeout
  databaseMaintenanceSchedule := settings.databaseMaintenanceSchedule
  ooklaEULAAccepted := false
  ooklaEULAAcceptedAt := none
  ooklaEULAVersion := none

/-- `ConfigurationRouteProfile.Model` -/
def ConfigurationRouteProfile.model (profile : ConfigurationRouteProfile) : RouteProfile where
  id := profile.id
  name := profile.name
  description := profile.description
  interfaceName := profile.interfaceName
  sourceIP := profile.sourceIP
  expectedGateway := profile.expectedGateway
  expectedRoutingTable := profile.expectedRoutingTable
  validationTarget := profile.validationTarget
  notes := profile.notes
  createdAt := zeroTime
  updatedAt := zeroTime
  lastValidationAt := none
  lastValidationSucceeded := none
  lastValidationSnapshot := some []
  deletedAt := none

/-- `ConfigurationTask.Model` -/
def ConfigurationTask.model (task : ConfigurationTask) : Task where
  id := task.id
  name := task.name
  description := task.description
  enabled := task.enabled
  provider := task.provider
  cronExpression := task.cronExpression
  timezone := task.timezone
  randomJitterSeconds := task.randomJitterSeconds
  serverSelectionMode := task.serverSelectionMode
  serverID := task.serverID
  serverURL := task.serverURL
  customServerDefinition := task.customServerDefinition
  interfaceName := task.interfaceName
  sourceIP := task.sourceIP
  ipFamily := task.ipFamily
  routeProfileID := task.routeProfileID
  timeoutSeconds := task.timeoutSeconds
  providerOptions := task.providerOptions
  preventOverlap := task.preventOverlap
  routeValidation := task.routeValidation
  createdAt := zeroTime
  updatedAt := zeroTime
  lastScheduledAt := none
  nextScheduledAt := none
  deletedAt := none

end MultiSpeed

namespace MultiSpeed.Api

open Database Execution Network

def validateConfigurationID (host : Host) (kind id : String) : Option Rejection :=
  if trimmed id ≠ id ∨ host.isUUID id = false then
    some (.text (kind ++ " ID " ++ host.quote id ++ " must be a valid UUID"))
  else none

/-- The loop over the profiles of a document; `routes` are those already checked. -/
def validateConfigurationRoutes (host : Host) :
    List ConfigurationRouteProfile → List RouteProfile → Except Rejection (List RouteProfile)
  | [], routes => .ok routes
  | item :: rest, routes =>
      let profile := applyRouteDefaults host.net item.model
      match validateConfigurationID host "route profile" profile.id with
      | some e => .error e
      | none =>
          if routes.any fun other ↦ other.id = profile.id then
            .error (.text ("route profile ID " ++ host.quote profile.id ++
              " occurs more than once"))
          else
            match validateRouteFields host.net profile with
            | some e => .error (.within ("route profile " ++ host.quote profile.name) e)
            | none => validateConfigurationRoutes host rest (routes ++ [profile])

/-- The checks of a task after its fields, for the interface snapshot they see. -/
def configurationTaskRejection (host : Host) (interfaces : List NetworkInterface)
    (routes : List RouteProfile) (ip : BitVec 128) (task : Task) : Option Rejection :=
  let name := host.quote (Providers.decoded task.name)
  match validateTaskTargetAndSchedule host task with
  | some e => some (.within ("task " ++ name) e)
  | none =>
      match if task.enabled then
          validateSource host.execution interfaces task.interfaceName task.sourceIP
        else none with
      | some message => some (.within ("enabled task " ++ name) (.text message))
      | none =>
          match task.routeProfileID with
          | none => none
          | some id =>
              match routes.find? fun profile ↦ profile.id = id with
              | none => some (.text ("task " ++ name ++ " references route profile " ++
                  host.quote id ++ ", which is not included"))
              | some profile =>
                  if profile.interfaceName ≠ task.interfaceName ∨
                      host.net.parseIP profile.sourceIP ≠ some ip then
                    some (.text ("task " ++ name ++
                      " and its route profile must use the same interface and source IP"))
                  else none

/-- The loop over the tasks of a document; `tasks` are those already checked, and the
interface snapshot may be another one for each. -/
def validateConfigurationTasks (host : Host) (interfaces : ℕ → List NetworkInterface)
    (settings : Settings) (routes : List RouteProfile) :
    List ConfigurationTask → List Task → Except Rejection (List Task)
  | [], tasks => .ok tasks
  | item :: rest, tasks =>
      let task := applyTaskDefaults item.model settings
      match validateConfigurationID host "task" task.id with
      | some e => .error e
      | none =>
          if tasks.any fun other ↦ other.id = task.id then
            .error (.text ("task ID " ++ host.quote task.id ++ " occurs more than once"))
          else
            match validateTaskFields host.net task with
            | .error e =>
                .error (.within ("task " ++ host.quote (Providers.decoded task.name)) e)
            | .ok (ip, task) =>
                match configurationTaskRejection host (interfaces tasks.length) routes ip task with
                | some e => .error e
                | none =>
                    validateConfigurationTasks host interfaces settings routes rest
                      (tasks ++ [task])

def validateConfigurationDocument (host : Host) (interfaces : ℕ → List NetworkInterface)
    (document : ConfigurationDocument) :
    Except Rejection (Settings × List RouteProfile × List Task) :=
  if document.format ≠ configurationFormat then
    .error (.text ("format must be " ++ host.quote configurationFormat))
  else if document.version ≠ configurationFormatVersion then
    .error (.text ("configuration version " ++ toString document.version ++
      " is not supported; this release accepts version " ++ toString configurationFormatVersion))
  else if document.exportedAt = zeroTime then .error (.text "exportedAt is required")
  else if 128 < document.applicationVersion.utf8ByteSize then
    .error (.text "applicationVersion exceeds 128 characters")
  else if 1000 < (document.routeProfiles.getD []).length ∨
      1000 < (document.tasks.getD []).length then
    .error (.text "configuration may contain at most 1000 tasks and 1000 route profiles")
  else
    match document.routeProfiles, document.tasks with
    | some routeProfiles, some tasks =>
        let settings := document.settings.model
        match validateSettings host settings with
        | some e => .error (.within "settings" e)
        | none =>
            match validateConfigurationRoutes host routeProfiles [] with
            | .error e => .error e
            | .ok routes =>
                match validateConfigurationTasks host interfaces settings routes tasks [] with
                | .error e => .error e
                | .ok tasks => .ok (settings, routes, tasks)
    | _, _ => .error (.text "tasks and routeProfiles must be JSON arrays")

/-! ## What is accepted -/

/-- A text without white space is trimmed. -/
theorem trimmed_of_no_space {value : String}
    (h : ∀ c ∈ value.toList, Providers.isSpace c.toNat = false) : trimmed value = value := by
  have hdrop : ∀ runes : List ℕ, (∀ rune ∈ runes, Providers.isSpace rune = false) →
      runes.dropWhile Providers.isSpace = runes := by
    intro runes hrunes
    cases runes with
    | nil => rfl
    | cons rune rest => rw [List.dropWhile_cons_of_neg (by simp [hrunes])]
  have hrunes : ∀ rune ∈ value.toList.map Char.toNat, Providers.isSpace rune = false := by
    intro rune hrune
    obtain ⟨c, hc, rfl⟩ := List.mem_map.mp hrune
    exact h c hc
  have hreverse : ∀ rune ∈ (value.toList.map Char.toNat).reverse,
      Providers.isSpace rune = false := fun rune hrune ↦ hrunes rune (List.mem_reverse.mp hrune)
  rw [trimmed, Providers.trimSpace, hdrop _ hrunes, hdrop _ hreverse, List.reverse_reverse,
    List.map_map]
  have hid : Char.ofNat ∘ Char.toNat = id := funext Char.ofNat_toNat
  rw [hid, List.map_id, String.ofList_toList]

/-- The profile is for the path of the task: the same interface and an equal source. -/
def Agrees (net : Net) (task : Task) (profile : RouteProfile) : Prop :=
  profile.interfaceName = task.interfaceName ∧ sameIP net profile.sourceIP task.sourceIP = true

theorem validateTaskFields_ok {net : Net} {task checked : Task} {ip : BitVec 128}
    (h : validateTaskFields net task = .ok (ip, checked)) :
    net.parseIP task.sourceIP = some ip ∧
      checked = { task with sourceIP := net.ipString ip } := by
  unfold validateTaskFields at h
  split at h
  · cases h
  split at h
  · cases h
  split at h
  · cases h
  split at h
  · cases h
  split at h
  · cases h
  split at h
  · cases h
  split at h
  · cases h
  split at h
  · cases h
  · rename_i parsed hparsed
    split at h
    · cases h
    split at h
    · cases h
    · cases h
      exact ⟨hparsed, rfl⟩

/-- A profile with the interface of a checked task and its address agrees with it. -/
theorem agrees_of_checked {net : Net} (hnet : LawfulNet net) {task checked : Task}
    {ip : BitVec 128} {profile : RouteProfile}
    (h : validateTaskFields net task = .ok (ip, checked))
    (hinterface : profile.interfaceName = checked.interfaceName)
    (hsource : net.parseIP profile.sourceIP = some ip) : Agrees net checked profile := by
  obtain ⟨-, rfl⟩ := validateTaskFields_ok h
  refine ⟨hinterface, ?_⟩
  have hprinted : net.parseIP (net.ipString ip) = some ip := hnet.parseIP_ipString ip
  simp [sameIP, hsource, hprinted]

/-- The task is what defaults and checks have made of some input, and its target and
schedule are accepted. -/
structure TaskChecked (host : Host) (task : Task) : Prop where
  fields : ∃ raw settings ip name, raw.name = utf8 name ∧
    validateTaskFields host.net (applyTaskDefaults raw settings) = .ok (ip, task)
  target : validateTaskTargetAndSchedule host task = none

/-- The profile is what defaults have made of some input, and its fields are accepted. -/
structure RouteChecked (host : Host) (profile : RouteProfile) : Prop where
  defaults : ∃ raw, profile = applyRouteDefaults host.net raw
  fields : validateRouteFields host.net profile = none

/-- One more identity keeps a list of identities distinct. -/
theorem nodup_snoc {α : Type} {ids : List α} {id : α} (h : ids.Nodup) (hid : id ∉ ids) :
    (ids ++ [id]).Nodup := by
  rw [List.nodup_append]
  refine ⟨h, by simp, ?_⟩
  rintro other hother _ hlast rfl
  exact hid (List.mem_singleton.mp hlast ▸ hother)

/-- The loop over the profiles gives each its defaults and refuses the list where one
is not accepted or has the identity of an earlier one. -/
theorem validateConfigurationRoutes_ok_iff {host : Host} {items : List ConfigurationRouteProfile}
    {routes result : List RouteProfile} (hnodup : (routes.map RouteProfile.id).Nodup) :
    validateConfigurationRoutes host items routes = .ok result ↔
      result = routes ++ items.map (fun item ↦ applyRouteDefaults host.net item.model) ∧
      (∀ item ∈ items, validateConfigurationID host "route profile" item.id = none ∧
        validateRouteFields host.net (applyRouteDefaults host.net item.model) = none) ∧
      (result.map RouteProfile.id).Nodup := by
  induction items generalizing routes with
  | nil =>
      constructor
      · intro h
        obtain rfl := Except.ok.inj h
        exact ⟨by simp, (fun item hitem ↦ by cases hitem), hnodup⟩
      · rintro ⟨rfl, -, -⟩
        simp [validateConfigurationRoutes]
  | cons item rest ih =>
      have hid : (applyRouteDefaults host.net item.model).id = item.id := rfl
      rw [validateConfigurationRoutes, hid]
      by_cases hvalid : validateConfigurationID host "route profile" item.id = none
      · rw [hvalid]
        by_cases hfresh : item.id ∈ routes.map RouteProfile.id
        · rw [if_pos (by simpa using hfresh)]
          refine iff_of_false nofun ?_
          rintro ⟨rfl, -, hdistinct⟩
          rw [List.map_append, List.nodup_append] at hdistinct
          exact hdistinct.2.2 _ hfresh item.id (by simp [hid]) rfl
        · rw [if_neg (by simpa using hfresh)]
          cases hfields : validateRouteFields host.net
              (applyRouteDefaults host.net item.model) with
          | some e =>
              refine iff_of_false nofun ?_
              rintro ⟨-, haccepted, -⟩
              have hnone := (haccepted item List.mem_cons_self).2
              rw [hfields] at hnone
              cases hnone
          | none =>
              have hnext : ((routes ++ [applyRouteDefaults host.net item.model]).map
                  RouteProfile.id).Nodup := by
                rw [List.map_append]
                exact nodup_snoc hnodup hfresh
              rw [ih hnext, List.append_assoc, List.forall_mem_cons]
              simp [hvalid, hfields]
      · obtain ⟨e, he⟩ := Option.ne_none_iff_exists'.mp hvalid
        rw [he]
        refine iff_of_false nofun ?_
        rintro ⟨-, haccepted, -⟩
        exact hvalid (haccepted item List.mem_cons_self).1

/-- The checks of one task of a document. -/
structure TaskAccepted (host : Host) (interfaces : List NetworkInterface) (settings : Settings)
    (routes : List RouteProfile) (item : ConfigurationTask) (task : Task) : Prop where
  id : validateConfigurationID host "task" item.id = none
  checked : ∃ ip,
    validateTaskFields host.net (applyTaskDefaults item.model settings) = .ok (ip, task) ∧
    configurationTaskRejection host interfaces routes ip task = none

theorem TaskAccepted.id_eq {host : Host} {interfaces : List NetworkInterface}
    {settings : Settings} {routes : List RouteProfile} {item : ConfigurationTask} {task : Task}
    (h : TaskAccepted host interfaces settings routes item task) : task.id = item.id := by
  obtain ⟨ip, hfields, -⟩ := h.checked
  obtain ⟨-, rfl⟩ := validateTaskFields_ok hfields
  rfl

/-- What the loop over the tasks has accepted. -/
theorem validateConfigurationTasks_ok {host : Host} {interfaces : ℕ → List NetworkInterface}
    {settings : Settings} {routes : List RouteProfile} {items : List ConfigurationTask}
    {tasks result : List Task} (hnodup : (tasks.map Task.id).Nodup)
    (h : validateConfigurationTasks host interfaces settings routes items tasks = .ok result) :
    (∃ new, result = tasks ++ new ∧ List.Forall₂
        (fun item task ↦ ∃ k, TaskAccepted host (interfaces k) settings routes item task)
        items new) ∧
      (result.map Task.id).Nodup := by
  induction items generalizing tasks with
  | nil =>
      obtain rfl := Except.ok.inj h
      exact ⟨⟨[], by simp, .nil⟩, hnodup⟩
  | cons item rest ih =>
      rw [validateConfigurationTasks] at h
      split at h
      · cases h
      · rename_i hid
        split at h
        · cases h
        · rename_i hfresh
          split at h
          · cases h
          · rename_i ip task hfields
            split at h
            · cases h
            · rename_i hrejection
              have haccepted : TaskAccepted host (interfaces tasks.length) settings routes item
                  task := ⟨hid, ip, hfields, hrejection⟩
              have hnew : task.id ∉ tasks.map Task.id := by
                have hdefaults : (applyTaskDefaults item.model settings).id ∉
                    tasks.map Task.id := by simpa using hfresh
                exact haccepted.id_eq ▸ hdefaults
              have hnext : ((tasks ++ [task]).map Task.id).Nodup := by
                rw [List.map_append]
                exact nodup_snoc hnodup hnew
              obtain ⟨⟨new, rfl, hrest⟩, hdistinct⟩ := ih hnext h
              exact ⟨⟨task :: new, by simp, .cons ⟨_, haccepted⟩ hrest⟩, hdistinct⟩

/-- The task is on the path of a profile of the list where it names one. -/
theorem agrees_of_accepted {host : Host}
    {interfaces : List NetworkInterface} {settings : Settings} {routes : List RouteProfile}
    {item : ConfigurationTask} {task : Task}
    (h : TaskAccepted host interfaces settings routes item task) :
    validateTaskTargetAndSchedule host task = none ∧
      (task.enabled = true →
        validateSource host.execution interfaces task.interfaceName task.sourceIP = none) ∧
      ∀ id ∈ task.routeProfileID, ∃ profile ∈ routes, profile.id = id ∧
        Agrees host.net task profile := by
  obtain ⟨ip, hfields, hrejection⟩ := h.checked
  unfold configurationTaskRejection at hrejection
  dsimp only at hrejection
  split at hrejection
  · cases hrejection
  · rename_i htarget
    split at hrejection
    · cases hrejection
    · rename_i hsource
      refine ⟨htarget, fun hon ↦ by simpa [hon] using hsource, fun id hid ↦ ?_⟩
      rw [Option.mem_def.mp hid] at hrejection
      dsimp only at hrejection
      split at hrejection
      · cases hrejection
      · rename_i profile hprofile
        split at hrejection
        · cases hrejection
        · rename_i hmatch
          obtain ⟨hinterface, hsource⟩ := not_or.mp hmatch
          exact ⟨profile, List.mem_of_find?_eq_some hprofile,
            by simpa using List.find?_some hprofile,
            agrees_of_checked host.lawful hfields (not_not.mp hinterface) (not_not.mp hsource)⟩

theorem exists_of_forall₂ {α β : Type} {R : α → β → Prop} {xs : List α} {ys : List β}
    (h : List.Forall₂ R xs ys) {y : β} (hy : y ∈ ys) : ∃ x ∈ xs, R x y := by
  induction h with
  | nil => cases hy
  | cons hxy _ ih =>
      rcases List.mem_cons.mp hy with rfl | hy
      · exact ⟨_, List.mem_cons_self, hxy⟩
      · obtain ⟨x, hx, hR⟩ := ih hy
        exact ⟨x, List.mem_cons_of_mem _ hx, hR⟩

/-- A task of an accepted document, whose profiles are `routes`. -/
structure TaskImported (host : Host) (interfaces : ℕ → List NetworkInterface)
    (routes : List RouteProfile) (task : Task) : Prop where
  id : validateConfigurationID host "task" task.id = none
  checked : TaskChecked host task
  source : task.enabled = true →
    ∃ k, validateSource host.execution (interfaces k) task.interfaceName task.sourceIP = none
  agrees : ∀ id ∈ task.routeProfileID, ∃ profile ∈ routes, profile.id = id ∧
    Agrees host.net task profile

/-- What `validateConfigurationDocument` accepts. -/
structure DocumentChecked (host : Host) (interfaces : ℕ → List NetworkInterface)
    (settings : Settings) (routes : List RouteProfile) (tasks : List Task) : Prop where
  settings : validateSettings host settings = none
  routeCount : routes.length ≤ 1000
  taskCount : tasks.length ≤ 1000
  routesDistinct : (routes.map RouteProfile.id).Nodup
  tasksDistinct : (tasks.map Task.id).Nodup
  routesChecked : ∀ profile ∈ routes,
    validateConfigurationID host "route profile" profile.id = none ∧ RouteChecked host profile
  tasksChecked : ∀ task ∈ tasks, TaskImported host interfaces routes task

theorem documentChecked_of_ok {host : Host}
    {interfaces : ℕ → List NetworkInterface} {document : DecodedDocument} {settings : Settings}
    {routes : List RouteProfile} {tasks : List Task}
    (h : validateConfigurationDocument host interfaces document.toConfigurationDocument =
      .ok (settings, routes, tasks)) :
    DocumentChecked host interfaces settings routes tasks := by
  have hnames := document.names
  unfold validateConfigurationDocument at h
  split at h
  · cases h
  split at h
  · cases h
  split at h
  · cases h
  split at h
  · cases h
  split at h
  · cases h
  · rename_i hcount
    obtain ⟨hrouteCount, htaskCount⟩ := not_or.mp hcount
    split at h
    · rename_i routeItems taskItems hrouteItems htaskItems
      rw [htaskItems] at hnames htaskCount
      rw [hrouteItems] at hrouteCount
      dsimp only at h
      split at h
      · cases h
      · rename_i hsettings
        split at h
        · cases h
        · rename_i checkedRoutes hroutes
          split at h
          · cases h
          · rename_i checkedTasks htasks
            cases h
            obtain ⟨hresult, hrouteChecks, hroutesDistinct⟩ :=
              (validateConfigurationRoutes_ok_iff (by simp)).mp hroutes
            obtain ⟨⟨new, hnew, haccepted⟩, htasksDistinct⟩ :=
              validateConfigurationTasks_ok (by simp) htasks
            rw [List.nil_append] at hresult hnew
            subst hnew
            refine ⟨hsettings, ?_, ?_, hroutesDistinct, htasksDistinct, ?_, ?_⟩
            · rw [hresult, List.length_map]
              exact not_lt.mp hrouteCount
            · rw [← haccepted.length_eq]
              exact not_lt.mp htaskCount
            · intro profile hprofile
              rw [hresult] at hprofile
              obtain ⟨item, hitem, rfl⟩ := List.mem_map.mp hprofile
              obtain ⟨hid, hfields⟩ := hrouteChecks item hitem
              exact ⟨hid, ⟨_, rfl⟩, hfields⟩
            · intro task htask
              obtain ⟨item, hitem, k, hitemAccepted⟩ := exists_of_forall₂ haccepted htask
              obtain ⟨htarget, hsource, hagrees⟩ := agrees_of_accepted hitemAccepted
              obtain ⟨ip, hfields, -⟩ := hitemAccepted.checked
              obtain ⟨name, hname⟩ := hnames item hitem
              exact ⟨hitemAccepted.id_eq ▸ hitemAccepted.id,
                ⟨⟨item.model, _, ip, name, hname, hfields⟩, htarget⟩,
                fun hon ↦ ⟨k, hsource hon⟩, hagrees⟩
    · cases h

end MultiSpeed.Api
