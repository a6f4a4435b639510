import MultiSpeed.Api.FixedServers
import MultiSpeed.Network.RouteValidator
import MultiSpeed.Providers.AuthorizedRuns

/-!
# Preflights of provider targets

`preflightProviderTarget` as a program, whose calls are those of the adapter, of the
interface service and of the route validator.  It is what `POST` of a provider
validation, the creation, the update and the validation of a task run for the target.
-/

namespace MultiSpeed.Api

open AddressText Concurrent Execution Network Providers

/-- The fields of a request that a preflight reads. -/
structure ProviderServerValidationInput where
  selectionMode : String
  serverID : String
  serverURL : String
  customServerDefinition : Option JsonObject
  interfaceName : String
  sourceIP : String
  ipFamily : String

def ProviderServerValidationInput.target (input : ProviderServerValidationInput) : Providers.TestTarget where
  selectionMode := trimmed input.selectionMode
  serverID := trimmed input.serverID
  serverURL := trimmed input.serverURL
  customServerDefinition := input.customServerDefinition

/-- `providerPreflightError`, without the reason of an unavailability. -/
structure ProviderPreflightError where
  code : String
  fallback : String
  err : Text

inductive PreflightCall (C : Type) where
  /-- A call of the adapter. -/
  | provider (c : C)
  | validate (target : Providers.TestTarget)
  /-- The snapshot that `ValidateSource` reads. -/
  | interfaces
  | route (c : RouteCall)
  /-- `routeContext.Err()` -/
  | routeContext

/-- The adapter answers for a target as its `Validate` does. -/
def PreflightCall.Answer {C : Type} {A : C → Type} (provider : Provider A) :
    PreflightCall C → Type
  | .provider c => A c
  | .validate target => {err : Option Text // err = provider.validate target}
  | .interfaces => List NetworkInterface
  | .route c => c.Answer
  | .routeContext => Option Text

/-! ## The checks of the input -/

def canonicalProviderSourceIP (net : Net) (value : String) : String :=
  let value := trimmed value
  match net.parseIP value with
  | some parsed => net.ipString parsed
  | none => value

def normalizedIPFamily (lower : Char → Char) (value : String) : String :=
  let value := toLower lower (trimmed value)
  if value = "" then "auto" else value

def validateProviderPathInput (env : Env) (items : List NetworkInterface)
    (interfaceName sourceIP ipFamily : String) : Option String :=
  match validateSource env items interfaceName sourceIP with
  | some message => some message
  | none =>
      match env.net.parseIP sourceIP with
      | none => some "sourceIp must be a concrete unicast IP address"
      | some ip =>
          if isUnspecified ip || isMulticast ip then
            some "sourceIp must be a concrete unicast IP address"
          else
            match ipFamily with
            | "auto" => none
            | "ipv4" => if !isIPv4 ip then some "sourceIp is not an IPv4 address" else none
            | "ipv6" => if isIPv4 ip then some "sourceIp is not an IPv6 address" else none
            | _ => some "ipFamily must be auto, ipv4, or ipv6"

/-- The letter that `strings.EqualFold` compares with one that is ASCII; the long s and the
Kelvin sign are equal to one. -/
def foldLetter (c : Char) : Char :=
  if c.toNat = 0x17f then 's' else if c.toNat = 0x212a then 'k' else c.toLower

/-- `strings.EqualFold` with a text that is ASCII. -/
def equalFold (s t : List Char) : Bool := s.map foldLetter = t.map foldLetter

def customTargetHost (lib : URLLibrary) (rawURL : String) : Except Text String :=
  if 2048 < rawURL.utf8ByteSize || containsAny rawURL [Char.ofNat 0, '\r', '\n'] then
    .error (utf8 "custom server URL is invalid")
  else
    let invalid := utf8
      "custom server URL must be an absolute HTTP or HTTPS URL without credentials"
    match lib.parseRequestURI rawURL.toList with
    | none => .error invalid
    | some parsed =>
        if parsed.host = [] || parsed.user ≠ none ||
            !equalFold parsed.scheme "http".toList && !equalFold parsed.scheme "https".toList then
          .error invalid
        else
          let host := String.ofList parsed.hostname
          if host = "" || 253 < host.utf8ByteSize ||
              containsAny host [' ', '/', '\\', Char.ofNat 0, '\r', '\n'] then
            .error (utf8 "custom server URL contains an invalid hostname")
          else .ok host

/-! ## The preflight -/

section

variable {C : Type} {A : C → Type} (env : Env) (lib : URLLibrary) (linux : Bool)
  (provider : Provider A)

abbrev Preflighting := Program (PreflightCall.Answer provider)

/-- The profile of a validation that expects neither a gateway nor a table. -/
def routeTo (interfaceName sourceIP target : String) : RouteProfile where
  id := ""
  name := ""
  description := ""
  interfaceName := interfaceName
  sourceIP := sourceIP
  expectedGateway := ""
  expectedRoutingTable := ""
  validationTarget := target
  notes := ""
  createdAt := Database.zeroTime
  updatedAt := Database.zeroTime
  lastValidationAt := none
  lastValidationSucceeded := none
  lastValidationSnapshot := none
  deletedAt := none

/-- `s.routes.Validate` -/
def validateRoute (profile : RouteProfile) : Preflighting provider RouteValidation :=
  (RouteValidator.validate env lib.lower linux profile).embed .route fun _ answer ↦ answer

def validateProviderRoute (interfaceName sourceIP target : String) :
    Preflighting provider (Option Text) := do
  let validation ← validateRoute env lib linux provider (routeTo interfaceName sourceIP target)
  if validation.success then pure none
  else
    match ← Program.perform PreflightCall.routeContext with
    | some err => pure (some (utf8 "network path validation timed out: " ++ err))
    | none =>
        let message := sanitizeOutput validation.message 1024
        pure (some (utf8 "network path validation failed: " ++
          if message = [] then utf8 "route validation did not succeed" else message))

/-- What follows the validation of the path. -/
def preflightSelection (interfaceName sourceIP ipFamily : String) (target : Providers.TestTarget) :
    Preflighting provider (Option ProviderPreflightError) :=
  match target.selectionMode with
  | "custom" =>
      match customTargetHost lib target.serverURL with
      | .error err => pure (some ⟨"INVALID_PROVIDER_TARGET",
          "The custom provider target is invalid.", err⟩)
      | .ok host => do
          match ← validateProviderRoute env lib linux provider interfaceName sourceIP host with
          | some err => pure (some ⟨"INVALID_NETWORK_PATH",
              "The custom provider route could not be validated.", err⟩)
          | none => pure none
  | "fixed" => do
      let request : ServerListRequest := ⟨interfaceName, sourceIP, ipFamily, "", 0⟩
      match ← (confirmFixedServer env.quote provider target.serverID request).embed .provider
          fun _ answer ↦ answer with
      | some err => pure (some ⟨"INVALID_PROVIDER_TARGET",
          "The fixed provider server could not be validated.", err⟩)
      | none => pure none
  | _ => pure none

/-- What follows the acceptance of the target. -/
def preflightPath (interfaceName sourceIP ipFamily : String) (target : Providers.TestTarget) :
    Preflighting provider (Option ProviderPreflightError) := do
  -- the route to the bound DNS service comes first
  match ← validateProviderRoute env lib linux provider interfaceName sourceIP
      (familyValidationTarget env.net sourceIP) with
  | some err => pure (some ⟨"INVALID_NETWORK_PATH",
      "The selected network path could not be validated.", err⟩)
  | none => preflightSelection env lib linux provider interfaceName sourceIP ipFamily target

def preflightProviderTarget (input : ProviderServerValidationInput) :
    Preflighting provider (Option ProviderPreflightError) := do
  let interfaceName := trimmed input.interfaceName
  let sourceIP := canonicalProviderSourceIP env.net input.sourceIP
  let ipFamily := normalizedIPFamily lib.lower input.ipFamily
  let items ← Program.perform PreflightCall.interfaces
  match validateProviderPathInput env items interfaceName sourceIP ipFamily with
  | some err => pure (some ⟨"INVALID_NETWORK_PATH", "The selected network path is invalid.",
      utf8 err⟩)
  | none =>
      let availability ← provider.availability.embed .provider fun _ answer ↦ answer
      if !availability.available then
        let message := sanitizeOutput availability.message 1024
        pure (some ⟨"PROVIDER_UNAVAILABLE", "The selected provider is unavailable.",
          if message = [] then utf8 "The selected provider is unavailable." else message⟩)
      else
        let target := input.target
        let validated : {err : Option Text // err = provider.validate target} ←
          Program.perform (PreflightCall.validate target)
        match validated.1 with
        | some err => pure (some ⟨"INVALID_PROVIDER_TARGET", "The provider target is invalid.",
            err⟩)
        | none =>
            preflightPath env lib linux provider interfaceName sourceIP ipFamily target

end

/-! ## What a preflight looks up -/

section

variable {C : Type} {A : C → Type} {env : Env} {lib : URLLibrary} {linux : Bool}
  {provider : Provider A} {interfaceName sourceIP : String} {target : Providers.TestTarget}
  {past past' : List (Sigma (PreflightCall.Answer provider))}

/-- The adapter has accepted the target. -/
def Accepted (target : Providers.TestTarget)
    (past : List (Sigma (PreflightCall.Answer provider))) : Prop :=
  ∃ answer, (⟨.validate target, answer⟩ : Sigma (PreflightCall.Answer provider)) ∈ past ∧
    answer.1 = none

/-- A validation of the path, with an address as its target, has succeeded. -/
def PathChecked (env : Env) (lib : URLLibrary) (linux : Bool) (interfaceName sourceIP : String)
    (past : List (Sigma (PreflightCall.Answer provider))) : Prop :=
  ∃ address validation before check after, env.net.parseIP address ≠ none ∧
    past = before ++ check ++ after ∧
    (validateRoute env lib linux provider (routeTo interfaceName sourceIP address)).Runs check
      validation ∧
    validation.success = true

theorem Accepted.mono (h : Accepted target past) (hpast : past <+: past') :
    Accepted target past' := by
  obtain ⟨answer, hmem, hnone⟩ := h
  exact ⟨answer, hpast.subset hmem, hnone⟩

theorem PathChecked.mono (h : PathChecked env lib linux interfaceName sourceIP past)
    (hpast : past <+: past') : PathChecked env lib linux interfaceName sourceIP past' := by
  obtain ⟨address, validation, before, check, after, hip, rfl, hfacts⟩ := h
  obtain ⟨rest, rfl⟩ := hpast
  exact ⟨address, validation, before, check, after ++ rest, hip, List.append_assoc _ _ _, hfacts⟩

/-- The look-ups among the calls are of the target. -/
def Seeks (net : Net) (sourceIP target : String) : PreflightCall C → Prop
  | .route c => c.Looks → RouteValidator.Towards net target sourceIP c
  | _ => True

theorem only_validateProviderRoute {target : String} :
    (validateProviderRoute env lib linux provider interfaceName sourceIP target).Only
      (Seeks env.net sourceIP target) := by
  apply Program.Only.bind
  · exact Program.Only.embed (RouteValidator.only_validate.mono fun _ htowards _ ↦ htowards)
  · intro validation
    apply Program.Only.ite Program.Only.pure
    apply Program.Only.perform (c := PreflightCall.routeContext) trivial
    rintro (_ | err) <;> exact Program.Only.pure

theorem runs_validateProviderRoute {target : String}
    {trace : List (Sigma (PreflightCall.Answer provider))}
    (h : (validateProviderRoute env lib linux provider interfaceName sourceIP target).Runs trace
      none) :
    ∃ validation, (validateRoute env lib linux provider
        (routeTo interfaceName sourceIP target)).Runs trace validation ∧
      validation.success = true := by
  obtain ⟨front, validation, back, rfl, hfront, hback⟩ := Program.runs_bind.mp h
  split at hback
  · rename_i hsuccess
    obtain ⟨rfl, -⟩ := Program.Runs.done_iff.mp hback
    rw [List.append_nil]
    exact ⟨validation, hfront, hsuccess⟩
  · obtain ⟨err, rest, rfl, hrest⟩ := Program.Runs.perform_iff.mp hback
    cases err with
    | none =>
        obtain ⟨-, hend⟩ := Program.Runs.done_iff.mp hrest
        cases hend
    | some err =>
        obtain ⟨-, hend⟩ := Program.Runs.done_iff.mp hrest
        cases hend

/-- What may be called after `past`: the route validator once the adapter has accepted the
target.  It looks up the route to the address that checks the path, and the host of a custom
target once this check has succeeded too. -/
def Permitted (env : Env) (lib : URLLibrary) (linux : Bool) (interfaceName sourceIP : String)
    (target : Providers.TestTarget) (past : List (Sigma (PreflightCall.Answer provider))) :
    PreflightCall C → Prop
  | .route c => Accepted target past ∧ (c.Looks →
      (∃ ip, env.net.parseIP (familyValidationTarget env.net sourceIP) = some ip ∧
        c = .routeGet (env.net.ipString ip) sourceIP) ∨
      target.selectionMode = "custom" ∧ PathChecked env lib linux interfaceName sourceIP past ∧
        ∃ host, customTargetHost lib target.serverURL = .ok host ∧
          RouteValidator.Towards env.net host sourceIP c)
  | _ => True

theorem guarded_embed_provider {α : Type} {p : Program A α} :
    (p.embed (B := PreflightCall.Answer provider) PreflightCall.provider
      fun _ answer ↦ answer).Guarded (Permitted env lib linux interfaceName sourceIP target)
        past := by
  have hprovider : (p.embed (B := PreflightCall.Answer provider) PreflightCall.provider
      fun _ answer ↦ answer).Only fun c ↦ ∃ c', c = .provider c' :=
    Program.Only.embed (Program.only_of_forall (fun c ↦ ⟨c, rfl⟩) p)
  apply hprovider.guarded
  rintro past' _ - ⟨c, rfl⟩
  trivial

theorem guarded_preflightSelection {ipFamily : String} (haccepted : Accepted target past)
    (hchecked : PathChecked env lib linux interfaceName sourceIP past) :
    (preflightSelection env lib linux provider interfaceName sourceIP ipFamily target).Guarded
      (Permitted env lib linux interfaceName sourceIP target) past := by
  rw [preflightSelection]
  split
  · rename_i hmode
    split
    · exact trivial
    rename_i host hhost
    apply Program.Guarded.bind
    · apply only_validateProviderRoute.guarded
      intro past' c hpast hseeks
      cases c with
      | route c =>
          refine ⟨haccepted.mono hpast, fun hlooks ↦ .inr ?_⟩
          exact ⟨hmode, hchecked.mono hpast, host, hhost, hseeks hlooks⟩
      | _ => trivial
    · rintro trace (_ | err) - <;> exact trivial
  · apply Program.Guarded.bind guarded_embed_provider
    rintro trace (_ | err) - <;> exact trivial
  · exact trivial

/-- `net.ParseIP` and `IP.String` by the rules of `net/netip`. -/
def netipNet : Net where
  parseIP text := Address.parseIP text.toList
  ipString ip := String.ofList (Address.ipText ip)

/-- The address that checks the path is one, as it is written. -/
theorem parseIP_familyValidationTarget (source : String) : ∃ ip,
    netipNet.parseIP (trimmed (familyValidationTarget netipNet source)) = some ip ∧
      netipNet.parseIP (familyValidationTarget netipNet source) = some ip := by
  have h4 : ∃ ip, netipNet.parseIP (trimmed "1.1.1.1") = some ip ∧
      netipNet.parseIP "1.1.1.1" = some ip := ⟨0xffff01010101, by decide +kernel⟩
  have h6 : ∃ ip, netipNet.parseIP (trimmed "2606:4700:4700::1111") = some ip ∧
      netipNet.parseIP "2606:4700:4700::1111" = some ip :=
    ⟨0x26064700470000000000000000001111, by decide +kernel⟩
  rw [familyValidationTarget]
  split
  · split
    · exact h6
    · exact h4
  · exact h4

theorem guarded_preflightPath {ipFamily : String} (hnet : env.net = netipNet)
    (haccepted : Accepted target past) :
    (preflightPath env lib linux provider interfaceName sourceIP ipFamily target).Guarded
      (Permitted env lib linux interfaceName sourceIP target) past := by
  obtain ⟨ip, htrimmed, hip⟩ := parseIP_familyValidationTarget sourceIP
  rw [← hnet] at htrimmed hip
  apply Program.Guarded.bind
  · apply only_validateProviderRoute.guarded
    intro past' c hprefix hseeks
    cases c with
    | route c =>
        refine ⟨haccepted.mono hprefix, fun hlooks ↦ .inl ⟨ip, hip, ?_⟩⟩
        exact RouteValidator.towards_literal htrimmed (hseeks hlooks) hlooks
    | _ => trivial
  · rintro check (_ | err) hruns
    · obtain ⟨validation, hcheck, hsuccess⟩ := runs_validateProviderRoute hruns
      apply guarded_preflightSelection (haccepted.mono (List.prefix_append past check))
      refine ⟨_, validation, past, check, [], ?_, (List.append_nil _).symm, hcheck, hsuccess⟩
      rw [hip]
      exact Option.some_ne_none ip
    · exact trivial

theorem guarded_preflightProviderTarget (hnet : env.net = netipNet)
    (input : ProviderServerValidationInput) :
    (preflightProviderTarget env lib linux provider input).Guarded
      (Permitted env lib linux (trimmed input.interfaceName)
        (canonicalProviderSourceIP env.net input.sourceIP) input.target) [] := by
  apply Program.Guarded.perform (c := PreflightCall.interfaces) trivial
  intro items
  split
  · exact trivial
  apply Program.Guarded.bind guarded_embed_provider
  rintro trace availability -
  split
  · exact trivial
  apply Program.Guarded.perform (c := PreflightCall.validate input.target) trivial
  intro validated
  split
  · exact trivial
  rename_i hnone
  apply guarded_preflightPath hnet
  exact ⟨validated, List.mem_append_right _ (List.mem_singleton_self _), hnone⟩

end

/-! ## The calls of the adapter -/

section

variable {C : Type} {A : C → Type} {env : Env} {lib : URLLibrary} {linux : Bool}
  {provider : Provider A} {P : C → Prop}

/-- What the adapter calls is of `P`. -/
def OfProvider (P : C → Prop) : PreflightCall C → Prop
  | .provider c => P c
  | _ => True

theorem ofProvider_validateProviderRoute {interfaceName sourceIP target : String} :
    (validateProviderRoute env lib linux provider interfaceName sourceIP target).Only
      (OfProvider P) := by
  apply Program.Only.bind
  · exact Program.Only.embed (Program.only_of_forall (fun _ ↦ trivial) _)
  · intro validation
    apply Program.Only.ite Program.Only.pure
    apply Program.Only.perform (c := PreflightCall.routeContext) trivial
    rintro (_ | err) <;> exact Program.Only.pure

theorem ofProvider_confirmFixedServer {quote : String → String} {serverID : String}
    {request : ServerListRequest} (hlist : ∀ request, (provider.listServers request).Only P) :
    (confirmFixedServer quote provider serverID request).Only P := by
  apply Program.Only.ite Program.Only.pure
  apply Program.Only.ite Program.Only.pure
  apply (hlist _).bind
  rintro (message | items)
  · exact Program.Only.pure
  · exact Program.Only.ite Program.Only.pure Program.Only.pure

theorem ofProvider_preflightSelection {interfaceName sourceIP ipFamily : String}
    {target : Providers.TestTarget} (hlist : ∀ request, (provider.listServers request).Only P) :
    (preflightSelection env lib linux provider interfaceName sourceIP ipFamily target).Only
      (OfProvider P) := by
  rw [preflightSelection]
  split
  · split
    · exact Program.Only.pure
    apply ofProvider_validateProviderRoute.bind
    rintro (_ | err) <;> exact Program.Only.pure
  · apply Program.Only.bind
    · exact Program.Only.embed (ofProvider_confirmFixedServer hlist)
    · rintro (_ | err) <;> exact Program.Only.pure
  · exact Program.Only.pure

theorem ofProvider_preflightPath {interfaceName sourceIP ipFamily : String}
    {target : Providers.TestTarget} (hlist : ∀ request, (provider.listServers request).Only P) :
    (preflightPath env lib linux provider interfaceName sourceIP ipFamily target).Only
      (OfProvider P) := by
  apply ofProvider_validateProviderRoute.bind
  rintro (_ | err)
  · exact ofProvider_preflightSelection hlist
  · exact Program.Only.pure

theorem ofProvider_preflightProviderTarget (havailability : provider.availability.Only P)
    (hlist : ∀ request, (provider.listServers request).Only P)
    (input : ProviderServerValidationInput) :
    (preflightProviderTarget env lib linux provider input).Only (OfProvider P) := by
  apply Program.Only.perform (c := PreflightCall.interfaces) trivial
  intro items
  split
  · exact Program.Only.pure
  apply Program.Only.bind
  · exact Program.Only.embed havailability
  intro availability
  apply Program.Only.ite Program.Only.pure
  apply Program.Only.perform (c := PreflightCall.validate input.target) trivial
  intro validated
  split
  · exact Program.Only.pure
  · exact ofProvider_preflightPath hlist

end

/-! ## The custom host -/

section

variable {lib : URLLibrary}

theorem customTargetHost_eq {raw host : String} (h : customTargetHost lib raw = .ok host) :
    ∃ u, lib.parseRequestURI raw.toList = some u ∧ host = String.ofList u.hostname := by
  rw [customTargetHost] at h
  split at h
  · cases h
  cases hparse : lib.parseRequestURI raw.toList with
  | none =>
      rw [hparse] at h
      cases h
  | some u =>
      rw [hparse] at h
      simp only at h
      split at h
      · cases h
      split at h
      · cases h
      · exact ⟨u, rfl, (Except.ok.inj h).symm⟩

theorem isSpace_of_addressCharacter {c : Char} (h : addressCharacter c) :
    isSpace c.toNat = false := by
  have hsame : addressCharacter c → isSpace c.toNat = false := by
    apply Utf8.forall_ascii _ (lt_of_addressCharacter h)
    decide +kernel
  exact hsame h

/-- The name of an accepted URL has no white space. -/
theorem trimmed_hostname (hlower : LawfulLower lib.lower) {u : URL} (hpercent : '%' ∉ u.hostname)
    (hvalid : (serverHost lib u.hostname).Valid) :
    trimmed (String.ofList u.hostname) = String.ofList u.hostname := by
  apply trimmed_of_no_space
  intro c hc
  rw [String.toList_ofList] at hc
  cases hparse : Address.parse u.hostname with
  | some address =>
      exact isSpace_of_addressCharacter (Address.addressCharacter_of_parse hparse hpercent hc)
  | none =>
      rw [serverHost, hparse] at hvalid
      cases hvalid with
      | name _ hname _ =>
          have hplain := plainCharacter_of_validHostname hname _ (List.mem_map_of_mem hc)
          have hgraphic := graphic_of_plainCharacter hplain
          rw [← hlower.space]
          have hlow := hgraphic.1
          have hhigh := hgraphic.2
          simp [isSpace]
          omega

end

/-! ## Authorized lookups -/

section

variable {a : LibreSpeed.Adapter} {entries : List String} {env : Env} {linux : Bool}

/-- The host of an accepted target is that of an entry. -/
theorem matches_customTargetHost (hlib : LawfulURLs a.lib) (hlower : LawfulLower a.lib.lower)
    (hpolicy : newCustomServerURLPolicy a.lib entries = .ok a.customServers)
    {target : Providers.TestTarget} (hmode : target.selectionMode = "custom")
    (hvalidate : LibreSpeed.validate a target = none) {host : String}
    (hhost : customTargetHost a.lib target.serverURL = .ok host) :
    Matches a.lib entries target (trimmed host).toList := by
  obtain ⟨url, hurl⟩ := LibreSpeed.authorized_of_validate hmode hvalidate
  obtain ⟨entry, hentry, l, hlocation, hraw, -, -, hinsecure⟩ :=
    entry_of_authorize hlib hpolicy hurl
  obtain ⟨u, hparse, hpercent, hvalid⟩ := parsed_of_authorize hurl
  obtain ⟨u', hparse', rfl⟩ := customTargetHost_eq hhost
  obtain rfl := Option.some.inj (hparse.symm.trans hparse')
  refine ⟨entry, hentry, l, hlocation, hraw, ?_, hinsecure⟩
  rw [trimmed_hostname hlower hpercent hvalid.host, String.toList_ofList]
  rw [location, hparse] at hraw
  rw [← Option.some.inj hraw]
  rfl

/-- A preflight looks up nothing before the adapter has accepted the target, and nothing of a
custom target before a validation of the path has succeeded.  A custom target that is
accepted is one of the allowlist, whose host is looked up; no other is looked up or tested by a
run. -/
theorem lookups_authorized (hlib : LawfulURLs a.lib) (hlower : LawfulLower a.lib.lower)
    (hpolicy : newCustomServerURLPolicy a.lib entries = .ok a.customServers)
    (hnet : env.net = netipNet) :
    (∀ (C : Type) (A : C → Type) (provider : Provider A) (input : ProviderServerValidationInput),
      (preflightProviderTarget env a.lib linux provider input).Guarded
        (Permitted env a.lib linux (trimmed input.interfaceName)
          (canonicalProviderSourceIP env.net input.sourceIP) input.target) []) ∧
    (∀ input : ProviderServerValidationInput,
      (preflightProviderTarget env a.lib linux (LibreSpeed.provider a) input).Only
        (OfProvider LibreSpeed.Discovers)) ∧
    (∀ target : Providers.TestTarget, target.selectionMode = "custom" →
      Ookla.validate target ≠ none ∧ Cloudflare.validate target ≠ none ∧
      (LibreSpeed.validate a target = none → (∃ host, Matches a.lib entries target host) ∧
        ∀ host, customTargetHost a.lib target.serverURL = .ok host →
          Matches a.lib entries target (trimmed host).toList)) ∧
    ∀ request : Providers.RunRequest, (LibreSpeed.run a request).Only
      (LibreSpeed.RunsAuthorized a entries request.target) := by
  refine ⟨?_, ?_, ?_, ?_⟩
  · exact fun C A provider input ↦ guarded_preflightProviderTarget hnet input
  · intro input
    apply ofProvider_preflightProviderTarget
    · exact LibreSpeed.only_availability trivial (.inl rfl)
    · exact LibreSpeed.discovers_listServers a
  · intro target hmode
    refine ⟨?_, ?_, ?_⟩
    · rw [Ookla.validate, hmode]
      exact Option.some_ne_none _
    · rw [Cloudflare.validate, hmode, if_pos (by decide)]
      exact Option.some_ne_none _
    · intro hvalidate
      obtain ⟨url, hurl⟩ := LibreSpeed.authorized_of_validate hmode hvalidate
      obtain ⟨entry, hentry, l, hlocation, hraw, hvalid, -, hinsecure⟩ :=
        entry_of_authorize hlib hpolicy hurl
      refine ⟨⟨l.url.hostname, entry, hentry, l, hlocation, hraw, hvalid.serverHost hlib,
        hinsecure⟩, fun host hhost ↦ ?_⟩
      exact matches_customTargetHost hlib hlower hpolicy hmode hvalidate hhost
  · exact fun request ↦ LibreSpeed.only_run_authorized hlib hpolicy

theorem newCustomServerURLPolicy_plain :
    newCustomServerURLPolicy plainLibrary ["http://1.2.3.4"] =
      .ok LibreSpeed.plainAdapter.customServers := by
  have hcanonical : canonicalCustomServerURL plainLibrary "http://1.2.3.4" =
      .ok "http://1.2.3.4" := by decide +kernel
  rw [newCustomServerURLPolicy]
  change Except.map _ (allowEntry plainLibrary ∅ ("http://1.2.3.4", 0) >>= pure) = _
  rw [allowEntry, hcanonical]
  rfl

theorem lookups_authorized_plain :
    Matches plainLibrary ["http://1.2.3.4"] LibreSpeed.plainRequest.target
      (trimmed "1.2.3.4").toList := by
  have hlower : LawfulLower plainLibrary.lower := lawful_toLower
  have hauthorized := (@lookups_authorized LibreSpeed.plainAdapter _ ⟨netipNet, "", id⟩ true
    lawful_plainLibrary hlower newCustomServerURLPolicy_plain rfl).2.2.1
    LibreSpeed.plainRequest.target rfl
  exact (hauthorized.2.2 (by decide +kernel)).2 "1.2.3.4" (by decide +kernel)

end

end MultiSpeed.Api
