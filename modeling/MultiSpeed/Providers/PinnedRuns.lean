import MultiSpeed.Providers.Pinning

/-!
# Runs with pinned destinations

Which values `Adapter.Run` gives the command, and what the dialer of the command makes of
them.
-/

namespace MultiSpeed.Providers.LibreSpeed

open AddressText Concurrent Execution Network

/-! ## The processes of a run -/

section

variable (a : Adapter) (request : RunRequest)

/-- The run may use `url` and `ips`: the first is authorized, the second its addresses. -/
def Authorized (url : String) (ips : List String) : Prop :=
  a.customServers.authorize a.lib request.target.serverURL
      (optionBool request.target.customServerDefinition "allowInsecure") = .ok url ∧
    (resolveCustomServerIPs a.lib url request.sourceIP request.ipFamily).Returns (.ok ips)

/-- A process of the run: it has values of its own only where it tests a custom server,
and then the endpoints of the server. -/
def Starts : Call → Prop
  | .process p =>
      p.homeDirectory = "" ∧
        if request.target.selectionMode = "custom" ∧ p.arguments ≠ ["--version"] then
          ∃ url ips endpoints, Authorized a request url ips ∧
            customServerEndpoints a.lib url ips = .ok endpoints ∧
            p.environment = [(allowedServerEndpointsEnvironment, joinComma endpoints)]
        else p.environment = []
  | _ => True

variable {a request}

theorem starts_version : Starts a request (.process ⟨a.binary, ["--version"], [], 16384, "", []⟩) :=
  ⟨rfl, by rw [if_neg (by simp)]⟩

theorem only_resolveCustomServerIPs {lib : URLLibrary} {rawURL sourceIP ipFamily : String} :
    (resolveCustomServerIPs lib rawURL sourceIP ipFamily).Only (Starts a request) := by
  rw [resolveCustomServerIPs]
  split
  · exact Program.Only.pure
  split
  · exact Program.Only.pure
  split
  · exact Program.Only.pure
  simp only
  split
  · exact Program.Only.pure
  split
  · exact Program.Only.pure
  split
  · exact Program.Only.pure
  split
  · exact Program.Only.pure
  apply Program.Only.perform (c := Call.newResolver _) trivial
  rintro (message | _)
  · exact Program.Only.pure
  apply Program.Only.perform (c := Call.lookupIPAddr _ _) trivial
  rintro (message | addresses) <;> exact Program.Only.pure

theorem only_runCustom {args : List String} (hmode : request.target.selectionMode = "custom")
    (hargs : ∀ rest, args ++ "--local-json" :: rest ≠ ["--version"]) :
    (runCustom a request args).Only (Starts a request) := by
  rw [runCustom]
  split
  · exact Program.Only.pure
  rename_i url hurl
  split
  · exact Program.Only.pure
  apply only_resolveCustomServerIPs.bind_returns
  rintro (message | ips) hips
  · exact Program.Only.pure
  simp only
  split
  · exact Program.Only.pure
  rename_i endpoints hendpoints
  split
  · exact Program.Only.pure
  apply Program.Only.perform
  · refine ⟨rfl, ?_⟩
    rw [if_pos ⟨hmode, hargs _⟩]
    exact ⟨url, ips, endpoints, ⟨hurl, hips⟩, hendpoints, rfl⟩
  · exact fun _ ↦ only_finishRun starts_version

/-- Every process of a run has the values it should have. -/
theorem only_run : (run a request).Only (Starts a request) := by
  apply (only_availability trivial starts_version).bind
  intro availability
  split
  · exact Program.Only.pure
  split
  · exact Program.Only.pure
  split
  · rename_i hmode
    apply only_runCustom hmode
    intro rest heq
    have hhead := congrArg List.head? heq
    simp [baseArgs] at hhead
  · rename_i hmode
    apply Program.Only.perform
    · refine ⟨rfl, ?_⟩
      rw [if_neg fun h ↦ hmode h.1]
    · exact fun _ ↦ only_finishRun starts_version

end

/-! ## The guard of a run -/

theorem card_le_of_endpointOf {seen : Finset Endpoint} {port : ℕ} {ips : List String}
    (h : ∀ e, e ∈ seen ↔ ∃ ip ∈ ips, EndpointOf port ip e) : seen.card ≤ ips.length := by
  have hsubset : seen ⊆ (ips.filterMap fun ip ↦ (Address.parse ip.toList).map
      fun a ↦ ((a, port) : Endpoint)).toFinset := by
    intro e he
    obtain ⟨ip, hip, a, ha, rfl⟩ := (h e).mp he
    rw [List.mem_toFinset, List.mem_filterMap]
    exact ⟨ip, hip, by rw [ha, Option.map_some]⟩
  calc seen.card ≤ _ := Finset.card_le_card hsubset
    _ ≤ _ := List.toFinset_card_le _
    _ ≤ ips.length := List.length_filterMap_le _ _

theorem guarded_of_endpointOf {wantIPv4 : Bool} {ips : List String}
    (hips : Resolved wantIPv4 ips) {port : ℕ} (hport : 0 < port ∧ port < 65536) {ip : String}
    (hip : ip ∈ ips) {e : Endpoint} (he : EndpointOf port ip e) : Guarded e := by
  obtain ⟨bits, rfl, -, hunspecified, hmulticast⟩ := hips.canonical ip hip
  obtain rfl := endpointOf_ipText.mp he
  exact ⟨Address.zone_ofIP bits, Address.unmap_ofIP bits,
    (isUnspecified_ofIP bits).trans hunspecified, (isMulticast_ofIP bits).trans hmulticast, hport⟩

theorem nonempty_of_endpointOf {wantIPv4 : Bool} {ips : List String}
    (hips : Resolved wantIPv4 ips) {port : ℕ} {seen : Finset Endpoint}
    (h : ∀ e, e ∈ seen ↔ ∃ ip ∈ ips, EndpointOf port ip e) : seen.Nonempty := by
  obtain ⟨ip, hip⟩ := List.exists_mem_of_ne_nil ips hips.nonempty
  obtain ⟨bits, rfl, -⟩ := hips.canonical ip hip
  exact ⟨_, (h _).mpr ⟨_, hip, endpointOf_ipText.mpr rfl⟩⟩

theorem valid_allowedServerEndpointsEnvironment :
    validProviderEnvironmentKey allowedServerEndpointsEnvironment := by decide +kernel

/-- An authorized URL is the text of a location. -/
theorem location_of_authorize {lib : URLLibrary} (hlib : LawfulURLs lib)
    {policy : CustomServerURLPolicy} {raw url : String} {allowInsecure : Bool}
    (h : policy.authorize lib raw allowInsecure = .ok url) :
    ∃ l, location lib url = some l ∧ l.Valid ∧ url = String.ofList l.text := by
  rw [CustomServerURLPolicy.authorize] at h
  cases hcanonical : canonicalCustomServerURL lib raw with
  | error message =>
      rw [hcanonical] at h
      cases h
  | ok canonical =>
      rw [hcanonical] at h
      simp only at h
      split at h
      · cases h
      split at h
      · obtain rfl := Except.ok.inj h
        obtain ⟨l, hl, hvalid, htext⟩ := canonicalCustomServerURL_eq_text hcanonical
        exact ⟨l, (location_canonical hlib hcanonical).trans hl, hvalid, htext⟩
      · cases h

section

variable {a : Adapter} {request : RunRequest} {upper : Char → Char}

/-- What a custom run hands to the command is what the dialer allows, and no other run hands
anything to it. -/
theorem destinations_pinned (hlib : LawfulURLs a.lib) (hupper : LawfulUpper upper)
    (environ : List (List Char)) :
    (∀ url ips, Authorized a request url ips →
      ∃ source l endpoints environment allowed,
        Address.parseIP request.sourceIP.toList = some source ∧
        Resolved (isIPv4 source) ips ∧ location a.lib url = some l ∧
        customServerEndpoints a.lib url ips = .ok endpoints ∧
        providerEnvironment upper environ
            [(allowedServerEndpointsEnvironment, joinComma endpoints)] "" = .ok environment ∧
        (environment.filter fun entry ↦
            entryName entry = allowedServerEndpointsEnvironment.toList) =
          [allowedServerEndpointsEnvironment.toList ++ '=' :: (joinComma endpoints).toList] ∧
        restrictDialer (lookupEnv environment allowedServerEndpointsEnvironment) =
          .ok (some allowed) ∧
        (∀ e, e ∈ allowed ↔ ∃ ip ∈ ips, EndpointOf l.port ip e) ∧
        ∀ address, dialError allowed address = none ↔
          ∃ destination port, Endpoint.parse address = some (destination, port) ∧
            destination.zone = [] ∧ (destination.unmap, port) ∈ allowed) ∧
    (run a request).Only (Starts a request) ∧
    (request.target.selectionMode ≠ "custom" → (run a request).Only fun c ↦
      ∀ p, c = .process p → ∃ environment,
        providerEnvironment upper environ p.environment p.homeDirectory = .ok environment ∧
        (∀ entry ∈ environment, entryName entry ≠ allowedServerEndpointsEnvironment.toList) ∧
        restrictDialer (lookupEnv environment allowedServerEndpointsEnvironment) = .ok none) := by
  refine ⟨?_, only_run, ?_⟩
  · rintro url ips ⟨hurl, hreturns⟩
    obtain ⟨source, hsource, hips⟩ := resolveCustomServerIPs_spec hreturns
    obtain ⟨l, hl, hvalid, rfl⟩ := location_of_authorize hlib hurl
    obtain ⟨seen, hendpoints, hseen⟩ := customServerEndpoints_spec hlib hvalid hips
    have hport : 0 < l.port ∧ l.port < 65536 := by
      have := hvalid.port
      omega
    have hguarded : ∀ e ∈ seen, Guarded e := by
      intro e he
      obtain ⟨ip, hip, heq⟩ := (hseen e).mp he
      exact guarded_of_endpointOf hips hport hip heq
    have hcard : seen.card ≤ 64 := (card_le_of_endpointOf hseen).trans hips.length_le
    obtain ⟨hlength, hcharacters⟩ := joinComma_valid hguarded hcard
    obtain ⟨environment, henvironment, hsingle, hlookup⟩ :=
      providerEnvironment_single hupper environ valid_allowedServerEndpointsEnvironment
        hlength hcharacters
    refine ⟨source, l, endpointTexts seen, environment, seen, hsource, hips, hl, hendpoints,
      henvironment, hsingle, ?_, hseen, fun address ↦ dialError_eq_none_iff hguarded⟩
    rw [hlookup]
    exact restrictDialer_joined hguarded (nonempty_of_endpointOf hips hseen) hcard
  · intro hmode
    apply only_run.mono
    rintro c hstarts p rfl
    obtain ⟨hhome, henvironment⟩ := hstarts
    rw [if_neg fun h ↦ hmode h.1] at henvironment
    obtain ⟨environment, heq, hnone, hlookup⟩ :=
      providerEnvironment_nil hupper environ valid_allowedServerEndpointsEnvironment
    refine ⟨environment, ?_, hnone, ?_⟩
    · rw [hhome, henvironment, heq]
    · rw [hlookup]
      rfl

end

/-! ## A pinned run -/

/-- The address of a URL that has one needs no resolver. -/
theorem resolveCustomServerIPs_literal {lib : URLLibrary} {rawURL sourceIP : String}
    {parsed : URL} {source literal : BitVec 128}
    (hparsed : lib.parseRequestURI rawURL.toList = some parsed) (hhost : parsed.hostname ≠ [])
    (hsource : Address.parseIP sourceIP.toList = some source)
    (hconcrete : ¬(isUnspecified source ∨ isMulticast source))
    (hliteral : Address.parseIP parsed.hostname = some literal) :
    resolveCustomServerIPs lib rawURL sourceIP "auto" =
      pure (selectAddresses (isIPv4 source) [⟨some literal, ""⟩]) := by
  rw [resolveCustomServerIPs, hparsed]
  simp only [hsource, hliteral]
  rw [if_neg hhost, if_neg hconcrete, if_neg (by simp), if_neg (by simp)]

/-- An adapter that allows one server. -/
def plainAdapter : Adapter where
  binary := "librespeed-cli"
  customServers := ⟨{"http://1.2.3.4"}⟩
  lib := plainLibrary
  parseResult := fun _ ↦ .ok noResult
  listed := fun _ _ ↦ .ok []
  quote := id
  marshal := fun _ ↦ .ok []

def plainRequest : RunRequest where
  interfaceName := "eth0"
  sourceIP := "5.6.7.8"
  ipFamily := "auto"
  target := ⟨"custom", "", "http://1.2.3.4", some [("allowInsecure", .bool true)]⟩
  timeoutSeconds := 60
  options := none

theorem authorized_plain : Authorized plainAdapter plainRequest "http://1.2.3.4" ["1.2.3.4"] := by
  constructor
  · decide +kernel
  · have hselected : selectAddresses true [⟨some 0xffff01020304, ""⟩] = .ok ["1.2.3.4"] := by
      decide +kernel
    have hliteral := @resolveCustomServerIPs_literal plainLibrary "http://1.2.3.4" "5.6.7.8"
      (plainURL "http".toList "1.2.3.4".toList []) 0xffff05060708 0xffff01020304
      (by decide +kernel) (by decide +kernel) (by decide +kernel) (by decide +kernel)
      (by decide +kernel)
    rw [show plainRequest.ipFamily = "auto" from rfl,
      show plainRequest.sourceIP = "5.6.7.8" from rfl,
      show plainAdapter.lib = plainLibrary from rfl, hliteral]
    exact hselected

/-- A value that is inherited makes no difference. -/
theorem destinations_pinned_plain : ∃ endpoints environment allowed,
    customServerEndpoints plainLibrary "http://1.2.3.4" ["1.2.3.4"] = .ok endpoints ∧
      providerEnvironment Char.toUpper
          ["MULTISPEED_PROVIDER_ALLOWED_SERVER_ENDPOINTS=9.9.9.9:1".toList]
          [(allowedServerEndpointsEnvironment, joinComma endpoints)] "" = .ok environment ∧
      restrictDialer (lookupEnv environment allowedServerEndpointsEnvironment) =
        .ok (some allowed) ∧
      dialError allowed "1.2.3.4:80".toList = none := by
  obtain ⟨-, l, endpoints, environment, allowed, -, -, hl, hendpoints, henvironment, -,
    hrestrict, hallowed, hdial⟩ :=
    (@destinations_pinned plainAdapter plainRequest Char.toUpper lawful_plainLibrary
      (fun _ _ ↦ rfl) ["MULTISPEED_PROVIDER_ALLOWED_SERVER_ENDPOINTS=9.9.9.9:1".toList]).1 _ _ authorized_plain
  have hlocation : location plainLibrary "http://1.2.3.4" =
      some ⟨"http".toList, .address (.v4 0x01020304), 80, []⟩ := by decide +kernel
  obtain rfl := Option.some.inj (hlocation.symm.trans hl)
  refine ⟨endpoints, environment, allowed, hendpoints, henvironment, hrestrict, (hdial _).mpr ?_⟩
  refine ⟨.v4 0x01020304, 80, by decide +kernel, rfl, (hallowed _).mpr ?_⟩
  exact ⟨"1.2.3.4", List.mem_singleton_self _, .v4 0x01020304, by decide +kernel, rfl⟩

end MultiSpeed.Providers.LibreSpeed
