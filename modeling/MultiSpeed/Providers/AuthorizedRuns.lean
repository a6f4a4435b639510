import MultiSpeed.Api.Authorities
import MultiSpeed.Providers.PinnedRuns

/-!
# Authorized runs

`Adapter.Run` looks up the host of a custom server, and starts the command with a test, only
for a target that `Validate` accepts: one that points where an entry of the allowlist of the
deployment points.
-/

namespace MultiSpeed.Providers

open AddressText Concurrent Execution Network

/-- The target points where an entry of the allowlist points, at the host `host`, and opts
in where nothing is encrypted on the way. -/
def Matches (lib : URLLibrary) (entries : List String) (target : TestTarget)
    (host : List Char) : Prop :=
  ∃ entry ∈ entries, ∃ l, location lib entry = some l ∧ location lib target.serverURL = some l ∧
    serverHost lib host = l.host ∧
    (l.scheme = "http".toList →
      LibreSpeed.optionBool target.customServerDefinition "allowInsecure" = true)

section

variable {lib : URLLibrary} {entries : List String} {policy : CustomServerURLPolicy}
  {raw url : String} {allowInsecure : Bool}

/-- An authorized URL points where an entry points. -/
theorem entry_of_authorize (hlib : LawfulURLs lib)
    (hpolicy : newCustomServerURLPolicy lib entries = .ok policy)
    (h : policy.authorize lib raw allowInsecure = .ok url) :
    ∃ entry ∈ entries, ∃ l, location lib entry = some l ∧ location lib raw = some l ∧ l.Valid ∧
      url = String.ofList l.text ∧ (l.scheme = "http".toList → allowInsecure = true) := by
  obtain ⟨l, hl, hvalid, htext⟩ := LibreSpeed.location_of_authorize hlib h
  obtain ⟨hurl, -, hraw, hinsecure⟩ := (authorize_ok_iff hlib hpolicy).mp h
  rw [mem_urls] at hurl
  obtain ⟨entry, hentry, hcanonical⟩ := ((newCustomServerURLPolicy_ok_iff.mp hpolicy).2 url).mp hurl
  refine ⟨entry, hentry, l, ?_, ?_, hvalid, htext, ?_⟩
  · rw [← location_canonical hlib hcanonical, hl]
  · rw [← hraw, hl]
  · exact fun hhttp ↦ hinsecure ⟨l, hl, hhttp⟩

/-- An authorized text is no other than one that has a canonical form. -/
theorem parsed_of_authorize (h : policy.authorize lib raw allowInsecure = .ok url) :
    ∃ u, lib.parseRequestURI raw.toList = some u ∧ '%' ∉ u.hostname ∧
      (u.location lib).Valid := by
  rw [CustomServerURLPolicy.authorize] at h
  split at h
  · cases h
  · rename_i canonical hcanonical
    obtain ⟨-, u, hparse, -, ⟨hpercent, -⟩, hvalid, -⟩ := canonicalCustomServerURL_spec hcanonical
    exact ⟨u, hparse, hpercent, hvalid⟩

end

namespace LibreSpeed

section

variable {a : Adapter} {request : RunRequest} {entries : List String} {target : TestTarget}

/-- An accepted custom target is authorized. -/
theorem authorized_of_validate (hmode : target.selectionMode = "custom")
    (h : validate a target = none) :
    ∃ url, a.customServers.authorize a.lib target.serverURL
      (optionBool target.customServerDefinition "allowInsecure") = .ok url := by
  rw [validate, hmode] at h
  simp only at h
  split at h
  · cases h
  split at h
  · cases h
  · rename_i url hurl
    exact ⟨url, hurl⟩

/-- A call of a run: for a target that is not accepted it asks no resolver and starts
nothing but the question for the version, and it asks for no host but that of an entry. -/
def RunsAuthorized (a : Adapter) (entries : List String) (target : TestTarget) : Call → Prop
  | .lookupIPAddr _ host => target.selectionMode = "custom" ∧ validate a target = none ∧
      Matches a.lib entries target host.toList
  | .newResolver _ => target.selectionMode = "custom" ∧ validate a target = none
  | .process p => p.arguments = ["--version"] ∨ validate a target = none
  | .lookPath _ => True

theorem only_resolve_authorized (hlib : LawfulURLs a.lib)
    (hpolicy : newCustomServerURLPolicy a.lib entries = .ok a.customServers)
    (hmode : target.selectionMode = "custom") (hvalidate : validate a target = none)
    {url sourceIP ipFamily : String}
    (hurl : a.customServers.authorize a.lib target.serverURL
      (optionBool target.customServerDefinition "allowInsecure") = .ok url) :
    (resolveCustomServerIPs a.lib url sourceIP ipFamily).Only (RunsAuthorized a entries target) := by
  obtain ⟨entry, hentry, l, hlocation, hraw, hvalid, rfl, hinsecure⟩ :=
    entry_of_authorize hlib hpolicy hurl
  have hhost := hvalid.serverHost hlib
  rw [resolveCustomServerIPs, String.toList_ofList, hvalid.parse_text hlib]
  simp only
  split
  · exact Program.Only.pure
  split
  · exact Program.Only.pure
  split
  · exact Program.Only.pure
  split
  · exact Program.Only.pure
  split
  · exact Program.Only.pure
  split
  · exact Program.Only.pure
  apply Program.Only.perform (c := Call.newResolver _) ⟨hmode, hvalidate⟩
  rintro (message | _)
  · exact Program.Only.pure
  apply Program.Only.perform (c := Call.lookupIPAddr _ _)
  · refine ⟨hmode, hvalidate, entry, hentry, l, hlocation, hraw, ?_, hinsecure⟩
    rwa [String.toList_ofList]
  · rintro (message | addresses) <;> exact Program.Only.pure

theorem only_run_authorized (hlib : LawfulURLs a.lib)
    (hpolicy : newCustomServerURLPolicy a.lib entries = .ok a.customServers) :
    (run a request).Only (RunsAuthorized a entries request.target) := by
  apply (only_availability trivial (.inl rfl)).bind
  intro availability
  split
  · exact Program.Only.pure
  split
  · exact Program.Only.pure
  rename_i hvalidate
  have hfinish : ∀ result err,
      (finishRun a request result err).Only (RunsAuthorized a entries request.target) :=
    fun _ _ ↦ only_finishRun (.inl rfl)
  split
  · rename_i hmode
    rw [runCustom]
    split
    · exact Program.Only.pure
    rename_i url hurl
    split
    · exact Program.Only.pure
    apply (only_resolve_authorized hlib hpolicy hmode hvalidate hurl).bind
    rintro (message | ips)
    · exact Program.Only.pure
    simp only
    split
    · exact Program.Only.pure
    split
    · exact Program.Only.pure
    apply Program.Only.perform (c := Call.process _) (.inr hvalidate)
    exact fun _ ↦ hfinish _ _
  · apply Program.Only.perform (c := Call.process _) (.inr hvalidate)
    exact fun _ ↦ hfinish _ _

end

end LibreSpeed

end MultiSpeed.Providers
