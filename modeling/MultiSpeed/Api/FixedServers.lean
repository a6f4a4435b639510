import MultiSpeed.Api.Authorities
import MultiSpeed.Providers.Discovery
import MultiSpeed.Providers.PinnedRuns

/-!
# Fixed servers

`confirmFixedServer` searches for the ID of the server, as a user would for a name, and
looks for the server among the first 200 that the search finds.
-/

namespace MultiSpeed.Api

open Concurrent Execution Network Providers

def confirmFixedServer {C : Type} {A : C → Type} (quote : String → String) (provider : Provider A)
    (serverID : String) (request : ServerListRequest) : Program A (Option Text) :=
  if !provider.capabilities.fixedServerIDs then
    pure (some (utf8 "this provider does not support fixed server IDs"))
  else if !provider.capabilities.serverDiscovery then pure none
  else do
    match ← provider.listServers { request with search := serverID, limit := 200 } with
    | .error message => pure (some (utf8 "bound server discovery failed: " ++ message))
    | .ok items =>
        if items.any fun item ↦ item.id = serverID then pure none
        else
          pure (some (utf8 ("server ID " ++ quote serverID ++
            " was not returned by bound provider discovery")))

/-! ## Searching for an ID -/

section

variable {α : Type} {found key : α → Bool}

/-- What is looked for is among the first that are found, unless they stand before it. -/
theorem exists_take_filter_iff (hkey : ∀ a, key a = true → found a = true) (items : List α)
    (limit : ℕ) : (∃ a ∈ (items.filter found).take limit, key a = true) ↔
      (∃ a ∈ items, key a = true) ∧
        ((items.takeWhile fun a ↦ !key a).filter found).length < limit := by
  induction items generalizing limit with
  | nil => simp
  | cons a items ih =>
      cases ha : key a with
      | true =>
          rw [List.filter_cons_of_pos (hkey a ha), List.takeWhile_cons_of_neg (by simp [ha])]
          cases limit with
          | zero => simp
          | succ limit => simp [ha]
      | false =>
          rw [List.takeWhile_cons_of_pos (by simp [ha])]
          have hrest : (∃ b ∈ a :: items, key b = true) ↔ ∃ b ∈ items, key b = true := by
            simp [ha]
          rw [hrest]
          cases hfound : found a with
          | false =>
              rw [List.filter_cons_of_neg (by simp [hfound]),
                List.filter_cons_of_neg (by simp [hfound])]
              exact ih limit
          | true =>
              rw [List.filter_cons_of_pos hfound, List.filter_cons_of_pos hfound]
              cases limit with
              | zero => simp
              | succ limit =>
                  rw [List.take_succ_cons, List.length_cons, Nat.succ_lt_succ_iff, ← ih limit]
                  simp [ha]

end

section

variable {lower : Char → Char} {serverID : String}

theorem isDigit_of_numericID (h : numericID serverID = true) :
    ∀ c ∈ serverID.toList, c.isDigit = true := by
  rw [numericID, Bool.and_eq_true] at h
  exact List.all_eq_true.mp h.2

theorem lower_digit (hlower : LawfulLower lower) {c : Char} (hc : c.isDigit = true) :
    lower c = c := by
  have hsmall : c.toNat < 128 := (Char.isDigit_iff_toNat.mp hc).2.trans_lt (by decide)
  have hsame : c.isDigit = true → c.toLower = c := by
    apply Utf8.forall_ascii _ hsmall
    decide +kernel
  rw [hlower.ascii c hsmall, hsame hc]

theorem toLower_numericID (hlower : LawfulLower lower) (h : numericID serverID = true) :
    toLower lower serverID = serverID := by
  rw [toLower, List.map_congr_left fun c hc ↦ lower_digit hlower (isDigit_of_numericID h c hc),
    List.map_id', String.ofList_toList]

theorem trimmed_numericID (h : numericID serverID = true) : trimmed serverID = serverID := by
  have hgraphic : ∀ c ∈ serverID.toList, Graphic c := by
    intro c hc
    exact graphic_of_isDigit (isDigit_of_numericID h c hc)
  have htrimmed := trimmed_of_graphic hgraphic
  rwa [String.ofList_toList] at htrimmed

/-- The search for an ID finds every server whose ID begins with it. -/
theorem matchesSearch_of_isPrefix (hlower : LawfulLower lower) (hid : numericID serverID = true)
    {fields : ProviderServer → List String} {item : ProviderServer} {others : List String}
    (hfields : fields item = item.id :: others) (h : serverID.toList <+: item.id.toList) :
    matchesSearch lower fields serverID item = true := by
  have hprefix : item.id.toList <+: (joinSpace (fields item)).toList := by
    rw [hfields, joinSpace, String.toList_ofList]
    cases others with
    | nil => simp
    | cons other others =>
        simp only [List.map_cons, List.intercalate, List.intersperse_cons_cons, List.flatten_cons]
        exact List.prefix_append _ _
  have hlowered : serverID.toList <:+: (toLower lower (joinSpace (fields item))).toList := by
    have hsame := congrArg String.toList (toLower_numericID hlower hid)
    rw [toLower, String.toList_ofList] at hsame ⊢
    have hmap := (h.trans hprefix).map lower
    rw [hsame] at hmap
    exact hmap.isInfix
  rw [matchesSearch, Statistics.contains, decide_eq_true hlowered, Bool.or_true]

end

/-! ## Confirmations -/

/-- A confirmation is a discovery, and ends as its answer says. -/
theorem confirmFixedServer_runs {C : Type} {A : C → Type} {quote : String → String}
    {provider : Provider A} {serverID : String} {request : ServerListRequest}
    {trace : List (Sigma A)} {confirmed : Option Text}
    (hcapabilities : provider.capabilities = ⟨true, true⟩)
    (h : (confirmFixedServer quote provider serverID request).Runs trace confirmed) :
    ∃ answer, (provider.listServers { request with search := serverID, limit := 200 }).Runs trace
        answer ∧
      (confirmed = none ↔ ∃ items, answer = .ok items ∧ ∃ item ∈ items, item.id = serverID) := by
  rw [confirmFixedServer, hcapabilities] at h
  obtain ⟨front, answer, back, rfl, hfront, hback⟩ := Program.runs_bind.mp h
  refine ⟨answer, ?_⟩
  cases answer with
  | error message =>
      obtain ⟨rfl, rfl⟩ := Program.Runs.done_iff.mp hback
      rw [List.append_nil]
      exact ⟨hfront, by simp⟩
  | ok items =>
      simp only at hback
      split at hback
      · rename_i hany
        obtain ⟨rfl, rfl⟩ := Program.Runs.done_iff.mp hback
        rw [List.append_nil]
        refine ⟨hfront, fun _ ↦ ⟨items, rfl, ?_⟩, fun _ ↦ rfl⟩
        simpa using hany
      · rename_i hany
        obtain ⟨rfl, rfl⟩ := Program.Runs.done_iff.mp hback
        rw [List.append_nil]
        refine ⟨hfront, ?_⟩
        constructor
        · exact fun hnone ↦ absurd hnone (Option.some_ne_none _)
        · rintro ⟨_, hitems, hmem⟩
          cases hitems
          exact absurd (by simpa using hmem) hany

theorem runs_confirmFixedServer {C : Type} {A : C → Type} (quote : String → String)
    {provider : Provider A} {serverID : String} {request : ServerListRequest}
    {trace : List (Sigma A)} {items : List ProviderServer}
    (hcapabilities : provider.capabilities = ⟨true, true⟩)
    (h : (provider.listServers { request with search := serverID, limit := 200 }).Runs trace
      (.ok items)) :
    ∃ confirmed, (confirmFixedServer quote provider serverID request).Runs trace confirmed := by
  rw [confirmFixedServer, hcapabilities]
  cases hany : items.any fun item ↦ item.id = serverID with
  | true =>
      refine ⟨none, Program.runs_bind.mpr ⟨_, _, [], (List.append_nil _).symm, h, ?_⟩⟩
      simp only [if_pos hany]
      exact .done _
  | false =>
      apply Exists.intro
      apply Program.runs_bind.mpr
      refine ⟨_, _, [], (List.append_nil _).symm, h, ?_⟩
      simp only [hany, Bool.false_eq_true, if_false]
      exact .done _

/-- A run of the confirmation by one of the adapters, whose command lists `items`; the
adapter searches in these fields. -/
inductive Confirms (lower : Char → Char) (quote : String → String) (serverID : String)
    (items : List ProviderServer) : (ProviderServer → List String) → Option Text → Prop where
  | libreSpeed {a : LibreSpeed.Adapter} {parseServers : Text → Except Text (List ProviderServer)}
      {request : ServerListRequest} {trace : List (Sigma LibreSpeed.Call.Answer)} {stdout : Text}
      {confirmed : Option Text}
      (hadapter : a.listed = listedBy parseServers (LibreSpeed.filterServers lower))
      (hstdout : LibreSpeed.Listed trace stdout) (hitems : parseServers stdout = .ok items)
      (hruns : (confirmFixedServer quote (LibreSpeed.provider a) serverID request).Runs trace
        confirmed) :
      Confirms lower quote serverID items LibreSpeed.serverFields confirmed
  | ookla {a : Ookla.Adapter} {parseServerList : Text → Except Text (List ProviderServer)}
      {request : ServerListRequest} {trace : List (Sigma Ookla.Call.Answer)} {stdout : Text}
      {confirmed : Option Text}
      (hadapter : a.listed = listedBy parseServerList (Ookla.filterServers lower))
      (hstdout : Ookla.Listed trace stdout) (hitems : parseServerList stdout = .ok items)
      (hruns : (confirmFixedServer quote (Ookla.provider a) serverID request).Runs trace
        confirmed) :
      Confirms lower quote serverID items Ookla.serverFields confirmed

section

variable {lower : Char → Char} {quote : String → String} {serverID : String}
  {items : List ProviderServer} {fields : ProviderServer → List String} {confirmed : Option Text}

/-- The ID is looked for among the first 200 servers that the search finds. -/
theorem Confirms.none_iff (h : Confirms lower quote serverID items fields confirmed) :
    confirmed = none ↔
      ∃ item ∈ filterServersBy lower fields items serverID 200, item.id = serverID := by
  cases h with
  | libreSpeed hadapter hstdout hitems hruns =>
      obtain ⟨answer, hanswer, hnone⟩ := confirmFixedServer_runs rfl hruns
      have hlisted := LibreSpeed.listServers_listed hanswer hstdout
      rw [hadapter, listedBy, hitems] at hlisted
      rw [hnone, hlisted]
      constructor
      · rintro ⟨_, hfound, hmem⟩
        cases hfound
        exact hmem
      · exact fun hmem ↦ ⟨_, rfl, hmem⟩
  | ookla hadapter hstdout hitems hruns =>
      obtain ⟨answer, hanswer, hnone⟩ := confirmFixedServer_runs rfl hruns
      have hlisted := Ookla.listServers_listed hanswer hstdout
      rw [hadapter, listedBy, hitems] at hlisted
      rw [hnone, hlisted]
      constructor
      · rintro ⟨_, hfound, hmem⟩
        cases hfound
        exact hmem
      · exact fun hmem ↦ ⟨_, rfl, hmem⟩

/-- Every adapter searches in the ID first. -/
theorem Confirms.fields_eq (h : Confirms lower quote serverID items fields confirmed)
    (item : ProviderServer) : ∃ others, fields item = item.id :: others := by
  cases h with
  | libreSpeed => exact ⟨_, rfl⟩
  | ookla => exact ⟨_, rfl⟩

/-- The servers before the first one with the ID that the search for the ID finds too. -/
def standBefore (lower : Char → Char) (fields : ProviderServer → List String) (serverID : String)
    (items : List ProviderServer) : List ProviderServer :=
  (items.takeWhile fun item ↦ item.id ≠ serverID).filter (matchesSearch lower fields serverID)

theorem Confirms.none_iff_standBefore (hlower : LawfulLower lower)
    (hid : numericID serverID = true) (h : Confirms lower quote serverID items fields confirmed) :
    confirmed = none ↔ (∃ item ∈ items, item.id = serverID) ∧
      (standBefore lower fields serverID items).length < 200 := by
  have hkey : ∀ item : ProviderServer, decide (item.id = serverID) = true →
      matchesSearch lower fields serverID item = true := by
    intro item hitem
    obtain ⟨others, hothers⟩ := h.fields_eq item
    have hprefix : serverID.toList <+: item.id.toList :=
      of_decide_eq_true hitem ▸ List.prefix_rfl
    exact matchesSearch_of_isPrefix hlower hid hothers hprefix
  have hfirst := exists_take_filter_iff hkey items 200
  have hsearch : filterServersBy lower fields items serverID 200 =
      (items.filter (matchesSearch lower fields serverID)).take 200 := by
    have hfilter := filterServersBy_eq lower fields items serverID (Nat.succ_pos 199) le_rfl
    rwa [trimmed_numericID hid, toLower_numericID hlower hid] at hfilter
  have hnot : (fun item : ProviderServer ↦ !decide (item.id = serverID)) =
      fun item ↦ decide (item.id ≠ serverID) := by
    funext item
    simp
  rw [h.none_iff, standBefore, ← hnot, hsearch]
  simpa only [decide_eq_true_eq] using hfirst

/-- The confirmation says what the list says unless 200 other servers that hold the ID in
one of their fields stand before the server. -/
theorem confirmFixedServer_exact_iff (hlower : LawfulLower lower)
    (hid : numericID serverID = true) (h : Confirms lower quote serverID items fields confirmed) :
    (confirmed = none ↔ ∃ item ∈ items, item.id = serverID) ↔
      ((∃ item ∈ items, item.id = serverID) →
        (standBefore lower fields serverID items).length < 200) := by
  rw [h.none_iff_standBefore hlower hid]
  exact and_iff_left_iff_imp

end

/-! ## A crowded list -/

/-- An adapter whose command lists these servers. -/
def listingAdapter (items : List ProviderServer) : LibreSpeed.Adapter :=
  { LibreSpeed.plainAdapter with
    listed := listedBy (fun _ ↦ .ok items) (LibreSpeed.filterServers Char.toLower) }

def listingRequest : ServerListRequest := ⟨"eth0", "5.6.7.8", "ipv4", "", 0⟩

/-- A line of the list of the command. -/
def listingLine (item : ProviderServer) : String :=
  item.id ++ ": " ++ item.name ++ " (http://" ++ item.host ++ "/)\n"

def quoted (text : String) : String := "\"" ++ text ++ "\""

def patchedVersion : Text := utf8 "librespeed-cli v1.0.12+multispeed.dns2.xnet061"

theorem confirms_listing (quote : String → String) (serverID : String) (items : List ProviderServer) :
    ∃ confirmed, Confirms Char.toLower quote serverID items LibreSpeed.serverFields confirmed := by
  have hversion : decoded (sanitizeOutput patchedVersion 512) ≠ "" ∧
      Statistics.contains (decoded (sanitizeOutput patchedVersion 512))
        LibreSpeed.requiredDNSPatchMarker = true := by decide +kernel
  have hruns := @LibreSpeed.runs_discovery (listingAdapter items)
    { listingRequest with search := serverID, limit := 200 } patchedVersion
    (items.flatMap fun item ↦ utf8 (listingLine item)) hversion.1 hversion.2
  obtain ⟨confirmed, hconfirmed⟩ := @runs_confirmFixedServer _ _ quote
    (LibreSpeed.provider (listingAdapter items)) serverID listingRequest _ _ rfl hruns
  exact ⟨confirmed, @Confirms.libreSpeed _ _ _ _ (listingAdapter items) (fun _ ↦ .ok items) _ _ _ _ rfl
    (LibreSpeed.listed_discovery _ _ _ _) rfl hconfirmed⟩

/-- The server `7` after 200 servers that hold a seven in their ID. -/
def crowded : List ProviderServer :=
  (List.range 200).map (fun n ↦
    ⟨toString (7000 + n), "Crowd", "crowd.test", "", "Crowd", ""⟩) ++
    [⟨"7", "Seven", "seven.test", "", "Seven", ""⟩]

/-- After half of them it is confirmed. -/
theorem confirmFixedServer_exact_iff_half : Confirms Char.toLower quoted "7" (crowded.drop 100)
    LibreSpeed.serverFields none := by
  obtain ⟨confirmed, hconfirms⟩ := confirms_listing quoted "7" (crowded.drop 100)
  have hcount : (standBefore Char.toLower LibreSpeed.serverFields "7" (crowded.drop 100)).length <
      200 := by
    apply lt_of_le_of_lt (List.length_filter_le _ _)
    decide +kernel
  have hexact := (confirmFixedServer_exact_iff lawful_toLower (by decide) hconfirms).mpr
    fun _ ↦ hcount
  have hmem : ∃ item ∈ crowded.drop 100, item.id = "7" := by
    decide +kernel
  rwa [hexact.mpr hmem] at hconfirms

/-- The list offers the server, and the confirmation refuses it. -/
theorem confirmFixedServer_crowded : ∃ confirmed,
    Confirms Char.toLower quoted "7" crowded LibreSpeed.serverFields confirmed ∧
      numericID "7" = true ∧ ¬(confirmed = none ↔ ∃ item ∈ crowded, item.id = "7") := by
  obtain ⟨confirmed, hconfirms⟩ := confirms_listing quoted "7" crowded
  refine ⟨confirmed, hconfirms, by decide, ?_⟩
  rw [hconfirms.none_iff_standBefore lawful_toLower (by decide)]
  have hcount : ¬(standBefore Char.toLower LibreSpeed.serverFields "7" crowded).length < 200 := by
    have hsevens : ∀ item ∈ crowded, "7".toList <+: item.id.toList := by
      decide +kernel
    have hall : ∀ item ∈ crowded.takeWhile fun item ↦ item.id ≠ "7",
        matchesSearch Char.toLower LibreSpeed.serverFields "7" item = true := by
      intro item hitem
      have hmem := (List.takeWhile_prefix _).subset hitem
      exact matchesSearch_of_isPrefix lawful_toLower (by decide) rfl (hsevens item hmem)
    rw [standBefore, List.filter_eq_self.mpr hall]
    decide +kernel
  have hmem : ∃ item ∈ crowded, item.id = "7" := by
    decide +kernel
  exact fun h ↦ hcount (h.mpr hmem).2

end MultiSpeed.Api
