import MultiSpeed.Api.Admission

/-!
# Trusted hosts

The host policy of a configuration: what it admits, and that it admits every trusted host
of the configuration.
-/

namespace MultiSpeed.Api

open AddressText Execution Network Providers

section

variable {lower : Char → Char}

/-! ## Addresses and names as hosts -/

theorem exists_parse_of_parseIP {s : List Char} {ip : BitVec 128}
    (h : Address.parseIP s = some ip) : ∃ a, Address.parse s = some a ∧ a.zone = [] := by
  rw [Address.parseIP] at h
  cases hparse : Address.parse s with
  | none =>
      rw [hparse] at h
      cases h
  | some a =>
      rw [hparse] at h
      simp only at h
      split at h
      · rename_i hzone
        exact ⟨a, rfl, hzone⟩
      · cases h

theorem ipText_ne_nil (ip : BitVec 128) : Address.ipText ip ≠ [] := by
  intro hnil
  have hparse := Address.parseIP_ipText ip
  rw [hnil] at hparse
  cases hparse

theorem normalizeHost_of_graphic {s : List Char} (h : ∀ c ∈ s, Graphic c) :
    normalizeHost lower s =
      match Address.parseIP (s.map lower) with
      | some ip => Address.ipText ip
      | none => s.map lower := by
  have htrim : trimSpaces s = s := by
    rw [trimSpaces, trimmed_of_graphic h, String.toList_ofList]
  cases hparse : Address.parseIP (s.map lower) with
  | some ip => simp only [normalizeHost, htrim, hparse]
  | none => simp only [normalizeHost, htrim, hparse]

theorem hostText_of_parseIP (hlower : LawfulLower lower) {s : List Char} {ip : BitVec 128}
    (h : Address.parseIP s = some ip) : HostText lower s (Address.ipText ip) := by
  obtain ⟨a, hparse, hzone⟩ := exists_parse_of_parseIP h
  have hclean : ∀ c ∈ s, Clean c ∧ c ≠ '[' ∧ c ≠ ']' := by
    intro c hc
    have hcharacter := Address.addressCharacter_of_parse hparse
      (Address.percent_not_mem_of_parse hparse hzone) hc
    have hfacts : addressCharacter c → (32 < c.toNat ∧ c.toNat < 127) ∧
        forbidden c = false ∧ c ≠ '[' ∧ c ≠ ']' := by
      apply Utf8.forall_ascii _ (lt_of_addressCharacter hcharacter)
      decide +kernel
    obtain ⟨hgraphic, hforbidden, hbrackets⟩ := hfacts hcharacter
    exact ⟨⟨hgraphic, hforbidden⟩, hbrackets⟩
  refine ⟨hclean, ?_, ?_, ipText_ne_nil ip, ?_⟩
  · rintro rfl
    cases hparse
  · rw [normalizeHost_of_graphic fun c hc ↦ (hclean c hc).1.1, parseIP_lower hlower, h]
  · rw [validHostNameOrIP, Address.parseIP_ipText]
    rfl

/-- Every text of an address is read as the address. -/
theorem parseAuthority_spells (hlower : LawfulLower lower) {ip : BitVec 128}
    {portText : Option (List Char)} {a : List Char} (h : Spells ip portText a) :
    parseAuthority lower a = withPort (Address.ipText ip) portText := by
  obtain ⟨s, hs, rfl | ⟨hplain, rfl⟩⟩ := h
  · exact parseAuthority_bracketed portText (hostText_of_parseIP hlower hs)
  · obtain ⟨a, hparse, hzone⟩ := exists_parse_of_parseIP hs
    cases portText with
    | none =>
        rw [portSuffix, List.append_nil]
        apply parseAuthority_bare (hostText_of_parseIP hlower hs)
        rcases Address.count_colon_of_parse hparse hzone with hcount | hcount
        · exact .inl (List.count_eq_zero.mp hcount)
        · refine .inr ⟨by omega, ?_⟩
          rw [hs]
          exact Option.some_ne_none ip
    | some t =>
        have hcolon : ':' ∉ s := by
          rcases hplain with h | h
          · cases h
          · exact h
        apply parseAuthority_port (hostText_of_parseIP hlower hs) hcolon
        intro _
        rw [Address.parseIP, Address.parse_append_colon hparse hcolon]

theorem hostText_of_name (hlower : LawfulLower lower) {name : List Char}
    (hname : validHostname name) (hparse : Address.parseIP name = none) :
    HostText lower name name := by
  have hplain := plainCharacter_of_validHostname hname
  have hgraphic : ∀ c ∈ name, Graphic c := fun c hc ↦ graphic_of_plainCharacter (hplain c hc)
  have hsame := map_lower_of_plainCharacter hlower.ascii hplain
  refine ⟨?_, validHostname_ne_nil hname, ?_, validHostname_ne_nil hname, ?_⟩
  · intro c hc
    have hne (m : Char) (hm : plainCharacter m = false) : c ≠ m :=
      ne_of_plainCharacter (hplain c hc) hm
    refine ⟨⟨hgraphic c hc, ?_⟩, hne '[' (by decide), hne ']' (by decide)⟩
    rw [forbidden, decide_eq_false_iff_not]
    intro hmem
    simp only [List.mem_cons, List.not_mem_nil, or_false] at hmem
    rcases hmem with h | h | h | h | h | h <;> exact hne _ (by decide) h
  · rw [normalizeHost_of_graphic hgraphic, hsame, hparse]
  · rw [validHostNameOrIP, hname, Bool.or_true]

/-! ## Ports -/

theorem portNumber_toDigits {n : ℕ} (hn : 1 ≤ n ∧ n ≤ 65535) :
    portNumber (Nat.toDigits 10 n) = some n := by
  have hdigit : ∀ c, (Nat.toDigits 10 n).head? = some c → c.isDigit := fun c hc ↦
    isDigit_toDigits c (List.mem_of_mem_head? hc)
  have hminus : (Nat.toDigits 10 n).head? ≠ some '-' := by
    intro h
    cases hdigit _ h
  have hplus : (Nat.toDigits 10 n).head? ≠ some '+' := by
    intro h
    cases hdigit _ h
  have hatoi : atoi (Nat.toDigits 10 n) = some (n : ℤ) := by
    rw [atoi]
    simp only [if_neg (not_or.mpr ⟨hminus, hplus⟩), if_neg hminus, if_neg Nat.toDigits_ne_nil,
      number?_toDigits (show 1 < 10 by decide) (show 10 ≤ 16 by decide)]
    rw [if_neg (by omega)]
  rw [portNumber, hatoi]
  simp only
  rw [if_neg (by omega), Int.toNat_natCast]

theorem portNumber_range {portText : List Char} {n : ℕ} (h : portNumber portText = some n) :
    1 ≤ n ∧ n ≤ 65535 := by
  rw [portNumber] at h
  split at h
  · cases h
  · split at h
    · cases h
    · obtain rfl := Option.some.inj h
      omega

/-! ## The policy -/

/-- The listen address, which has a default. -/
def HTTPPolicy.listenText (policy : HTTPPolicy) : List Char :=
  (if policy.listenAddress = "" then "127.0.0.1:8787" else policy.listenAddress).toList

/-- A host that a policy accepts. -/
def Trustable (lower : Char → Char) (host : String) : Prop :=
  normalizeHost lower host.toList ≠ [] ∧ validHostNameOrIP (normalizeHost lower host.toList)

theorem trustHosts_eq_some_iff {hosts : List String} {trusted result : Finset (List Char)} :
    hosts.foldlM (trustHost lower) trusted = some result ↔
      (∀ host ∈ hosts, Trustable lower host) ∧
        result = trusted ∪ (hosts.map fun host ↦ normalizeHost lower host.toList).toFinset := by
  induction hosts generalizing trusted with
  | nil =>
      rw [List.foldlM_nil]
      simp [eq_comm]
  | cons host hosts ih =>
      rw [List.foldlM_cons, trustHost]
      by_cases hhost : Trustable lower host
      · have hvalid : ¬(normalizeHost lower host.toList = [] ∨
            (!validHostNameOrIP (normalizeHost lower host.toList)) = true) := by
          rw [not_or]
          exact ⟨hhost.1, by simp [hhost.2]⟩
        simp only [if_neg hvalid, Option.bind_eq_bind, Option.bind_some, ih]
        simp only [List.mem_cons, forall_eq_or_imp, hhost, true_and, List.map_cons,
          List.toFinset_cons, Finset.insert_union, Finset.union_insert]
      · have hvalid : normalizeHost lower host.toList = [] ∨
            (!validHostNameOrIP (normalizeHost lower host.toList)) = true := by
          by_contra hcontra
          rw [not_or] at hcontra
          exact hhost ⟨hcontra.1, by simpa using hcontra.2⟩
        simp only [if_pos hvalid, Option.bind_eq_bind, Option.bind_none]
        exact iff_of_false nofun fun h ↦ hhost (h.1 host List.mem_cons_self)

/-- What a policy has of its configuration. -/
structure PolicyOf (lower : Char → Char) (policy : HTTPPolicy) (p : HostPolicy) : Prop where
  listen : ∃ hostText portText, splitHostPort policy.listenText = .ok (hostText, portText) ∧
    portNumber portText = some p.listenPort ∧ p.listenHost = normalizeHost lower hostText
  listenIP : p.listenIP = Address.parseIP p.listenHost
  wildcard : p.wildcard = true ↔
    p.listenHost = [] ∨ ∃ ip, p.listenIP = some ip ∧ isUnspecified ip = true
  trusted : ∀ host, host ∈ p.trusted ↔
    ∃ t ∈ policy.trustedHosts, host = normalizeHost lower t.toList

theorem policyOf_newHostPolicy {policy : HTTPPolicy} {p : HostPolicy}
    (h : newHostPolicy lower policy = some p) : PolicyOf lower policy p := by
  rw [newHostPolicy] at h
  cases hsplit : splitHostPort policy.listenText with
  | error err =>
      rw [HTTPPolicy.listenText] at hsplit
      simp only [hsplit] at h
      cases h
  | ok parts =>
      obtain ⟨hostText, portText⟩ := parts
      have hsplit' := hsplit
      rw [HTTPPolicy.listenText] at hsplit'
      simp only [hsplit'] at h
      cases hport : portNumber portText with
      | none =>
          rw [hport] at h
          cases h
      | some listenPort =>
          rw [hport] at h
          cases hfold : policy.trustedHosts.foldlM (trustHost lower) ∅ with
          | none =>
              rw [hfold] at h
              cases h
          | some trusted =>
              simp only [hfold, Option.some.injEq] at h
              subst h
              obtain ⟨-, rfl⟩ := trustHosts_eq_some_iff.mp hfold
              refine ⟨⟨hostText, portText, hsplit, hport, ?_⟩, ?_, ?_, ?_⟩
              · dsimp only
              · dsimp only
              · rw [Bool.or_eq_true, decide_eq_true_eq, Option.any_eq_true]
              · intro host
                simp [eq_comm]

/-- Why a host is admitted. -/
inductive Admits (lower : Char → Char) (policy : HTTPPolicy) (p : HostPolicy)
    (snapshot : Option (List NetworkInterface)) (host : List Char) : Prop
  | trusted (t : String) (ht : t ∈ policy.trustedHosts)
      (heq : host = normalizeHost lower t.toList)
  | localhost (heq : host = "localhost".toList)
  | listenHost (hwildcard : p.wildcard = false) (hname : Address.parseIP host = none)
      (heq : host = p.listenHost)
  | loopback (ip : BitVec 128) (hip : Address.parseIP host = some ip) (h : isLoopback ip = true)
  | listenIP (ip : BitVec 128) (hip : Address.parseIP host = some ip)
      (hwildcard : p.wildcard = false) (h : p.listenIP = some ip)
  | assigned (ip : BitVec 128) (hip : Address.parseIP host = some ip)
      (interfaces : List NetworkInterface) (hsnapshot : snapshot = some interfaces)
      (h : assigned interfaces ip = true)
  | wildcard (ip : BitVec 128) (hip : Address.parseIP host = some ip)
      (hwildcard : p.wildcard = true) (hunspecified : isUnspecified ip = false)
      (hmulticast : isMulticast ip = false)

theorem allows_spec {policy : HTTPPolicy} {p : HostPolicy} (hp : PolicyOf lower policy p)
    {snapshot : Option (List NetworkInterface)} {a : List Char}
    (h : p.allows lower snapshot a = true) :
    ∃ host port, parseAuthority lower a = some (host, port) ∧
      (∀ n ∈ port, n = p.listenPort) ∧ Admits lower policy p snapshot host := by
  rw [HostPolicy.allows] at h
  cases hparse : parseAuthority lower a with
  | none =>
      rw [hparse] at h
      cases h
  | some read =>
      obtain ⟨host, port⟩ := read
      rw [hparse] at h
      simp only at h
      split at h
      · cases h
      rename_i hport
      refine ⟨host, port, rfl, ?_, ?_⟩
      · intro n hn
        by_contra hne
        apply hport
        rw [Option.any_eq_true]
        exact ⟨n, hn, by simpa using hne⟩
      split at h
      · rename_i hmem
        obtain ⟨t, ht, heq⟩ := (hp.trusted host).mp hmem
        exact .trusted t ht heq
      split at h
      · rename_i hlocal
        exact .localhost hlocal
      cases hip : Address.parseIP host with
      | none =>
          rw [hip] at h
          simp only [Bool.and_eq_true, Bool.not_eq_true', decide_eq_true_eq] at h
          exact .listenHost h.1.1 hip h.2
      | some ip =>
          rw [hip] at h
          simp only at h
          split at h
          · cases h
          rename_i hconcrete
          rw [Bool.not_eq_true, Bool.or_eq_false_iff] at hconcrete
          split at h
          · rename_i hloopback
            exact .loopback ip hip hloopback
          split at h
          · rename_i hwildcard
            exact .wildcard ip hip hwildcard hconcrete.1 hconcrete.2
          rename_i hwildcard
          split at h
          · rename_i hlisten
            exact .listenIP ip hip (Bool.not_eq_true _ ▸ hwildcard) hlisten
          split at h
          · cases h
          · exact .assigned ip hip _ rfl h

/-- An authority that is read as a trusted host and the listen port is admitted. -/
theorem allows_of_trusted {p : HostPolicy} {snapshot : Option (List NetworkInterface)}
    {a host : List Char} {port : Option ℕ} (hparse : parseAuthority lower a = some (host, port))
    (hport : ∀ n ∈ port, n = p.listenPort) (hhost : host ∈ p.trusted) :
    p.allows lower snapshot a = true := by
  have hsame : port.any (· ≠ p.listenPort) = false := by
    rw [Option.any_eq_false]
    intro n hn
    simpa using hport n hn
  rw [HostPolicy.allows, hparse]
  simp only
  rw [hsame, if_neg Bool.false_ne_true, if_pos hhost]

/-! ## The configuration -/

/-- A host as the configuration keeps it. -/
def Configured (host : String) : Prop :=
  (∃ ip, host.toList = Address.ipText ip) ∨
    Address.parseIP host.toList = none ∧ validHostname host.toList

theorem configured_of_addTrustedHost {quote : String → String} {hosts hosts' : List String}
    {item : List Char} (hall : ∀ host ∈ hosts, Configured host)
    (h : addTrustedHost lower quote hosts item = .ok hosts') :
    ∀ host ∈ hosts', Configured host := by
  have hadd (host : List Char) (hhost : Configured (String.ofList host))
      (heq : (if String.ofList host ∈ hosts then Except.ok hosts
        else .ok (hosts ++ [String.ofList host]) : Except String (List String)) = .ok hosts') :
      ∀ host ∈ hosts', Configured host := by
    split at heq
    · obtain rfl := Except.ok.inj heq
      exact hall
    · obtain rfl := Except.ok.inj heq
      intro host' hmem
      rcases List.mem_append.mp hmem with hmem | hmem
      · exact hall host' hmem
      · rw [List.mem_singleton.mp hmem]
        exact hhost
  rw [addTrustedHost] at h
  simp only at h
  split at h
  · cases h
  cases hparse : Address.parseIP ((trimSpaces item).map lower) with
  | some ip =>
      rw [hparse] at h
      exact hadd _ (.inl ⟨ip, String.toList_ofList⟩) h
  | none =>
      rw [hparse] at h
      simp only at h
      split at h
      · rename_i hname
        exact hadd _ (.inr (by rw [String.toList_ofList]; exact ⟨hparse, hname⟩)) h
      · cases h

theorem configured_of_parseTrustedHosts {quote : String → String} {raw : String}
    {hosts : List String} (h : parseTrustedHosts lower quote raw = .ok hosts) :
    ∀ host ∈ hosts, Configured host := by
  rw [parseTrustedHosts] at h
  split at h
  · obtain rfl := Except.ok.inj h
    simp
  · apply Loops.foldlM_invariant _ _ h
    · rintro item - hosts hosts' hall hstep
      exact configured_of_addTrustedHost hall hstep
    · simp

theorem hostText_of_configured (hlower : LawfulLower lower) {host : String}
    (h : Configured host) : HostText lower host.toList host.toList := by
  rcases h with ⟨ip, hip⟩ | ⟨hparse, hname⟩
  · rw [hip]
    exact hostText_of_parseIP hlower (Address.parseIP_ipText ip)
  · exact hostText_of_name hlower hname hparse

theorem parseAuthority_configured (hlower : LawfulLower lower) {host : String}
    (h : Configured host) {port : ℕ} (hport : 1 ≤ port ∧ port ≤ 65535) :
    parseAuthority lower host.toList = some (host.toList, none) ∧
      parseAuthority lower (joinHostPort host.toList (Nat.toDigits 10 port)) =
        some (host.toList, some port) := by
  have hhost := hostText_of_configured hlower h
  have hread : withPort host.toList (some (Nat.toDigits 10 port)) =
      some (host.toList, some port) := by
    rw [withPort, portNumber_toDigits hport, Option.map_some]
  constructor
  · rcases h with ⟨ip, hip⟩ | ⟨hparse, hname⟩
    · have hspells : Spells ip none host.toList :=
        ⟨host.toList, by rw [hip, Address.parseIP_ipText],
          .inr ⟨.inl rfl, (List.append_nil _).symm⟩⟩
      rw [parseAuthority_spells hlower hspells, ← hip, withPort]
    · apply parseAuthority_bare hhost
      left
      intro hmem
      exact ne_of_plainCharacter (plainCharacter_of_validHostname hname _ hmem) (by decide) rfl
  · rw [joinHostPort, ← hread]
    split
    · have hbracketed := parseAuthority_bracketed (some (Nat.toDigits 10 port)) hhost
      simpa [portSuffix] using hbracketed
    · rename_i hcolon
      have hplain := @parseAuthority_port lower _ _ (Nat.toDigits 10 port) hhost hcolon
        fun hmem ↦ absurd hmem (not_mem_toDigits (by decide) (by decide) (by decide))
      simpa using hplain

/-- A configuration that is accepted has a policy. -/
theorem newHostPolicy_of_configured (hlower : LawfulLower lower) {quote : String → String}
    {address raw : String} {hosts : List String} (haddress : validateListenAddress lower address = none)
    (hhosts : parseTrustedHosts lower quote raw = .ok hosts) :
    ∃ p, newHostPolicy lower ⟨address, hosts⟩ = some p := by
  have hne : address ≠ "" := by
    rintro rfl
    cases haddress
  have htrusted : ∀ host ∈ hosts, Trustable lower host := by
    intro host hhost
    have htext := hostText_of_configured hlower (configured_of_parseTrustedHosts hhosts host hhost)
    rw [Trustable, htext.normalize]
    exact htext.valid
  have hfold := (@trustHosts_eq_some_iff lower hosts ∅ _).mpr ⟨htrusted, rfl⟩
  rw [validateListenAddress] at haddress
  cases hsplit : splitHostPort address.toList with
  | error err =>
      rw [hsplit] at haddress
      cases haddress
  | ok parts =>
      obtain ⟨hostText, portText⟩ := parts
      rw [hsplit] at haddress
      cases hport : portNumber portText with
      | none =>
          simp only [hport] at haddress
          cases haddress
      | some port =>
          rw [newHostPolicy]
          simp only [if_neg hne, hsplit, hport, hfold]
          exact ⟨_, rfl⟩

/-! ## What the policy admits -/

/-- The host policy of a configuration, at every snapshot of the interfaces. -/
theorem allows_hostPolicy (hlower : LawfulLower lower) {policy : HTTPPolicy} {p : HostPolicy}
    (hp : newHostPolicy lower policy = some p) (snapshot : Option (List NetworkInterface)) :
    PolicyOf lower policy p ∧
    (∀ a, p.allows lower snapshot a = true → ∃ hostText portText,
      Writes hostText portText a ∧ (∀ t ∈ portText, portNumber t = some p.listenPort) ∧
      Admits lower policy p snapshot (normalizeHost lower hostText)) ∧
    (∀ a host port, p.allows lower snapshot a = true →
      parseAuthority lower a = some (host, port) → Address.parseIP host = none →
      host = "localhost".toList ∨ (∃ t ∈ policy.trustedHosts, host = normalizeHost lower t.toList) ∨
        p.wildcard = false ∧ host = p.listenHost) ∧
    (∀ a b, a.map lower = b.map lower → p.allows lower snapshot a = p.allows lower snapshot b) ∧
    (∀ ip portText a b, Spells ip portText a → Spells ip portText b →
      p.allows lower snapshot a = p.allows lower snapshot b) ∧
    ∀ quote raw, parseTrustedHosts lower quote raw = .ok policy.trustedHosts →
      ∀ host ∈ policy.trustedHosts, p.allows lower snapshot host.toList = true ∧
        p.allows lower snapshot (joinHostPort host.toList (Nat.toDigits 10 p.listenPort)) =
          true := by
  have hpolicy := policyOf_newHostPolicy hp
  refine ⟨hpolicy, ?_, ?_, ?_, ?_, ?_⟩
  · intro a h
    obtain ⟨host, port, hparse, hport, hadmits⟩ := allows_spec hpolicy h
    obtain ⟨hostText, portText, hwrites, hhost, hnumbers, -⟩ := parseAuthority_spec hparse
    rw [hhost] at hadmits
    refine ⟨hostText, portText, hwrites, ?_, hadmits⟩
    intro t ht
    obtain rfl : portText = some t := ht
    cases port with
    | none => cases hnumbers
    | some n =>
        rw [← hport n rfl]
        exact Option.some.inj hnumbers
  · intro a host port h hparse hname
    obtain ⟨host', port', hparse', -, hadmits⟩ := allows_spec hpolicy h
    rw [hparse] at hparse'
    obtain ⟨rfl, -⟩ := Prod.mk.inj (Option.some.inj hparse')
    cases hadmits with
    | trusted t ht heq => exact .inr (.inl ⟨t, ht, heq⟩)
    | localhost heq => exact .inl heq
    | listenHost hwildcard _ heq => exact .inr (.inr ⟨hwildcard, heq⟩)
    | loopback ip hip => exact absurd (hname.symm.trans hip) nofun
    | listenIP ip hip => exact absurd (hname.symm.trans hip) nofun
    | assigned ip hip => exact absurd (hname.symm.trans hip) nofun
    | wildcard ip hip => exact absurd (hname.symm.trans hip) nofun
  · intro a b hab
    rw [HostPolicy.allows, HostPolicy.allows, parseAuthority_congr hlower hab]
  · intro ip portText a b ha hb
    rw [HostPolicy.allows, HostPolicy.allows, parseAuthority_spells hlower ha,
      parseAuthority_spells hlower hb]
  · intro quote raw hraw host hhost
    have hconfigured := configured_of_parseTrustedHosts hraw host hhost
    obtain ⟨-, portText, -, hlisten, -⟩ := hpolicy.listen
    obtain ⟨hbare, hwith⟩ :=
      parseAuthority_configured hlower hconfigured (portNumber_range hlisten)
    have hmem : host.toList ∈ p.trusted := (hpolicy.trusted _).mpr
      ⟨host, hhost, (hostText_of_configured hlower hconfigured).normalize.symm⟩
    constructor
    · exact allows_of_trusted hbare (by simp) hmem
    · exact allows_of_trusted hwith (by simp) hmem

end

/-! ## A wildcard listener -/

/-- A policy that admits every address, and one name. -/
def wildcardPolicy : HTTPPolicy where
  listenAddress := "0.0.0.0:8787"
  trustedHosts := ["a.test"]

theorem newHostPolicy_wildcard : ∃ p, newHostPolicy Char.toLower wildcardPolicy = some p ∧
    p.listenPort = 8787 := by
  refine ⟨⟨"0.0.0.0".toList, some 0xffff00000000, 8787, true, {"a.test".toList}⟩, ?_, rfl⟩
  decide +kernel

/-- Two texts of an address, and two of a name. -/
theorem allows_wildcardPolicy : ∃ p, newHostPolicy Char.toLower wildcardPolicy = some p ∧
    p.allows Char.toLower none "[::FFFF:1.2.3.4]:8787".toList =
      p.allows Char.toLower none "1.2.3.4:8787".toList ∧
    p.allows Char.toLower none "A.Test".toList = p.allows Char.toLower none "a.test".toList ∧
    p.allows Char.toLower none "a.test:8787".toList = true := by
  obtain ⟨p, hp, hport⟩ := newHostPolicy_wildcard
  obtain ⟨-, -, -, hcase, hspelling, htrusted⟩ := allows_hostPolicy lawful_toLower hp none
  refine ⟨p, hp, hspelling 0xffff01020304 (some "8787".toList) _ _ ?_ ?_, hcase _ _ rfl, ?_⟩
  · exact ⟨"::FFFF:1.2.3.4".toList, by decide +kernel, .inl rfl⟩
  · exact ⟨"1.2.3.4".toList, by decide +kernel, .inr ⟨.inr (by decide), rfl⟩⟩
  · have hadmitted := (htrusted id "a.test" (by decide +kernel) "a.test" (by simp [wildcardPolicy])).2
    rw [hport] at hadmitted
    exact hadmitted

end MultiSpeed.Api
