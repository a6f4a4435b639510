import MultiSpeed.Lib.AddressZones
import MultiSpeed.Api.HostPolicy

/-!
# Source-bound resolvers

The resolver of `internal/network/resolver.go` and the one the overlay of the LibreSpeed
CLI has, `third_party/librespeed/source_bound_resolver.go`: where each of them sends the
queries of a measurement.
-/

namespace MultiSpeed.Network

open AddressText Execution Providers Api

/-- `net.IP`: four bytes, sixteen, or another number of them. -/
inductive IP where
  | nil
  | four (bits : BitVec 32)
  | sixteen (bits : BitVec 128)
  | other
  deriving DecidableEq

namespace IP

def to4 : IP → Option (BitVec 32)
  | four bits => some bits
  | sixteen bits => if isIPv4 bits then some (BitVec.ofNat 32 bits.toNat) else none
  | _ => none

def to16 : IP → Option (BitVec 128)
  | four bits => some (Address.v4 bits).toIP
  | sixteen bits => some bits
  | _ => none

end IP

/-- What a resolver dials, and from which address. -/
structure Dial where
  network : String
  localAddress : IP
  target : List Char

inductive ResolverError where
  /-- `dns resolver endpoint must be a numeric IP and port: `, with the error of the parser. -/
  | numeric (address : List Char)
  /-- `dns resolver endpoint must be a concrete unicast address` -/
  | unicast
  /-- `unsupported DNS resolver network `, with the quoted name. -/
  | unsupported (networkName : String)
  deriving DecidableEq

/-! ## The server -/

def boundDNSFallbackIPv4 : List Char := "1.1.1.1:53".toList

def boundDNSFallbackIPv6 : List Char := "[2606:4700:4700::1111]:53".toList

/-- `net.IPv4bcast` -/
def ipv4bcast : BitVec 128 := 0xFFFFFFFFFFFF#128

/-- The check of a normalized source. -/
def concreteSource (normalized : IP) (ip : BitVec 128) (family : ℕ) : Except String (IP × ℕ) :=
  if isUnspecified ip || isMulticast ip || ip = ipv4bcast then
    .error "source IP must be a concrete unicast address"
  else .ok (normalized, family)

def normalizeConcreteSourceIP (sourceIP : IP) : Except String (IP × ℕ) :=
  if sourceIP = .nil then .error "source IP is required"
  else
    match sourceIP.to4, sourceIP.to16 with
    | some ipv4, _ => concreteSource (.four ipv4) (Address.v4 ipv4).toIP 4
    | none, some ipv6 => concreteSource (.sixteen ipv6) ipv6 6
    | none, none => .error "source IP is invalid"

def parseResolverNetwork (networkName : String) : Except ResolverError (String × ℕ) :=
  match networkName with
  | "udp" => .ok ("udp", 0)
  | "udp4" => .ok ("udp", 4)
  | "udp6" => .ok ("udp", 6)
  | "tcp" => .ok ("tcp", 0)
  | "tcp4" => .ok ("tcp", 4)
  | "tcp6" => .ok ("tcp", 6)
  | _ => .error (.unsupported networkName)

def resolverEndpoint (address : List Char) (family : ℕ) : Except ResolverError (List Char) :=
  match Endpoint.parse address with
  | none => .error (.numeric address)
  | some (ip, port) =>
      let serverIP := ip.unmap
      let serverFamily := if serverIP.is6 then 6 else 4
      if serverIP.isUnspecified || serverIP.isMulticast then .error .unicast
      else if serverFamily ≠ family ∨ serverIP.isLoopback = true then
        if family = 4 then .ok boundDNSFallbackIPv4 else .ok boundDNSFallbackIPv6
      else .ok (joinHostPort serverIP.text (Nat.toDigits 10 port))

/-- The `Dial` of the resolver. -/
def resolverDial (normalized : IP) (family : ℕ) (requestedNetwork : String)
    (address : List Char) : Except ResolverError Dial :=
  match parseResolverNetwork requestedNetwork with
  | .error e => .error e
  | .ok (transport, _) =>
      match resolverEndpoint address family with
      | .error e => .error e
      | .ok canonicalAddress => .ok ⟨transport ++ toString family, normalized, canonicalAddress⟩

def newSourceBoundResolver (sourceIP : IP) :
    Except String (String → List Char → Except ResolverError Dial) :=
  match normalizeConcreteSourceIP sourceIP with
  | .error e => .error e
  | .ok (normalized, family) => .ok (resolverDial normalized family)

/-! ## The overlay -/

namespace Speedtest

/-- The text before the last `%`. -/
def withoutZone (host : List Char) : List Char :=
  match cutLast '%' host with
  | none => host
  | some (before, _) => before

def resolverMatchesFamily (address : List Char) (ipv4 : Bool) : Bool :=
  match splitHostPort address with
  | .error _ => false
  | .ok (host, _) =>
      match Address.parseIP (withoutZone host) with
      | none => false
      | some ip =>
          if isUnspecified ip || isLoopback ip || isMulticast ip then false
          else isIPv4 ip = ipv4

/-- The `Dial` of the resolver; in production nothing is overridden. -/
def resolverDial (sourceIP : IP) (resolverOverride : List (List Char)) (network : String)
    (address : List Char) : Dial :=
  let ipv4 := sourceIP.to4.isSome
  let fallbackAddress :=
    if ipv4 then "1.1.1.1:53".toList else "[2606:4700:4700::1111]:53".toList
  let forcedAddress :=
    match resolverOverride with
    | [override] => override
    | _ => []
  let target :=
    if forcedAddress = [] then
      if resolverMatchesFamily address ipv4 then address else fallbackAddress
    else forcedAddress
  let transport := if "tcp".toList.isPrefixOf network.toList then "tcp" else "udp"
  ⟨transport ++ if ipv4 then "4" else "6", sourceIP, target⟩

end Speedtest

/-! ## The policy -/

/-- An address that is asked from a source of the family. -/
structure Usable (family : ℕ) (ip : BitVec 128) : Prop where
  family : isIPv4 ip = true ↔ family = 4
  loopback : isLoopback ip = false
  unspecified : isUnspecified ip = false
  multicast : isMulticast ip = false

/-- The public resolver of a family. -/
def publicFallback (family : ℕ) : BitVec 128 × ℕ :=
  if family = 4 then (0xFFFF01010101#128, 53) else (0x26064700470000000000000000001111#128, 53)

/-- The address and the port of a numeric endpoint, by value. -/
def pointsTo (endpoint : List Char) : Option (BitVec 128 × ℕ) :=
  (Endpoint.parse endpoint).map fun e ↦ (e.1.toIP, e.2)

/-- Where both binaries choose a target it is the same one, and the right one. -/
def SameChoice (sourceIP : IP) (family : ℕ) (address : List Char) : Prop :=
  ∀ target, resolverEndpoint address family = .ok target →
    ∀ resolver, pointsTo address = some resolver → ∀ network, ∃ chosen,
      pointsTo target = some chosen ∧
      pointsTo (Speedtest.resolverDial sourceIP [] network address).target = some chosen ∧
      Usable family chosen.1 ∧
      (chosen = resolver ↔ Usable family resolver.1) ∧
      (¬Usable family resolver.1 → chosen = publicFallback family)

/-- Both binaries choose one target, and the server's resolver dials what it has chosen over
the network, and from the source, that the overlay uses. -/
structure SameTarget (sourceIP : IP) (family : ℕ) (address : List Char) : Prop where
  choice : SameChoice sourceIP family address
  dial : ∀ resolver, newSourceBoundResolver sourceIP = .ok resolver →
    ∀ network server, resolver network address = .ok server →
      let overlay := Speedtest.resolverDial sourceIP [] network address
      resolverEndpoint address family = .ok server.target ∧
        server.network = overlay.network ∧
        server.localAddress.to16 = overlay.localAddress.to16

/-- No part of the zone looks like a part of the endpoint. -/
def PlainZone (zone : List Char) : Prop := ∀ c ∈ zone, c ≠ '[' ∧ c ≠ ']' ∧ c ≠ '%'

/-! ## Fallbacks -/

theorem usable_publicFallback {family : ℕ} (hfamily : family = 4 ∨ family = 6) :
    Usable family (publicFallback family).1 := by
  rcases hfamily with rfl | rfl
  · exact ⟨by decide, by decide, by decide, by decide⟩
  · exact ⟨by decide, by decide, by decide, by decide⟩

theorem pointsTo_text {a : Address} {port : ℕ} (hport : port < 65536) :
    pointsTo (Endpoint.text (a, port)) = some (a.toIP, port) := by
  rw [pointsTo, Endpoint.parse_text hport]
  rfl

theorem pointsTo_fallback (family : ℕ) :
    pointsTo (if family = 4 then boundDNSFallbackIPv4 else boundDNSFallbackIPv6) =
      some (publicFallback family) := by
  have hport : 53 < 65536 := by decide
  have h4 : Endpoint.text (.v4 0x01010101#32, 53) = boundDNSFallbackIPv4 := by decide +kernel
  have h6 : Endpoint.text (.v6 0x26064700470000000000000000001111#128 [], 53) =
      boundDNSFallbackIPv6 := by
    decide +kernel
  rw [publicFallback]
  split
  · rw [← h4, pointsTo_text hport]
    rfl
  · rw [← h6, pointsTo_text hport]
    rfl

theorem joinHostPort_text (a : Address) (port : ℕ) :
    joinHostPort a.text (Nat.toDigits 10 port) = Endpoint.text (a, port) := by
  cases a with
  | v4 bits =>
      have hcolon : ':' ∉ (Address.v4 bits).text := by
        intro hmem
        rcases mem_octetsText hmem with h | h <;> cases h
      rw [joinHostPort, if_neg hcolon, Endpoint.text, List.append_assoc]
      rfl
  | v6 bits zone =>
      have hcolon : ':' ∈ (Address.v6 bits zone).text :=
        List.mem_append_left _ (Address.colon_mem_text6 bits)
      rw [joinHostPort, if_pos hcolon, Endpoint.text]
      simp

/-! ## Families -/

theorem concreteSource_ok {normalized normalized' : IP} {ip : BitVec 128}
    {family family' : ℕ}
    (h : concreteSource normalized' ip family' = .ok (normalized, family)) :
    normalized = normalized' ∧ family = family' := by
  rw [concreteSource] at h
  split at h
  · cases h
  · obtain ⟨rfl, rfl⟩ := Prod.mk.inj (Except.ok.inj h)
    exact ⟨rfl, rfl⟩

theorem normalizeConcreteSourceIP_family {sourceIP normalized : IP} {family : ℕ}
    (h : normalizeConcreteSourceIP sourceIP = .ok (normalized, family)) :
    family = if sourceIP.to4.isSome then 4 else 6 := by
  rw [normalizeConcreteSourceIP] at h
  split at h
  · cases h
  · split at h
    · rename_i hfour
      rw [hfour]
      exact (concreteSource_ok h).2
    · rename_i hfour hsixteen
      rw [hfour]
      exact (concreteSource_ok h).2
    · cases h

/-- A source is normalized without another value. -/
theorem normalizeConcreteSourceIP_to16 {sourceIP normalized : IP} {family : ℕ}
    (h : normalizeConcreteSourceIP sourceIP = .ok (normalized, family)) :
    normalized.to16 = sourceIP.to16 := by
  rw [normalizeConcreteSourceIP] at h
  cases sourceIP with
  | nil | other => cases h
  | four bits =>
      obtain ⟨rfl, -⟩ := concreteSource_ok h
      rfl
  | sixteen bits =>
      by_cases hmapped : isIPv4 bits = true
      · rw [if_neg IP.noConfusion, IP.to4, if_pos hmapped] at h
        obtain ⟨rfl, -⟩ := concreteSource_ok h
        have hv4 : Address.ofIP bits = .v4 (BitVec.ofNat 32 bits.toNat) := if_pos hmapped
        have hvalue := Address.toIP_ofIP bits
        rw [hv4] at hvalue
        exact congrArg some hvalue
      · rw [if_neg IP.noConfusion, IP.to4, if_neg hmapped] at h
        obtain ⟨rfl, -⟩ := concreteSource_ok h
        rfl

/-- Both binaries use one transport of one family. -/
theorem network_eq_of_resolverDial {sourceIP normalized : IP} {family : ℕ}
    (hsource : normalizeConcreteSourceIP sourceIP = .ok (normalized, family))
    {requestedNetwork : String} {address : List Char} {dial : Dial}
    (h : resolverDial normalized family requestedNetwork address = .ok dial) :
    dial.network = (Speedtest.resolverDial sourceIP [] requestedNetwork address).network := by
  have hfamily := normalizeConcreteSourceIP_family hsource
  rw [resolverDial] at h
  split at h
  · cases h
  rename_i transport version hnetwork
  split at h
  · cases h
  obtain rfl := Except.ok.inj h
  have hoverlay : (Speedtest.resolverDial sourceIP [] requestedNetwork address).network =
      (if "tcp".toList.isPrefixOf requestedNetwork.toList then "tcp" else "udp") ++
        if sourceIP.to4.isSome then "4" else "6" := rfl
  rw [hoverlay, hfamily]
  unfold parseResolverNetwork at hnetwork
  split at hnetwork <;> cases hnetwork <;> cases sourceIP.to4.isSome <;> rfl

/-- The server's resolver dials its choice as the overlay would. -/
theorem dial_of_newSourceBoundResolver {sourceIP normalized : IP} {family : ℕ}
    (hsource : normalizeConcreteSourceIP sourceIP = .ok (normalized, family))
    {resolver : String → List Char → Except ResolverError Dial}
    (hresolver : newSourceBoundResolver sourceIP = .ok resolver) {network : String}
    {address : List Char} {server : Dial} (h : resolver network address = .ok server) :
    let overlay := Speedtest.resolverDial sourceIP [] network address
    resolverEndpoint address family = .ok server.target ∧ server.network = overlay.network ∧
      server.localAddress.to16 = overlay.localAddress.to16 := by
  rw [newSourceBoundResolver, hsource] at hresolver
  obtain rfl := Except.ok.inj hresolver
  have hnetwork := network_eq_of_resolverDial hsource h
  rw [resolverDial] at h
  split at h
  · cases h
  split at h
  · cases h
  · rename_i target htarget
    obtain rfl := Except.ok.inj h
    exact ⟨htarget, hnetwork, normalizeConcreteSourceIP_to16 hsource⟩

/-! ## The server's choice -/

theorem isUnspecified_unmap (a : Address) :
    a.unmap.isUnspecified = (isUnspecified a.toIP && (isIPv4 a.toIP || a.zone = [] : Bool)) := by
  have hlt := a.toIP.isLt
  rw [Address.unmap_eq, isUnspecified, isIPv4]
  by_cases hmapped : Address.mapped a.toIP
  · have hhigh : a.toIP.toNat / 2 ^ 32 = 0xFFFF := of_decide_eq_true hmapped
    rw [if_pos hmapped, Address.isUnspecified, BitVec.toNat_ofNat, decide_eq_true hhigh,
      Bool.true_or, Bool.and_true, Bool.eq_iff_iff, Bool.or_eq_true]
    simp only [decide_eq_true_eq]
    omega
  · have hhigh : ¬a.toIP.toNat / 2 ^ 32 = 0xFFFF := fun h ↦ hmapped (decide_eq_true h)
    have hne : ¬a.toIP.toNat = 0xFFFF * 2 ^ 32 := by omega
    rw [if_neg hmapped, Address.isUnspecified, decide_eq_false hhigh, decide_eq_false hne,
      Bool.false_or, Bool.or_false]

theorem isMulticast_unmap (a : Address) : a.unmap.isMulticast = isMulticast a.toIP := by
  rw [Address.isMulticast, Address.unmap_eq a.unmap, Address.toIP_unmap, isMulticast, isIPv4]
  by_cases hmapped : Address.mapped a.toIP
  · have hhigh : a.toIP.toNat / 2 ^ 32 = 0xFFFF := of_decide_eq_true hmapped
    rw [if_pos hmapped, decide_eq_true hhigh, if_pos rfl]
    apply decide_eq_decide.mpr
    rw [BitVec.toNat_ofNat]
    omega
  · have hhigh : ¬a.toIP.toNat / 2 ^ 32 = 0xFFFF := fun h ↦ hmapped (decide_eq_true h)
    rw [if_neg hmapped, decide_eq_false hhigh, if_neg Bool.false_ne_true]

theorem isLoopback_unmap (a : Address) : a.unmap.isLoopback = isLoopback a.toIP := by
  rw [Address.isLoopback, Address.unmap_eq a.unmap, Address.toIP_unmap, isLoopback, isIPv4]
  by_cases hmapped : Address.mapped a.toIP
  · have hhigh : a.toIP.toNat / 2 ^ 32 = 0xFFFF := of_decide_eq_true hmapped
    rw [if_pos hmapped, decide_eq_true hhigh, if_pos rfl]
    apply decide_eq_decide.mpr
    rw [BitVec.toNat_ofNat]
    omega
  · have hhigh : ¬a.toIP.toNat / 2 ^ 32 = 0xFFFF := fun h ↦ hmapped (decide_eq_true h)
    rw [if_neg hmapped, decide_eq_false hhigh, if_neg Bool.false_ne_true]

/-- What the server does with a numeric endpoint. -/
inductive Chooses (family : ℕ) (a : Address) (port : ℕ) : Except ResolverError (List Char) → Prop
  | refused
      (h : isMulticast a.toIP = true ∨
        isUnspecified a.toIP = true ∧ (isIPv4 a.toIP = true ∨ a.zone = [])) :
      Chooses family a port (.error .unicast)
  | resolver (target : List Char) (htarget : pointsTo target = some (a.toIP, port))
      (h : Usable family a.toIP) : Chooses family a port (.ok target)
  | zoned (target : List Char) (htarget : pointsTo target = some (a.toIP, port))
      (h : isUnspecified a.toIP = true) (hzone : a.zone ≠ []) (hip : isIPv4 a.toIP = false)
      (hfamily : family ≠ 4) : Chooses family a port (.ok target)
  | fallback (target : List Char) (htarget : pointsTo target = some (publicFallback family))
      (h : isMulticast a.toIP = false)
      (hother : ¬(isIPv4 a.toIP = true ↔ family = 4) ∨ isLoopback a.toIP = true) :
      Chooses family a port (.ok target)

theorem serverFamily_eq_iff {family : ℕ} (hfamily : family = 4 ∨ family = 6) (a : Address) :
    (if a.unmap.is6 then 6 else 4) = family ↔ (isIPv4 a.toIP = true ↔ family = 4) := by
  have hmapped : Address.mapped a.toIP = isIPv4 a.toIP := rfl
  rw [Address.is6_unmap, hmapped]
  rcases hfamily with rfl | rfl
  · cases isIPv4 a.toIP <;> simp
  · cases isIPv4 a.toIP <;> simp

theorem chooses_resolverEndpoint {family : ℕ} (hfamily : family = 4 ∨ family = 6)
    {address : List Char} {a : Address} {port : ℕ}
    (hparse : Endpoint.parse address = some (a, port)) :
    Chooses family a port (resolverEndpoint address family) := by
  obtain ⟨-, digits, hdigits, -⟩ := Endpoint.text_of_parse hparse
  have hport : port < 65536 := Endpoint.port_lt hdigits
  have htext : pointsTo (Endpoint.text (a.unmap, port)) = some (a.toIP, port) := by
    rw [pointsTo_text hport, Address.toIP_unmap]
  rw [resolverEndpoint, hparse]
  simp only [ne_eq, serverFamily_eq_iff hfamily, isUnspecified_unmap, isMulticast_unmap,
    isLoopback_unmap, joinHostPort_text]
  split
  · rename_i hrefused
    apply Chooses.refused
    rcases Bool.or_eq_true_iff.mp hrefused with h | h
    · obtain ⟨hunspecified, h⟩ := Bool.and_eq_true_iff.mp h
      refine .inr ⟨hunspecified, ?_⟩
      rcases Bool.or_eq_true_iff.mp h with h | h
      · exact .inl h
      · exact .inr (of_decide_eq_true h)
    · exact .inl h
  · rename_i haccepted
    obtain ⟨hconcrete, hmulticast⟩ := Bool.or_eq_false_iff.mp (Bool.not_eq_true _ ▸ haccepted)
    split
    · rename_i hother
      rw [← apply_ite]
      exact .fallback _ (pointsTo_fallback family) hmulticast hother
    · rename_i hsame
      rw [not_or, not_not, Bool.not_eq_true] at hsame
      obtain ⟨hversion, hloopback⟩ := hsame
      cases hunspecified : isUnspecified a.toIP with
      | false => exact .resolver _ htext ⟨hversion, hloopback, hunspecified, hmulticast⟩
      | true =>
          rw [hunspecified, Bool.true_and] at hconcrete
          obtain ⟨hip, hzone⟩ := Bool.or_eq_false_iff.mp hconcrete
          refine .zoned _ htext hunspecified (of_decide_eq_false hzone) hip ?_
          intro h4
          rw [hversion.mpr h4] at hip
          cases hip

/-! ## The overlay's choice -/

/-- An endpoint of version 4 is split where its port begins. -/
theorem splitHostPort_plain {host port : List Char} (hhost : ∀ c ∈ host, c = '.' ∨ c.isDigit)
    (hport : ∀ c ∈ port, c.isDigit) : splitHostPort (host ++ ':' :: port) = .ok (host, port) := by
  have hdigit : ∀ c ∈ ([':', '[', ']'] : List Char), c ∉ host ∧ c ∉ port := by
    intro c hc
    have hnot : ¬(c = '.' ∨ c.isDigit) := by
      simp only [List.mem_cons, List.not_mem_nil, or_false] at hc
      rcases hc with rfl | rfl | rfl <;> decide
    exact ⟨fun hmem ↦ hnot (hhost c hmem), fun hmem ↦ hnot (.inr (hport c hmem))⟩
  obtain ⟨hcolon, hcolon'⟩ := hdigit ':' (by decide)
  obtain ⟨hopen, hopen'⟩ := hdigit '[' (by decide)
  obtain ⟨hclose, hclose'⟩ := hdigit ']' (by decide)
  have hhead : (host ++ ':' :: port).head? ≠ some '[' := by
    intro hhead
    have hmem := List.mem_of_mem_head? hhead
    simp [hopen, hopen'] at hmem
  rw [splitHostPort, cutLast_append hcolon']
  dsimp only
  rw [if_neg hhead]
  simp [hcolon, hopen, hopen', hclose, hclose']

theorem splitHostPort_opened {hostport before port opened rest : List Char}
    (hlast : cutLast ':' hostport = some (before, port)) (hhead : hostport.head? = some '[')
    (hfirst : cutFirst ']' hostport = some (opened, rest)) :
    splitHostPort hostport =
      if rest = [] then .error (addrError hostport "missing port in address")
      else if opened.length + 1 ≠ before.length then
        if rest.head? = some ':' then .error (addrError hostport "too many colons in address")
        else .error (addrError hostport "missing port in address")
      else if '[' ∈ hostport.tail then
        .error (addrError hostport "unexpected '[' in address")
      else if ']' ∈ rest then .error (addrError hostport "unexpected ']' in address")
      else .ok (opened.tail, port) := by
  rw [splitHostPort, hlast]
  dsimp only
  rw [if_pos hhead, hfirst]

theorem splitHostPort_bracket {inner port : List Char} (hport : ':' ∉ port)
    (hclose : ']' ∈ inner) :
    ∃ message, splitHostPort ('[' :: inner ++ ']' :: ':' :: port) = .error message := by
  obtain ⟨opened, rest, rfl, hopened⟩ := List.eq_append_cons_of_mem hclose
  have hlast := @cutLast_append ':' ('[' :: (opened ++ ']' :: rest) ++ [']']) port hport
  have hfirst := @cutFirst_append ']' ('[' :: opened) (rest ++ ']' :: ':' :: port)
    (by simp [hopened])
  rw [List.append_assoc, List.singleton_append] at hlast
  have hsame : '[' :: (opened ++ ']' :: rest) ++ ']' :: ':' :: port =
      '[' :: opened ++ ']' :: (rest ++ ']' :: ':' :: port) := by simp
  rw [← hsame] at hfirst
  rw [splitHostPort_opened hlast rfl hfirst, if_neg (by simp), if_pos (by simp)]
  split
  · exact ⟨_, rfl⟩
  · exact ⟨_, rfl⟩

/-- One in brackets is split if there are no others. -/
theorem splitHostPort_bracketed {inner port : List Char} (hport : ∀ c ∈ port, c.isDigit)
    (hclose : ']' ∉ inner) :
    (∃ message, splitHostPort ('[' :: inner ++ ']' :: ':' :: port) = .error message) ∧
        '[' ∈ inner ∨
      splitHostPort ('[' :: inner ++ ']' :: ':' :: port) = .ok (inner, port) ∧
        '[' ∉ inner := by
  have hcolon : ':' ∉ port := fun hmem ↦ absurd (hport ':' hmem) (by decide)
  have hopen : '[' ∉ port := fun hmem ↦ absurd (hport '[' hmem) (by decide)
  have hclose' : ']' ∉ port := fun hmem ↦ absurd (hport ']' hmem) (by decide)
  have hlast := @cutLast_append ':' ('[' :: inner ++ [']']) port hcolon
  have hfirst := @cutFirst_append ']' ('[' :: inner) (':' :: port) (by simp [hclose])
  rw [List.append_assoc, List.singleton_append] at hlast
  rw [splitHostPort_opened hlast rfl hfirst, if_neg (by simp), if_neg (by simp)]
  by_cases hinner : '[' ∈ inner
  · rw [if_pos (by simp [hinner])]
    exact .inl ⟨⟨_, rfl⟩, hinner⟩
  · rw [if_neg (by simp [hinner, hopen]), if_neg (by simp [hclose'])]
    exact .inr ⟨rfl, hinner⟩

namespace Speedtest

theorem withoutZone_of_not_mem {host : List Char} (h : '%' ∉ host) : withoutZone host = host := by
  rw [withoutZone, cutLast, if_neg h]

theorem withoutZone_append {host zone : List Char} (h : '%' ∉ zone) :
    withoutZone (host ++ '%' :: zone) = host := by
  rw [withoutZone, cutLast_append h]

theorem parseIP_of_zone_nil {s : List Char} {a : Address} (h : Address.parse s = some a)
    (hzone : a.zone = []) : Address.parseIP s = some a.toIP := by
  rw [Address.parseIP, h]
  exact if_pos hzone

/-- The host is read exactly where its zone has no other zone in it. -/
theorem parseIP_withoutZone {host : List Char} {a : Address}
    (h : Address.parse host = some a) :
    Address.parseIP (withoutZone host) = if '%' ∈ a.zone then none else some a.toIP := by
  cases a with
  | v4 bits =>
      have hread := parseIP_of_zone_nil h rfl
      rw [withoutZone_of_not_mem (Address.percent_not_mem_of_parseIP hread), hread]
      exact (if_neg List.not_mem_nil).symm
  | v6 bits zone =>
      obtain ⟨text, rfl, htext, hspelled⟩ := Address.text_of_parse_v6 h
      have hread := parseIP_of_zone_nil htext rfl
      have hpercent := Address.percent_not_mem_of_parseIP hread
      by_cases hzone : zone = []
      · subst hzone
        rw [if_pos rfl, List.append_nil, withoutZone_of_not_mem hpercent, hread]
        exact (if_neg List.not_mem_nil).symm
      · rw [if_neg hzone]
        by_cases hmem : '%' ∈ zone
        · obtain ⟨after, before, hreverse, hafter⟩ :=
            List.eq_append_cons_of_mem (List.mem_reverse.mpr hmem)
          have hsplit : zone = before.reverse ++ '%' :: after.reverse := by
            rw [← List.reverse_reverse zone, hreverse]
            simp
          have hcut : withoutZone (text ++ '%' :: zone) = text ++ '%' :: before.reverse := by
            rw [hsplit, ← List.cons_append, ← List.append_assoc]
            exact withoutZone_append fun h ↦ hafter (List.mem_reverse.mp h)
          rw [hcut, Address.zone, if_pos hmem]
          cases hparse : Address.parseIP (text ++ '%' :: before.reverse) with
          | none => rfl
          | some ip =>
              have hnot := Address.percent_not_mem_of_parseIP hparse
              exact absurd (List.mem_append_right _ List.mem_cons_self) hnot
        · rw [withoutZone_append hmem, hread]
          exact (if_neg hmem).symm

theorem usable_iff (ip : BitVec 128) (ipv4 : Bool) :
    (if isUnspecified ip || isLoopback ip || isMulticast ip then false
      else decide (isIPv4 ip = ipv4)) = true ↔ Usable (if ipv4 then 4 else 6) ip := by
  have hversion : isIPv4 ip = ipv4 ↔ (isIPv4 ip = true ↔ (if ipv4 then 4 else 6) = 4) := by
    cases ipv4 <;> simp
  constructor
  · intro h
    split at h
    · cases h
    · rename_i hnone
      simp only [Bool.or_eq_true, not_or, Bool.not_eq_true] at hnone
      exact ⟨hversion.mp (of_decide_eq_true h), hnone.1.2, hnone.1.1, hnone.2⟩
  · intro h
    rw [h.unspecified, h.loopback, h.multicast, decide_eq_true (hversion.mpr h.family)]
    rfl

/-- A bracket inside of the brackets is one of the zone. -/
theorem bracket_mem_iff {host zone : List Char} {bits : BitVec 128}
    (h : Address.parse host = some (.v6 bits zone)) {c : Char} (hc : c = '[' ∨ c = ']') :
    c ∈ host ↔ c ∈ zone := by
  obtain ⟨text, rfl, -, hspelled⟩ := Address.text_of_parse_v6 h
  have htext : c ∉ text := by
    intro hmem
    obtain ⟨hopen, hclose, -⟩ := addressCharacter_ne (hspelled c hmem)
    exact hc.elim hopen hclose
  have hpercent : c ≠ '%' := by
    rcases hc with rfl | rfl
    · decide
    · decide
  by_cases hzone : zone = []
  · rw [hzone, if_pos rfl, List.append_nil]
    exact iff_of_false htext List.not_mem_nil
  · rw [if_neg hzone, List.mem_append, List.mem_cons]
    exact ⟨fun hmem ↦ (hmem.resolve_left htext).resolve_left hpercent, fun hmem ↦ .inr (.inr hmem)⟩

theorem resolverMatchesFamily_of_split {address host port : List Char} {a : Address}
    (hsplit : splitHostPort address = .ok (host, port)) (h : Address.parse host = some a)
    (ipv4 : Bool) : resolverMatchesFamily address ipv4 = true ↔
      '%' ∉ a.zone ∧ Usable (if ipv4 then 4 else 6) a.toIP := by
  rw [resolverMatchesFamily, hsplit]
  dsimp only
  rw [parseIP_withoutZone h]
  by_cases hpercent : '%' ∈ a.zone
  · rw [if_pos hpercent]
    exact iff_of_false Bool.false_ne_true fun h ↦ h.1 hpercent
  · rw [if_neg hpercent]
    dsimp only
    rw [usable_iff]
    exact (and_iff_right hpercent).symm

theorem resolverMatchesFamily_iff {address : List Char} {a : Address} {port : ℕ}
    (hparse : Endpoint.parse address = some (a, port)) (ipv4 : Bool) :
    resolverMatchesFamily address ipv4 = true ↔
      PlainZone a.zone ∧ Usable (if ipv4 then 4 else 6) a.toIP := by
  obtain ⟨host, digits, hdigits, haddress, rfl⟩ := Endpoint.text_of_parse hparse
  have hport : ∀ c ∈ digits, c.isDigit := fun c hc ↦ Endpoint.isDigit_of_port? hdigits hc
  cases a with
  | v4 bits =>
      have hsplit : splitHostPort (host ++ ':' :: digits) = .ok (host, digits) :=
        splitHostPort_plain (fun c hc ↦ Address.isDigit_of_parse_v4 haddress hc) hport
      refine (resolverMatchesFamily_of_split hsplit haddress ipv4).trans ?_
      exact and_congr_left fun _ ↦ iff_of_true List.not_mem_nil nofun
  | v6 bits zone =>
      have hcolon : ':' ∉ digits := fun hmem ↦ absurd (hport ':' hmem) (by decide)
      have hrefused {message : String}
          (hsplit : splitHostPort ('[' :: host ++ ']' :: ':' :: digits) = .error message) :
          ¬resolverMatchesFamily ('[' :: host ++ ']' :: ':' :: digits) ipv4 = true := by
        rw [resolverMatchesFamily, hsplit]
        exact Bool.false_ne_true
      by_cases hclose : ']' ∈ host
      · obtain ⟨message, hsplit⟩ := splitHostPort_bracket hcolon hclose
        apply iff_of_false (hrefused hsplit)
        intro h
        exact (h.1 ']' ((bracket_mem_iff haddress (.inr rfl)).mp hclose)).2.1 rfl
      · rcases splitHostPort_bracketed hport hclose with
          ⟨⟨message, hsplit⟩, hopen⟩ | ⟨hsplit, hopen⟩
        · apply iff_of_false (hrefused hsplit)
          intro h
          exact (h.1 '[' ((bracket_mem_iff haddress (.inl rfl)).mp hopen)).1 rfl
        · refine (resolverMatchesFamily_of_split hsplit haddress ipv4).trans ?_
          apply and_congr_left
          intro _
          constructor
          · intro hpercent c hc
            refine ⟨?_, ?_, ?_⟩
            · rintro rfl
              exact hopen ((bracket_mem_iff haddress (.inl rfl)).mpr hc)
            · rintro rfl
              exact hclose ((bracket_mem_iff haddress (.inr rfl)).mpr hc)
            · rintro rfl
              exact hpercent hc
          · intro hplain hmem
            exact (hplain '%' hmem).2.2 rfl

/-- The overlay asks the resolver itself or the public one of the family. -/
theorem pointsTo_resolverDial {sourceIP : IP} {family : ℕ}
    (hfamily : family = if sourceIP.to4.isSome then 4 else 6) {address : List Char} {a : Address}
    {port : ℕ} (hparse : Endpoint.parse address = some (a, port)) (network : String) :
    (PlainZone a.zone ∧ Usable family a.toIP →
        pointsTo (resolverDial sourceIP [] network address).target = some (a.toIP, port)) ∧
      (¬(PlainZone a.zone ∧ Usable family a.toIP) →
        pointsTo (resolverDial sourceIP [] network address).target =
          some (publicFallback family)) := by
  have hmatches := resolverMatchesFamily_iff hparse sourceIP.to4.isSome
  rw [← hfamily] at hmatches
  have hfallback : (if sourceIP.to4.isSome then boundDNSFallbackIPv4 else boundDNSFallbackIPv6) =
      if family = 4 then boundDNSFallbackIPv4 else boundDNSFallbackIPv6 := by
    rw [hfamily]
    cases sourceIP.to4.isSome <;> rfl
  have htarget : (resolverDial sourceIP [] network address).target =
      if resolverMatchesFamily address sourceIP.to4.isSome then address
      else if family = 4 then boundDNSFallbackIPv4 else boundDNSFallbackIPv6 := by
    rw [← hfallback]
    rfl
  rw [htarget]
  constructor
  · intro h
    rw [if_pos (hmatches.mpr h), pointsTo, hparse]
    rfl
  · intro h
    rw [if_neg (fun hmatch ↦ h (hmatches.mp hmatch)), pointsTo_fallback]

end Speedtest

/-- An endpoint with which both binaries do the same. -/
structure Agreeable (family : ℕ) (e : Endpoint) : Prop where
  unspecified : e.1.toIP = 0 → family = 6 → e.1.zone = []
  plain : Usable family e.1.toIP → PlainZone e.1.zone ∨ (e.1.toIP, e.2) = publicFallback family

theorem eq_zero_of_isUnspecified {ip : BitVec 128} (h : isUnspecified ip = true)
    (hip : isIPv4 ip = false) : ip = 0 := by
  have hhigh : ¬ip.toNat / 2 ^ 32 = 0xFFFF := of_decide_eq_false hip
  apply BitVec.eq_of_toNat_eq
  rcases Bool.or_eq_true_iff.mp h with h | h
  · exact of_decide_eq_true h
  · have := of_decide_eq_true h
    omega

/-- An endpoint that the server refuses is chosen by no one. -/
theorem agreeable_of_refused {family : ℕ} {a : Address} {port : ℕ}
    (h : isMulticast a.toIP = true ∨
      isUnspecified a.toIP = true ∧ (isIPv4 a.toIP = true ∨ a.zone = [])) :
    Agreeable family (a, port) := by
  refine ⟨fun hzero _ ↦ ?_, fun husable ↦ ?_⟩
  · rw [hzero] at h
    rcases h with h | ⟨-, h | h⟩
    · cases h
    · cases h
    · exact h
  · rw [husable.multicast, husable.unspecified] at h
    rcases h with h | ⟨h, -⟩
    · cases h
    · cases h

theorem not_usable_of_other {family : ℕ} {ip : BitVec 128}
    (h : ¬(isIPv4 ip = true ↔ family = 4) ∨ isLoopback ip = true) : ¬Usable family ip := by
  intro husable
  rcases h with h | h
  · exact h husable.family
  · rw [husable.loopback] at h
    cases h

theorem agreeable_of_other {family : ℕ} {a : Address} {port : ℕ}
    (h : ¬(isIPv4 a.toIP = true ↔ family = 4) ∨ isLoopback a.toIP = true) :
    Agreeable family (a, port) := by
  refine ⟨fun hzero hsix ↦ ?_, fun husable ↦ absurd husable (not_usable_of_other h)⟩
  rw [hzero, hsix] at h
  exact absurd h (by decide)

/-- The two agree on a resolver that may be asked exactly where the overlay reads it. -/
theorem agreeable_iff_of_usable {family : ℕ} {a : Address} {port : ℕ}
    (husable : Usable family a.toIP) :
    Agreeable family (a, port) ↔ PlainZone a.zone ∨ (a.toIP, port) = publicFallback family := by
  refine ⟨fun h ↦ h.plain husable, fun h ↦ ⟨fun hzero ↦ ?_, fun _ ↦ h⟩⟩
  have hunspecified := husable.unspecified
  rw [hzero] at hunspecified
  cases hunspecified

theorem sameChoice_iff {sourceIP normalized : IP} {family : ℕ}
    (hsource : normalizeConcreteSourceIP sourceIP = .ok (normalized, family))
    (address : List Char) :
    SameChoice sourceIP family address ↔
      ∀ e, Endpoint.parse address = some e → Agreeable family e := by
  have hfamily := normalizeConcreteSourceIP_family hsource
  have hfamilies : family = 4 ∨ family = 6 := by
    rw [hfamily]
    cases sourceIP.to4.isSome
    · exact .inr rfl
    · exact .inl rfl
  have hfallback := usable_publicFallback hfamilies
  cases hparse : Endpoint.parse address with
  | none =>
      refine iff_of_true (fun target _ resolver hresolver ↦ ?_) nofun
      rw [pointsTo, hparse] at hresolver
      cases hresolver
  | some e =>
      obtain ⟨a, port⟩ := e
      have hresolver : pointsTo address = some (a.toIP, port) := by
        rw [pointsTo, hparse]
        rfl
      have hoverlay := Speedtest.pointsTo_resolverDial hfamily hparse
      have hchooses := chooses_resolverEndpoint hfamilies hparse
      rw [SameChoice]
      simp only [hresolver, Option.some.injEq, forall_eq']
      generalize resolverEndpoint address family = answer at hchooses ⊢
      cases hchooses with
      | refused h => exact iff_of_true nofun (agreeable_of_refused h)
      | resolver target htarget husable =>
          rw [agreeable_iff_of_usable husable]
          constructor
          · intro hsame
            by_cases hplain : PlainZone a.zone
            · exact .inl hplain
            · obtain ⟨chosen, hserver, hchosen, -⟩ := hsame target rfl "udp"
              rw [htarget] at hserver
              rw [(hoverlay "udp").2 fun h ↦ hplain h.1, ← hserver] at hchosen
              exact .inr (Option.some.inj hchosen).symm
          · intro hagreeable target' htarget' network
            obtain rfl := Except.ok.inj htarget'
            refine ⟨(a.toIP, port), htarget, ?_, husable, iff_of_true rfl husable, absurd husable⟩
            by_cases hplain : PlainZone a.zone
            · exact (hoverlay network).1 ⟨hplain, husable⟩
            · rw [(hoverlay network).2 fun h ↦ hplain h.1, ← hagreeable.resolve_left hplain]
      | zoned target htarget hunspecified hzone hip hnot =>
          apply iff_of_false
          · intro hsame
            obtain ⟨chosen, hserver, -, husable, -⟩ := hsame target rfl "udp"
            rw [htarget] at hserver
            rw [← Option.some.inj hserver] at husable
            rw [husable.unspecified] at hunspecified
            cases hunspecified
          · intro hagreeable
            exact hzone (hagreeable.unspecified (eq_zero_of_isUnspecified hunspecified hip)
              (hfamilies.resolve_left hnot))
      | fallback target htarget hmulticast hother =>
          have hnot := not_usable_of_other hother
          refine iff_of_true (fun target' htarget' network ↦ ?_) (agreeable_of_other hother)
          obtain rfl := Except.ok.inj htarget'
          refine ⟨publicFallback family, htarget, (hoverlay network).2 fun h ↦ hnot h.2,
            hfallback, iff_of_false (fun heq ↦ hnot ?_) hnot, fun _ ↦ rfl⟩
          rw [heq] at hfallback
          exact hfallback

/-- Both binaries send the queries of a source to one target, the resolver of the system
where it may be asked from the source, exactly for the agreeable endpoints. -/
theorem sameTarget_iff {sourceIP normalized : IP} {family : ℕ}
    (hsource : normalizeConcreteSourceIP sourceIP = .ok (normalized, family))
    (address : List Char) :
    SameTarget sourceIP family address ↔
      ∀ e, Endpoint.parse address = some e → Agreeable family e := by
  rw [← sameChoice_iff hsource]
  exact ⟨SameTarget.choice, fun hchoice ↦ ⟨hchoice, fun _ hresolver _ _ hserver ↦
    dial_of_newSourceBoundResolver hsource hresolver hserver⟩⟩

theorem sameTarget_of_own_family :
    SameTarget (.four 0xC000020A#32) 4 "192.0.2.53:53".toList := by
  have hparse : Endpoint.parse "192.0.2.53:53".toList = some (.v4 0xC0000235#32, 53) := by
    decide +kernel
  have hsource : normalizeConcreteSourceIP (.four 0xC000020A#32) =
      .ok (.four 0xC000020A#32, 4) := rfl
  apply (sameTarget_iff hsource _).mpr
  intro e he
  obtain rfl := Option.some.inj (hparse.symm.trans he)
  exact ⟨by decide, fun _ ↦ .inl nofun⟩

/-- The server asks the unspecified address where it has a zone. -/
theorem sameTarget_zoned_unspecified_fails :
    normalizeConcreteSourceIP (.sixteen 0x20010DB8000000000000000000000010#128) =
        .ok (.sixteen 0x20010DB8000000000000000000000010#128, 6) ∧
      resolverEndpoint "[::%eth0]:53".toList 6 = .ok "[::%eth0]:53".toList ∧
      (Speedtest.resolverDial (.sixteen 0x20010DB8000000000000000000000010#128) [] "udp"
        "[::%eth0]:53".toList).target = boundDNSFallbackIPv6 ∧
      ¬SameTarget (.sixteen 0x20010DB8000000000000000000000010#128) 6 "[::%eth0]:53".toList := by
  have hserver : resolverEndpoint "[::%eth0]:53".toList 6 = .ok "[::%eth0]:53".toList := by
    decide +kernel
  have hpoints : pointsTo "[::%eth0]:53".toList = some (0, 53) := by decide +kernel
  refine ⟨rfl, hserver, by decide +kernel, ?_⟩
  intro hsame
  obtain ⟨chosen, hchosen, -, husable, -⟩ := hsame.choice _ hserver _ hpoints "udp"
  rw [hpoints] at hchosen
  rw [← Option.some.inj hchosen] at husable
  exact absurd husable.unspecified (by decide)

end MultiSpeed.Network
