import MultiSpeed.Lib.AddressCase
import MultiSpeed.Providers.CustomServerURL

/-!
# The host policy

`internal/api/host_policy.go`: the authorities under which the interface is reached, and
`validateListenAddress` and `parseTrustedHosts` of `internal/config`, which check what it
is made of.  The interfaces of a host are given by their last snapshot.
-/

namespace MultiSpeed.Api

open AddressText Execution Network Providers

/-! ## Ports -/

/-- `strconv.Atoi` -/
def atoi (s : List Char) : Option ℤ :=
  let signed := s.head? = some '-' ∨ s.head? = some '+'
  let digits := if signed then s.tail else s
  if digits = [] then none
  else
    match number? 10 digits with
    | none => none
    | some n =>
        let value : ℤ := if s.head? = some '-' then -n else n
        if value < -2 ^ 63 ∨ 2 ^ 63 ≤ value then none else some value

/-- The port a text is a numeral of. -/
def portNumber (portText : List Char) : Option ℕ :=
  match atoi portText with
  | none => none
  | some port => if port < 1 ∨ 65535 < port then none else some port.toNat

/-- `AddrError.Error` -/
def addrError (addr : List Char) (err : String) : String :=
  if addr = [] then err else "address " ++ String.ofList addr ++ ": " ++ err

/-- `net.SplitHostPort` -/
def splitHostPort (hostport : List Char) : Except String (List Char × List Char) :=
  match cutLast ':' hostport with
  | none => .error (addrError hostport "missing port in address")
  | some (before, port) =>
      if hostport.head? = some '[' then
        match cutFirst ']' hostport with
        | none => .error (addrError hostport "missing ']' in address")
        | some (opened, rest) =>
            if rest = [] then .error (addrError hostport "missing port in address")
            else if opened.length + 1 ≠ before.length then
              if rest.head? = some ':' then
                .error (addrError hostport "too many colons in address")
              else .error (addrError hostport "missing port in address")
            else if '[' ∈ hostport.tail then
              .error (addrError hostport "unexpected '[' in address")
            else if ']' ∈ rest then .error (addrError hostport "unexpected ']' in address")
            else .ok (opened.tail, port)
      else if ':' ∈ before then .error (addrError hostport "too many colons in address")
      else if '[' ∈ hostport then .error (addrError hostport "unexpected '[' in address")
      else if ']' ∈ hostport then .error (addrError hostport "unexpected ']' in address")
      else .ok (before, port)

/-! ## Hosts and authorities -/

/-- `IP.IsLoopback` -/
def isLoopback (ip : BitVec 128) : Bool :=
  if isIPv4 ip then ip.toNat / 2 ^ 24 % 256 = 127 else ip.toNat = 1

section

variable (lower : Char → Char)

def normalizeHost (host : List Char) : List Char :=
  let host := (trimSpaces host).map lower
  match Address.parseIP host with
  | some ip => Address.ipText ip
  | none => host

def validHostNameOrIP (host : List Char) : Bool :=
  (Address.parseIP host).isSome || validHostname host

/-- The texts of the host and of the port, where there is one. -/
def authorityParts (authority : List Char) : Option (List Char × Option (List Char)) :=
  if authority.head? = some '[' then
    match cutFirst ']' authority with
    | none => none
    | some (opened, remainder) =>
        if remainder = [] then some (opened.tail, none)
        else if remainder.head? ≠ some ':' ∨ remainder.tail = [] then none
        else some (opened.tail, some remainder.tail)
  else if authority.count ':' = 1 then
    match splitHostPort authority with
    | .error _ => none
    | .ok (hostText, portText) => some (hostText, some portText)
  else if 1 < authority.count ':' ∧ Address.parseIP authority = none then none
  else some (authority, none)

/-- A character no authority has. -/
def forbidden (c : Char) : Bool := c ∈ ['/', '\\', '@', '\r', '\n', '\t']

/-- The host of an authority and its port, where it has one. -/
def parseAuthority (authority : List Char) : Option (List Char × Option ℕ) :=
  if authority = [] ∨ trimSpaces authority ≠ authority ∨ authority.any forbidden then none
  else
    match authorityParts authority with
    | none => none
    | some (hostText, portText) =>
        let host := normalizeHost lower hostText
        let valid := host ≠ [] ∧ validHostNameOrIP host
        match portText with
        | none => if valid then some (host, none) else none
        | some portText =>
            match portNumber portText with
            | none => none
            | some port => if valid then some (host, some port) else none

/-! ## The policy -/

/-- What the policy reads of the configuration of the server. -/
structure HTTPPolicy where
  listenAddress : String
  trustedHosts : List String

structure HostPolicy where
  listenHost : List Char
  listenIP : Option (BitVec 128)
  listenPort : ℕ
  wildcard : Bool
  trusted : Finset (List Char)
  deriving DecidableEq

/-- The turn of the loop over the trusted hosts; `none` where it panics. -/
def trustHost (trusted : Finset (List Char)) (host : String) : Option (Finset (List Char)) :=
  let normalized := normalizeHost lower host.toList
  if normalized = [] ∨ !validHostNameOrIP normalized then none
  else some (insert normalized trusted)

/-- `newHostPolicy`; `none` where it panics. -/
def newHostPolicy (policy : HTTPPolicy) : Option HostPolicy :=
  let listenAddress :=
    if policy.listenAddress = "" then "127.0.0.1:8787" else policy.listenAddress
  match splitHostPort listenAddress.toList with
  | .error _ => none
  | .ok (listenHost, portText) =>
      match portNumber portText with
      | none => none
      | some listenPort =>
          let listenHost := normalizeHost lower listenHost
          let listenIP := Address.parseIP listenHost
          match policy.trustedHosts.foldlM (trustHost lower) ∅ with
          | none => none
          | some trusted =>
              some
                { listenHost := listenHost
                  listenIP := listenIP
                  listenPort := listenPort
                  wildcard := listenHost = [] || listenIP.any isUnspecified
                  trusted := trusted }

/-- The address is assigned to one of the interfaces. -/
def assigned (interfaces : List NetworkInterface) (ip : BitVec 128) : Bool :=
  interfaces.any fun item ↦ item.addresses.any fun address ↦
    Address.parseIP address.toList = some ip

/-- `hostPolicy.allows`, given the snapshot of the interfaces where there is a service. -/
def HostPolicy.allows (policy : HostPolicy) (snapshot : Option (List NetworkInterface))
    (authority : List Char) : Bool :=
  match parseAuthority lower authority with
  | none => false
  | some (host, port) =>
      if port.any (· ≠ policy.listenPort) then false
      else if host ∈ policy.trusted then true
      else if host = "localhost".toList then true
      else
        match Address.parseIP host with
        | none => !policy.wildcard && policy.listenIP = none && host = policy.listenHost
        | some ip =>
            if isUnspecified ip || isMulticast ip then false
            else if isLoopback ip then true
            else if policy.wildcard then true
            else if policy.listenIP = some ip then true
            else
              match snapshot with
              | none => false
              | some interfaces => assigned interfaces ip

/-! ## The configuration -/

/-- `validateListenAddress`; the error where there is one. -/
def validateListenAddress (address : String) : Option String :=
  match splitHostPort address.toList with
  | .error err => some err
  | .ok (host, portText) =>
      if portNumber portText = none then some "port must be an integer between 1 and 65535"
      else if host = [] ∨ Address.parseIP host ≠ none ∨ validHostname (host.map lower) then none
      else some "host must be a hostname or IP address"

/-- The turn of the loop over the entries; the hosts are those seen before. -/
def addTrustedHost (quote : String → String) (hosts : List String) (item : List Char) :
    Except String (List String) :=
  let host := (trimSpaces item).map lower
  let add (host : List Char) : Except String (List String) :=
    let host := String.ofList host
    if host ∈ hosts then .ok hosts else .ok (hosts ++ [host])
  if host = [] then .error "entries must not be empty"
  else
    match Address.parseIP host with
    | some ip => add (Address.ipText ip)
    | none =>
        if validHostname host then add host
        else
          .error (quote (String.ofList item) ++
            " must be a hostname or IP address without a scheme, path, wildcard, or port")

def parseTrustedHosts (quote : String → String) (raw : String) : Except String (List String) :=
  if trimmed raw = "" then .ok []
  else (raw.toList.splitOn ',').foldlM (addTrustedHost lower quote) []

end

end MultiSpeed.Api
