import MultiSpeed.Lib.AddressText
import MultiSpeed.Network.Route
import Mathlib.Data.Finset.Sort
import Mathlib.Data.String.Basic

/-!
# Custom server URLs

The canonical form of a custom server URL, and the allowlist of the deployment
(`provider.go` of `internal/providers`, `parseAllowedCustomServerURLs` of
`internal/config`).  An address is read and written by the rules of `net/netip`.
-/

namespace MultiSpeed.Providers

open AddressText Network

/-- A parsed URL, with the value of its `EscapedPath`. -/
structure URL where
  scheme : List Char
  opaquePart : List Char
  user : Option (List Char)
  host : List Char
  path : List Char
  escapedPath : List Char
  forceQuery : Bool
  rawQuery : List Char
  fragment : List Char
  rawFragment : List Char
  deriving DecidableEq

structure URLLibrary where
  /-- `url.ParseRequestURI` -/
  parseRequestURI : List Char → Option URL
  /-- `unicode.ToLower` -/
  lower : Char → Char

namespace URL

/-- The host with its brackets and the port, where the host ends in one. -/
def cutPort (hostPort : List Char) : List Char × List Char :=
  match cutLast ':' hostPort with
  | some (host, port) => if port.all Char.isDigit then (host, port) else (hostPort, [])
  | none => (hostPort, [])

def unbracket (host : List Char) : List Char :=
  if host.head? = some '[' ∧ host.getLast? = some ']' then host.tail.dropLast else host

def hostname (u : URL) : List Char := unbracket (cutPort u.host).1

def port (u : URL) : List Char := (cutPort u.host).2

end URL

def maxCustomServerURLBytes : ℕ := 2048

def invalidTarget : String := "invalid provider target"

def invalidCustomServerURL (message : String) : String := message ++ ": " ++ invalidTarget

def unsafeURLRune (character : Char) : Bool := character.toNat < 0x20 || character.toNat = 0x7f

def isHostCharacter (character : Char) : Bool :=
  character = '-' || character.isDigit || character.isLower

/-- `validHostname`, which three packages have the same. -/
def validHostname (host : List Char) : Bool :=
  let length (text : List Char) : ℕ := (utf8 (String.ofList text)).length
  !(length host = 0 || 253 < length host || host.getLast? = some '.') &&
    (host.splitOn '.').all fun label ↦
      !(length label = 0 || 63 < length label || label.head? = some '-' ||
        label.getLast? = some '-') && label.all isHostCharacter

def numericHostnameLookalike (host : List Char) : Bool :=
  host.all fun character ↦ character = '.' || character.isDigit

def validCustomServerPathSegment (segment : List Char) : Bool :=
  segment.all fun character ↦
    character = '-' || character = '.' || character = '_' || character = '~' ||
      character.isDigit || character.isUpper || character.isLower

section

variable (lib : URLLibrary)

/-- The host, and whether it is an address of version 6. -/
def canonicalCustomServerHost (parsed : URL) : Except String (List Char × Bool) :=
  let rawHost := parsed.hostname
  if rawHost = [] ∨ '%' ∈ rawHost then
    .error (invalidCustomServerURL "custom server URL contains an invalid hostname")
  else
    match Address.parse rawHost with
    | some address =>
        if address.zone ≠ [] ∨ address.is4In6 then
          .error (invalidCustomServerURL
            "custom server URL contains an ambiguous or zoned IP address")
        else .ok (address.text, address.is6)
    | none =>
        if ':' ∈ rawHost then
          .error (invalidCustomServerURL "custom server URL contains an invalid IP address")
        else
          let host := rawHost.map lib.lower
          if ¬validHostname host ∨ numericHostnameLookalike host then
            .error (invalidCustomServerURL "custom server URL contains an invalid hostname")
          else .ok (host, false)

def canonicalCustomServerPort (parsed : URL) (scheme : List Char) : Except String (List Char) :=
  if parsed.host.getLast? = some ':' then
    .error (invalidCustomServerURL "custom server URL contains an invalid port")
  else if parsed.port = [] then .ok []
  else
    match number? 10 parsed.port with
    | some value =>
        if value < 1 ∨ 65535 < value then
          .error (invalidCustomServerURL "custom server URL contains an invalid port")
        else if scheme = "http".toList ∧ value = 80 ∨ scheme = "https".toList ∧ value = 443 then
          .ok []
        else .ok (Nat.toDigits 10 value)
    | none => .error (invalidCustomServerURL "custom server URL contains an invalid port")

def trimSuffix (c : Char) (s : List Char) : List Char :=
  if s.getLast? = some c then s.dropLast else s

def trimPrefix (c : Char) (s : List Char) : List Char := if s.head? = some c then s.tail else s

def canonicalCustomServerPath (parsed : URL) : Except String (List Char) :=
  let invalid := invalidCustomServerURL "custom server URL contains an unsafe path"
  if '%' ∈ parsed.escapedPath ∨ '\\' ∈ parsed.path then .error invalid
  else if parsed.path = [] ∨ parsed.path = ['/'] then .ok []
  else if parsed.path.head? ≠ some '/' then .error invalid
  else
    let path := trimSuffix '/' parsed.path
    if ((trimPrefix '/' path).splitOn '/').any fun segment ↦
        segment = [] || segment = ['.'] || segment = ['.', '.'] ||
          !validCustomServerPathSegment segment then .error invalid
    else .ok path

/-- `net.JoinHostPort` -/
def joinHostPort (host port : List Char) : List Char :=
  if ':' ∈ host then ['['] ++ host ++ [']', ':'] ++ port else host ++ [':'] ++ port

def canonicalCustomServerURL (raw : String) : Except String String :=
  if raw = "" ∨ maxCustomServerURLBytes < (utf8 raw).length ∨ trimmed raw ≠ raw ∨
      raw.toList.any unsafeURLRune then
    .error (invalidCustomServerURL "custom server URL is invalid")
  else
    match lib.parseRequestURI raw.toList with
    | none =>
        .error (invalidCustomServerURL "custom server URL must be an absolute HTTP or HTTPS URL")
    | some parsed =>
        let scheme := parsed.scheme.map lib.lower
        if parsed.host = [] ∨ parsed.opaquePart ≠ [] then
          .error (invalidCustomServerURL
            "custom server URL must be an absolute HTTP or HTTPS URL")
        else if scheme ≠ "http".toList ∧ scheme ≠ "https".toList then
          .error (invalidCustomServerURL
            "custom server URL must be an absolute HTTP or HTTPS URL")
        else if parsed.user ≠ none then
          .error (invalidCustomServerURL "custom server URL must not contain credentials")
        else if parsed.rawQuery ≠ [] ∨ parsed.forceQuery ∨ parsed.fragment ≠ [] ∨
            parsed.rawFragment ≠ [] then
          .error (invalidCustomServerURL "custom server URL must not contain a query or fragment")
        else do
          let (host, ipv6) ← canonicalCustomServerHost lib parsed
          let port ← canonicalCustomServerPort parsed scheme
          let path ← canonicalCustomServerPath parsed
          let authority :=
            if port ≠ [] then joinHostPort host port
            else if ipv6 then ['['] ++ host ++ [']'] else host
          return String.ofList (scheme ++ "://".toList ++ authority ++ path)

/-! ## The allowlist -/

/-- The canonical URLs that are allowed, each a key of the map with itself as its value. -/
structure CustomServerURLPolicy where
  allowed : Finset String

/-- The turn of the loop for one entry. -/
def allowEntry (allowed : Finset String) : String × ℕ → Except String (Finset String)
  | (entry, index) =>
      match canonicalCustomServerURL lib entry with
      | .ok canonical => .ok (insert canonical allowed)
      | .error err =>
          .error ("allowed custom server URL " ++ toString (index + 1) ++ ": " ++ err)

def newCustomServerURLPolicy (entries : List String) : Except String CustomServerURLPolicy :=
  (entries.zipIdx.foldlM (allowEntry lib) ∅).map CustomServerURLPolicy.mk

/-! The order `sort.Strings` sorts by. -/

instance instTransString : IsTrans String (· ≤ ·) := inferInstance

instance instAntisymmString : Std.Antisymm (α := String) (· ≤ ·) := inferInstance

instance instTotalString : Std.Total (α := String) (· ≤ ·) := inferInstance

namespace CustomServerURLPolicy

variable (policy : CustomServerURLPolicy)

def enabled : Bool := 0 < policy.allowed.card

/-- `CustomServerURLPolicy.URLs` -/
def urls : List String := policy.allowed.sort (· ≤ ·)

def authorize (rawURL : String) (allowInsecure : Bool) : Except String String :=
  match canonicalCustomServerURL lib rawURL with
  | .error err => .error err
  | .ok canonical =>
      if canonical.toList.take 7 = "http://".toList ∧ ¬allowInsecure then
        .error ("custom server URL must use HTTPS unless an explicitly insecure endpoint " ++
          "definition is used: " ++ invalidTarget)
      else if canonical ∈ policy.allowed then .ok canonical
      else
        .error ("custom server URL is not authorized by the deployment allowlist: " ++
          invalidTarget)

end CustomServerURLPolicy

def validateHTTPURL (raw : String) (allowInsecure : Bool) : Except String Unit :=
  match canonicalCustomServerURL lib raw with
  | .error err => .error err
  | .ok canonical =>
      if canonical.toList.take 7 = "http://".toList ∧ ¬allowInsecure then
        .error ("custom server URL must use HTTPS unless an explicitly insecure endpoint " ++
          "definition is used: " ++ invalidTarget)
      else .ok ()

def parseAllowedCustomServerURLs (raw : String) : Except String (List String) :=
  if trimmed raw = "" then .ok []
  else
    let entries := (raw.toList.splitOn ',').map fun entry ↦ trimmed (String.ofList entry)
    if "" ∈ entries then .error "entries must not be empty"
    else do
      let policy ← newCustomServerURLPolicy lib entries
      return policy.urls

end

end MultiSpeed.Providers
