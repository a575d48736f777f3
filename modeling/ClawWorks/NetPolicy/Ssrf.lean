import ClawWorks.NetPolicy.Ip
import ClawWorks.DevicePairing.Scopes

/-!
# Pinning a hostname under a network policy

Hostname checks before the lookup, address checks after it, and the addresses that are pinned. The lookup itself is a
parameter: what it answers for the normalized hostname.
-/

namespace ClawWorks.NetPolicy

open DevicePairing (startsWith)

/-- The fields the resolution reads; a flag that is absent is `false`, a list that is absent is empty. -/
structure SsrFPolicy where
  allowPrivateNetwork : Bool
  dangerouslyAllowPrivateNetwork : Bool
  allowRfc2544BenchmarkRange : Bool
  allowIpv6UniqueLocalRange : Bool
  allowedHostnames : List JsString
  hostnameAllowlist : List JsString

structure LookupAddress where
  address : JsString
  family : Nat

structure PinnedHostname where
  hostname : JsString
  addresses : List JsString
  deriving DecidableEq

inductive ResolveError
  | invalidHostname
  | notInAllowlist (hostname : JsString)
  | blockedHostOrIp
  | blockedResolvedIp
  | unresolved (hostname : JsString)
  deriving DecidableEq

def ResolveError.message : ResolveError → JsString
  | .invalidHostname => js "Invalid hostname"
  | .notInAllowlist hostname => js "Blocked hostname (not in allowlist): " ++ hostname
  | .blockedHostOrIp => js "Blocked hostname or private/internal/special-use IP address"
  | .blockedResolvedIp => js "Blocked: resolves to private/internal/special-use IP address"
  | .unresolved hostname => js "Unable to resolve hostname: " ++ hostname

/-- `s.endsWith(suffix)`. -/
def endsWith (s suffix : JsString) : Bool :=
  suffix.isSuffixOf s

section Hostnames

variable [LowerCase]

def normalizeLowercaseStringOrEmpty (value : JsString) : JsString :=
  ((normalizeOptionalString value).map toLowerCase).getD []

/-- Lower case, without the dots at its end and without the brackets of a literal. -/
def normalizeHostname (hostname : JsString) : JsString :=
  stripIpv6Brackets ((normalizeLowercaseStringOrEmpty hostname).rdropWhile (· == DOT))

/-- Without the repeated ones. -/
def normalizePolicyHostnames (values : List JsString) : List JsString :=
  distinct ((values.map normalizeHostname).filterMap normalizeOptionalString)

def normalizeHostnameAllowlist (values : List JsString) : List JsString :=
  (normalizePolicyHostnames values).filter fun value => value != js "*" && value != js "*."

def isPrivateNetworkAllowedByPolicy (policy : SsrFPolicy) : Bool :=
  policy.dangerouslyAllowPrivateNetwork || policy.allowPrivateNetwork

def shouldSkipPrivateNetworkChecks (hostname : JsString) (policy : SsrFPolicy) : Bool :=
  isPrivateNetworkAllowedByPolicy policy || (normalizePolicyHostnames policy.allowedHostnames).contains hostname

def isHostnameAllowedByPattern (hostname pattern : JsString) : Bool :=
  if startsWith pattern (js "*.") then
    let suffix := pattern.drop 2
    if suffix.isEmpty || hostname == suffix then false else endsWith hostname (DOT :: suffix)
  else hostname == pattern

def matchesHostnameAllowlist (hostname : JsString) (allowlist : List JsString) : Bool :=
  allowlist.isEmpty || allowlist.any fun pattern => isHostnameAllowedByPattern hostname pattern

def BLOCKED_HOSTNAMES : List JsString :=
  [js "localhost", js "localhost.localdomain", js "metadata.google.internal"]

def isBlockedHostnameNormalized (normalized : JsString) : Bool :=
  BLOCKED_HOSTNAMES.contains normalized || endsWith normalized (js ".localhost") ||
    endsWith normalized (js ".local") || endsWith normalized (js ".internal")

end Hostnames

/-- `/^0x/i`. -/
def startsWithHexMark : JsString → Bool
  | 48 :: x :: _ => x == 120 || x == 88
  | _ => false

def looksLikeUnsupportedIpv4Literal (address : JsString) : Bool :=
  let parts := address.splitOn DOT
  if parts.length = 0 ∨ 4 < parts.length then false
  else if parts.any (·.isEmpty) then true
  else parts.all fun part => (!part.isEmpty && part.all isDigit) || startsWithHexMark part

/-- Answers of the first family come first; an address is kept once. -/
def dedupeAndPreferIpv4 (results : List LookupAddress) : List JsString :=
  let unique := results.foldl (fun seen entry =>
    if seen.any (·.address == entry.address) then seen else seen ++ [entry]) []
  ((unique.filter (·.family == 4)) ++ (unique.filter (·.family != 4))).map (·.address)

section Checks

variable [LowerCase] [IpaddrJs]

def isBlockedParsedIp (policy : SsrFPolicy) : ParsedIpAddress → Bool
  | .v4 address => isBlockedSpecialUseIpv4Address address policy.allowRfc2544BenchmarkRange
  | .v6 address =>
    if isBlockedSpecialUseIpv6Address address policy.allowIpv6UniqueLocalRange then true
    else
      match extractEmbeddedIpv4FromIpv6 address with
      | some embeddedIpv4 => isBlockedSpecialUseIpv4Address embeddedIpv4 policy.allowRfc2544BenchmarkRange
      | none => false

def isPrivateIpAddress (address : JsString) (policy : SsrFPolicy) : Bool :=
  let normalized := normalizeHostname address
  if normalized.isEmpty then false
  else
    match parseCanonicalIpAddress normalized with
    | some strictIp => isBlockedParsedIp policy strictIp
    | none =>
      if normalized.contains COLON && (parseLooseIpAddress normalized).isNone then true
      else if !isCanonicalDottedDecimalIPv4 normalized && isLegacyIpv4Literal normalized then true
      else looksLikeUnsupportedIpv4Literal normalized

def isBlockedHostnameOrIp (hostname : JsString) (policy : SsrFPolicy) : Bool :=
  let normalized := normalizeHostname hostname
  if normalized.isEmpty then false
  else isBlockedHostnameNormalized normalized || isPrivateIpAddress normalized policy

/-- The normalized hostname, and whether the private network checks are skipped for it. -/
def resolveHostnamePolicyChecks (hostname : JsString) (policy : SsrFPolicy) : Except ResolveError (JsString × Bool) :=
  let normalized := normalizeHostname hostname
  if normalized.isEmpty then .error .invalidHostname
  else
    let skipPrivateNetworkChecks := shouldSkipPrivateNetworkChecks normalized policy
    if !matchesHostnameAllowlist normalized (normalizeHostnameAllowlist policy.hostnameAllowlist) then
      .error (.notInAllowlist hostname)
    else if !skipPrivateNetworkChecks && isBlockedHostnameOrIp normalized policy then .error .blockedHostOrIp
    else .ok (normalized, skipPrivateNetworkChecks)

def assertAllowedResolvedAddressesOrThrow (results : List LookupAddress) (policy : SsrFPolicy) :
    Except ResolveError Unit :=
  if results.any fun entry => isBlockedHostnameOrIp entry.address policy then .error .blockedResolvedIp else .ok ()

def assertAllowedTrustedHostnameResolvedAddressesOrThrow (results : List LookupAddress) : Except ResolveError Unit :=
  if results.any fun entry => isLinkLocalIpAddress entry.address || isCloudMetadataIpAddress entry.address then
    .error .blockedResolvedIp
  else .ok ()

/-- `lookup` is what the resolver answers. -/
def resolvePinnedHostnameWithPolicy (lookup : JsString → List LookupAddress) (hostname : JsString)
    (policy : SsrFPolicy) : Except ResolveError PinnedHostname := do
  let (normalized, skipPrivateNetworkChecks) ← resolveHostnamePolicyChecks hostname policy
  let results := lookup normalized
  if results.isEmpty then throw (.unresolved hostname)
  if !skipPrivateNetworkChecks then assertAllowedResolvedAddressesOrThrow results policy
  else if !isPrivateNetworkAllowedByPolicy policy then assertAllowedTrustedHostnameResolvedAddressesOrThrow results
  let addresses := dedupeAndPreferIpv4 results
  if addresses.isEmpty then throw (.unresolved hostname)
  return { hostname := normalized, addresses }

end Checks

end ClawWorks.NetPolicy
