import ClawWorks.Js.LowerCase
import Mathlib.Algebra.Group.Nat.Defs

/-!
# IP literals and their special-use ranges

The network policy's reading of address texts. The address parser and its range tables are parameters, with what is
documented of them.
-/

namespace ClawWorks.NetPolicy

/-! ## Parsed addresses -/

structure IPv4 where
  octets : Vector UInt8 4
  deriving DecidableEq

structure IPv6 where
  parts : Vector UInt16 8
  zoneId : Option JsString
  deriving DecidableEq

inductive ParsedIpAddress
  | v4 (address : IPv4)
  | v6 (address : IPv6)
  deriving DecidableEq

/-- The names of IPv4 ranges; `other` is any that no table of the policy has. -/
inductive Ipv4Range
  | unspecified | broadcast | multicast | linkLocal | loopback | carrierGradeNat | privateUse | reserved | other
  deriving DecidableEq

/-- The names of IPv6 ranges; `other` is any that no table of the policy has. -/
inductive Ipv6Range
  | unspecified | linkLocal | multicast | loopback | uniqueLocal | ipv4Mapped | rfc6145 | rfc6052 | reserved
  | benchmarking | discard | orchid2 | other
  deriving DecidableEq

def COLON : UInt16 := 58
def DOT : UInt16 := 46
def PERCENT : UInt16 := 37
def OPEN_BRACKET : UInt16 := 91
def CLOSE_BRACKET : UInt16 := 93

def METADATA_IPV4 : IPv4 := ⟨#v[100, 100, 100, 200]⟩
def METADATA_IPV6_PARTS : Vector UInt16 8 := #v[0xfd00, 0x0ec2, 0, 0, 0, 0, 0, 0x0254]

def isHexDigit (u : UInt16) : Bool :=
  isDigit u || (97 ≤ u && u ≤ 102) || (65 ≤ u && u ≤ 70)

/-- `/^[0-9]+$/` or `/^0x[0-9a-f]+$/i`. -/
def isNumericIpv4LiteralPart (value : JsString) : Bool :=
  (!value.isEmpty && value.all isDigit) || match value with
    | 48 :: x :: digits => (x == 120 || x == 88) && !digits.isEmpty && digits.all isHexDigit
    | _ => false

def isLiteralUnit (u : UInt16) : Bool :=
  isAlphanumeric u || u == COLON || u == DOT || u == PERCENT

/-- Text a literal may have: no blanks, no brackets, no dot at its end. -/
structure LiteralText (s : JsString) : Prop where
  units : ∀ u ∈ s, isLiteralUnit u = true
  last : ∃ u, s.getLast? = some u ∧ u ≠ DOT

theorem take_octets (octets : Vector UInt8 4) : octets.toList.take 2 = [octets[0], octets[1]] := by
  rcases octets with ⟨⟨_ | ⟨a, _ | ⟨b, rest⟩⟩⟩, hsize⟩
  · cases hsize
  · cases hsize
  · rfl

theorem linkLocal_iff (octets : Vector UInt8 4) :
    (if octets.toList.take 2 = [169, 254] then Ipv4Range.linkLocal
      else if octets = METADATA_IPV4.octets then .carrierGradeNat else .other) = .linkLocal ↔
      octets[0] = 169 ∧ octets[1] = 254 := by
  rw [take_octets]
  split
  · simp_all
  split
  · simp_all
  · simp_all

/-- `ipaddr.js`: which texts are addresses, the addresses they denote, the name of the range of an address, and how an
address is printed. -/
class IpaddrJs where
  isValidIPv4 : JsString → Bool
  isValidFourPartDecimal : JsString → Bool
  parseIPv4 : JsString → IPv4
  isValidIPv6 : JsString → Bool
  parseIPv6 : JsString → IPv6
  rangeIPv4 : Vector UInt8 4 → Ipv4Range
  rangeIPv6 : Vector UInt16 8 → Ipv6Range
  toStringIPv4 : IPv4 → JsString
  toStringIPv6 : IPv6 → JsString
  fourPartDecimal : ∀ s, isValidFourPartDecimal s = true → isValidIPv4 s = true ∧ ∀ u ∈ s, isDigit u = true ∨ u = DOT
  /-- One to four parts in decimal, octal or hexadecimal. -/
  ipv4_parts : ∀ s, isValidIPv4 s = true → COLON ∉ s ∧ LiteralText s ∧ (s.splitOn DOT).length ≤ 4 ∧
    ∀ part ∈ s.splitOn DOT, isNumericIpv4LiteralPart part = true
  ipv6_text : ∀ s, isValidIPv6 s = true → COLON ∈ s ∧ LiteralText s
  /-- Letters stand for the same digits in either case. -/
  ipv4_caseless : ∀ s t, s.map asciiLower = t.map asciiLower → isValidIPv4 s = isValidIPv4 t ∧
    isValidFourPartDecimal s = isValidFourPartDecimal t ∧ parseIPv4 s = parseIPv4 t
  ipv6_caseless : ∀ s t, s.map asciiLower = t.map asciiLower → isValidIPv6 s = isValidIPv6 t ∧
    (parseIPv6 s).parts = (parseIPv6 t).parts
  /-- `169.254.0.0/16`. -/
  linkLocal_ipv4 : ∀ octets, rangeIPv4 octets = .linkLocal ↔ octets[0] = 169 ∧ octets[1] = 254
  metadata_ipv4 : rangeIPv4 METADATA_IPV4.octets = .carrierGradeNat
  metadata_ipv6 : rangeIPv6 METADATA_IPV6_PARTS = .uniqueLocal
  toStringIPv4_metadata : ∀ a, toStringIPv4 a = js "100.100.100.200" ↔ a = METADATA_IPV4
  toStringIPv4_colon : ∀ a, COLON ∉ toStringIPv4 a
  /-- The zone is printed with the address. -/
  toStringIPv6_metadata : ∀ a, toStringIPv6 a = js "fd00:ec2::254" ↔ a.parts = METADATA_IPV6_PARTS ∧ a.zoneId = none
  toStringIPv6_colon : ∀ a, COLON ∈ toStringIPv6 a

export IpaddrJs (isValidIPv4 isValidFourPartDecimal parseIPv4 isValidIPv6 parseIPv6 rangeIPv4 rangeIPv6 toStringIPv4
  toStringIPv6)

/-! ## Parsing -/

/-- `normalizeOptionalString`: `none` stands for `undefined`. -/
def normalizeOptionalString (value : JsString) : Option JsString :=
  truthy? (some (trim value))

def stripIpv6Brackets (value : JsString) : JsString :=
  if value.head? = some OPEN_BRACKET ∧ value.getLast? = some CLOSE_BRACKET then (value.drop 1).dropLast else value

variable (raw : JsString)

def normalizeIpParseInput : Option JsString :=
  (normalizeOptionalString raw).map stripIpv6Brackets

/-- `Number.parseInt(part, 10)` of decimal digits. -/
def parseDecimal (part : JsString) : Nat :=
  part.foldl (fun n u => 10 * n + (u.toNat - 48)) 0

/-- `n.toString(16)`. -/
def toHexString (n : Nat) : JsString :=
  (Nat.toDigits 16 n).flatMap codeUnits

/-- The octets of a dotted decimal as two hextets in hexadecimal. -/
def hextetsText (embeddedIpv4 : JsString) : JsString :=
  let octets := (embeddedIpv4.splitOn DOT).map parseDecimal
  let octet (i : Nat) : Nat := octets.getD i 0
  toHexString (256 * octet 0 + octet 1) ++ COLON :: toHexString (256 * octet 2 + octet 3)

/-- What stands up to the last colon, and what follows it: the first group of `/^(.*:)([^:%]+…` is greedy, and no later
group has a colon. -/
def splitLastColon : JsString × JsString :=
  (raw.rdropWhile (· != COLON), raw.rtakeWhile (· != COLON))

/-- `/^%[0-9A-Za-z]+$/`, or nothing. -/
def isZoneSuffix (zoneSuffix : JsString) : Bool :=
  zoneSuffix.isEmpty || (zoneSuffix.head? == some PERCENT && !zoneSuffix.tail.isEmpty && zoneSuffix.tail.all
    isAlphanumeric)

variable [IpaddrJs]

/-- The four groups of dotted decimals are asked for by `isValidFourPartDecimal` too. -/
def parseIpv6WithEmbeddedIpv4 : Option IPv6 :=
  let (before, rest) := splitLastColon raw
  let embeddedIpv4 := rest.takeWhile (· != PERCENT)
  let zoneSuffix := rest.dropWhile (· != PERCENT)
  let normalizedIpv6 := before ++ hextetsText embeddedIpv4 ++ zoneSuffix
  if !(raw.contains COLON && raw.contains DOT) then none
  else if !isZoneSuffix zoneSuffix then none
  else if !isValidFourPartDecimal embeddedIpv4 then none
  else if !isValidIPv6 normalizedIpv6 then none
  else some (parseIPv6 normalizedIpv6)

def parseCanonicalIpAddress : Option ParsedIpAddress :=
  (normalizeIpParseInput raw).bind fun normalized =>
    if normalized.isEmpty then none
    else if isValidIPv4 normalized then
      if !isValidFourPartDecimal normalized then none else some (.v4 (parseIPv4 normalized))
    else if isValidIPv6 normalized then some (.v6 (parseIPv6 normalized))
    else (parseIpv6WithEmbeddedIpv4 normalized).map .v6

/-- `ipaddr.parse` tries IPv6 first. -/
def parseLooseIpAddress : Option ParsedIpAddress :=
  (normalizeIpParseInput raw).bind fun normalized =>
    if normalized.isEmpty then none
    else if isValidIPv6 normalized then some (.v6 (parseIPv6 normalized))
    else if isValidIPv4 normalized then some (.v4 (parseIPv4 normalized))
    else (parseIpv6WithEmbeddedIpv4 normalized).map .v6

def isCanonicalDottedDecimalIPv4 : Bool :=
  match normalizeOptionalString raw with
  | none => false
  | some trimmed =>
    let normalized := stripIpv6Brackets trimmed
    !normalized.isEmpty && isValidFourPartDecimal normalized

def isLegacyIpv4Literal : Bool :=
  match normalizeOptionalString raw with
  | none => false
  | some trimmed =>
    let normalized := stripIpv6Brackets trimmed
    let parts := normalized.splitOn DOT
    if normalized.isEmpty || normalized.contains COLON then false
    else if isCanonicalDottedDecimalIPv4 normalized then false
    else if parts.length = 0 ∨ 4 < parts.length then false
    else if parts.any (·.isEmpty) then false
    else parts.all isNumericIpv4LiteralPart

/-! ## Embedded addresses -/

/-- `IPv4.parse` of the four octets joined with dots. -/
def decodeIpv4FromHextets (high low : UInt16) : IPv4 :=
  ⟨#v[(high >>> 8).toUInt8, high.toUInt8, (low >>> 8).toUInt8, low.toUInt8]⟩

variable (address : IPv6)

def isIPv4MappedAddress : Bool :=
  rangeIPv6 address.parts = .ipv4Mapped

def toIPv4Address : IPv4 :=
  decodeIpv4FromHextets address.parts[6] address.parts[7]

def normalizeIpv4MappedAddress : ParsedIpAddress → ParsedIpAddress
  | .v4 address => .v4 address
  | .v6 address => if isIPv4MappedAddress address then .v4 (toIPv4Address address) else .v6 address

structure SentinelRule where
  matches? : Vector UInt16 8 → Bool
  toHextets : Vector UInt16 8 → UInt16 × UInt16

/-- IPv4-compatible, local-use NAT64, 6to4, Teredo, ISATAP. -/
def EMBEDDED_IPV4_SENTINEL_RULES : List SentinelRule :=
  [⟨fun p => p[0] = 0 && p[1] = 0 && p[2] = 0 && p[3] = 0 && p[4] = 0 && p[5] = 0, fun p => (p[6], p[7])⟩,
   ⟨fun p => p[0] = 0x0064 && p[1] = 0xff9b && p[2] = 0x0001 && p[3] = 0 && p[4] = 0 && p[5] = 0,
    fun p => (p[6], p[7])⟩,
   ⟨fun p => p[0] = 0x2002, fun p => (p[1], p[2])⟩,
   ⟨fun p => p[0] = 0x2001 && p[1] = 0, fun p => (p[6] ^^^ 0xffff, p[7] ^^^ 0xffff)⟩,
   ⟨fun p => p[4] &&& 0xfcff = 0 && p[5] = 0x5efe, fun p => (p[6], p[7])⟩]

def embeddedIpv4Addresses : List IPv4 :=
  (if isIPv4MappedAddress address then [toIPv4Address address] else []) ++
    (if rangeIPv6 address.parts = .rfc6145 then [decodeIpv4FromHextets address.parts[6] address.parts[7]] else []) ++
    (if rangeIPv6 address.parts = .rfc6052 then [decodeIpv4FromHextets address.parts[6] address.parts[7]] else []) ++
    (EMBEDDED_IPV4_SENTINEL_RULES.filter (·.matches? address.parts)).map fun rule =>
      decodeIpv4FromHextets (rule.toHextets address.parts).1 (rule.toHextets address.parts).2

def extractEmbeddedIpv4FromIpv6 : Option IPv4 :=
  if isIPv4MappedAddress address then some (toIPv4Address address)
  else if rangeIPv6 address.parts = .rfc6145 then some (decodeIpv4FromHextets address.parts[6] address.parts[7])
  else if rangeIPv6 address.parts = .rfc6052 then some (decodeIpv4FromHextets address.parts[6] address.parts[7])
  else (EMBEDDED_IPV4_SENTINEL_RULES.find? (·.matches? address.parts)).map fun rule =>
    decodeIpv4FromHextets (rule.toHextets address.parts).1 (rule.toHextets address.parts).2

theorem extractEmbeddedIpv4FromIpv6_eq :
    extractEmbeddedIpv4FromIpv6 address = (embeddedIpv4Addresses address).head? := by
  unfold extractEmbeddedIpv4FromIpv6 embeddedIpv4Addresses
  split
  · rfl
  split
  · rfl
  split
  · rfl
  · simp [List.head?_filter]

/-! ## Ranges -/

def BLOCKED_IPV4_SPECIAL_USE_RANGES : List Ipv4Range :=
  [.unspecified, .broadcast, .multicast, .linkLocal, .loopback, .carrierGradeNat, .privateUse, .reserved]

def BLOCKED_IPV6_SPECIAL_USE_RANGES : List Ipv6Range :=
  [.unspecified, .loopback, .linkLocal, .uniqueLocal, .multicast, .reserved, .benchmarking, .discard, .orchid2]

def CLOUD_METADATA_IP_ADDRESSES : List JsString :=
  [js "100.100.100.200", js "fd00:ec2::254"]

/-- `address.match(RFC2544_BENCHMARK_PREFIX)`: `198.18.0.0/15`. -/
def inRfc2544BenchmarkRange (address : IPv4) : Bool :=
  address.octets[0] = 198 && address.octets[1] &&& 0xfe = 18

def isBlockedSpecialUseIpv4Address (address : IPv4) (allowRfc2544BenchmarkRange : Bool) : Bool :=
  if inRfc2544BenchmarkRange address && allowRfc2544BenchmarkRange then false
  else BLOCKED_IPV4_SPECIAL_USE_RANGES.contains (rangeIPv4 address.octets) || inRfc2544BenchmarkRange address

def isBlockedSpecialUseIpv6Address (allowUniqueLocalRange : Bool) : Bool :=
  if rangeIPv6 address.parts = .uniqueLocal && allowUniqueLocalRange then false
  else if BLOCKED_IPV6_SPECIAL_USE_RANGES.contains (rangeIPv6 address.parts) then true
  else address.parts[0] &&& 0xffc0 = 0xfec0

def isLinkLocalIpAddress : Bool :=
  match (parseLooseIpAddress raw).map normalizeIpv4MappedAddress with
  | none => false
  | some (.v4 address) => rangeIPv4 address.octets = .linkLocal
  | some (.v6 address) =>
    (extractEmbeddedIpv4FromIpv6 address).any (rangeIPv4 ·.octets = .linkLocal) ||
      rangeIPv6 address.parts = .linkLocal

def isCloudMetadataIpAddress : Bool :=
  match (parseLooseIpAddress raw).map normalizeIpv4MappedAddress with
  | none => false
  | some (.v4 address) => CLOUD_METADATA_IP_ADDRESSES.contains (toStringIPv4 address)
  | some (.v6 address) =>
    (extractEmbeddedIpv4FromIpv6 address).any (CLOUD_METADATA_IP_ADDRESSES.contains <| toStringIPv4 ·) ||
      CLOUD_METADATA_IP_ADDRESSES.contains (toStringIPv6 address)

/-! ## Embedded addresses and values -/

/-- A way to carry an IPv4 address, in the order in which the code looks for it. -/
inductive EmbeddingForm
  | mapped | translated | nat64 | compatible | nat64Local | sixToFour | teredo | isatap
  deriving DecidableEq

namespace EmbeddingForm

def marks : EmbeddingForm → Vector UInt16 8 → Bool
  | mapped, p => p[0] = 0 && p[1] = 0 && p[2] = 0 && p[3] = 0 && p[4] = 0 && p[5] = 0xffff
  | translated, p => p[0] = 0 && p[1] = 0 && p[2] = 0 && p[3] = 0 && p[4] = 0xffff && p[5] = 0
  | nat64, p => p[0] = 0x64 && p[1] = 0xff9b && p[2] = 0 && p[3] = 0 && p[4] = 0 && p[5] = 0
  | compatible, p => p[0] = 0 && p[1] = 0 && p[2] = 0 && p[3] = 0 && p[4] = 0 && p[5] = 0
  | nat64Local, p => p[0] = 0x64 && p[1] = 0xff9b && p[2] = 1 && p[3] = 0 && p[4] = 0 && p[5] = 0
  | sixToFour, p => p[0] = 0x2002
  | teredo, p => p[0] = 0x2001 && p[1] = 0
  | isatap, p => p[4] &&& 0xfcff = 0 && p[5] = 0x5efe

/-- Where the address is; Teredo inverts it. -/
def hextets : EmbeddingForm → Vector UInt16 8 → UInt16 × UInt16
  | sixToFour, p => (p[1], p[2])
  | teredo, p => (p[6] ^^^ 0xffff, p[7] ^^^ 0xffff)
  | _, p => (p[6], p[7])

def ipv4 (form : EmbeddingForm) (p : Vector UInt16 8) : IPv4 :=
  decodeIpv4FromHextets (form.hextets p).1 (form.hextets p).2

end EmbeddingForm

def IPv4.value (address : IPv4) : ℕ :=
  let o := address.octets
  [o[0], o[1], o[2], o[3]].foldl (fun n octet => n * 2 ^ 8 + octet.toNat) 0

def IPv6.value (address : IPv6) : ℕ :=
  let p := address.parts
  [p[0], p[1], p[2], p[3], p[4], p[5], p[6], p[7]].foldl (fun n part => n * 2 ^ 16 + part.toNat) 0

end ClawWorks.NetPolicy
