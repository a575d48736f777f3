import ClawWorks.NetPolicy.EmbeddedIpv4
import Mathlib.Tactic.IntervalCases

/-!
# Ranges of addresses

An IPv4 address is read as its IPv4-mapped form. A range whose base is mapped keeps the prefix of its 128 bits when the
base becomes an IPv4 address, so more bits are compared than the range fixes (`Splits`).
-/

namespace ClawWorks.NetPolicy

open EmbeddingForm
open List (foldl_cons foldl_nil isEmpty_iff)

def SLASH : UInt16 := 47

namespace ParsedIpAddress

/-- The 128 bits of the address, mapped if it is an IPv4 address. -/
def value : ParsedIpAddress → ℕ
  | .v4 address => 0xffff * 2 ^ 32 + address.value
  | .v6 address => address.value

def bits : ParsedIpAddress → ℕ
  | .v4 _ => 32
  | .v6 _ => 128

end ParsedIpAddress

/-- How `ipaddr.js` parses a range and compares leading bits. -/
class CidrJs extends IpaddrJs where
  parseCIDR : JsString → Option (ParsedIpAddress × ℕ)
  matchIPv4 : IPv4 → IPv4 → ℕ → Bool
  matchIPv6 : IPv6 → IPv6 → ℕ → Bool

export CidrJs (parseCIDR matchIPv4 matchIPv6)

section Membership

variable [CidrJs] (ip cidr : JsString)

def isIpInCidr : Bool :=
  match parseCanonicalIpAddress ip with
  | none => false
  | some normalizedIp =>
    let candidate := trim cidr
    if candidate.isEmpty then false
    else if !candidate.contains SLASH then
      match parseCanonicalIpAddress candidate with
      | none => false
      | some exact =>
        match normalizeIpv4MappedAddress normalizedIp, normalizeIpv4MappedAddress exact with
        | .v4 a, .v4 b => toStringIPv4 a = toStringIPv4 b
        | .v6 a, .v6 b => toStringIPv6 a = toStringIPv6 b
        | _, _ => false
    else
      match parseCIDR candidate with
      | none => false
      | some (baseAddress, prefixLength) =>
        match normalizeIpv4MappedAddress normalizedIp, normalizeIpv4MappedAddress baseAddress with
        | .v4 a, .v4 b => matchIPv4 a b prefixLength
        | .v6 a, .v6 b => matchIPv6 a b prefixLength
        | _, _ => false

/-- The base and the prefix length that a range or an exact literal denotes. -/
def denoted : Option (ParsedIpAddress × ℕ) :=
  if (trim cidr).contains SLASH then parseCIDR (trim cidr)
  else (parseCanonicalIpAddress (trim cidr)).map fun exact => (exact, exact.bits)

/-- The leading bits of the 128 agree. -/
def InRange (address base : ParsedIpAddress) (prefixLength : ℕ) : Prop :=
  address.value / 2 ^ (base.bits - prefixLength) = base.value / 2 ^ (base.bits - prefixLength)

instance (address base : ParsedIpAddress) (prefixLength : ℕ) : Decidable (InRange address base prefixLength) :=
  inferInstanceAs (Decidable (_ = _))

/-- The addresses are of two families, IPv4 addresses that differ in the first `prefixLength` of their own bits, or
exact literals of two zones. -/
def Splits (exact : Bool) (prefixLength : ℕ) : ParsedIpAddress → ParsedIpAddress → Bool
  | .v4 a, .v4 b => a.value / 2 ^ (32 - prefixLength) ≠ b.value / 2 ^ (32 - prefixLength)
  | .v6 a, .v6 b => exact && a.zoneId ≠ b.zoneId
  | _, _ => true

/-- What the code relies on of `ipaddr.js`. Behind the last bit there is nothing to compare. -/
structure BitMatching : Prop where
  mapped : ∀ p, rangeIPv6 p = .ipv4Mapped ↔ mapped.marks p
  matchIPv4 : ∀ a b n, matchIPv4 a b n ↔ a.value / 2 ^ (32 - n) = b.value / 2 ^ (32 - n)
  matchIPv6 : ∀ a b n, matchIPv6 a b n ↔ a.value / 2 ^ (128 - n) = b.value / 2 ^ (128 - n)

/-- Addresses, zones included, are told apart by how they are printed. -/
def PrintsApart : Prop :=
  (∀ a b, toStringIPv4 a = toStringIPv4 b ↔ a = b) ∧ ∀ a b, toStringIPv6 a = toStringIPv6 b ↔ a = b

variable {ip cidr} {address base : ParsedIpAddress} {a b : IPv4} {x y : IPv6} {n : ℕ}

section Values

omit [CidrJs]

theorem IPv4.value_inj : a.value = b.value ↔ a = b := by
  refine ⟨fun h => ?_, fun h => h ▸ rfl⟩
  obtain ⟨a⟩ := a
  obtain ⟨b⟩ := b
  simp only [value, foldl_cons, foldl_nil] at h
  have ha : ∀ i (hi : i < 4), a[i].toNat < 2 ^ 8 := fun i hi => a[i].toNat_lt
  have hb : ∀ i (hi : i < 4), b[i].toNat < 2 ^ 8 := fun i hi => b[i].toNat_lt
  congr 1
  ext i hi
  have := ha 0 (by decide); have := ha 1 (by decide); have := ha 2 (by decide); have := ha 3 (by decide)
  have := hb 0 (by decide); have := hb 1 (by decide); have := hb 2 (by decide); have := hb 3 (by decide)
  interval_cases i <;> omega

theorem IPv6.value_inj : x.value = y.value ↔ x.parts = y.parts := by
  refine ⟨fun h => ?_, fun h => by rw [value, value, h]⟩
  simp only [value, foldl_cons, foldl_nil] at h
  have hx : ∀ i (hi : i < 8), x.parts[i].toNat < 2 ^ 16 := fun i hi => x.parts[i].toNat_lt
  have hy : ∀ i (hi : i < 8), y.parts[i].toNat < 2 ^ 16 := fun i hi => y.parts[i].toNat_lt
  ext i hi
  have := hx 0 (by decide); have := hx 1 (by decide); have := hx 2 (by decide); have := hx 3 (by decide)
  have := hx 4 (by decide); have := hx 5 (by decide); have := hx 6 (by decide); have := hx 7 (by decide)
  have := hy 0 (by decide); have := hy 1 (by decide); have := hy 2 (by decide); have := hy 3 (by decide)
  have := hy 4 (by decide); have := hy 5 (by decide); have := hy 6 (by decide); have := hy 7 (by decide)
  interval_cases i <;> omega

theorem value_of_mapped (h : mapped.marks x.parts) : x.value = 0xffff * 2 ^ 32 + (toIPv4Address x).value := by
  simp only [marks, Bool.and_eq_true, decide_eq_true_eq] at h
  obtain ⟨⟨⟨⟨⟨h0, h1⟩, h2⟩, h3⟩, h4⟩, h5⟩ := h
  have h6 := x.parts[6].toNat_lt
  have h7 := x.parts[7].toNat_lt
  simp [IPv6.value, IPv4.value, toIPv4Address, decodeIpv4FromHextets, h0, h1, h2, h3, h4, h5, Nat.shiftRight_eq_div_pow]
  omega

/-- Leading bits that agree do so behind a common head, and so do fewer of them. -/
theorem add_div_two_pow {head l r m k : ℕ} (hhead : 2 ^ m ∣ head) (h : l / 2 ^ m = r / 2 ^ m) (hle : m ≤ k) :
    (head + l) / 2 ^ k = (head + r) / 2 ^ k := by
  obtain ⟨d, rfl⟩ := Nat.exists_eq_add_of_le hle
  obtain ⟨c, rfl⟩ := hhead
  rw [pow_add, ← Nat.div_div_eq_div_mul, ← Nat.div_div_eq_div_mul, Nat.mul_add_div (Nat.two_pow_pos m), h,
    Nat.mul_add_div (Nat.two_pow_pos m)]

end Values

theorem normalized_value (hm : BitMatching) (p : ParsedIpAddress) : (normalizeIpv4MappedAddress p).value = p.value := by
  cases p with
  | v4 a => rfl
  | v6 x =>
    rw [normalizeIpv4MappedAddress]
    split_ifs with hmapped
    · exact (value_of_mapped ((hm.mapped _).mp (of_decide_eq_true hmapped))).symm
    · rfl

theorem eq_v6_of_normalized {p : ParsedIpAddress} (h : normalizeIpv4MappedAddress p = .v6 x) : p = .v6 x := by
  cases p with
  | v4 a => cases h
  | v6 y =>
    rw [normalizeIpv4MappedAddress] at h
    split_ifs at h
    exact h

/-- IPv4 addresses that agree in their own first bits are in the range, also of a mapped base. -/
theorem inRange_of_ipv4 (hm : BitMatching) (ha : normalizeIpv4MappedAddress address = .v4 a)
    (hb : normalizeIpv4MappedAddress base = .v4 b) (h : a.value / 2 ^ (32 - n) = b.value / 2 ^ (32 - n)) :
    InRange address base n := by
  have hbits : 32 ≤ base.bits := by cases base <;> simp [ParsedIpAddress.bits]
  rw [InRange, ← normalized_value hm address, ← normalized_value hm base, ha, hb]
  exact add_div_two_pow ((pow_dvd_pow 2 (Nat.sub_le 32 n)).mul_left 0xffff) h (Nat.sub_le_sub_right hbits n)

/-- **What is admitted**: the addresses of the range that do not split from its base. -/
theorem isIpInCidr_eq_true (hm : BitMatching) (hprint : ¬ (trim cidr).contains SLASH → PrintsApart)
    (hip : parseCanonicalIpAddress ip = some address) (hcidr : denoted cidr = some (base, n)) :
    isIpInCidr ip cidr ↔ InRange address base n ∧
      ¬ Splits (!(trim cidr).contains SLASH) n (normalizeIpv4MappedAddress address) (normalizeIpv4MappedAddress base) := by
  have hne : (trim cidr).isEmpty = false := by
    cases hempty : (trim cidr).isEmpty
    · rfl
    · rw [denoted, isEmpty_iff.mp hempty] at hcidr
      cases hcidr
  rw [isIpInCidr, hip]
  simp only [hne, Bool.false_eq_true, if_false]
  rw [denoted] at hcidr
  by_cases hslash : (trim cidr).contains SLASH
  · rw [if_pos hslash] at hcidr
    simp only [hslash, hcidr, Bool.not_true, Bool.false_eq_true, if_false]
    cases ha : normalizeIpv4MappedAddress address with
    | v4 a => cases hb : normalizeIpv4MappedAddress base with
      | v4 b => simpa [Splits, hm.matchIPv4] using inRange_of_ipv4 hm ha hb
      | v6 y => simp [Splits]
    | v6 x => cases hb : normalizeIpv4MappedAddress base with
      | v4 b => simp [Splits]
      | v6 y => simp [Splits, hm.matchIPv6, InRange, eq_v6_of_normalized ha, eq_v6_of_normalized hb,
          ParsedIpAddress.value, ParsedIpAddress.bits]
  · rw [if_neg hslash] at hcidr
    obtain ⟨exact, hexact, heq⟩ := Option.map_eq_some_iff.mp hcidr
    obtain ⟨rfl, rfl⟩ := Prod.mk.inj heq
    simp only [hslash, hexact, Bool.not_false, if_true]
    cases ha : normalizeIpv4MappedAddress address with
    | v4 a => cases hb : normalizeIpv4MappedAddress exact with
      | v4 b =>
        have hbits : 32 - exact.bits = 0 := by cases exact <;> rfl
        have hin := inRange_of_ipv4 (n := exact.bits) hm ha hb
        rw [hbits, pow_zero, Nat.div_one, Nat.div_one, IPv4.value_inj] at hin
        simpa [Splits, (hprint hslash).1, hbits, IPv4.value_inj] using hin
      | v6 y => simp [Splits]
    | v6 x => cases hb : normalizeIpv4MappedAddress exact with
      | v4 b => simp [Splits]
      | v6 y =>
        obtain rfl := eq_v6_of_normalized ha
        obtain rfl := eq_v6_of_normalized hb
        simp only [Splits, (hprint hslash).2, InRange, ParsedIpAddress.value, ParsedIpAddress.bits, Nat.sub_self, pow_zero,
          Nat.div_one, IPv6.value_inj, decide_eq_true_eq, ne_eq]
        cases x
        cases y
        simp

/-- **Membership is exact** but for the addresses of the range that the comparison splits from its base. -/
theorem isIpInCidr_exact_iff (hm : BitMatching) (hprint : ¬ (trim cidr).contains SLASH → PrintsApart)
    (hip : parseCanonicalIpAddress ip = some address) (hcidr : denoted cidr = some (base, n)) :
    (isIpInCidr ip cidr ↔ InRange address base n) ↔
      ¬ (InRange address base n ∧
        Splits (!(trim cidr).contains SLASH) n (normalizeIpv4MappedAddress address) (normalizeIpv4MappedAddress base)) := by
  rw [isIpInCidr_eq_true hm hprint hip hcidr]
  tauto

end Membership

/-! ## A mapped base -/

def MAPPED_CIDR : JsString := js "::ffff:93.0.0.0/104"

def MAPPED_BASE : IPv6 := ⟨#v[0, 0, 0, 0, 0, 0xffff, 0x5d00, 0], none⟩

/-- A parser of one range. -/
@[reducible] def mappedRange : CidrJs :=
  { hiddenLiteral with
    parseCIDR := fun s => if s = MAPPED_CIDR then some (.v6 MAPPED_BASE, 104) else none
    matchIPv4 := fun a b n => a.value / 2 ^ (32 - n) = b.value / 2 ^ (32 - n)
    matchIPv6 := fun x y n => x.value / 2 ^ (128 - n) = y.value / 2 ^ (128 - n) }

attribute [local instance] mappedRange

theorem mappedRange_matching : BitMatching where
  mapped := @PrefixRanges.mapped hiddenLiteral hiddenLiteral_ranges
  matchIPv4 _ _ _ := decide_eq_true_iff
  matchIPv6 _ _ _ := decide_eq_true_iff

/-- 93.184.216.34 is in `::ffff:93.0.0.0/104`. -/
theorem mapped_range_misses : InRange (.v4 (parseIPv4 PUBLIC_IPV4)) (.v6 MAPPED_BASE) 104 ∧
    isIpInCidr PUBLIC_IPV4 MAPPED_CIDR = false :=
  ⟨by decide +kernel, by decide +kernel⟩

theorem isIpInCidr_exact_iff_mapped :
    ¬ (isIpInCidr PUBLIC_IPV4 MAPPED_CIDR ↔ InRange (.v4 (parseIPv4 PUBLIC_IPV4)) (.v6 MAPPED_BASE) 104) := by
  rw [isIpInCidr_exact_iff mappedRange_matching (fun hslash => absurd (by decide) hslash) (by decide +kernel)
    (by decide +kernel), not_not]
  exact ⟨by decide +kernel, by decide +kernel⟩

end ClawWorks.NetPolicy
