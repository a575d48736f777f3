import ClawWorks.NetPolicy.PinnedTargets

/-!
# IPv4 addresses inside IPv6 addresses

The markers of the transition forms exclude each other but for one: the interface part of an ISATAP address can stand
behind a 6to4 or a Teredo prefix (`eq_or_isatap_of_marks`). The first rule that matches is the only one looked at.
-/

namespace ClawWorks.NetPolicy

open List (find?_map find?_append find?_cons_of_neg find?_some find?_eq_none mem_of_find?_eq_some
  cons_append nil_append isEmpty_iff)

namespace EmbeddingForm

variable {form other : EmbeddingForm} {p : Vector UInt16 8}

theorem eq_or_isatap_of_marks (hform : form.marks p) (hother : other.marks p) :
    form = other ∨ form = isatap ∨ other = isatap := by
  cases form <;> cases other <;> simp_all [marks]

theorem prefix_of_isatap (hform : form.marks p) (hisatap : isatap.marks p) (hne : form ≠ isatap) :
    form = sixToFour ∨ form = teredo := by
  cases form <;> simp_all [marks]

end EmbeddingForm

open EmbeddingForm

def EMBEDDING_FORMS : List EmbeddingForm :=
  [mapped, translated, nat64, compatible, nat64Local, sixToFour, teredo]

theorem sentinelRules_eq : EMBEDDED_IPV4_SENTINEL_RULES =
    [compatible, nat64Local, sixToFour, teredo, isatap].map fun form => ⟨form.marks, form.hextets⟩ :=
  rfl

section Blocking

variable [IpaddrJs] {ip : IPv6} {form : EmbeddingForm}

/-- The range tables of `ipaddr.js` at the prefixes of the forms. -/
structure PrefixRanges : Prop where
  mapped : ∀ p, rangeIPv6 p = .ipv4Mapped ↔ mapped.marks p
  translated : ∀ p, rangeIPv6 p = .rfc6145 ↔ translated.marks p
  nat64 : ∀ p, rangeIPv6 p = .rfc6052 ↔ nat64.marks p
  sixToFour : ∀ p, sixToFour.marks p → rangeIPv6 p = .other
  teredo : ∀ p, teredo.marks p → rangeIPv6 p = .other

theorem extractEmbeddedIpv4FromIpv6_eq_find (hranges : PrefixRanges) : extractEmbeddedIpv4FromIpv6 ip =
      ((EMBEDDING_FORMS ++ [isatap]).find? (·.marks ip.parts)).map (·.ipv4 ip.parts) := by
  simp only [extractEmbeddedIpv4FromIpv6, isIPv4MappedAddress, hranges.mapped, hranges.translated, hranges.nat64,
    sentinelRules_eq, find?_map, Option.map_map, EMBEDDING_FORMS, cons_append, nil_append, decide_eq_true_eq]
  by_cases hmapped : mapped.marks ip.parts
  · simp [hmapped, ipv4, toIPv4Address, hextets]
  by_cases htranslated : translated.marks ip.parts
  · simp [hmapped, htranslated, ipv4, hextets]
  by_cases hnat64 : nat64.marks ip.parts
  · simp [hmapped, htranslated, hnat64, ipv4, hextets]
  rw [if_neg hmapped, if_neg htranslated, if_neg hnat64]
  conv_rhs => rw [find?_cons_of_neg (by exact hmapped), find?_cons_of_neg (by exact htranslated), find?_cons_of_neg (by exact hnat64)]
  rfl

/-- **The address carried by a form is the one that is looked at**, unless an ISATAP marker is behind a prefix. -/
theorem extract_of_marks (hranges : PrefixRanges) (hform : form.marks ip.parts)
    (hbare : form = isatap → ¬ sixToFour.marks ip.parts ∧ ¬ teredo.marks ip.parts) :
    extractEmbeddedIpv4FromIpv6 ip = some (form.ipv4 ip.parts) := by
  rw [extractEmbeddedIpv4FromIpv6_eq_find hranges, find?_append]
  cases hfind : EMBEDDING_FORMS.find? (·.marks ip.parts) with
  | some first =>
    have hfirst : first.marks ip.parts := by simpa using find?_some hfind
    have hne : first ≠ isatap := fun heq => by
      have hmem := mem_of_find?_eq_some hfind
      rw [heq] at hmem
      exact absurd hmem (by decide)
    rcases eq_or_isatap_of_marks hform hfirst with rfl | rfl | rfl
    · rfl
    · rcases prefix_of_isatap hfirst hform hne with rfl | rfl
      · exact absurd hfirst (hbare rfl).1
      · exact absurd hfirst (hbare rfl).2
    · exact absurd rfl hne
  | none =>
    have hisatap : form = isatap := by
      have hall := find?_eq_none.mp hfind
      cases form
      case isatap => rfl
      all_goals exact absurd hform (hall _ (by decide))
    subst hisatap
    simp [hform]

/-- An ISATAP address that is blocked, behind a 6to4 or a Teredo prefix with an address that is not. -/
def HidesIsatap (p : Vector UInt16 8) : Prop :=
  isatap.marks p ∧ isBlockedSpecialUseIpv4Address (isatap.ipv4 p) false ∧
    ∃ form, (form = sixToFour ∨ form = teredo) ∧ form.marks p ∧ ¬ isBlockedSpecialUseIpv4Address (form.ipv4 p) false

theorem isBlockedSpecialUseIpv6Address_of_prefix (hranges : PrefixRanges) (hform : form = sixToFour ∨ form = teredo)
    (hmarks : form.marks ip.parts) (allowUniqueLocalRange : Bool) :
    isBlockedSpecialUseIpv6Address ip allowUniqueLocalRange = false := by
  have hother : rangeIPv6 ip.parts = .other := by
    rcases hform with rfl | rfl
    · exact hranges.sixToFour _ hmarks
    · exact hranges.teredo _ hmarks
  have hlow : ¬ ip.parts[0] &&& 0xffc0 = 0xfec0 := by
    rcases hform with rfl | rfl
    · rw [of_decide_eq_true hmarks]
      decide
    · rw [of_decide_eq_true (Bool.and_eq_true_iff.mp hmarks).1]
      decide
  simp [isBlockedSpecialUseIpv6Address, hother, BLOCKED_IPV6_SPECIAL_USE_RANGES, hlow]

variable [LowerCase]

/-- **Blocked IPv4 addresses inside IPv6 addresses** are blocked, whatever the forms that carry them, exactly where no
ISATAP marker hides one behind a prefix. -/
theorem embeddedIpv4_blocked_iff (hranges : PrefixRanges) {address : JsString} {policy : SsrFPolicy}
    (hparse : parseCanonicalIpAddress (normalizeHostname address) = some (.v6 ip))
    (hrfc2544 : policy.allowRfc2544BenchmarkRange = false) (huniqueLocal : policy.allowIpv6UniqueLocalRange = false) :
    (∀ form : EmbeddingForm, form.marks ip.parts → isBlockedSpecialUseIpv4Address (form.ipv4 ip.parts) false →
      isPrivateIpAddress address policy) ↔ ¬ HidesIsatap ip.parts := by
  have hprivate : isPrivateIpAddress address policy = isBlockedParsedIp policy (.v6 ip) := by
    rw [isPrivateIpAddress, hparse]
    split
    · rename_i hempty
      rw [isEmpty_iff.mp hempty] at hparse
      cases hparse
    · rfl
  rw [hprivate, isBlockedParsedIp, hrfc2544, huniqueLocal]
  constructor
  · rintro h ⟨hisatap, hblocked, form, hform, hmarks, hfree⟩
    have hlooked := h isatap hisatap hblocked
    have hne : form ≠ isatap := by
      rintro rfl
      exact absurd hform (by decide)
    rw [ isBlockedSpecialUseIpv6Address_of_prefix hranges hform hmarks,
      extract_of_marks hranges hmarks fun heq => absurd heq hne] at hlooked
    exact hfree hlooked
  · intro hshown form hmarks hblocked
    split
    · rfl
    by_cases hhidden : form = isatap ∧ (sixToFour.marks ip.parts ∨ teredo.marks ip.parts)
    · obtain ⟨rfl, hprefix⟩ := hhidden
      have hfound : ∀ form, (form = sixToFour ∨ form = teredo) → form.marks ip.parts →
          isBlockedSpecialUseIpv4Address (form.ipv4 ip.parts) false := fun form hform hmarks' =>
        by_contra fun hfree => hshown ⟨hmarks, hblocked, form, hform, hmarks', hfree⟩
      rcases hprefix with hprefix | hprefix
      · rw [extract_of_marks hranges hprefix (by simp)]
        exact hfound _ (Or.inl rfl) hprefix
      · rw [extract_of_marks hranges hprefix (by simp)]
        exact hfound _ (Or.inr rfl) hprefix
    · rw [extract_of_marks hranges hmarks fun heq => not_or.mp fun hprefix => hhidden ⟨heq, hprefix⟩]
      exact hblocked

end Blocking

/-! ## A hidden address -/

def HIDDEN_IPV6 : JsString := js "2002:808:808::5efe:a9fe:1"

/-- The link-local 169.254.0.1 behind the 6to4 prefix of 8.8.8.8. -/
def HIDDEN_IPV6_PARTS : Vector UInt16 8 := #v[0x2002, 0x0808, 0x0808, 0, 0, 0x5efe, 0xa9fe, 1]

/-- A parser of one IPv6 literal. -/
@[reducible] def hiddenLiteral : IpaddrJs :=
  { twoLiterals with
    isValidIPv6 := fun s => s.map asciiLower == HIDDEN_IPV6
    parseIPv6 := fun _ => ⟨HIDDEN_IPV6_PARTS, none⟩
    rangeIPv6 := fun p =>
      if mapped.marks p then .ipv4Mapped
      else if translated.marks p then .rfc6145
      else if nat64.marks p then .rfc6052
      else if p = METADATA_IPV6_PARTS then .uniqueLocal
      else .other
    ipv6_text := fun _ h =>
      literal_of_lower (eq_of_beq h) (u := 49) (by decide) (by decide) (by decide) (by decide) (by decide)
    ipv6_caseless := fun s t h => by
      rw [h]
      exact ⟨rfl, rfl⟩
    metadata_ipv6 := by decide }

attribute [local instance] asciiLowerCase hiddenLiteral

theorem hiddenLiteral_ranges : PrefixRanges := by
  constructor <;> intro p <;> simp only [rangeIPv6, marks, Bool.and_eq_true, decide_eq_true_eq] <;> split_ifs <;>
    first | (subst p; decide) | simp_all

def noPolicy : SsrFPolicy := { uniqueLocalPolicy with allowIpv6UniqueLocalRange := false }

theorem hidden_ipv4_passes : isatap.marks HIDDEN_IPV6_PARTS ∧
    isBlockedSpecialUseIpv4Address (isatap.ipv4 HIDDEN_IPV6_PARTS) false ∧
    isPrivateIpAddress HIDDEN_IPV6 noPolicy = false := by
  decide +kernel

theorem embeddedIpv4_blocked_iff_hidden :
    ¬ ∀ form : EmbeddingForm, form.marks HIDDEN_IPV6_PARTS →
      isBlockedSpecialUseIpv4Address (form.ipv4 HIDDEN_IPV6_PARTS) false → isPrivateIpAddress HIDDEN_IPV6 noPolicy := by
  have hparse : parseCanonicalIpAddress (normalizeHostname HIDDEN_IPV6) = some (.v6 ⟨HIDDEN_IPV6_PARTS, none⟩) := by
    decide +kernel
  rw [embeddedIpv4_blocked_iff hiddenLiteral_ranges hparse rfl rfl, not_not]
  exact ⟨by decide, by decide, sixToFour, Or.inl rfl, by decide, by decide⟩

end ClawWorks.NetPolicy
