import ClawWorks.NetPolicy.Ssrf

/-!
# What a pinned hostname reaches

Which addresses can be pinned while the policy does not allow the private network as a whole.
-/

namespace ClawWorks.NetPolicy

open List IpaddrJs

open Option (bind_some map_eq_some_iff map_some)

/-! ## Units of a literal -/

theorem asciiLower_eq_iff {u v : UInt16} (hv : v.toNat < 65 ∨ 90 < v.toNat ∧ v.toNat < 97 ∨ 122 < v.toNat) :
    asciiLower u = v ↔ u = v := by
  unfold asciiLower
  split
  · rename_i h
    obtain ⟨hlow, hhigh, hsum⟩ := toNat_of_upper h
    rw [← UInt16.toNat_inj, ← UInt16.toNat_inj, hsum]
    omega
  · rfl

variable {u : UInt16}

theorem isDigit_asciiLower (h : isDigit u) : asciiLower u = u := by
  unfold asciiLower
  split
  · rename_i hupper
    have hlow : 65 ≤ u.toNat := UInt16.le_iff_toNat_le.mp hupper.1
    simp only [isDigit, Bool.and_eq_true, decide_eq_true_eq, UInt16.le_iff_toNat_le] at h
    simp at h
    omega
  · rfl

theorem isLiteralUnit_iff : isLiteralUnit u ↔
    48 ≤ u.toNat ∧ u.toNat ≤ 57 ∨ 97 ≤ u.toNat ∧ u.toNat ≤ 122 ∨ 65 ≤ u.toNat ∧ u.toNat ≤ 90 ∨ u.toNat = 58 ∨
      u.toNat = 46 ∨ u.toNat = 37 := by
  simp only [isLiteralUnit, Bool.or_eq_true, isAlphanumeric_iff, beq_iff_eq, ← UInt16.toNat_inj, COLON, DOT, PERCENT,
    or_assoc]
  simp

theorem isAlphanumeric_asciiLower : isAlphanumeric (asciiLower u) = isAlphanumeric u := by
  unfold asciiLower
  split
  · rename_i h
    obtain ⟨hlow, hhigh, hsum⟩ := toNat_of_upper h
    have hupper : isAlphanumeric u := isAlphanumeric_iff.mpr (by omega)
    have hlower : isAlphanumeric (u + 32) := isAlphanumeric_iff.mpr (by omega)
    rw [hupper, hlower]
  · rfl

theorem isLiteralUnit_asciiLower : isLiteralUnit (asciiLower u) = isLiteralUnit u := by
  have hsame : ∀ v : UInt16, v.toNat < 65 → (asciiLower u == v) = (u == v) := by
    intro v hv
    rw [Bool.eq_iff_iff, beq_iff_eq, beq_iff_eq]
    exact asciiLower_eq_iff (.inl hv)
  rw [isLiteralUnit, isLiteralUnit, isAlphanumeric_asciiLower, hsame COLON (by decide), hsame DOT (by decide),
    hsame PERCENT (by decide)]

theorem isWhiteSpace_of_isLiteralUnit (h : isLiteralUnit u) : isWhiteSpace u = false := by
  have hu := isLiteralUnit_iff.mp h
  exact isWhiteSpace_of_printable (by omega) (by omega)

variable {s : JsString}

section

variable (h : LiteralText s)

include h

theorem LiteralText.ne_nil : s ≠ [] := by
  obtain ⟨u, hu, -⟩ := h.last
  rintro rfl
  cases hu

theorem LiteralText.bracket (hu : u ∈ s) : u ≠ OPEN_BRACKET ∧ u ≠ CLOSE_BRACKET := by
  have hunit := isLiteralUnit_iff.mp (h.units u hu)
  constructor
  · rintro rfl
    exact absurd hunit (by decide)
  · rintro rfl
    exact absurd hunit (by decide)

theorem LiteralText.ascii (hu : u ∈ s) : u < 128 := by
  have hunit := isLiteralUnit_iff.mp (h.units u hu)
  rw [UInt16.lt_iff_toNat_lt]
  simp
  omega

theorem LiteralText.lower : LiteralText (s.map asciiLower) := by
  constructor
  · intro u hu
    obtain ⟨v, hv, rfl⟩ := mem_map.mp hu
    rw [isLiteralUnit_asciiLower]
    exact h.units v hv
  · obtain ⟨u, hu, hdot⟩ := h.last
    refine ⟨asciiLower u, by rw [getLast?_map, hu]; rfl, fun hlast => hdot ?_⟩
    exact (asciiLower_eq_iff (.inl (by decide))).mp hlast

theorem trim_literal : trim s = s := trim_eq_self fun u hu => isWhiteSpace_of_isLiteralUnit (h.units u hu)

theorem stripIpv6Brackets_literal : stripIpv6Brackets s = s := by
  refine if_neg fun hs => ?_
  exact (h.bracket (mem_of_getLast? hs.2)).2 rfl

end

theorem stripIpv6Brackets_lower (s : JsString) :
    stripIpv6Brackets (s.map asciiLower) = (stripIpv6Brackets s).map asciiLower := by
  have hsame : ∀ (o : Option UInt16) (v : UInt16), 90 < v.toNat → v.toNat < 97 →
      (o.map asciiLower = some v ↔ o = some v) := by
    intro o v hv hv'
    cases o with
    | none => simp
    | some u =>
      rw [map_some, Option.some.injEq, Option.some.injEq]
      exact asciiLower_eq_iff (.inr (.inl ⟨hv, hv'⟩))
  simp only [stripIpv6Brackets, head?_map, getLast?_map, hsame _ OPEN_BRACKET (by decide) (by decide),
    hsame _ CLOSE_BRACKET (by decide) (by decide)]
  split
  · rw [map_dropLast, map_drop]
  · rfl

theorem units_of_strip (h : LiteralText (stripIpv6Brackets s)) :
    (∀ u ∈ s, u < 128) ∧ ∃ u, s.getLast? = some u ∧ u ≠ DOT := by
  by_cases hs : s.head? = some OPEN_BRACKET ∧ s.getLast? = some CLOSE_BRACKET
  · rw [stripIpv6Brackets, if_pos hs] at h
    refine ⟨?_, CLOSE_BRACKET, hs.2, by decide⟩
    obtain ⟨hopen, hclose⟩ := hs
    cases s with
    | nil => cases hopen
    | cons first rest =>
      obtain rfl : first = OPEN_BRACKET := Option.some.inj hopen
      intro u hu
      rcases mem_cons.mp hu with rfl | hu
      · decide
      · have hne : rest ≠ [] := ne_nil_of_mem hu
        rw [getLast?_cons_of_ne_nil hne] at hclose
        rw [← dropLast_append_getLast? _ hclose] at hu
        rcases mem_append.mp hu with hu | hu
        · exact h.ascii hu
        · rw [mem_singleton.mp hu]
          decide
  · rw [stripIpv6Brackets, if_neg hs] at h
    exact ⟨fun u hu => h.ascii hu, h.last⟩

/-! ## Parsing in lower case -/

theorem map_asciiLower_twice (s : JsString) : (s.map asciiLower).map asciiLower = s.map asciiLower := by
  rw [map_map]
  exact map_congr_left fun u _ => asciiLower_asciiLower u

theorem splitLastColon_lower (s : JsString) : splitLastColon (s.map asciiLower) =
    ((splitLastColon s).1.map asciiLower, (splitLastColon s).2.map asciiLower) := by
  have hsame : ((· != COLON) ∘ asciiLower) = (· != COLON) := by
    funext u
    rw [Function.comp, Bool.eq_iff_iff, bne_iff_ne, bne_iff_ne, Ne, Ne, asciiLower_eq_iff (.inl (by decide))]
  simp only [splitLastColon, rdropWhile, rtakeWhile, ← map_reverse, dropWhile_map, takeWhile_map, hsame]

theorem splitLastColon_append (s : JsString) : (splitLastColon s).1 ++ (splitLastColon s).2 = s := by
  rw [splitLastColon, rdropWhile, rtakeWhile, ← reverse_append, takeWhile_append_dropWhile, reverse_reverse]

theorem map_asciiLower_eq_self (h : ∀ u ∈ s, isDigit u ∨ u = DOT) : s.map asciiLower = s := by
  refine (map_congr_left fun u hu => ?_).trans (map_id s)
  rcases h u hu with hdigit | rfl
  · exact isDigit_asciiLower hdigit
  · rfl

theorem isZoneSuffix_lower (s : JsString) : isZoneSuffix (s.map asciiLower) = isZoneSuffix s := by
  cases s with
  | nil => rfl
  | cons u zone =>
    have hmark : (asciiLower u == PERCENT) = (u == PERCENT) := by
      rw [Bool.eq_iff_iff, beq_iff_eq, beq_iff_eq]
      exact asciiLower_eq_iff (.inl (by decide))
    have hall : (zone.map asciiLower).all isAlphanumeric = zone.all isAlphanumeric := by
      rw [all_map]
      exact congrArg zone.all (funext fun v => isAlphanumeric_asciiLower)
    simp only [isZoneSuffix, map_cons, head?_cons, tail_cons, isEmpty_cons, isEmpty_map, hall]
    rw [show (some (asciiLower u) == some PERCENT) = (some u == some PERCENT) from by simpa using hmark]

theorem normalizeIpParseInput_literal (h : LiteralText s) : normalizeIpParseInput s = some s := by
  rw [normalizeIpParseInput, normalizeOptionalString, trim_literal h, truthy?_some h.ne_nil, map_some,
    stripIpv6Brackets_literal h]

section Parsing

variable [IpaddrJs]

theorem parseIpv6WithEmbeddedIpv4_eq_some {s : JsString} {x : IPv6} (h : parseIpv6WithEmbeddedIpv4 s = some x) :
    ∃ before embeddedIpv4 zoneSuffix, s = before ++ (embeddedIpv4 ++ zoneSuffix) ∧ isZoneSuffix zoneSuffix ∧
      isValidFourPartDecimal embeddedIpv4 ∧
      isValidIPv6 (before ++ hextetsText embeddedIpv4 ++ zoneSuffix) ∧
      x = parseIPv6 (before ++ hextetsText embeddedIpv4 ++ zoneSuffix) := by
  unfold parseIpv6WithEmbeddedIpv4 at h
  simp only [Bool.not_eq_true', ite_eq_iff, reduceCtorEq, and_false, false_or, Option.some.injEq,
    Bool.not_eq_false] at h
  obtain ⟨-, hzone, hfour, hvalid, rfl⟩ := h
  refine ⟨_, _, _, ?_, hzone, hfour, hvalid, rfl⟩
  rw [takeWhile_append_dropWhile, splitLastColon_append]

theorem parseIpv6WithEmbeddedIpv4_literal {s : JsString} {x : IPv6} (h : parseIpv6WithEmbeddedIpv4 s = some x) :
    LiteralText s := by
  obtain ⟨before, embeddedIpv4, zoneSuffix, rfl, hzone, hfour, hvalid, -⟩ := parseIpv6WithEmbeddedIpv4_eq_some h
  have hembedded : LiteralText embeddedIpv4 := (ipv4_parts _ (fourPartDecimal _ hfour).1).2.1
  have hwhole : LiteralText (before ++ hextetsText embeddedIpv4 ++ zoneSuffix) := (ipv6_text _ hvalid).2
  constructor
  · intro u hu
    rcases mem_append.mp hu with hu | hu
    · exact hwhole.units u (mem_append_left _ (mem_append_left _ hu))
    · rcases mem_append.mp hu with hu | hu
      · exact hembedded.units u hu
      · exact hwhole.units u (mem_append_right _ hu)
  · by_cases hz : zoneSuffix = []
    · subst hz
      obtain ⟨u, hu, hdot⟩ := hembedded.last
      refine ⟨u, ?_, hdot⟩
      rw [append_nil, getLast?_append, hu, Option.some_or]
    · obtain ⟨u, hu, hdot⟩ := hwhole.last
      rw [getLast?_append_of_ne_nil _ hz] at hu
      refine ⟨u, ?_, hdot⟩
      rw [getLast?_append_of_ne_nil _ (by simp [hz]), getLast?_append_of_ne_nil _ hz, hu]

theorem parseIpv6WithEmbeddedIpv4_lower {s : JsString} {x : IPv6} (h : parseIpv6WithEmbeddedIpv4 s = some x) :
    ∃ y, parseIpv6WithEmbeddedIpv4 (s.map asciiLower) = some y ∧ y.parts = x.parts := by
  unfold parseIpv6WithEmbeddedIpv4 at h ⊢
  simp only [Bool.not_eq_true', ite_eq_iff, reduceCtorEq, and_false, false_or, Option.some.injEq,
    Bool.not_eq_false] at h
  obtain ⟨hmarks, hzone, hfour, hvalid, rfl⟩ := h
  have hcontains : ∀ v : UInt16, v.toNat < 65 → (s.map asciiLower).contains v = s.contains v := by
    intro v hv
    rw [Bool.eq_iff_iff, contains_iff_mem, contains_iff_mem, mem_map]
    constructor
    · rintro ⟨u, hu, hlower⟩
      rwa [← (asciiLower_eq_iff (.inl hv)).mp hlower]
    · intro hmem
      exact ⟨v, hmem, (asciiLower_eq_iff (.inl hv)).mpr rfl⟩
  have hsame : ((· != PERCENT) ∘ asciiLower) = (· != PERCENT) := by
    funext u
    rw [Function.comp, Bool.eq_iff_iff, bne_iff_ne, bne_iff_ne, Ne, Ne, asciiLower_eq_iff (.inl (by decide))]
  have hdecimal : ∀ u ∈ (splitLastColon s).2.takeWhile (· != PERCENT), isDigit u ∨ u = DOT :=
    (fourPartDecimal _ hfour).2
  simp only [splitLastColon_lower, takeWhile_map, dropWhile_map, hsame, isZoneSuffix_lower,
    hcontains COLON (by decide), hcontains DOT (by decide), map_asciiLower_eq_self hdecimal]
  obtain ⟨hsamevalid, hparts⟩ := ipv6_caseless
    ((splitLastColon s).1.map asciiLower ++ hextetsText ((splitLastColon s).2.takeWhile (· != PERCENT)) ++
      ((splitLastColon s).2.dropWhile (· != PERCENT)).map asciiLower)
    ((splitLastColon s).1 ++ hextetsText ((splitLastColon s).2.takeWhile (· != PERCENT)) ++
      (splitLastColon s).2.dropWhile (· != PERCENT))
    (by simp only [map_append, map_asciiLower_twice])
  refine ⟨_, ?_, hparts⟩
  rw [hsamevalid, hmarks, hzone, hfour, hvalid]
  rfl

variable {p : ParsedIpAddress}

theorem literal_of_loose {s : JsString} (h : parseLooseIpAddress s = some p) :
    trim s ≠ [] ∧ LiteralText (stripIpv6Brackets (trim s)) ∧
      parseLooseIpAddress (stripIpv6Brackets (trim s)) = some p := by
  have hblank : trim s ≠ [] := by
    intro hnil
    rw [parseLooseIpAddress, normalizeIpParseInput, normalizeOptionalString, hnil] at h
    cases h
  have hinput : normalizeIpParseInput s = some (stripIpv6Brackets (trim s)) := by
    rw [normalizeIpParseInput, normalizeOptionalString, truthy?_some hblank, map_some]
  rw [parseLooseIpAddress, hinput, bind_some] at h
  have hliteral : LiteralText (stripIpv6Brackets (trim s)) := by
    split at h
    · cases h
    split at h
    · rename_i hvalid
      exact (ipv6_text _ hvalid).2
    split at h
    · rename_i hvalid
      exact (ipv4_parts _ hvalid).2.1
    · obtain ⟨x, hx, -⟩ := map_eq_some_iff.mp h
      exact parseIpv6WithEmbeddedIpv4_literal hx
  refine ⟨hblank, hliteral, ?_⟩
  rw [parseLooseIpAddress, normalizeIpParseInput_literal hliteral, bind_some]
  exact h

def ParsedIpAddress.withoutZone : ParsedIpAddress → ParsedIpAddress
  | .v4 address => .v4 address
  | .v6 address => .v6 { address with zoneId := none }

open ParsedIpAddress

theorem parseCanonical_lower {s : JsString} (hs : LiteralText s)
    (h : parseLooseIpAddress s = some p) :
    (∃ q, parseCanonicalIpAddress (s.map asciiLower) = some q ∧ q.withoutZone = p.withoutZone) ∨
      parseCanonicalIpAddress (s.map asciiLower) = none ∧ COLON ∉ s.map asciiLower ∧
        isCanonicalDottedDecimalIPv4 (s.map asciiLower) = false ∧ isLegacyIpv4Literal (s.map asciiLower) := by
  have hlower := hs.lower
  have hne : (s.map asciiLower).isEmpty = false := by simpa using hs.ne_nil
  have hne' : s.isEmpty = false := by simpa using hs.ne_nil
  rw [parseLooseIpAddress, normalizeIpParseInput_literal hs, bind_some, hne'] at h
  rw [parseCanonicalIpAddress, normalizeIpParseInput_literal hlower, bind_some, hne]
  obtain ⟨hv6, hparts⟩ := ipv6_caseless (s.map asciiLower) s (map_asciiLower_twice s)
  obtain ⟨hv4, hfour, haddress⟩ := ipv4_caseless (s.map asciiLower) s (map_asciiLower_twice s)
  simp only [Bool.false_eq_true, if_false] at h ⊢
  rw [hv6, hv4, hfour]
  by_cases hvalid6 : isValidIPv6 s
  · -- A colon keeps it apart from the IPv4 forms.
    have hnot4 : isValidIPv4 s = false := by
      by_contra hvalid4
      exact (ipv4_parts s (by simpa using hvalid4)).1 (ipv6_text s hvalid6).1
    rw [if_pos hvalid6] at h
    left
    refine ⟨.v6 (parseIPv6 (s.map asciiLower)), by simp [hnot4, hvalid6], ?_⟩
    rw [← Option.some.inj h, withoutZone, withoutZone, hparts]
  rw [if_neg hvalid6] at h
  by_cases hvalid4 : isValidIPv4 s
  · rw [if_pos hvalid4] at h
    by_cases hdecimal : isValidFourPartDecimal s
    · left
      refine ⟨.v4 (parseIPv4 (s.map asciiLower)), by simp [hvalid4, hdecimal], ?_⟩
      rw [← Option.some.inj h, haddress]
    · right
      obtain ⟨hcolon, -, hlength, hall⟩ := ipv4_parts (s.map asciiLower) (by rw [hv4, hvalid4])
      have hcanonical : isCanonicalDottedDecimalIPv4 (s.map asciiLower) = false := by
        rw [isCanonicalDottedDecimalIPv4, normalizeOptionalString, trim_literal hlower, truthy?_some hlower.ne_nil]
        simp [stripIpv6Brackets_literal hlower, hfour, hdecimal]
      refine ⟨by simp [hvalid4, hdecimal], hcolon, hcanonical, ?_⟩
      rw [isLegacyIpv4Literal, normalizeOptionalString, trim_literal hlower, truthy?_some hlower.ne_nil]
      simp only [stripIpv6Brackets_literal hlower, hne, hcanonical, Bool.false_or, Bool.false_eq_true, if_false]
      have hempty : ((s.map asciiLower).splitOn DOT).any (·.isEmpty) = false := by
        rw [any_eq_false]
        intro part hpart hnil
        rw [List.isEmpty_iff] at hnil
        have hnumeric := hall part hpart
        subst hnil
        cases hnumeric
      have hcount : ((s.map asciiLower).splitOn DOT).length ≠ 0 := by simp [splitOn_ne_nil]
      simp only [hempty, Bool.false_eq_true, if_false]
      rw [if_neg (by simpa using hcolon), if_neg (by omega), all_eq_true]
      exact hall
  · rw [if_neg hvalid4] at h
    obtain ⟨x, hx, rfl⟩ := map_eq_some_iff.mp h
    obtain ⟨y, hy, hsame⟩ := parseIpv6WithEmbeddedIpv4_lower hx
    left
    refine ⟨.v6 y, by simp [hvalid4, hvalid6, hy], ?_⟩
    rw [withoutZone, withoutZone, hsame]

theorem isBlockedParsedIp_withoutZone (policy : SsrFPolicy) (p : ParsedIpAddress) :
    isBlockedParsedIp policy p.withoutZone = isBlockedParsedIp policy p := by
  cases p <;> rfl

end Parsing

section Answers

variable [LowerCase]

theorem normalizeHostname_eq {s : JsString} (hs : LiteralText (stripIpv6Brackets (trim s))) (hne : trim s ≠ []) :
    normalizeHostname s = (stripIpv6Brackets (trim s)).map asciiLower := by
  obtain ⟨hascii, u, hlast, hdot⟩ := units_of_strip hs
  have hlower : normalizeLowercaseStringOrEmpty s = (trim s).map asciiLower := by
    rw [normalizeLowercaseStringOrEmpty, normalizeOptionalString, truthy?_some hne, map_some, Option.getD_some,
      LowerCase.ascii _ hascii]
  have hdots : ((trim s).map asciiLower).rdropWhile (· == DOT) = (trim s).map asciiLower := by
    rw [rdropWhile_eq_self_iff]
    intro hnil
    have hgetLast : ((trim s).map asciiLower).getLast hnil = asciiLower u := by
      have := getLast?_eq_some_getLast hnil
      rw [getLast?_map, hlast] at this
      exact (Option.some.inj this).symm
    rw [hgetLast]
    simpa using fun hlow => hdot ((asciiLower_eq_iff (.inl (by decide))).mp hlow)
  rw [normalizeHostname, hlower, hdots, stripIpv6Brackets_lower]

theorem normalizeHostname_lower {s : JsString} (hs : LiteralText s) :
    normalizeHostname (s.map asciiLower) = s.map asciiLower := by
  have hlower := hs.lower
  rw [normalizeHostname_eq (by rwa [trim_literal hlower, stripIpv6Brackets_literal hlower])
    (by rw [trim_literal hlower]; exact hlower.ne_nil), trim_literal hlower, stripIpv6Brackets_literal hlower,
    map_asciiLower_twice]

variable [IpaddrJs]

theorem isBlockedParsedIp_of_answer {policy : SsrFPolicy} {address : JsString}
    (hp : parseLooseIpAddress address = some p) (h : isBlockedHostnameOrIp address policy = false) :
    isBlockedParsedIp policy p = false := by
  obtain ⟨hblank, hliteral, hloose⟩ := literal_of_loose hp
  have hne : ((stripIpv6Brackets (trim address)).map asciiLower).isEmpty = false := by
    simpa using hliteral.ne_nil
  unfold isBlockedHostnameOrIp at h
  simp only [normalizeHostname_eq hliteral hblank, hne, Bool.false_eq_true, if_false, Bool.or_eq_false_iff] at h
  have hprivate := h.2
  unfold isPrivateIpAddress at hprivate
  simp only [normalizeHostname_lower hliteral, hne, Bool.false_eq_true, if_false] at hprivate
  rcases parseCanonical_lower hliteral hloose with ⟨q, hq, hsame⟩ | ⟨hnone, hcolon, hcanonical, hlegacy⟩
  · rw [hq] at hprivate
    rw [← isBlockedParsedIp_withoutZone, ← hsame, isBlockedParsedIp_withoutZone]
    exact hprivate
  · rw [hnone] at hprivate
    simp [hcolon, hcanonical, hlegacy] at hprivate

end Answers

/-! ## Targets -/

/-- `target` is the address, or one that is in it. -/
def Reaches [IpaddrJs] (p target : ParsedIpAddress) : Prop :=
  target = p ∨ ∃ x a, p = .v6 x ∧ a ∈ embeddedIpv4Addresses x ∧ target = .v4 a

def IsLinkLocal [IpaddrJs] : ParsedIpAddress → Prop
  | .v4 address => rangeIPv4 address.octets = .linkLocal
  | .v6 address => rangeIPv6 address.parts = .linkLocal

def IsCloudMetadata : ParsedIpAddress → Prop
  | .v4 address => address = METADATA_IPV4
  | .v6 address => address.parts = METADATA_IPV6_PARTS

/-- A range that is blocked where nothing is exempted. -/
def IsBlockedSpecialUse [IpaddrJs] : ParsedIpAddress → Prop
  | .v4 address => isBlockedSpecialUseIpv4Address address false = true
  | .v6 address => isBlockedSpecialUseIpv6Address address false = true

/-- No allowed hostname, no exempted range. -/
def NoExemption (policy : SsrFPolicy) : Prop :=
  policy.allowedHostnames = [] ∧ policy.allowRfc2544BenchmarkRange = false ∧ policy.allowIpv6UniqueLocalRange = false

theorem mem_head_or_tail {α : Type*} {l : List α} {a : α} (h : a ∈ l) : l.head? = some a ∨ a ∈ l.tail := by
  cases l with
  | nil => cases h
  | cons b l =>
    rcases mem_cons.mp h with rfl | h
    · exact .inl rfl
    · exact .inr h

section Targets

variable [IpaddrJs]

theorem not_blocked_ipv4 {a : IPv4} {allow : Bool} (h : isBlockedSpecialUseIpv4Address a allow = false) :
    rangeIPv4 a.octets ≠ .linkLocal ∧ a ≠ METADATA_IPV4 := by
  unfold isBlockedSpecialUseIpv4Address at h
  by_cases hbench : inRfc2544BenchmarkRange a
  · -- The exempted range is apart from both.
    simp only [inRfc2544BenchmarkRange, Bool.and_eq_true, decide_eq_true_eq] at hbench
    constructor
    · intro hlocal
      have hfirst := ((linkLocal_ipv4 _).mp hlocal).1
      rw [hbench.1] at hfirst
      exact absurd hfirst (by decide)
    · rintro rfl
      exact absurd hbench.1 (by decide)
  · simp only [hbench, Bool.false_and, Bool.false_eq_true, if_false, Bool.or_false] at h
    constructor
    · intro hlocal
      rw [hlocal] at h
      exact absurd h (by decide)
    · rintro rfl
      rw [metadata_ipv4] at h
      exact absurd h (by decide)

theorem toStringIPv4_mem (a : IPv4) : CLOUD_METADATA_IP_ADDRESSES.contains (toStringIPv4 a) ↔ a = METADATA_IPV4 := by
  have hother : toStringIPv4 a ≠ js "fd00:ec2::254" := by
    intro htext
    refine toStringIPv4_colon a ?_
    rw [htext]
    decide
  simp [CLOUD_METADATA_IP_ADDRESSES, hother, toStringIPv4_metadata]

theorem toStringIPv6_mem (x : IPv6) : CLOUD_METADATA_IP_ADDRESSES.contains (toStringIPv6 x) ↔
      x.parts = METADATA_IPV6_PARTS ∧ x.zoneId = none := by
  have hother : toStringIPv6 x ≠ js "100.100.100.200" := by
    intro htext
    have hcolon := toStringIPv6_colon x
    rw [htext] at hcolon
    exact absurd hcolon (by decide)
  simp [CLOUD_METADATA_IP_ADDRESSES, hother, toStringIPv6_metadata]

theorem trusted_answer {address : JsString} (hp : parseLooseIpAddress address = some p)
    (hlocal : isLinkLocalIpAddress address = false) (hmeta : isCloudMetadataIpAddress address = false) :
    (∀ a, p = .v4 a → ¬ IsLinkLocal (.v4 a) ∧ ¬ IsCloudMetadata (.v4 a)) ∧
      ∀ x, p = .v6 x → ¬ IsLinkLocal (.v6 x) ∧ (x.parts = METADATA_IPV6_PARTS → x.zoneId ≠ none) ∧
        ∀ a, extractEmbeddedIpv4FromIpv6 x = some a → ¬ IsLinkLocal (.v4 a) ∧ ¬ IsCloudMetadata (.v4 a) := by
  unfold isLinkLocalIpAddress at hlocal
  unfold isCloudMetadataIpAddress at hmeta
  rw [hp, map_some] at hlocal hmeta
  constructor
  · rintro a rfl
    have hmeta' : ¬ CLOUD_METADATA_IP_ADDRESSES.contains (toStringIPv4 a) := by
      simpa [normalizeIpv4MappedAddress] using hmeta
    exact ⟨by simpa [normalizeIpv4MappedAddress, IsLinkLocal] using hlocal, fun h => hmeta'
      ((toStringIPv4_mem a).mpr h)⟩
  · rintro x rfl
    by_cases hmapped : isIPv4MappedAddress x
    · have hrange : rangeIPv6 x.parts = .ipv4Mapped := by simpa [isIPv4MappedAddress] using hmapped
      simp only [normalizeIpv4MappedAddress, hmapped, if_true] at hlocal hmeta
      refine ⟨?_, ?_, ?_⟩
      · intro h
        have h' : rangeIPv6 x.parts = .linkLocal := h
        rw [hrange] at h'
        cases h'
      · intro h
        rw [h, metadata_ipv6] at hrange
        cases hrange
      · intro a ha
        rw [extractEmbeddedIpv4FromIpv6, if_pos hmapped] at ha
        obtain rfl := Option.some.inj ha
        have hmeta' : ¬ CLOUD_METADATA_IP_ADDRESSES.contains (toStringIPv4 (toIPv4Address x)) := by
          simpa using hmeta
        exact ⟨by simpa [IsLinkLocal] using hlocal, fun h => hmeta' ((toStringIPv4_mem _).mpr h)⟩
    · simp only [normalizeIpv4MappedAddress, hmapped, Bool.false_eq_true, if_false,
      Bool.or_eq_false_iff] at hlocal hmeta
      refine ⟨by simpa [IsLinkLocal] using hlocal.2, ?_, ?_⟩
      · intro h hzone
        have htext := (toStringIPv6_mem x).mpr ⟨h, hzone⟩
        rw [htext] at hmeta
        exact absurd hmeta.2 (by simp)
      · intro a ha
        rw [ha, Option.any_some] at hlocal hmeta
        have hmeta' : ¬ CLOUD_METADATA_IP_ADDRESSES.contains (toStringIPv4 a) := by simpa using hmeta.1
        exact ⟨by simpa [IsLinkLocal] using hlocal.1, fun h => hmeta' ((toStringIPv4_mem a).mpr h)⟩

theorem untrusted_answer {policy : SsrFPolicy} (h : isBlockedParsedIp policy p = false) :
    (∀ a, p = .v4 a → isBlockedSpecialUseIpv4Address a policy.allowRfc2544BenchmarkRange = false) ∧
      ∀ x, p = .v6 x → isBlockedSpecialUseIpv6Address x policy.allowIpv6UniqueLocalRange = false ∧
        ∀ a, extractEmbeddedIpv4FromIpv6 x = some a →
          isBlockedSpecialUseIpv4Address a policy.allowRfc2544BenchmarkRange = false := by
  constructor
  · rintro a rfl
    exact h
  · rintro x rfl
    unfold isBlockedParsedIp at h
    simp only [ite_eq_iff, Bool.true_eq_false, and_false, false_or, Bool.not_eq_true] at h
    refine ⟨h.1, fun a ha => ?_⟩
    rw [ha] at h
    exact h.2

theorem not_blocked_ipv6 {x : IPv6} {allow : Bool} (h : isBlockedSpecialUseIpv6Address x allow = false) :
    rangeIPv6 x.parts ≠ .linkLocal ∧ (x.parts = METADATA_IPV6_PARTS → allow) := by
  unfold isBlockedSpecialUseIpv6Address at h
  constructor
  · intro hlocal
    rw [hlocal] at h
    simp [BLOCKED_IPV6_SPECIAL_USE_RANGES] at h
  · intro hmeta
    rw [hmeta, metadata_ipv6] at h
    by_contra hallow
    rw [Bool.not_eq_true] at hallow
    rw [hallow] at h
    exact absurd h (by decide)

end Targets

theorem mem_dedupeAndPreferIpv4 {results : List LookupAddress} {address : JsString} :
    address ∈ dedupeAndPreferIpv4 results ↔ ∃ entry ∈ results, entry.address = address := by
  have hunique : ∀ (rest seen : List LookupAddress), address ∈ (rest.foldl (fun seen entry =>
      if seen.any (·.address == entry.address) then seen else seen ++ [entry]) seen).map (·.address) ↔
        address ∈ seen.map (·.address) ∨ address ∈ rest.map (·.address) := by
    intro rest
    induction rest with
    | nil => simp
    | cons entry rest ih =>
      intro seen
      rw [foldl_cons, ih]
      split
      · rename_i hseen
        obtain ⟨other, hother, hsame⟩ := any_eq_true.mp hseen
        have hmem : entry.address ∈ seen.map (·.address) := by
          rw [← eq_of_beq hsame]
          exact mem_map_of_mem hother
        rw [map_cons, mem_cons]
        constructor
        · rintro (h | h)
          · exact .inl h
          · exact .inr (.inr h)
        · rintro (h | rfl | h)
          · exact .inl h
          · exact .inl hmem
          · exact .inr h
      · rw [map_append, mem_append, map_cons, map_cons, mem_cons, or_assoc]
        simp
  have hsplit : ∀ l : List LookupAddress, address ∈ (l.filter (·.family == 4) ++ l.filter (·.family != 4)).map
      (·.address) ↔ address ∈ l.map (·.address) := by
    intro l
    simp only [mem_map, mem_append, mem_filter, beq_iff_eq, bne_iff_ne]
    constructor
    · rintro ⟨entry, ⟨h, -⟩ | ⟨h, -⟩, hentry⟩
      · exact ⟨entry, h, hentry⟩
      · exact ⟨entry, h, hentry⟩
    · rintro ⟨entry, h, hentry⟩
      exact ⟨entry, (em (entry.family = 4)).imp (⟨h, ·⟩) (⟨h, ·⟩), hentry⟩
  rw [dedupeAndPreferIpv4, hsplit, hunique]
  simp

theorem untrusted_of_noExemption [LowerCase] {policy : SsrFPolicy} (h : NoExemption policy)
    (hprivate : isPrivateNetworkAllowedByPolicy policy = false)
    (name : JsString) : shouldSkipPrivateNetworkChecks name policy = false := by
  rw [shouldSkipPrivateNetworkChecks, hprivate, h.1]
  rfl

section Pinning

variable [LowerCase] [IpaddrJs]

/-- The hostname passes its checks, and the answers theirs. -/
structure Admitted (lookup : JsString → List LookupAddress) (hostname : JsString) (policy : SsrFPolicy) : Prop where
  named : normalizeHostname hostname ≠ []
  listed : matchesHostnameAllowlist (normalizeHostname hostname) (normalizeHostnameAllowlist policy.hostnameAllowlist) =
    true
  answered : lookup (normalizeHostname hostname) ≠ []
  untrusted : shouldSkipPrivateNetworkChecks (normalizeHostname hostname) policy = false →
    isBlockedHostnameOrIp (normalizeHostname hostname) policy = false ∧
      ∀ entry ∈ lookup (normalizeHostname hostname), isBlockedHostnameOrIp entry.address policy = false
  trusted : shouldSkipPrivateNetworkChecks (normalizeHostname hostname) policy = true →
    isPrivateNetworkAllowedByPolicy policy = false → ∀ entry ∈ lookup (normalizeHostname hostname),
      isLinkLocalIpAddress entry.address = false ∧ isCloudMetadataIpAddress entry.address = false

variable {lookup : JsString → List LookupAddress} {hostname : JsString} {policy : SsrFPolicy}

theorem resolvePinnedHostnameWithPolicy_eq_ok {pinned : PinnedHostname} :
    resolvePinnedHostnameWithPolicy lookup hostname policy = .ok pinned ↔ Admitted lookup hostname policy ∧
        pinned = ⟨normalizeHostname hostname, dedupeAndPreferIpv4 (lookup (normalizeHostname hostname))⟩ := by
  set name := normalizeHostname hostname with hname
  have hpinned : ∀ results : List LookupAddress, results ≠ [] → dedupeAndPreferIpv4 results ≠ [] := by
    intro results hne
    obtain ⟨entry, hentry⟩ := exists_mem_of_ne_nil results hne
    exact ne_nil_of_mem (mem_dedupeAndPreferIpv4.mpr ⟨entry, hentry, rfl⟩)
  unfold resolvePinnedHostnameWithPolicy resolveHostnamePolicyChecks
  simp only [← hname]
  by_cases hnamed : name = []
  · simp only [hnamed, isEmpty_nil, if_true]
    constructor
    · rintro ⟨⟩
    · rintro ⟨h, -⟩
      exact absurd hnamed h.named
  have hnamed' : name.isEmpty = false := by simpa using hnamed
  by_cases hlisted : matchesHostnameAllowlist name (normalizeHostnameAllowlist policy.hostnameAllowlist)
  case neg =>
    simp only [hnamed', hlisted, Bool.false_eq_true, if_false, Bool.not_false, if_true]
    constructor
    · rintro ⟨⟩
    · rintro ⟨h, -⟩
      exact absurd h.listed hlisted
  simp only [hnamed', hlisted, Bool.false_eq_true, if_false, Bool.not_true]
  by_cases hanswered : lookup name = []
  · constructor
    · intro h
      split at h
      · cases h
      · simp [bind, Except.bind, hanswered, throw, throwThe, MonadExceptOf.throw] at h
    · rintro ⟨h, -⟩
      exact absurd hanswered h.answered
  have hanswered' : (lookup name).isEmpty = false := by simpa using hanswered
  have haddresses : (dedupeAndPreferIpv4 (lookup name)).isEmpty = false := by simpa using hpinned _ hanswered
  cases hskip : shouldSkipPrivateNetworkChecks name policy with
  | false =>
    cases hhost : isBlockedHostnameOrIp name policy with
    | true =>
      constructor
      · rintro ⟨⟩
      · rintro ⟨h, -⟩
        rw [(h.untrusted hskip).1] at hhost
        cases hhost
    | false =>
      cases hany : (lookup name).any fun entry => isBlockedHostnameOrIp entry.address policy with
      | true =>
        constructor
        · intro h
          simp [hanswered', assertAllowedResolvedAddressesOrThrow, hany, bind, Except.bind] at h
        · rintro ⟨h, -⟩
          obtain ⟨entry, hentry, hblocked⟩ := any_eq_true.mp hany
          rw [(h.untrusted hskip).2 entry hentry] at hblocked
          cases hblocked
      | false =>
        have hadmitted : Admitted lookup hostname policy := by
          refine ⟨hnamed, hlisted, hanswered, fun _ => ⟨hhost, fun entry hentry => ?_⟩, fun htrusted => ?_⟩
          · simpa using any_eq_false.mp hany entry hentry
          · rw [← hname, hskip] at htrusted
            cases htrusted
        simp [hanswered', assertAllowedResolvedAddressesOrThrow, hany, haddresses, hadmitted, bind, Except.bind, pure,
          Except.pure, eq_comm]
  | true =>
    cases hprivate : isPrivateNetworkAllowedByPolicy policy with
    | true =>
      have hadmitted : Admitted lookup hostname policy := by
        refine ⟨hnamed, hlisted, hanswered, fun huntrusted => ?_, fun _ hnot => ?_⟩
        · rw [← hname, hskip] at huntrusted
          cases huntrusted
        · rw [hprivate] at hnot
          cases hnot
      simp [hanswered', haddresses, hadmitted, bind, Except.bind, pure, Except.pure, eq_comm]
    | false =>
      cases hany : (lookup name).any fun entry =>
          isLinkLocalIpAddress entry.address || isCloudMetadataIpAddress entry.address with
      | true =>
        constructor
        · intro h
          simp [hanswered', assertAllowedTrustedHostnameResolvedAddressesOrThrow, hany, bind, Except.bind] at h
        · rintro ⟨h, -⟩
          obtain ⟨entry, hentry, hblocked⟩ := any_eq_true.mp hany
          obtain ⟨hlocal, hmeta⟩ := h.trusted hskip hprivate entry hentry
          rw [hlocal, hmeta] at hblocked
          cases hblocked
      | false =>
        have hadmitted : Admitted lookup hostname policy := by
          refine ⟨hnamed, hlisted, hanswered, fun huntrusted => ?_, fun _ _ entry hentry => ?_⟩
          · rw [← hname, hskip] at huntrusted
            cases huntrusted
          · simpa using any_eq_false.mp hany entry hentry
        simp [hanswered', assertAllowedTrustedHostnameResolvedAddressesOrThrow, hany, haddresses, hadmitted, bind,
          Except.bind, pure, Except.pure, eq_comm]

/-- The private network is not reached through what is pinned: neither link-local nor metadata targets, and no
special-use target at all where nothing is exempted. -/
def PinnedAwayFromPrivateTargets (lookup : JsString → List LookupAddress) (hostname : JsString) (policy : SsrFPolicy) :
    Prop :=
  ∀ pinned, resolvePinnedHostnameWithPolicy lookup hostname policy = .ok pinned →
    ∀ address ∈ pinned.addresses, ∀ p, parseLooseIpAddress address = some p → ∀ target, Reaches p target →
      ¬ IsLinkLocal target ∧ ¬ IsCloudMetadata target ∧ (NoExemption policy → ¬ IsBlockedSpecialUse target)

/-- An address the checks miss: the IPv6 metadata address, where the unique local range is exempted for an untrusted
hostname or a zone is written after it for a trusted one; or an address with two IPv4 addresses in it, the second of
which is a target. -/
def Missed (hostname : JsString) (policy : SsrFPolicy) (p : ParsedIpAddress) : Prop :=
  ∃ x, p = .v6 x ∧ (x.parts = METADATA_IPV6_PARTS ∧
        (if shouldSkipPrivateNetworkChecks (normalizeHostname hostname) policy then x.zoneId ≠ none
        else policy.allowIpv6UniqueLocalRange = true) ∨
      ∃ a ∈ (embeddedIpv4Addresses x).tail, IsLinkLocal (.v4 a) ∨ IsCloudMetadata (.v4 a) ∨
        NoExemption policy ∧ IsBlockedSpecialUse (.v4 a))

theorem answer_away {entry : LookupAddress} {target : ParsedIpAddress} (hadmitted : Admitted lookup hostname policy)
    (hprivate : isPrivateNetworkAllowedByPolicy policy = false)
    (hentry : entry ∈ lookup (normalizeHostname hostname)) (hp : parseLooseIpAddress entry.address = some p)
    (hmissed : ¬ Missed hostname policy p) (htarget : Reaches p target) :
    ¬ IsLinkLocal target ∧ ¬ IsCloudMetadata target ∧ (NoExemption policy → ¬ IsBlockedSpecialUse target) := by
  have htail : ∀ x a, p = .v6 x → a ∈ (embeddedIpv4Addresses x).tail → ¬ IsLinkLocal (.v4 a) ∧
      ¬ IsCloudMetadata (.v4 a) ∧ (NoExemption policy → ¬ IsBlockedSpecialUse (.v4 a)) := by
    intro x a hx ha
    refine ⟨fun h => ?_, fun h => ?_, fun hplain h => ?_⟩
    · exact hmissed ⟨x, hx, .inr ⟨a, ha, .inl h⟩⟩
    · exact hmissed ⟨x, hx, .inr ⟨a, ha, .inr (.inl h)⟩⟩
    · exact hmissed ⟨x, hx, .inr ⟨a, ha, .inr (.inr ⟨hplain, h⟩)⟩⟩
  cases hskip : shouldSkipPrivateNetworkChecks (normalizeHostname hostname) policy with
  | true =>
    obtain ⟨hlocal, hmeta⟩ := hadmitted.trusted hskip hprivate entry hentry
    obtain ⟨hv4, hv6⟩ := trusted_answer hp hlocal hmeta
    have hplain : ∀ target, NoExemption policy → ¬ IsBlockedSpecialUse target := by
      intro target h
      rw [untrusted_of_noExemption h hprivate] at hskip
      cases hskip
    rcases htarget with rfl | ⟨x, a, rfl, ha, rfl⟩
    · cases target with
      | v4 a => exact ⟨(hv4 a rfl).1, (hv4 a rfl).2, hplain _⟩
      | v6 x =>
        obtain ⟨hlink, hzone, -⟩ := hv6 x rfl
        refine ⟨hlink, fun h => hmissed ⟨x, rfl, .inl ⟨h, ?_⟩⟩, hplain _⟩
        rw [if_pos hskip]
        exact hzone h
    · rcases mem_head_or_tail ha with hhead | hin
      · rw [← extractEmbeddedIpv4FromIpv6_eq] at hhead
        obtain ⟨hlink, hcloud⟩ := (hv6 x rfl).2.2 a hhead
        exact ⟨hlink, hcloud, hplain _⟩
      · exact htail x a rfl hin
  | false =>
    obtain ⟨-, hanswers⟩ := hadmitted.untrusted hskip
    obtain ⟨hv4, hv6⟩ := untrusted_answer (isBlockedParsedIp_of_answer hp (hanswers entry hentry))
    have hplain4 : ∀ a, isBlockedSpecialUseIpv4Address a policy.allowRfc2544BenchmarkRange = false →
        NoExemption policy → ¬ IsBlockedSpecialUse (.v4 a) := by
      intro a ha hplain h
      rw [hplain.2.1] at ha
      exact absurd (ha.symm.trans h) (by decide)
    rcases htarget with rfl | ⟨x, a, rfl, ha, rfl⟩
    · cases target with
      | v4 a =>
        obtain ⟨hlink, hcloud⟩ := not_blocked_ipv4 (hv4 a rfl)
        exact ⟨hlink, hcloud, hplain4 a (hv4 a rfl)⟩
      | v6 x =>
        obtain ⟨hunblocked, -⟩ := hv6 x rfl
        obtain ⟨hlink, hcloud⟩ := not_blocked_ipv6 hunblocked
        refine ⟨hlink, fun h => hmissed ⟨x, rfl, .inl ⟨h, ?_⟩⟩, fun hplain h => ?_⟩
        · rw [hskip]
          exact hcloud h
        · rw [hplain.2.2] at hunblocked
          exact absurd (hunblocked.symm.trans h) (by decide)
    · rcases mem_head_or_tail ha with hhead | hin
      · rw [← extractEmbeddedIpv4FromIpv6_eq] at hhead
        have hunblocked := (hv6 x rfl).2 a hhead
        obtain ⟨hlink, hcloud⟩ := not_blocked_ipv4 hunblocked
        exact ⟨hlink, hcloud, hplain4 a hunblocked⟩
      · exact htail x a rfl hin

/-- What is pinned keeps away from the private targets exactly where no answer is missed by the checks it passes. -/
theorem pinned_targets_iff (hprivate : isPrivateNetworkAllowedByPolicy policy = false) :
    PinnedAwayFromPrivateTargets lookup hostname policy ↔
      (Admitted lookup hostname policy → ∀ entry ∈ lookup (normalizeHostname hostname), ∀ p,
        parseLooseIpAddress entry.address = some p → ¬ Missed hostname policy p) := by
  constructor
  · intro haway hadmitted entry hentry p hp hmissed
    have hpinned := haway _ (resolvePinnedHostnameWithPolicy_eq_ok.mpr ⟨hadmitted, rfl⟩) entry.address
      (mem_dedupeAndPreferIpv4.mpr ⟨entry, hentry, rfl⟩) p hp
    obtain ⟨x, rfl, ⟨hmeta, -⟩ | ⟨a, ha, hkind⟩⟩ := hmissed
    · exact (hpinned (.v6 x) (Or.inl rfl)).2.1 hmeta
    · obtain ⟨hlink, hcloud, hspecial⟩ := hpinned (.v4 a) (Or.inr ⟨x, a, rfl, mem_of_mem_tail ha, rfl⟩)
      rcases hkind with h | h | ⟨hplain, h⟩
      · exact hlink h
      · exact hcloud h
      · exact hspecial hplain h
  · intro hnone pinned hok address haddress p hp target htarget
    obtain ⟨hadmitted, rfl⟩ := resolvePinnedHostnameWithPolicy_eq_ok.mp hok
    obtain ⟨entry, hentry, rfl⟩ := mem_dedupeAndPreferIpv4.mp haddress
    exact answer_away hadmitted hprivate hentry hp (hnone hadmitted entry hentry p hp) htarget

end Pinning

/-! ## Fixed inputs -/

section Fixed

theorem eq_of_map_asciiLower {s t : JsString} (ht : ∀ u ∈ t, u.toNat < 65) (h : s.map asciiLower = t) : s = t := by
  subst h
  refine ((map_congr_left fun u hu => ?_).trans (map_id s)).symm
  have hlow := ht _ (mem_map_of_mem hu)
  exact ((asciiLower_eq_iff (.inl hlow)).mp rfl).symm

theorem literal_of_lower {s t : JsString} {u : UInt16} (h : s.map asciiLower = t) (hcolon : COLON ∈ t)
    (hunits : ∀ v ∈ t, isLiteralUnit v = true) (hlast : t.getLast? = some u) (hlow : u.toNat < 65) (hdot : u ≠ DOT) :
    COLON ∈ s ∧ LiteralText s := by
  subst h
  refine ⟨?_, fun v hv => ?_, u, ?_, hdot⟩
  · obtain ⟨v, hv, hlower⟩ := mem_map.mp hcolon
    rwa [← (asciiLower_eq_iff (.inl (by decide))).mp hlower]
  · rw [← isLiteralUnit_asciiLower]
    exact hunits _ (mem_map_of_mem hv)
  · rw [getLast?_map] at hlast
    obtain ⟨v, hv, hlower⟩ := map_eq_some_iff.mp hlast
    rw [hv, (asciiLower_eq_iff (.inl hlow)).mp hlower]

def PUBLIC_IPV4 : JsString := js "93.184.216.34"
def METADATA_IPV6 : JsString := js "fd00:ec2::254"

/-- A parser of two literals, with the ranges they are near to. -/
@[reducible] def twoLiterals : IpaddrJs where
  isValidIPv4 s := s.map asciiLower == PUBLIC_IPV4
  isValidFourPartDecimal s := s.map asciiLower == PUBLIC_IPV4
  parseIPv4 _ := ⟨#v[93, 184, 216, 34]⟩
  isValidIPv6 s := s.map asciiLower == METADATA_IPV6
  parseIPv6 _ := ⟨METADATA_IPV6_PARTS, none⟩
  rangeIPv4 octets :=
    if octets.toList.take 2 = [169, 254] then .linkLocal
    else if octets = METADATA_IPV4.octets then .carrierGradeNat
    else .other
  rangeIPv6 parts := if parts = METADATA_IPV6_PARTS then .uniqueLocal else .other
  toStringIPv4 a := if a = METADATA_IPV4 then js "100.100.100.200" else PUBLIC_IPV4
  toStringIPv6 a := if a.parts = METADATA_IPV6_PARTS ∧ a.zoneId = none then METADATA_IPV6 else js "::"
  fourPartDecimal s h := by
    obtain rfl := eq_of_map_asciiLower (by decide) (eq_of_beq h)
    exact ⟨h, by decide⟩
  ipv4_parts s h := by
    obtain rfl := eq_of_map_asciiLower (by decide) (eq_of_beq h)
    exact ⟨by decide, ⟨by decide, 52, by decide, by decide⟩, by decide, by decide⟩
  ipv6_text _ h := literal_of_lower (eq_of_beq h) (u := 52) (by decide) (by decide) (by decide) (by decide) (by decide)
  ipv4_caseless s t h := by
    rw [h]
    exact ⟨rfl, rfl, rfl⟩
  ipv6_caseless s t h := by
    rw [h]
    exact ⟨rfl, rfl⟩
  linkLocal_ipv4 := linkLocal_iff
  metadata_ipv4 := by decide
  metadata_ipv6 := by decide
  toStringIPv4_metadata a := by
    split
    · simp_all
    · rename_i h
      exact iff_of_false (by decide) h
  toStringIPv4_colon a := by
    split
    · decide
    · decide
  toStringIPv6_metadata a := by
    split
    · rename_i h
      exact iff_of_true rfl h
    · rename_i h
      exact iff_of_false (by decide) h
  toStringIPv6_colon a := by
    split
    · decide
    · decide

attribute [local instance] asciiLowerCase twoLiterals

/-- Nothing is trusted, the unique local range is exempted. -/
def uniqueLocalPolicy : SsrFPolicy where
  allowPrivateNetwork := false
  dangerouslyAllowPrivateNetwork := false
  allowRfc2544BenchmarkRange := false
  allowIpv6UniqueLocalRange := true
  allowedHostnames := []
  hostnameAllowlist := []

/-- An untrusted name that resolves to the metadata address is pinned to it. -/
theorem metadata_address_pinned : isPrivateNetworkAllowedByPolicy uniqueLocalPolicy = false ∧
    ¬ PinnedAwayFromPrivateTargets (fun _ => [⟨METADATA_IPV6, 6⟩]) (js "api.example.com") uniqueLocalPolicy := by
  refine ⟨rfl, fun haway => ?_⟩
  have hpinned := haway ⟨js "api.example.com", [METADATA_IPV6]⟩ (by decide) METADATA_IPV6 (by decide)
    (.v6 ⟨METADATA_IPV6_PARTS, none⟩) (by decide) _ (Or.inl rfl)
  exact hpinned.2.1 rfl

/-- The iff at a name that resolves to a public address. -/
theorem pinned_targets_iff_public :
    PinnedAwayFromPrivateTargets (fun _ => [⟨PUBLIC_IPV4, 4⟩]) (js "api.example.com") uniqueLocalPolicy := by
  refine (pinned_targets_iff (by decide)).mpr fun _ entry hentry p hp hmissed => ?_
  obtain rfl := mem_singleton.mp hentry
  have hparsed : parseLooseIpAddress PUBLIC_IPV4 = some (.v4 ⟨#v[93, 184, 216, 34]⟩) := by decide
  obtain ⟨x, rfl, -⟩ := hmissed
  cases hparsed.symm.trans hp

end Fixed

end ClawWorks.NetPolicy
