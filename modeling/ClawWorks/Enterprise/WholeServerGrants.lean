import ClawWorks.Enterprise.McpCeiling

/-!
# Grants of whole servers

A backend without a per-call gate is handed a server only when the allow list covers every name the server's tools can
have. The decisions reason over globs and openings of names, the per-call matcher over one name; where a name or an
opening has a line terminator, which no star of the matcher passes, they part.
-/

namespace ClawWorks

open List Glob UInt16

/-! ## Names in lower case -/

variable {u : UInt16}

theorem forall_ascii {P : UInt16 → Prop} (h : ∀ n < 128, P (UInt16.ofNat n)) (hu : u < 128) : P u := by
  rw [← UInt16.ofNat_toNat (x := u)]
  exact h u.toNat (UInt16.lt_iff_toNat_lt.mp hu)

theorem isAscii_of_toolNameSafe (h : isToolNameSafe u) : u < 128 := by
  simp only [isToolNameSafe, isAsciiLetter, isDigit, DASH, Bool.or_eq_true, Bool.and_eq_true, decide_eq_true_eq,
    UInt16.le_iff_toNat_le, ← UInt16.toNat_inj] at h
  rw [UInt16.lt_iff_toNat_lt]
  simp at h ⊢
  omega

def isLowerNameUnit (u : UInt16) : Bool :=
  isToolNameSafe u && decide (asciiLower u = u)

theorem lowerNameUnit_plain (h : isLowerNameUnit u) :
    u < 128 ∧ asciiLower u = u ∧ isWhiteSpace u = false ∧ isLineTerminator u = false ∧ u ≠ STAR := by
  have hsafe := (Bool.and_eq_true_iff.mp h).1
  have hascii := isAscii_of_toolNameSafe hsafe
  have hplain : ∀ n < 128, isLowerNameUnit (ofNat n) → asciiLower (ofNat n) = ofNat n ∧
      isWhiteSpace (ofNat n) = false ∧ isLineTerminator (ofNat n) = false ∧ ofNat n ≠ STAR := by
    decide
  exact ⟨hascii, forall_ascii (P := fun u => isLowerNameUnit u → asciiLower u = u ∧ isWhiteSpace u = false ∧
    isLineTerminator u = false ∧ u ≠ STAR) hplain hascii h⟩

theorem lowerNameUnit_asciiLower (h : isToolNameSafe u) : isLowerNameUnit (asciiLower u) :=
  have hlower : ∀ n < 128, isToolNameSafe (ofNat n) → isLowerNameUnit (asciiLower (ofNat n)) := by
    decide
  forall_ascii (P := fun u => isToolNameSafe u → isLowerNameUnit (asciiLower u)) hlower (isAscii_of_toolNameSafe h) h

theorem toolNameSafe_of_wordCharacter (h : isWordCharacter u) : isToolNameSafe u := by
  simp only [isWordCharacter, isToolNameSafe, isAsciiLetter, isDigit, UNDERSCORE, Bool.or_eq_true, Bool.and_eq_true,
    decide_eq_true_eq] at h ⊢
  rcases h with hletter | hunderscore
  · exact .inl (.inl hletter)
  · exact .inl (.inr (of_decide_eq_true hunderscore))

theorem codexNamespace_safe (server : JsString) : ∀ u ∈ codexNamespace server, isToolNameSafe u := by
  intro u hu
  unfold codexNamespace at hu
  simp only at hu
  split at hu
  · rw [mem_singleton.mp hu]
    decide
  · exact toolNameSafe_of_wordCharacter (passes_of_mem_underscored isWordCharacter (by decide) hu)

theorem sanitizeToolFragment_safe {raw fallback : JsString} (hfallback : ∀ u ∈ fallback, isToolNameSafe u)
    (maxChars : Option ℕ) : ∀ u ∈ sanitizeToolFragment raw fallback maxChars, isToolNameSafe u := by
  have hcleaned : ∀ u ∈ (trim raw).map fun u => if isToolNameSafe u then u else DASH, isToolNameSafe u := by
    intro u hu
    obtain ⟨v, -, rfl⟩ := mem_map.mp hu
    by_cases hv : isToolNameSafe v
    · rwa [if_pos hv]
    · rw [if_neg hv]
      decide
  have hnormalized : ∀ u ∈ (if ((trim raw).map fun u => if isToolNameSafe u then u else DASH) = [] then fallback
      else (trim raw).map fun u => if isToolNameSafe u then u else DASH), isToolNameSafe u := by
    split
    · exact hfallback
    · exact hcleaned
  have hprovider : ∀ (text : JsString), (∀ u ∈ text, isToolNameSafe u) →
      ∀ u ∈ (if text.head?.any isAsciiLetter then text else fallback ++ js "-" ++ text), isToolNameSafe u := by
    intro text htext u hu
    split at hu
    · exact htext u hu
    · rcases mem_append.mp hu with hu | hu
      · rcases mem_append.mp hu with hu | hu
        · exact hfallback u hu
        · have hdash : ∀ u ∈ js "-", isToolNameSafe u := by decide
          exact hdash u hu
      · exact htext u hu
  cases maxChars with
  | none => exact hprovider _ hnormalized
  | some n => exact fun u hu => hprovider _ hnormalized u (mem_of_mem_take hu)

theorem sanitizeServerName_safe [LowerCase] (server : JsString) :
    ∀ u ∈ sanitizeServerName server [], isToolNameSafe u := by
  rw [sanitizeServerName_nil]
  exact sanitizeToolFragment_safe (by decide) _

theorem hookNamespaceForms_safe {base form : JsString} (hbase : ∀ u ∈ base, isToolNameSafe u)
    (hform : form ∈ hookNamespaceForms base) : ∀ u ∈ form, isToolNameSafe u := by
  have hprefixed : ∀ u ∈ withLegacyPrefix base, isToolNameSafe u := by
    intro u hu
    unfold withLegacyPrefix at hu
    split at hu
    · exact hbase u hu
    · have hlegacy : ∀ u ∈ LEGACY_PREFIX, isToolNameSafe u := by decide
      exact (mem_append.mp hu).elim (hlegacy u) (hbase u)
  simp only [hookNamespaceForms, mem_cons, not_mem_nil, or_false] at hform
  rcases hform with rfl | rfl | rfl | rfl
  · exact hbase
  · exact hprefixed
  · exact fun u hu => hbase u (mem_of_mem_take hu)
  · exact fun u hu => hprefixed u (mem_of_mem_take hu)

section Callable

variable [LowerCase]

variable {name : JsString}

theorem toLowerCase_safe (h : ∀ u ∈ name, isToolNameSafe u) : ∀ u ∈ toLowerCase name, isLowerNameUnit u := by
  rw [LowerCase.ascii name fun u hu => isAscii_of_toolNameSafe (h u hu)]
  intro u hu
  obtain ⟨v, hv, rfl⟩ := mem_map.mp hu
  exact lowerNameUnit_asciiLower (h v hv)

theorem callableMcpNamespaces_safe {server name : JsString} (h : name ∈ callableMcpNamespaces server) :
    name ≠ [] ∧ ∀ u ∈ name, isLowerNameUnit u := by
  have hbases : ∀ base ∈ ([codexNamespace server, sanitizeServerName server []].map toLowerCase ++
      codexHookNamespaces [codexNamespace server, sanitizeServerName server []]),
      ∀ u ∈ base, isLowerNameUnit u := by
    have hsanitized : ∀ key ∈ [codexNamespace server, sanitizeServerName server []], ∀ u ∈ key,
        isToolNameSafe u := by
      intro key hkey
      rcases mem_cons.mp hkey with rfl | hkey
      · exact codexNamespace_safe server
      · rw [mem_singleton.mp hkey]
        exact sanitizeServerName_safe server
    intro base hbase
    rcases mem_append.mp hbase with hbase | hbase
    · obtain ⟨key, hkey, rfl⟩ := mem_map.mp hbase
      exact toLowerCase_safe (hsanitized key hkey)
    · rw [codexHookNamespaces, mem_eraseDups, mem_filter, mem_map] at hbase
      obtain ⟨⟨form, hform, rfl⟩, -⟩ := hbase
      obtain ⟨key, hkey, hform⟩ := mem_flatMap.mp hform
      obtain ⟨spelled, hspelled, hform⟩ := mem_flatMap.mp hform
      have hspelled' : ∀ u ∈ spelled, isToolNameSafe u := by
        rcases mem_cons.mp (mem_eraseDups.mp hspelled) with rfl | hcodex
        · exact hsanitized _ hkey
        · rw [mem_singleton.mp hcodex]
          exact codexNamespace_safe key
      exact toLowerCase_safe fun u hu => hookNamespaceForms_safe hspelled' hform u (( rdropWhile_prefix _ _).subset hu)
  unfold callableMcpNamespaces at h
  simp only [mem_eraseDups, mem_flatMap, mem_filter, decide_eq_true_eq] at h
  obtain ⟨base, ⟨hbase, htruthy⟩, hname⟩ := h
  split at hname
  · rw [mem_singleton.mp hname]
    exact ⟨htruthy, hbases base hbase⟩
  · rcases mem_cons.mp hname with rfl | hname
    · exact ⟨htruthy, hbases name hbase⟩
    · have hlegacy : ∀ u ∈ LEGACY_PREFIX, isLowerNameUnit u := by decide
      rw [mem_singleton.mp hname]
      exact ⟨fun hempty => htruthy (append_eq_nil_iff.mp hempty).2,
        fun u hu => (mem_append.mp hu).elim (hlegacy u) (hbases base hbase u)⟩

/-! ## How callable names begin -/

/-- The beginnings of the names a runtime can give the tools of a server. -/
def callableOpenings (server : JsString) : List JsString :=
  ((callableMcpNamespaces server).flatMap fun name =>
    if LEGACY_PREFIX.isPrefixOf name then [name ++ js "__"]
    else [name ++ js "__", LEGACY_PREFIX ++ name ++ js "__"]).eraseDups

variable {server opening : JsString}

theorem callableOpenings_safe (h : opening ∈ callableOpenings server) :
    ∃ name, opening = name ++ js "__" ∧ name ≠ [] ∧ ∀ u ∈ name, isLowerNameUnit u := by
  rw [callableOpenings, mem_eraseDups, mem_flatMap] at h
  obtain ⟨name, hname, hopening⟩ := h
  obtain ⟨hne, hsafe⟩ := callableMcpNamespaces_safe hname
  split at hopening
  · exact ⟨name, mem_singleton.mp hopening, hne, hsafe⟩
  · rcases mem_cons.mp hopening with rfl | hopening
    · exact ⟨name, rfl, hne, hsafe⟩
    · have hlegacy : ∀ u ∈ LEGACY_PREFIX, isLowerNameUnit u := by decide
      exact ⟨LEGACY_PREFIX ++ name, mem_singleton.mp hopening, fun hempty => hne (append_eq_nil_iff.mp hempty).2,
        fun u hu => (mem_append.mp hu).elim (hlegacy u) (hsafe u)⟩

theorem callableOpenings_ne_nil (server : JsString) : callableOpenings server ≠ [] := by
  have hne : codexNamespace server ≠ [] := by
    unfold codexNamespace
    simp only
    split
    · exact cons_ne_nil _ _
    · assumption
  have hbase : toLowerCase (codexNamespace server) ∈ ([codexNamespace server, sanitizeServerName server []].map
      toLowerCase ++ codexHookNamespaces [codexNamespace server, sanitizeServerName server []]).eraseDups.filter
        (Truthy ·) :=
    mem_filter.mpr ⟨by simp, decide_eq_true fun hempty => hne (LowerCase.eq_nil _ hempty)⟩
  have hname : toLowerCase (codexNamespace server) ∈ callableMcpNamespaces server := by
    unfold callableMcpNamespaces
    rw [mem_eraseDups]
    refine mem_flatMap.mpr ⟨_, hbase, ?_⟩
    split <;> exact mem_cons_self
  have hopening : toLowerCase (codexNamespace server) ++ js "__" ∈ callableOpenings server := by
    rw [callableOpenings, mem_eraseDups]
    refine mem_flatMap.mpr ⟨_, hname, ?_⟩
    split <;> exact mem_cons_self
  exact ne_nil_of_mem hopening

omit [LowerCase] in
theorem trim_callable {name tool : JsString} (hne : name ≠ []) (hname : ∀ u ∈ name, isLowerNameUnit u) :
    trim (name ++ js "__" ++ tool) = name ++ js "__" ++ tool.rdropWhile isWhiteSpace := by
  have hhead : (name ++ js "__" ++ tool).dropWhile isWhiteSpace = name ++ js "__" ++ tool := by
    cases name with
    | nil => exact absurd rfl hne
    | cons u name =>
      have hu := (lowerNameUnit_plain (hname u mem_cons_self)).2.2.1
      rw [cons_append, cons_append, dropWhile_cons_of_neg (by simp [hu])]
  have hdelimiter : isWhiteSpace UNDERSCORE = false := by decide
  have hend : js "__" = [UNDERSCORE, UNDERSCORE] := by decide
  rw [trim, hhead]
  unfold rdropWhile
  rw [reverse_append, dropWhile_append]
  split
  · rename_i hblank
    have hnil : tool.reverse.dropWhile isWhiteSpace = [] := by simpa using hblank
    rw [hnil, hend]
    simp [hdelimiter]
  · simp

theorem normalizeLowercase_callable (tool : JsString) (hne : name ≠ []) (hname : ∀ u ∈ name, isLowerNameUnit u) :
    normalizeLowercaseStringOrEmpty (name ++ js "__" ++ tool) =
      name ++ js "__" ++ toLowerCase (tool.rdropWhile isWhiteSpace) := by
  have hlower : toLowerCase name = name := toLowerCase_of_lower fun u hu =>
    ⟨(lowerNameUnit_plain (hname u hu)).1, (lowerNameUnit_plain (hname u hu)).2.1⟩
  unfold normalizeLowercaseStringOrEmpty
  rw [trim_callable hne hname, if_neg (by simp [hne]), toLowerCase_delimited, hlower]

omit [LowerCase] in
theorem lookup_names_plain : (∀ entry ∈ TOOL_NAME_ALIASES, STAR ∉ entry.1 ∧ ¬ js "__" <:+: entry.1) ∧
      (∀ method ∈ OBJECT_PROTOTYPE_METHODS, (∀ u ∈ method.1, u < 128) ∧ STAR ∉ method.1 ∧
        (method.1.map asciiLower = method.1 → ¬ js "__" <:+: method.1)) ∧
      (∀ group ∈ TOOL_GROUPS, STAR ∉ group.1) ∧ STAR ∉ js "__proto__" := by
  decide

theorem normalize_callable (tool : JsString) (hne : name ≠ []) (hname : ∀ u ∈ name, isLowerNameUnit u) :
    normalizeToolName (name ++ js "__" ++ tool) =
        .text (name ++ js "__" ++ toLowerCase (tool.rdropWhile isWhiteSpace)) ∨
      normalizeToolName (name ++ js "__" ++ tool) = .member ⟨js "object", js "[object Object]"⟩ := by
  have hnormal := normalizeLowercase_callable tool hne hname
  have hdelimiter : js "__" <:+: name ++ js "__" ++ toLowerCase (tool.rdropWhile isWhiteSpace) := ⟨name, _, rfl⟩
  have hlower : toLowerCase (name ++ js "__" ++ toLowerCase (tool.rdropWhile isWhiteSpace)) =
      name ++ js "__" ++ toLowerCase (tool.rdropWhile isWhiteSpace) := by
    rw [← hnormal, normalizeLowercase_of_ne_nil (by rw [hnormal]; simp [hne]), LowerCase.idempotent]
  unfold normalizeToolName
  rw [hnormal]
  generalize name ++ js "__" ++ toLowerCase (tool.rdropWhile isWhiteSpace) = normalized at hdelimiter hlower
  simp only
  cases hread : TOOL_NAME_ALIASES.read normalized with
  | own policyId =>
    have hkey := lookup_names_plain.1 _ (JsMap.mem_of_get (PlainObject.read_eq_own_iff.mp hread))
    exact absurd hdelimiter hkey.2
  | undefined => exact .inl rfl
  | inherited member =>
    refine .inr ?_
    unfold PlainObject.read at hread
    split at hread
    · cases hread
    split at hread
    · rename_i found hfound
      injection hread with hmember
      unfold inheritedMember? at hfound
      split at hfound
      · rename_i method hmethod
        obtain ⟨hascii, -, hplain⟩ := lookup_names_plain.2.1 _ (JsMap.mem_of_get hmethod)
        exact absurd hdelimiter (hplain (by rw [← LowerCase.ascii _ hascii]; exact hlower))
      · split at hfound
        · rw [← hmember, ← Option.some.inj hfound]
        · cases hfound
    · cases hread

/-! ## What a grant covers -/

theorem compileEntries_of_star {entry : JsString} (h : STAR ∈ toLowerCase (trim entry)) :
    compileEntries [entry] = (compileText (toLowerCase (trim entry))).toList := by
  have hne : toLowerCase (trim entry) ≠ [] := ne_nil_of_mem h
  have hread : TOOL_NAME_ALIASES.read (toLowerCase (trim entry)) = .undefined := by
    unfold PlainObject.read
    split
    · rename_i found hfound
      exact absurd h (lookup_names_plain.1 _ (JsMap.mem_of_get hfound)).1
    split
    · rename_i member hmember
      unfold inheritedMember? at hmember
      split at hmember
      · rename_i method hmethod
        exact absurd h (lookup_names_plain.2.1 _ (JsMap.mem_of_get hmethod)).2.1
      · split at hmember
        · rename_i hproto
          exact absurd (hproto ▸ h) lookup_names_plain.2.2.2
        · cases hmember
    · rfl
  have hnormal : normalizeToolName entry = .text (toLowerCase (trim entry)) := by
    have htrim : trim entry ≠ [] := fun hempty => hne (by rw [hempty]; exact LowerCase.ascii [] (by simp))
    have hlower : normalizeLowercaseStringOrEmpty entry = toLowerCase (trim entry) := if_neg htrim
    rw [normalizeToolName, hlower, hread]
  refine compileEntries_singleton hnormal hne ?_
  cases hgroup : JsMap.get TOOL_GROUPS (toLowerCase (trim entry)) with
  | none => rfl
  | some group => exact absurd h (lookup_names_plain.2.2.1 _ (JsMap.mem_of_get hgroup))

omit [LowerCase] in
theorem globCoversEverythingUnder_iff {pattern opening : JsString} : globCoversEverythingUnder pattern opening ↔
      pattern = [STAR] ∨ ∃ literal, pattern = literal ++ [STAR] ∧ STAR ∉ literal ∧ literal <+: opening := by
  unfold globCoversEverythingUnder
  by_cases hall : pattern = [STAR]
  · simp [hall]
  rw [if_neg hall]
  by_cases hend : pattern.getLast? = some STAR
  · obtain ⟨literal, rfl⟩ := getLast?_eq_some_iff.mp hend
    simp [hall]
  · rw [if_pos hend]
    refine ⟨(nomatch ·), ?_⟩
    rintro (h | ⟨literal, rfl, -⟩)
    · exact absurd h hall
    · exact absurd (by simp) hend

/-- **A covering glob** matches every name under the opening without a line terminator. -/
theorem covers_matches {entry opening text : JsString}
    (h : globCoversEverythingUnder (toLowerCase (trim entry)) opening) (hopening : opening <+: text)
    (hclean : ∀ u ∈ text, isLineTerminator u = false) :
    matchesAnyGlobPattern (.text text) (compileEntries [entry]) := by
  rcases globCoversEverythingUnder_iff.mp h with hall | ⟨literal, hpattern, hliteral, hprefix⟩
  · rw [compileEntries_of_star (by rw [hall]; exact mem_singleton_self _), hall]
    rfl
  · have hstar : STAR ∈ toLowerCase (trim entry) := by rw [hpattern]; simp
    rw [compileEntries_of_star hstar, hpattern]
    by_cases hempty : literal = []
    · rw [hempty]
      rfl
    have hcompiled : compileText (literal ++ [STAR]) = some (.regex (ofList STAR (literal ++ [STAR]))) := by
      unfold compileText
      rw [if_neg (by simp), if_neg (by simpa using hempty), if_pos (by simp)]
    obtain ⟨rest, rfl⟩ := hprefix.trans hopening
    have htest : test (!isLineTerminator ·) (ofList STAR (literal ++ [STAR])) (literal ++ rest) := by
      rw [ofList_append, ofList_of_not_mem hliteral, test_append_iff]
      refine ⟨literal, rest, rfl, test_literals_iff.mpr rfl, test_star_iff.mpr ⟨rest, [], by simp, ?_, rfl⟩⟩
      exact fun u hu => by simp [hclean u (mem_append_right _ hu)]
    rw [hcompiled]
    simp [matchesAnyGlobPattern, CompiledGlobPattern.matches, NormalizedName.toText, htest]

def ReadOnOneLine (name : JsString) : Prop :=
  ∃ text, normalizeToolName name = .text text ∧ ∀ u ∈ text, isLineTerminator u = false

/-- A namespace Codex truncates: nothing but `*` grants its server. -/
def Truncated (server : JsString) : Prop :=
  ∃ name ∈ callableMcpNamespaces server, CODEX_NAMESPACE_TRUNCATION_LIMIT < name.length

theorem allowListGrants_iff {allowed siblings : List JsString} {server : JsString} :
    allowListGrantsWholeMcpServer allowed server siblings ↔ (∃ entry ∈ allowed, trim entry = [STAR]) ∨
        ¬ Truncated server ∧ (∀ name ∈ callableMcpNamespaces server, ∀ other ∈ siblings,
          name ∉ callableMcpNamespaces other) ∧
        ∀ opening ∈ callableOpenings server, ∃ entry ∈ allowed, toLowerCase (trim entry) ≠ [] ∧
          globCoversEverythingUnder (toLowerCase (trim entry)) opening := by
  unfold allowListGrantsWholeMcpServer Truncated callableOpenings
  by_cases hall : allowed.any (fun entry => decide (trim entry = [STAR]))
  · rw [if_pos hall]
    simp only [any_eq_true, decide_eq_true_eq] at hall
    simp [hall]
  rw [if_neg hall]
  have hnone : ¬ ∃ entry ∈ allowed, trim entry = [STAR] := by simpa using hall
  rw [or_iff_right hnone]
  by_cases hlong : (callableMcpNamespaces server).any
      (fun name => decide (CODEX_NAMESPACE_TRUNCATION_LIMIT < name.length))
  · simp only [if_pos hlong]
    simp only [any_eq_true, decide_eq_true_eq] at hlong
    simp [hlong]
  simp only [if_neg hlong]
  have hshort : ¬ ∃ name ∈ callableMcpNamespaces server, CODEX_NAMESPACE_TRUNCATION_LIMIT < name.length := by
    simpa using hlong
  by_cases hshared : (callableMcpNamespaces server).any
      (fun name => decide (name ∈ siblings.flatMap callableMcpNamespaces))
  · simp only [if_pos hshared]
    simp only [any_eq_true, decide_eq_true_eq, mem_flatMap] at hshared
    obtain ⟨name, hname, other, hother, hin⟩ := hshared
    refine ⟨(nomatch ·), fun h => absurd hin (h.2.1 name hname other hother)⟩
  simp only [if_neg hshared]
  have hown : ∀ name ∈ callableMcpNamespaces server, ∀ other ∈ siblings, name ∉ callableMcpNamespaces other := by
    simpa using hshared
  refine Iff.trans ?_ ⟨fun h => ⟨hshort, hown, h⟩, fun h => h.2.2⟩
  simp

theorem allowedBy_of_grant {allowed siblings : List JsString} {server opening tool : JsString}
    (hopening : opening ∈ callableOpenings server) (hread : Truncated server ∨ ReadOnOneLine (opening ++ tool))
    (h : allowListGrantsWholeMcpServer allowed server siblings) :
    allowedBy allowed (opening ++ tool) := by
  refine allowedBy_iff.mpr (.inr (.inl (matchesAny_compileEntries_iff.mpr ?_)))
  rcases allowListGrants_iff.mp h with ⟨entry, hentry, hall⟩ | ⟨hshort, -, hcovers⟩
  · have hlower : toLowerCase (trim entry) = [STAR] := by rw [hall, toLowerCase_of_lower (by decide)]
    refine ⟨entry, hentry, ?_⟩
    rw [compileEntries_of_star (by rw [hlower]; exact mem_singleton_self _), hlower]
    rfl
  · obtain ⟨text, htext, hclean⟩ := hread.resolve_left hshort
    obtain ⟨entry, hentry, -, hcover⟩ := hcovers opening hopening
    refine ⟨entry, hentry, ?_⟩
    rw [htext]
    refine covers_matches hcover ?_ hclean
    obtain ⟨name, rfl, hne, hname⟩ := callableOpenings_safe hopening
    rcases normalize_callable tool hne hname with hnormal | hnormal <;> rw [hnormal] at htext <;> cases htext
    exact prefix_append _ _

def openingGrants (server : JsString) : List JsString :=
  (callableOpenings server).map (· ++ [STAR])

section

variable (h : opening ∈ callableOpenings server)

include h

theorem callableOpenings_units : opening ≠ [] ∧ ∀ u ∈ opening, isLowerNameUnit u := by
  obtain ⟨name, rfl, hne, hname⟩ := callableOpenings_safe h
  have hdelimiter : ∀ u ∈ js "__", isLowerNameUnit u := by decide
  exact ⟨by simp [hne], fun u hu => (mem_append.mp hu).elim (hname u) (hdelimiter u)⟩

theorem star_not_mem_opening : STAR ∉ opening :=
  fun hstar => (lowerNameUnit_plain ((callableOpenings_units h).2 _ hstar)).2.2.2.2 rfl

theorem lower_openingGrant : toLowerCase (trim (opening ++ [STAR])) = opening ++ [STAR] := by
  have hlower : ∀ u ∈ opening ++ [STAR], u < 128 ∧ asciiLower u = u := by
    intro u hu
    rcases mem_append.mp hu with hu | hu
    · have hplain := lowerNameUnit_plain ((callableOpenings_units h).2 u hu)
      exact ⟨hplain.1, hplain.2.1⟩
    · rw [mem_singleton.mp hu]
      decide
  obtain ⟨name, rfl, hne, hname⟩ := callableOpenings_safe h
  have hstar : [STAR].rdropWhile isWhiteSpace = [STAR] := by decide
  rw [trim_callable hne hname, hstar, toLowerCase_of_lower hlower]

end

theorem openingGrants_grants {server : JsString} (h : ¬ Truncated server) :
    allowListGrantsWholeMcpServer (openingGrants server) server [] := by
  refine allowListGrants_iff.mpr (.inr ⟨h, by simp, fun opening hopening => ?_⟩)
  refine ⟨opening ++ [STAR], mem_map_of_mem hopening, ?_⟩
  rw [lower_openingGrant hopening]
  exact ⟨by simp, globCoversEverythingUnder_iff.mpr
    (.inr ⟨opening, rfl, star_not_mem_opening hopening, prefix_rfl⟩)⟩

theorem compileEntries_openingGrant (h : opening ∈ callableOpenings server) :
    compileEntries [opening ++ [STAR]] = [.regex (ofList STAR (opening ++ [STAR]))] := by
  have hcompiled : compileText (opening ++ [STAR]) = some (.regex (ofList STAR (opening ++ [STAR]))) := by
    unfold compileText
    rw [if_neg (by simp), if_neg (by simpa using (callableOpenings_units h).1), if_pos (by simp)]
  rw [compileEntries_of_star (by rw [lower_openingGrant h]; simp), lower_openingGrant h, hcompiled]
  rfl

theorem readOnOneLine_of_openingGrants {server opening tool : JsString} (hopening : opening ∈ callableOpenings server)
    (h : allowedBy (openingGrants server) (opening ++ tool)) : ReadOnOneLine (opening ++ tool) := by
  have hnormal : normalizeToolName (opening ++ tool) = .text (opening ++ toLowerCase (tool.rdropWhile isWhiteSpace)) ∨
      normalizeToolName (opening ++ tool) = .member ⟨js "object", js "[object Object]"⟩ := by
    obtain ⟨name, rfl, hne, hname⟩ := callableOpenings_safe hopening
    exact normalize_callable _ hne hname
  rcases allowedBy_iff.mp h with hnil | hmatches | ⟨hpatch, -⟩
  · -- the list has patterns
    obtain ⟨other, hother⟩ := exists_mem_of_ne_nil _ (callableOpenings_ne_nil server)
    have hcompiled := compileEntries_eq_nil_iff.mp hnil _ (mem_map_of_mem hother)
    rw [compileEntries_openingGrant hother] at hcompiled
    cases hcompiled
  · obtain ⟨entry, hentry, hmatch⟩ := matchesAny_compileEntries_iff.mp hmatches
    obtain ⟨other, hother, rfl⟩ := mem_map.mp hentry
    have hsafe := callableOpenings_units hother
    rw [compileEntries_openingGrant hother] at hmatch
    have htest : test (!isLineTerminator ·) (ofList STAR (other ++ [STAR]))
        (normalizeToolName (opening ++ tool)).toText := by
      simpa [matchesAnyGlobPattern, CompiledGlobPattern.matches] using hmatch
    rcases hnormal with htext | hmember
    · refine ⟨_, htext, fun u hu => ?_⟩
      rw [htext, NormalizedName.toText] at htest
      have hfilter := filter_of_test (by decide) htest
      have hliteral : (other ++ [STAR]).filter (fun u => !!isLineTerminator u) = [] := by
        refine filter_eq_nil_iff.mpr fun v hv => ?_
        rcases mem_append.mp hv with hv | hv
        · simp [(lowerNameUnit_plain (hsafe.2 v hv)).2.2.2.1]
        · rw [mem_singleton.mp hv]
          decide
      rw [hliteral, filter_eq_nil_iff] at hfilter
      simpa using hfilter u hu
    · -- an inherited member is read as a text that starts with a bracket
      rw [hmember, NormalizedName.toText] at htest
      have hbegins := takeWhile_prefix_of_test htest
      cases hcases : other with
      | nil => exact absurd hcases hsafe.1
      | cons u rest =>
        have hu := hsafe.2 u (hcases ▸ mem_cons_self)
        have hstar := (lowerNameUnit_plain hu).2.2.2.2
        rw [hcases, cons_append, takeWhile_cons_of_pos (by simpa using hstar)] at hbegins
        have hbracket : js "[object Object]" = 91 :: js "object Object]" := by decide
        rw [hbracket, cons_prefix_cons] at hbegins
        rw [hbegins.1] at hu
        exact absurd hu (by decide)
  · exact ⟨_, hpatch, by decide⟩

end Callable

theorem globCanMatchPrefix_iff {glob opening : JsString} :
    globCanMatchPrefix glob opening ↔ Glob.Meets STAR glob opening := by
  unfold globCanMatchPrefix Glob.Meets globHead
  by_cases hstar : STAR ∈ glob
  · simp [hstar]
  · rw [if_pos hstar, takeWhile_of_not_mem hstar]
    simp [hstar]

def globMatches (glob text : JsString) : Bool :=
  (compileText glob).any (·.matches (.text text))

/-- **Where the prefix test is exact**: a blank glob names nothing, and where an opening runs past the literal head of a
glob, the glob has to spell it up to its last line terminator. -/
theorem globCanMatchPrefix_exact_iff {glob opening : JsString} :
    (globCanMatchPrefix glob opening ↔ ∃ tail, globMatches glob (opening ++ tail)) ↔ (glob = [] → opening ≠ []) ∧
        (STAR ∈ glob → glob ≠ [STAR] → globHead glob <+: opening → ∃ p q, glob = p ++ q ∧
            test (!isLineTerminator ·) (ofList STAR p) (opening.rdropWhile (!isLineTerminator ·)) ∧
            Glob.Meets STAR q (opening.rtakeWhile (!isLineTerminator ·))) := by
  rw [globCanMatchPrefix_iff]
  by_cases hnil : glob = []
  · subst hnil
    have hmatches : ∀ tail, globMatches [] (opening ++ tail) = false := fun _ => rfl
    simp [hmatches, Glob.Meets]
  by_cases hall : glob = [STAR]
  · have hmatches : ∀ tail, globMatches [STAR] (opening ++ tail) := fun _ => rfl
    simp [hall, hmatches, Glob.Meets]
  by_cases hstar : STAR ∈ glob
  · have hcompiled : compileText glob = some (.regex (ofList STAR glob)) := by
      unfold compileText
      rw [if_neg hnil, if_neg hall, if_pos hstar]
    have hmatches : ∀ tail, globMatches glob (opening ++ tail) =
        test (!isLineTerminator ·) (ofList STAR glob) (opening ++ tail) := by
      intro tail
      rw [globMatches, hcompiled]
      rfl
    simp only [hmatches, hnil, hall, hstar, false_implies, true_and, not_false_eq_true, forall_const, ne_eq]
    constructor
    · exact fun h hhead => exists_test_iff.mp (h.mp (.inl ⟨hstar, hhead⟩))
    · refine fun h => ⟨?_, fun hexists => meets_of_test hexists.choose_spec⟩
      rintro (⟨-, hhead⟩ | hprefix)
      · exact exists_test_iff.mpr (h hhead)
      · exact exists_test_of_prefix hprefix
  · have hcompiled : compileText glob = some (.exact glob) := by
      unfold compileText
      rw [if_neg hnil, if_neg hall, if_neg hstar]
    have hmatches : ∀ tail, globMatches glob (opening ++ tail) ↔ opening ++ tail = glob := by
      intro tail
      rw [globMatches, hcompiled, Option.any_some, CompiledGlobPattern.matches, decide_eq_true_eq,
        NormalizedName.text.injEq]
    simp only [hmatches, hnil, hstar, false_implies, and_true, iff_true]
    rw [Glob.Meets, takeWhile_of_not_mem hstar]
    simp only [hstar, false_and, false_or]
    rfl

/-- **Whole-server grants against the matcher.** Under an opening of a server, every list that grants the server admits
a name exactly when it is matched as one line (or when nothing but `*` grants the server); and the prefix test is exact
where the opening's line terminators are literals of the glob. -/
theorem wholeServerGrant_exact_iff [LowerCase] {server opening tool : JsString}
    (hopening : opening ∈ callableOpenings server) (glob beginning : JsString) :
    ((∀ allowed siblings, allowListGrantsWholeMcpServer allowed server siblings = true →
        allowedBy allowed (opening ++ tool) = true) ↔ Truncated server ∨ ReadOnOneLine (opening ++ tool)) ∧
      ((globCanMatchPrefix glob beginning = true ↔ ∃ tail, globMatches glob (beginning ++ tail) = true) ↔
        (glob = [] → beginning ≠ []) ∧
          (STAR ∈ glob → glob ≠ [STAR] → globHead glob <+: beginning →
            ∃ p q, glob = p ++ q ∧
              Glob.test (!isLineTerminator ·) (Glob.ofList STAR p)
                (beginning.rdropWhile (!isLineTerminator ·)) = true ∧
              Glob.Meets STAR q (beginning.rtakeWhile (!isLineTerminator ·)))) := by
  refine ⟨⟨fun h => ?_, fun h allowed siblings => allowedBy_of_grant hopening h⟩, globCanMatchPrefix_exact_iff⟩
  by_cases htruncated : Truncated server
  · exact Or.inl htruncated
  · exact Or.inr (readOnOneLine_of_openingGrants hopening (h _ _ (openingGrants_grants htruncated)))

section Github

attribute [local instance] asciiLowerCase

/-- A tool of a server with a short key, and a glob over its names. -/
theorem wholeServerGrant_exact_github :
    ((∀ allowed siblings, allowListGrantsWholeMcpServer allowed (js "github") siblings = true →
        allowedBy allowed (js "github__" ++ js "read") = true) ↔
      Truncated (js "github") ∨ ReadOnOneLine (js "github__" ++ js "read")) ∧
      ((globCanMatchPrefix (js "git*__x") (js "github__") = true ↔
          ∃ tail, globMatches (js "git*__x") (js "github__" ++ tail) = true) ↔
        (js "git*__x" = [] → js "github__" ≠ []) ∧
          (STAR ∈ js "git*__x" → js "git*__x" ≠ [STAR] → globHead (js "git*__x") <+: js "github__" →
            ∃ p q, js "git*__x" = p ++ q ∧
              Glob.test (!isLineTerminator ·) (Glob.ofList STAR p)
                ((js "github__").rdropWhile (!isLineTerminator ·)) = true ∧
              Glob.Meets STAR q ((js "github__").rtakeWhile (!isLineTerminator ·)))) :=
  wholeServerGrant_exact_iff (by decide) _ _

/-- A name on two lines is under the grant of its server, and no pattern of the list matches it; a glob is said to match
a name that begins with two lines, and matches none. -/
theorem wholeServerGrant_not_exact :
    (allowListGrantsWholeMcpServer [js "github__*", js "mcp__github__*"] (js "github") [] = true ∧
        js "github__" ∈ callableOpenings (js "github") ∧
        allowedBy [js "github__*", js "mcp__github__*"] (js "github__" ++ js "read\nissue") = false) ∧
      globCanMatchPrefix (js "git*__x") (js "git\nhub__") = true ∧
        ¬ ∃ tail, globMatches (js "git*__x") (js "git\nhub__" ++ tail) = true := by
  refine ⟨⟨by decide, by decide, by decide⟩, by decide, ?_⟩
  rintro ⟨tail, hmatches⟩
  have htest : Glob.test (!isLineTerminator ·) (Glob.ofList STAR (js "git*__x")) (js "git\nhub__" ++ tail) = true :=
    hmatches
  have hfilter := Glob.filter_of_test (by decide) htest
  have hbreak : (10 : UInt16) ∈ (js "git\nhub__" ++ tail).filter fun u => !!isLineTerminator u :=
    mem_filter.mpr ⟨mem_append_left _ (by decide), by decide⟩
  rw [hfilter] at hbreak
  exact absurd hbreak (by decide)

end Github

end ClawWorks
