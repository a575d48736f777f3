import ClawWorks.Enterprise.ActiveRuns
import ClawWorks.Enterprise.GovernanceLayers
import ClawWorks.Enterprise.Schema

/-!
# The MCP ceiling and the gate

The ceiling of a run judges a whole server before any call exists, by the names a runtime could give its tools
(`opening_of_alias`). A pattern that matches one of these names as written reaches the server (`reaches_of_denies`), and
a policy whose selectors match one and the same of them reaches it too (`policyReaches_of_oneSpelling`).
-/

namespace ClawWorks

open List

section Patterns

variable [LowerCase] {a b name text opening : JsString}

omit [LowerCase] in
theorem globCanMatchPrefix_of_matches {pattern : JsString} {compiled : CompiledGlobPattern}
    (hcompiled : compileText pattern = some compiled) (hmatches : compiled.matches (.text text))
    (hopening : opening <+: text) : globCanMatchPrefix pattern opening := by
  unfold globCanMatchPrefix
  split
  · rename_i hstar
    rw [eq_of_matches hcompiled hstar hmatches, isPrefixOf_iff_prefix]
    exact hopening
  · rw [Bool.or_eq_true, isPrefixOf_iff_prefix, isPrefixOf_iff_prefix]
    exact prefix_or_prefix_of_prefix (ends_of_matches hcompiled hmatches).1 hopening

theorem patternsCanShareACall_of_denied (hname : normalizeToolName name = .text text) (hdelimiter : js "__" <:+: text)
    (ha : deniedBy [a] name) (hb : deniedBy [b] name) : patternsCanShareACall a b := by
  obtain ⟨acompiled, hacompiled, hamatches⟩ := pattern_of_deniedBy hname hdelimiter ha
  obtain ⟨bcompiled, hbcompiled, hbmatches⟩ := pattern_of_deniedBy hname hdelimiter hb
  unfold patternsCanShareACall
  simp only
  split
  · rfl
  split
  · rename_i hstar
    rw [eq_of_matches hbcompiled hstar hbmatches]
    exact (deniedBy_lower hname).trans ha
  split
  · rename_i hstar
    rw [eq_of_matches hacompiled hstar hamatches]
    exact (deniedBy_lower hname).trans hb
  split
  · rename_i hheads
    rw [Bool.and_eq_true, Bool.not_eq_true', Bool.not_eq_true'] at hheads
    rcases prefix_or_prefix_of_prefix (ends_of_matches hbcompiled hbmatches).1
      (ends_of_matches hacompiled hamatches).1 with h | h
    · cases hheads.1.symm.trans ( isPrefixOf_iff_prefix.mpr h)
    · cases hheads.2.symm.trans ( isPrefixOf_iff_prefix.mpr h)
  · rw [Bool.or_eq_true, isSuffixOf_iff_suffix, isSuffixOf_iff_suffix]
    exact suffix_or_suffix_of_suffix (ends_of_matches hbcompiled hbmatches).2 (ends_of_matches hacompiled hamatches).2

end Patterns

section Openings

variable [LowerCase] {server : JsString}

/-! ## How the names of a server begin -/

/-- The keys a server's spellings are built from. -/
def serverBases (server : JsString) : List JsString :=
  [server, codexNamespace server, sanitizeServerName server []]

/-- The beginnings of the names a server's tools can have. -/
def serverOpenings (server : JsString) : List JsString :=
  (mcpServerNamespaces server).flatMap fun name => [name ++ js "__", LEGACY_PREFIX ++ name ++ js "__"]

theorem toLowerCase_delimited (a b : JsString) :
    toLowerCase (a ++ js "__" ++ b) = toLowerCase a ++ js "__" ++ toLowerCase b := by
  have hdelimiter : js "__" = [UNDERSCORE, UNDERSCORE] := by decide
  have hneutral : isNeutral UNDERSCORE := by decide
  have hempty : toLowerCase [] = [] := LowerCase.ascii [] (by simp)
  have hinner := LowerCase.neutral [] UNDERSCORE b hneutral
  have houter := LowerCase.neutral a UNDERSCORE ([] ++ UNDERSCORE :: b) hneutral
  rw [hinner, hempty] at houter
  simpa [hdelimiter] using houter

theorem toLowerCase_legacy (a : JsString) : toLowerCase (LEGACY_PREFIX ++ a) = LEGACY_PREFIX ++ toLowerCase a := by
  have hlegacy : LEGACY_PREFIX = js "mcp" ++ js "__" := by decide
  have hmcp : toLowerCase (js "mcp") = js "mcp" := toLowerCase_of_lower (by decide)
  rw [hlegacy, toLowerCase_delimited, hmcp]

variable {key : JsString}

theorem mem_mcpServerNamespaces_base (hkey : key ∈ serverBases server) (hne : key ≠ []) :
    toLowerCase key ∈ mcpServerNamespaces server := by
  unfold mcpServerNamespaces
  refine mem_filter.mpr ⟨mem_eraseDups.mpr (mem_append_left _ (mem_map_of_mem hkey)), ?_⟩
  exact decide_eq_true fun hempty => hne (LowerCase.eq_nil key hempty)

theorem mem_mcpServerNamespaces_hook {key form : JsString} (hkey : key ∈ serverBases server)
    (hform : form ∈ hookNamespaceForms (codexNamespace key)) (hne : trimCodexNamespace form ≠ []) :
    toLowerCase (trimCodexNamespace form) ∈ mcpServerNamespaces server := by
  have htruthy : Truthy (toLowerCase (trimCodexNamespace form)) := fun hempty => hne (LowerCase.eq_nil _ hempty)
  unfold mcpServerNamespaces codexHookNamespaces
  refine mem_filter.mpr ⟨mem_eraseDups.mpr (mem_append_right _ ?_), decide_eq_true htruthy⟩
  rw [mem_eraseDups]
  refine mem_filter.mpr ⟨mem_map.mpr ⟨form, mem_flatMap.mpr ⟨key, hkey, ?_⟩, rfl⟩, decide_eq_true htruthy⟩
  exact mem_flatMap.mpr ⟨codexNamespace key, mem_eraseDups.mpr (by simp), hform⟩

theorem opening_mem {name : JsString} (h : name ∈ mcpServerNamespaces server) :
    name ++ js "__" ∈ serverOpenings server ∧ LEGACY_PREFIX ++ name ++ js "__" ∈ serverOpenings server :=
  ⟨mem_flatMap.mpr ⟨name, h, by simp⟩, mem_flatMap.mpr ⟨name, h, by simp⟩⟩

theorem opening_of_legacy {spelled tool : JsString} (h : toLowerCase spelled ∈ mcpServerNamespaces server) :
    ∃ opening ∈ serverOpenings server, opening <+: toLowerCase (withLegacyPrefix (spelled ++ js "__" ++ tool)) := by
  unfold withLegacyPrefix
  split
  · refine ⟨_, (opening_mem h).1, ?_⟩
    rw [toLowerCase_delimited]
    exact prefix_append _ _
  · refine ⟨_, (opening_mem h).2, ?_⟩
    rw [toLowerCase_legacy, toLowerCase_delimited]
    exact ⟨toLowerCase tool, by simp⟩

omit [LowerCase] in
theorem trimCodexNamespace_append {a b : JsString} (h : ∀ u ∈ b, u = UNDERSCORE) :
    trimCodexNamespace (a ++ b) = trimCodexNamespace a := by
  have hdrop : b.reverse.dropWhile (· = UNDERSCORE) = [] := by
    rw [dropWhile_eq_nil_iff]
    intro u hu
    simpa using h u (mem_reverse.mp hu)
  unfold trimCodexNamespace rdropWhile
  rw [reverse_append, dropWhile_append, hdrop]
  rfl

omit [LowerCase] in
theorem trimCodexNamespace_append_left {a b : JsString} (h : trimCodexNamespace b ≠ []) :
    trimCodexNamespace (a ++ b) = a ++ trimCodexNamespace b := by
  unfold trimCodexNamespace rdropWhile at h ⊢
  rw [reverse_append, dropWhile_append, if_neg (by simpa using h), reverse_append, reverse_reverse]

omit [LowerCase] in
theorem underscored_legacy (s : JsString) :
    underscored isWordCharacter (LEGACY_PREFIX ++ s) = LEGACY_PREFIX ++ underscored isWordCharacter s := by
  have hcons : ∀ u s, isWordCharacter u → ¬ 0xD800 ≤ u →
      underscored isWordCharacter (u :: s) = u :: underscored isWordCharacter s := by
    intro u s hword hlow
    cases s with
    | nil => simp [hword, underscored, codePoints]
    | cons v s => simp [underscored, codePoints, hlow, hword]
  have hlegacy : LEGACY_PREFIX = [109, 99, 112, 95, 95] := by decide
  rw [hlegacy]
  simp only [cons_append, nil_append]
  rw [hcons _ _ (by decide) (by decide), hcons _ _ (by decide) (by decide), hcons _ _ (by decide) (by decide),
    hcons _ _ (by decide) (by decide), hcons _ _ (by decide) (by decide)]

omit [LowerCase] in
theorem trimCodexNamespace_legacy {s : JsString} (h : trimCodexNamespace s = []) :
    trimCodexNamespace (LEGACY_PREFIX ++ s) = js "mcp" := by
  have hunderscores : ∀ u ∈ s, u = UNDERSCORE := by
    unfold trimCodexNamespace at h
    rw [rdropWhile_eq_nil_iff] at h
    exact fun u hu => by simpa using h u hu
  rw [trimCodexNamespace_append hunderscores]
  decide

theorem mcp_mem_of_underscores (hkey : key ∈ serverBases server)
    (h : trimCodexNamespace (codexNamespace key) = []) : toLowerCase (js "mcp") ∈ mcpServerNamespaces server := by
  have hunderscores : ∀ u ∈ codexNamespace key, u = UNDERSCORE := by
    have hall := h
    unfold trimCodexNamespace at hall
    rw [rdropWhile_eq_nil_iff] at hall
    exact fun u hu => by simpa using hall u hu
  have hprefixed : withLegacyPrefix (codexNamespace key) = LEGACY_PREFIX ++ codexNamespace key := by
    refine if_neg fun hprefix => ?_
    obtain ⟨rest, hrest⟩ := isPrefixOf_iff_prefix.mp hprefix
    have hm := hunderscores 109 (by rw [← hrest]; exact mem_append_left _ (by decide))
    exact absurd hm (by decide)
  have hform : withLegacyPrefix (codexNamespace key) ∈ hookNamespaceForms (codexNamespace key) := by
    simp [hookNamespaceForms]
  have hmcp : trimCodexNamespace (withLegacyPrefix (codexNamespace key)) = js "mcp" := by
    rw [hprefixed, trimCodexNamespace_legacy h]
  rw [← hmcp]
  exact mem_mcpServerNamespaces_hook hkey hform (by rw [hmcp]; decide)

theorem opening_of_hook (hkey : key ∈ serverBases server) (tool : JsString) :
    ∃ opening ∈ serverOpenings server, opening <+: toLowerCase (codexHookToolName key tool) := by
  unfold codexHookToolName
  by_cases hempty : trimCodexNamespace (codexNamespace key) = []
  · rw [hempty, nil_append]
    refine ⟨_, (opening_mem (mcp_mem_of_underscores hkey hempty)).1, ?_⟩
    have hprefixed : withLegacyPrefix (js "__" ++ trimCodexToolName (codexNamespace tool)) =
        LEGACY_PREFIX ++ (js "__" ++ trimCodexToolName (codexNamespace tool)) := by
      refine if_neg fun hprefix => ?_
      obtain ⟨rest, hrest⟩ := isPrefixOf_iff_prefix.mp hprefix
      have hhead : some (109 : UInt16) = some 95 := congrArg head? hrest
      exact absurd hhead (by decide)
    rw [hprefixed, toLowerCase_legacy, toLowerCase_of_lower (by decide)]
    exact ⟨_, rfl⟩
  · refine opening_of_legacy (mem_mcpServerNamespaces_hook hkey ?_ hempty)
    simp [hookNamespaceForms]

theorem opening_of_prefixed_hook (hkey : key ∈ serverBases server) (tool : JsString) :
    ∃ opening ∈ serverOpenings server, opening <+: toLowerCase (codexHookToolName (withLegacyPrefix key) tool) := by
  by_cases hprefix : LEGACY_PREFIX.isPrefixOf key
  · have hsame : withLegacyPrefix key = key := if_pos hprefix
    rw [hsame]
    exact opening_of_hook hkey tool
  have hprefixed : withLegacyPrefix key = LEGACY_PREFIX ++ key := if_neg hprefix
  have hnamespace : codexNamespace (withLegacyPrefix key) = LEGACY_PREFIX ++ underscored isWordCharacter key := by
    unfold codexNamespace
    simp only [hprefixed, underscored_legacy]
    exact if_neg (by simp [LEGACY_PREFIX, js, codeUnits])
  unfold codexHookToolName
  by_cases hempty : trimCodexNamespace (underscored isWordCharacter key) = []
  · rw [hnamespace, trimCodexNamespace_legacy hempty]
    refine opening_of_legacy (mcp_mem_of_underscores hkey ?_)
    unfold codexNamespace
    simp only
    split
    · decide
    · exact hempty
  · have hown : codexNamespace key = underscored isWordCharacter key := by
      refine if_neg fun hnil => hempty ?_
      rw [hnil]
      rfl
    have hmem : toLowerCase (trimCodexNamespace (codexNamespace key)) ∈ mcpServerNamespaces server :=
      mem_mcpServerNamespaces_hook hkey (by simp [hookNamespaceForms]) (by rwa [hown])
    refine ⟨_, (opening_mem hmem).2, ?_⟩
    rw [hnamespace, trimCodexNamespace_append_left hempty, hown]
    have hkept : withLegacyPrefix (LEGACY_PREFIX ++ trimCodexNamespace (underscored isWordCharacter key) ++ js "__" ++
        trimCodexToolName (codexNamespace tool)) = LEGACY_PREFIX ++
          (trimCodexNamespace (underscored isWordCharacter key) ++ js "__" ++
            trimCodexToolName (codexNamespace tool)) := by
      rw [append_assoc, append_assoc, ← append_assoc (trimCodexNamespace _)]
      exact if_pos ( isPrefixOf_iff_prefix.mpr (prefix_append _ _))
    rw [hkept, toLowerCase_legacy, toLowerCase_delimited]
    exact ⟨toLowerCase (trimCodexToolName (codexNamespace tool)), by simp⟩

theorem opening_of_alias {key tool identity : JsString} (hkey : key ∈ serverBases server) (hne : key ≠ [])
    (h : identity ∈ namespaceAliases tool false key) :
    ∃ opening ∈ serverOpenings server, opening <+: toLowerCase identity := by
  simp only [namespaceAliases, Bool.false_eq_true, if_false, append_nil, mem_cons, not_mem_nil, or_false] at h
  have hmem := mem_mcpServerNamespaces_base hkey hne
  rcases h with rfl | rfl | rfl | rfl
  · refine ⟨_, (opening_mem hmem).1, ?_⟩
    rw [toLowerCase_delimited]
    exact prefix_append _ _
  · refine ⟨_, (opening_mem hmem).2, ?_⟩
    have hassoc : js "mcp__" ++ key ++ js "__" ++ tool = LEGACY_PREFIX ++ (key ++ js "__" ++ tool) := by
      simp [LEGACY_PREFIX]
    rw [hassoc, toLowerCase_legacy, toLowerCase_delimited]
    exact ⟨toLowerCase tool, by simp⟩
  · exact opening_of_hook hkey tool
  · exact opening_of_prefixed_hook hkey tool

end Openings

section Calls

variable {ν : Type} [LowerCase] {run : EnterpriseActiveRun} {server tool : JsString} {node : EnterprisePlanNode}
  {call : ToolCall ν} {owner : McpOwnership}

/-! ## Calls of a server's tools -/

/-- A call of a tool of a registered server, stamped with the server's own safe name, under a name some runtime gives
it. -/
structure ServerCall (run : EnterpriseActiveRun) (server tool : JsString) (call : ToolCall ν) : Prop where
  stamped : call.mcpTool = some ⟨server, sanitizeServerName server [], tool⟩
  registered : call.mcpServers = run.mcpServers.getD []
  arrives : ∃ key ∈ [server, sanitizeServerName server []], ∃ reported,
    call.toolName ∈ namespaceAliases reported false key
  actionless : call.carriesAction = false

def serverOwnership (server tool : JsString) : McpOwnership :=
  ⟨server, [server, sanitizeServerName server []].eraseDups, tool⟩

theorem ServerCall.owned (h : ServerCall run server tool call) (hserver : server ∈ run.mcpServers.getD []) :
    callOwnership call = some (serverOwnership server tool) := by
  rw [callOwnership, h.stamped, h.registered, mcpServerOwningTool, if_pos hserver]
  rfl

def callSpellings (call : ToolCall ν) (owner : McpOwnership) (includeBareServer : Bool) : List JsString :=
  call.toolName :: owner.namespaces.flatMap (namespaceAliases owner.toolPart includeBareServer)

def ReadAsWritten (name : JsString) : Prop :=
  normalizeToolName name = .text (toLowerCase name)

def NamedAsWritten (call : ToolCall ν) (owner : McpOwnership) (entry : JsString) : Prop :=
  ∃ identity ∈ callSpellings call owner true, ReadAsWritten identity ∧ deniedBy [entry] identity = true

def AppliesUnderOneSpelling (policy : GovernancePolicy) (node : EnterprisePlanNode) (call : ToolCall ν)
    (owner : McpOwnership) : Prop :=
  ∃ identity ∈ callSpellings call owner false, ReadAsWritten identity ∧
    (isScoped policy.tools = true → ∃ entry ∈ policy.tools.getD [], deniedBy [entry] identity = true) ∧
    (isScoped policy.actions = true → ∃ action ∈ effectiveActionsOnPath [node],
      matchesSelector action.id policy.actions = true ∧
        ∀ globs, action.tools = some globs → ∃ glob ∈ globs, deniedBy [glob] identity = true)

/-! ## What the ceiling sees -/

theorem delimiter_of_opening {opening name : JsString} (h : opening ∈ serverOpenings server)
    (hname : opening <+: name) :
    js "__" <:+: name := by
  obtain ⟨known, -, hopening⟩ := mem_flatMap.mp h
  have hsuffix : js "__" <:+ opening := by
    simp only [mem_cons, not_mem_nil, or_false] at hopening
    rcases hopening with rfl | rfl
    · exact suffix_append _ _
    · exact suffix_append _ _
  exact hsuffix.isInfix.trans hname.isInfix

theorem reaches_of_denies {entry identity : JsString} (hread : ReadAsWritten identity)
    (hopening : ∃ opening ∈ serverOpenings server, opening <+: toLowerCase identity)
    (hdenied : deniedBy [entry] identity) (bareNameDenies : Bool) :
    denialReachesMcpServer entry server bareNameDenies := by
  obtain ⟨opening, hmem, hprefix⟩ := hopening
  obtain ⟨compiled, hcompiled, hmatches⟩ := pattern_of_deniedBy hread (delimiter_of_opening hmem hprefix) hdenied
  have hany : ((mcpServerNamespaces server).flatMap fun name =>
      [name ++ js "__", LEGACY_PREFIX ++ name ++ js "__"]).any (globCanMatchPrefix (toLowerCase (trim entry))) :=
    any_eq_true.mpr ⟨opening, hmem, globCanMatchPrefix_of_matches hcompiled hmatches hprefix⟩
  unfold denialReachesMcpServer
  simp only
  rw [if_neg (ne_nil_of_deniedBy hdenied), hany]
  simp only [if_true, ite_self]

theorem reaches_of_bare {entry key identity : JsString} (hkey : key ∈ serverBases server) (hne : key ≠ [])
    (hidentity : identity = key ∨ identity = LEGACY_PREFIX ++ key) (hread : ReadAsWritten identity)
    (hdenied : deniedBy [entry] identity) : denialReachesMcpServer entry server true := by
  have hmem : toLowerCase identity ∈
      (mcpServerNamespaces server).flatMap fun name => [name, LEGACY_PREFIX ++ name] := by
    refine mem_flatMap.mpr ⟨toLowerCase key, mem_mcpServerNamespaces_base hkey hne, ?_⟩
    rcases hidentity with rfl | rfl
    · simp
    · simp [toLowerCase_legacy]
  have hwhole := any_eq_true.mpr ⟨toLowerCase identity, hmem, (deniedBy_lower hread).trans hdenied⟩
  unfold denialReachesMcpServer
  simp only
  rw [if_neg (ne_nil_of_deniedBy hdenied), if_pos]
  rw [hwhole]
  simp

theorem key_of_namespace {key : JsString} (h : key ∈ (serverOwnership server tool).namespaces) :
    key ∈ serverBases server := by
  simp only [serverOwnership, mem_eraseDups, mem_cons, not_mem_nil, or_false] at h
  rcases h with rfl | rfl <;> simp [serverBases]

theorem sanitizeServerName_ne_nil (raw : JsString) : sanitizeServerName raw [] ≠ [] := by
  rw [sanitizeServerName_nil]
  unfold sanitizeToolFragment
  simp only
  rw [ne_eq, take_eq_nil_iff, not_or]
  refine ⟨by decide, ?_⟩
  split
  · decide
  · rename_i hcleaned
    split
    · exact hcleaned
    · exact append_ne_nil_of_left_ne_nil (by decide) _

theorem key_ne_nil {key : JsString} (hserver : server ≠ []) (h : key ∈ [server, sanitizeServerName server []]) :
    key ≠ [] := by
  simp only [mem_cons, not_mem_nil, or_false] at h
  rcases h with rfl | rfl
  · exact hserver
  · exact sanitizeServerName_ne_nil server

theorem opening_of_spelling (hserver : server ≠ []) (hcall : ServerCall run server tool call) {identity : JsString}
    (h : identity ∈ callSpellings call (serverOwnership server tool) false) :
    ∃ opening ∈ serverOpenings server, opening <+: toLowerCase identity := by
  rcases mem_cons.mp h with rfl | h
  · obtain ⟨key, hkey, reported, hname⟩ := hcall.arrives
    have hbase : key ∈ serverBases server := by
      simp only [mem_cons, not_mem_nil, or_false] at hkey
      rcases hkey with rfl | rfl <;> simp [serverBases]
    exact opening_of_alias hbase (key_ne_nil hserver hkey) hname
  · obtain ⟨key, hkey, hname⟩ := mem_flatMap.mp h
    have hlisted : key ∈ [server, sanitizeServerName server []] := mem_eraseDups.mp hkey
    exact opening_of_alias (key_of_namespace hkey) (key_ne_nil hserver hlisted) hname

theorem reaches_of_namedAsWritten (hserver : server ≠ []) (hcall : ServerCall run server tool call) {entry : JsString}
    (h : NamedAsWritten call (serverOwnership server tool) entry) :
    denialReachesMcpServer entry server true := by
  obtain ⟨identity, hidentity, hread, hdenied⟩ := h
  rcases mem_cons.mp hidentity with rfl | halias
  · exact reaches_of_denies hread (opening_of_spelling hserver hcall mem_cons_self) hdenied true
  obtain ⟨key, hkey, hname⟩ := mem_flatMap.mp halias
  have hlisted : key ∈ [server, sanitizeServerName server []] := mem_eraseDups.mp hkey
  have hne := key_ne_nil hserver hlisted
  rw [namespaceAliases, mem_append] at hname
  rcases hname with hname | hbare
  · have hplain : identity ∈ namespaceAliases (serverOwnership server tool).toolPart false key := by
      rw [namespaceAliases, mem_append]
      exact Or.inl hname
    exact reaches_of_denies hread (opening_of_alias (key_of_namespace hkey) hne hplain) hdenied true
  · rw [if_pos rfl, mem_cons, mem_singleton] at hbare
    exact reaches_of_bare (key_of_namespace hkey) hne hbare hread hdenied

variable {plan : EnterpriseRunPlan}

theorem policyReaches_of_oneSpelling (hserver : server ≠ []) (hcall : ServerCall run server tool call)
    (hnode : node ∈ plan.nodes) {policy : GovernancePolicy}
    (happlies : PolicyApplies policy (policySubject plan node call (callIdentity call (callOwnership call))))
    (hone : AppliesUnderOneSpelling policy node call (serverOwnership server tool)) :
    policyReachesMcpServer policy server plan.nodes := by
  obtain ⟨hselective, hcallable, -, -, -, hstep⟩ := happlies
  obtain ⟨identity, hidentity, hread, htools, hactions⟩ := hone
  have hopening := opening_of_spelling hserver hcall hidentity
  have hdelimiter : js "__" <:+: toLowerCase identity := by
    obtain ⟨opening, hmem, hprefix⟩ := hopening
    exact delimiter_of_opening hmem hprefix
  unfold policyReachesMcpServer
  simp only [hcallable, Bool.false_eq_true, if_false]
  by_cases hactionScoped : isScoped policy.actions
  · obtain ⟨action, heffective, hselected, hglobs⟩ := hactions hactionScoped
    have hactionsNe : (policy.actions.getD []).isEmpty = false := by simpa [isScoped_eq] using hactionScoped
    rw [if_neg (by simp [hactionsNe]), if_neg (by simp [hactionsNe]), any_eq_true]
    obtain ⟨step, hstep, hselects⟩ := hstep
    rw [mem_singleton.mp hstep] at hselects
    refine ⟨node, hnode, ?_⟩
    rw [Bool.and_eq_true, any_eq_true]
    refine ⟨(selectorMatches_eq _ _).trans hselects, action,
      mem_filter.mpr ⟨mem_effectiveActionsOnPath heffective, ?_⟩, ?_⟩
    · rw [selectorMatches_eq, ← matchesSelector_getD hactionScoped]
      exact hselected
    · obtain ⟨actionTool, hactionTool, hdenied⟩ : ∃ glob ∈ action.tools.getD [[STAR]], deniedBy [glob] identity := by
        cases htoolGlobs : action.tools with
        | none =>
          refine ⟨[STAR], mem_singleton_self _, ?_⟩
          rw [deniedBy_eq, compileEntries_star]
          rfl
        | some globs => exact hglobs globs htoolGlobs
      refine any_eq_true.mpr ⟨actionTool, hactionTool, ?_⟩
      rw [Bool.and_eq_true, Bool.or_eq_true]
      refine ⟨reaches_of_denies hread hopening hdenied false, ?_⟩
      by_cases htoolScoped : isScoped policy.tools
      · obtain ⟨entry, hentry, hentryDenied⟩ := htools htoolScoped
        refine Or.inr (any_eq_true.mpr ⟨entry, hentry, ?_⟩)
        rw [Bool.and_eq_true]
        exact ⟨reaches_of_denies hread hopening hentryDenied false,
          patternsCanShareACall_of_denied hread hdelimiter hentryDenied hdenied⟩
      · exact Or.inl (by simpa [isScoped_eq] using htoolScoped)
  · have hactionsEmpty : (policy.actions.getD []).isEmpty := by simpa [isScoped_eq] using hactionScoped
    have htoolScoped : isScoped policy.tools := hselective.resolve_right hactionScoped
    obtain ⟨entry, hentry, hdenied⟩ := htools htoolScoped
    have htoolsNe : (policy.tools.getD []).isEmpty = false := by simpa [isScoped_eq] using htoolScoped
    rw [if_neg (by simp [htoolsNe]), if_pos hactionsEmpty]
    exact any_eq_true.mpr ⟨entry, hentry, reaches_of_denies hread hopening hdenied false⟩

/-! ## The attached servers of a run -/

/-- The plan of a run was built from an accepted tree; only its cursor has moved since. -/
def PlannedRun [RunEnvironment] (run : EnterpriseActiveRun) : Prop :=
  ∃ params activeNodeId, workflowTreeIssues params.tree = [] ∧
    buildEnterpriseRunPlan params = .ok { run.plan with activeNodeId := activeNodeId }

structure HandedOver (run : EnterpriseActiveRun) (server : JsString) : Prop where
  governed : run.plan.mcpGoverned = true
  registered : server ∈ run.mcpServers.getD []
  attached : ∀ node ∈ run.plan.nodes, server ∈ node.ontology.mcpServers.getD []
  undenied : ∀ entry ∈ run.plan.mcpDeniedTools, denialReachesMcpServer entry server true = false
  unblocked : ∀ policy ∈ (resolveMcpCeiling run).blocking, policyReachesMcpServer policy server run.plan.nodes = false

theorem handedOver_of_mem {runs : ActiveRuns} {runId : Option JsString} {peers servers : List JsString}
    {eligible : Option (List JsString)} (hrun : boundRun runs runId = some run)
    (hservers : enterpriseRunAttachedMcpServers runs runId peers eligible = some servers) (hserver : server ∈ servers) :
    HandedOver run server := by
  unfold enterpriseRunAttachedMcpServers at hservers
  simp only [hrun] at hservers
  split at hservers
  · cases hservers
  split at hservers
  · cases hservers
  rename_i hgoverned
  rw [← Option.some.inj hservers] at hserver
  obtain ⟨hmem, hadmitted⟩ := mem_filter.mp hserver
  have hregistered := (mem_filter.mp (mem_eraseDups.mp hmem)).2
  rw [Bool.and_eq_true, all_eq_true] at hadmitted
  obtain ⟨hattached, hceiling⟩ := hadmitted
  unfold ceilingAdmitsMcpServer at hceiling
  split at hceiling
  · cases hceiling
  rename_i hdenied
  split at hceiling
  · cases hceiling
  rename_i hblocking
  rw [Bool.not_eq_true, any_eq_false] at hdenied hblocking
  refine ⟨by simpa using hgoverned, ?_, fun node hnode => by simpa using hattached node hnode,
    fun entry hentry => by simpa using hdenied entry hentry,
    fun policy hpolicy => Bool.not_eq_true _ ▸ hblocking policy hpolicy⟩
  rw [Bool.and_eq_true, decide_eq_true_eq] at hregistered
  exact hregistered.1

theorem callViolation_of_attached (hattached : mcpAttached plan node call)
    (hdenied : ¬ DeniedByNode plan node call) : callViolation plan node call = none := by
  unfold DeniedByNode at hdenied
  rw [hattached, Bool.not_eq_true] at hdenied
  unfold callViolation ontologyScopeViolation
  simp only [find?_cons, find?_nil, hattached, hdenied]
  rfl

/-- The outward actions leave an attached call alone: it satisfies one that covers it, or none covers it and none names
another tool of its server. -/
def OutwardAdmits (node : EnterprisePlanNode) (call : ToolCall ν) (owner : McpOwnership) : Prop :=
  SatisfiesOutwardAction node call ∨ (∀ action ∈ outwardActionsOnPath [node],
      outwardCovers (callIdentity call (callOwnership call)) call.toolName action = false) ∧
    outwardTargetsServer (outwardActionsOnPath [node]) owner.namespaces = false

theorem outward_silent_attached_iff (howner : callOwnership call = some owner)
    (hattached : mcpAttached plan node call) :
    callOutward plan node call = .silent ↔ (∀ action ∈ outwardActionsOnPath [node],
        outwardCovers (callIdentity call (callOwnership call)) call.toolName action = false) ∧
      outwardTargetsServer (outwardActionsOnPath [node]) owner.namespaces = false := by
  have hcovering : (∀ action ∈ outwardActionsOnPath [node],
      outwardCovers (callIdentity call (callOwnership call)) call.toolName action = false) ↔
        ((outwardActionsOnPath [node]).filter
          (outwardCovers (callIdentity call (callOwnership call)) call.toolName)).isEmpty := by
    rw [List.isEmpty_iff, List.filter_eq_nil_iff]
    simp
  rw [hcovering]
  unfold callOutward outwardActionDecision
  simp only [hattached, howner, Option.map_some, Option.getD_some]
  by_cases hempty : ((outwardActionsOnPath [node]).filter
      (outwardCovers (callIdentity call (some owner)) call.toolName)).isEmpty
  · rw [if_pos hempty]
    cases outwardTargetsServer (outwardActionsOnPath [node]) owner.namespaces <;> simp [hempty]
  · rw [if_neg hempty]
    split <;> simp [hempty]

/-- What the ceiling leaves open about a call: a deny entry that names it only folded or through a rewritten name, an
outward action that refuses it, and a blocking policy whose selectors do not share one spelling. -/
structure CaughtByCeiling (plan : EnterpriseRunPlan) (policies : List GovernancePolicy) (node : EnterprisePlanNode)
    (call : ToolCall ν) (owner : McpOwnership) : Prop where
  denials : ∀ entry ∈ node.ontology.deniedTools, EntryNames call owner entry → NamedAsWritten call owner entry
  outward : OutwardAdmits node call owner
  blocking : ∀ policy ∈ matchingPolicies plan node call policies,
    policy.effect = .deny ∨ policy.effect = .requireApproval → AppliesUnderOneSpelling policy node call owner

/-- **When the gate lets a call of an attached server pass.** -/
theorem attachedServer_admitted_iff [RunEnvironment] {runs : ActiveRuns} {runId : Option JsString}
    {peers servers : List JsString} {eligible : Option (List JsString)} (hplanned : PlannedRun run)
    (hrun : boundRun runs runId = some run)
    (hservers : enterpriseRunAttachedMcpServers runs runId peers eligible = some servers) (hserver : server ∈ servers)
    (hnode : node ∈ run.plan.nodes) (hcall : ServerCall run server tool call) :
    (evaluateToolCallGovernance run.plan node run.policies call).effect ≠ .deny ∧
        (evaluateToolCallGovernance run.plan node run.policies call).effect ≠ .requireApproval ↔
      CaughtByCeiling run.plan run.policies node call (serverOwnership server tool) := by
  have hhanded := handedOver_of_mem hrun hservers hserver
  obtain ⟨params, activeNodeId, haccepted, hbuilt⟩ := hplanned
  have hname : server ≠ [] := by
    rintro rfl
    exact mcpServers_nonblank_of_accepted haccepted hbuilt hnode (hhanded.attached node hnode) rfl
  have howner := hcall.owned hhanded.registered
  have hattached : mcpAttached run.plan node call = true := by
    rw [mcpAttached, howner, Option.any_some, Bool.and_eq_true]
    exact ⟨hhanded.governed,
      any_eq_true.mpr ⟨node, mem_singleton_self _, decide_eq_true (hhanded.attached node hnode)⟩⟩
  have hordinary : isControlCall call = false := by
    simp [isControlCall, isWorkflowControlTool, hcall.stamped]
  have hdenied := deniedByNode_attached_iff howner hattached
  rw [evaluate_admits_iff hordinary]
  constructor
  · rintro ⟨hleft, hpolicies⟩
    refine ⟨fun entry hentry hnames => ?_, ?_, fun policy hpolicy hblocks => ?_⟩
    · exact absurd (hdenied.mpr ⟨entry, hentry, hnames⟩) hleft.undenied
    · exact hleft.granted.imp_right fun hsilent => (outward_silent_attached_iff howner hattached).mp hsilent.1
    · rcases hblocks with hdeny | happroval
      · exact absurd hdeny (hpolicies policy hpolicy).1
      · exact absurd happroval (hpolicies policy hpolicy).2
  · rintro ⟨hdenials, houtward, hblocking⟩
    have hundenied : ¬ DeniedByNode run.plan node call := by
      intro hnode'
      obtain ⟨entry, hentry, hnames⟩ := hdenied.mp hnode'
      have hreaches := reaches_of_namedAsWritten hname hcall (hdenials entry hentry hnames)
      have hrecorded : entry ∈ run.plan.mcpDeniedTools := deniedTools_planned hbuilt hnode hentry
      exact absurd (hhanded.undenied entry hrecorded) (by simp [hreaches])
    refine ⟨⟨hordinary, fun hserver' => ?_, hundenied, ?_⟩, fun policy hpolicy => ?_⟩
    · exact absurd hattached (by simp [hserver'.2.2])
    · exact houtward.imp_right fun hfree =>
        ⟨(outward_silent_attached_iff howner hattached).mpr hfree, callViolation_of_attached hattached hundenied⟩
    · by_contra hblocks
      have heffect : policy.effect = .deny ∨ policy.effect = .requireApproval := by
        by_contra hneither
        exact hblocks (not_or.mp hneither)
      have hone := hblocking policy hpolicy heffect
      obtain ⟨hmem, happlies⟩ := mem_filter.mp hpolicy
      have happlies := policyApplies_iff.mp happlies
      have hreaches := policyReaches_of_oneSpelling hname hcall hnode happlies hone
      have hceiling : policy ∈ (resolveMcpCeiling run).blocking := by
        obtain ⟨step, hstep, hselects⟩ := happlies.step
        rw [mem_singleton.mp hstep] at hselects
        have hplannedStep : run.plan.nodes.any (fun node => selectorMatches node.nodeId policy.nodes) = true :=
          any_eq_true.mpr ⟨node, hnode, (selectorMatches_eq _ _).trans hselects⟩
        refine mem_filter.mpr ⟨hmem, ?_⟩
        rw [Bool.and_eq_true, Bool.and_eq_true, Bool.or_eq_true, decide_eq_true_eq, decide_eq_true_eq]
        exact ⟨⟨heffect, happlies.tree⟩, hplannedStep⟩
      exact absurd (hhanded.unblocked policy hceiling) (by simp [hreaches])

end Calls

section Tracker

attribute [local instance] asciiLowerCase plainEnvironment

variable (deniedTools : List JsString) (actions : List OntologyAction)

def trackerTree : WorkflowTreeDefinition where
  id := js "desk"
  version := js "1.0.0"
  name := js "Desk"
  root :=
    { id := js "work"
      title := js "Work"
      ontology := { deniedTools := deniedTools, mcpServers := some [js "acme-tracker"], actions := actions } }

def trackerStep : EnterprisePlanNode where
  nodeId := js "work"
  title := js "Work"
  ontology := (trackerTree deniedTools actions).root.ontology

def trackerRun : EnterpriseActiveRun where
  plan :=
    { runId := js "run"
      treeId := js "desk"
      treeVersion := js "1.0.0"
      treeName := js "Desk"
      treeHash := some (js "desk")
      nodes := [trackerStep deniedTools actions]
      activeNodeId := js "work"
      mcpGoverned := true
      mcpAttachments := [js "acme-tracker"]
      mcpDeniedTools := toSorted (distinct (deniedTools ++ [])) }
  mcpServers := some [js "acme-tracker"]

def trackerRuns : ActiveRuns := fun runId =>
  if runId = js "run" then some (trackerRun deniedTools actions) else none

theorem trackerRun_planned {deniedTools : List JsString} {actions : List OntologyAction}
    (h : workflowTreeIssues (trackerTree deniedTools actions) = []) : PlannedRun (trackerRun deniedTools actions) :=
  ⟨{ runId := js "run", mode := .enforce, tree := trackerTree deniedTools actions }, js "work", h, rfl⟩

def deleteIssue : ToolCall Int where
  toolName := js "acme-tracker__delete"
  mcpTool := some ⟨js "acme-tracker", js "acme-tracker", js "delete"⟩
  mcpServers := [js "acme-tracker"]

theorem deleteIssue_call : ServerCall (trackerRun deniedTools actions) (js "acme-tracker") (js "delete") deleteIssue :=
  ⟨by decide, rfl, ⟨js "acme-tracker", mem_cons_self, js "delete", by decide⟩, rfl⟩

theorem attachedServer_admitted_deleteIssue :
    CaughtByCeiling (trackerRun [] []).plan (trackerRun [] []).policies (trackerStep [] []) deleteIssue
      (serverOwnership (js "acme-tracker") (js "delete")) :=
  (attachedServer_admitted_iff (trackerRun_planned (by decide))
    (show boundRun (trackerRuns [] []) (some (js "run")) = some (trackerRun [] []) from rfl)
    (show enterpriseRunAttachedMcpServers (trackerRuns [] []) (some (js "run")) [] none = some [js "acme-tracker"] by
      decide)
    (mem_singleton_self _) (mem_singleton_self _) (deleteIssue_call [] [])).mp
    ⟨by decide, by decide⟩

/-- An action that declares another call to the tracker. -/
def commentAction : OntologyAction where
  id := js "comment"
  effects := [.call (js "acme-tracker__add_comment")]

def HandedOverAndDenied : Prop :=
  PlannedRun (trackerRun deniedTools actions) ∧
    enterpriseRunAttachedMcpServers (trackerRuns deniedTools actions) (some (js "run")) [] none =
      some [js "acme-tracker"] ∧
    trackerStep deniedTools actions ∈ (trackerRun deniedTools actions).plan.nodes ∧
    ServerCall (trackerRun deniedTools actions) (js "acme-tracker") (js "delete") deleteIssue ∧
    (evaluateToolCallGovernance (trackerRun deniedTools actions).plan (trackerStep deniedTools actions) []
      deleteIssue).effect = .deny

/-- The tracker is handed over although the gate denies its calls: by an outward action that serves nothing else, and by
an entry that names the call once its punctuation is folded. -/
theorem tracker_handed_over_and_denied :
    HandedOverAndDenied [] [commentAction] ∧ HandedOverAndDenied [js "acme.tracker__delete"] [] :=
  ⟨⟨trackerRun_planned (by decide), by decide, mem_singleton_self _, deleteIssue_call _ _,
      by decide⟩,
    ⟨trackerRun_planned (by decide), by decide, mem_singleton_self _, deleteIssue_call _ _,
      by decide⟩⟩

end Tracker

end ClawWorks
