import ClawWorks.Enterprise.GovernanceLayers

/-!
# Denials and spellings

An MCP call has many spellings, and a deny list may use any of them. In a work-map attachments govern the gate tries
them all, each entry also with its punctuation folded; elsewhere it tries the name that arrived.
-/

namespace ClawWorks

open List

section Entries

variable [LowerCase] {entry : JsString}

/-- The texts no pattern comes from: the empty one, and the lower-case names every object inherits. -/
def BARE_NAMES : List JsString :=
  [[], js "constructor", js "__proto__"]

omit [LowerCase] in
theorem inherited_lower : ∀ method ∈ OBJECT_PROTOTYPE_METHODS,
    (∀ u ∈ method.1, u < 128) ∧ (method.1.map asciiLower = method.1 → method.1 ∈ BARE_NAMES) := by
  decide

theorem bare_of_compileEntries_nil (h : compileEntries [entry] = []) : toLowerCase (trim entry) ∈ BARE_NAMES := by
  have hempty : toLowerCase [] = [] := LowerCase.ascii [] (by simp)
  by_cases htrim : trim entry = []
  · rw [htrim, hempty]
    exact mem_cons_self
  have hnormal : normalizeLowercaseStringOrEmpty entry = toLowerCase (trim entry) := if_neg htrim
  cases hread : TOOL_NAME_ALIASES.read (toLowerCase (trim entry)) with
  | own policyId =>
    have htext : normalizeToolName entry = .text policyId := by rw [normalizeToolName, hnormal, hread]
    have hplain := (toolTables_plain.2 _ (JsMap.mem_of_get (PlainObject.read_eq_own_iff.mp hread))).1
    exact absurd (normalizeToolName_of_compileEntries_nil h htext) hplain.ne_nil
  | undefined =>
    have htext : normalizeToolName entry = .text (toLowerCase (trim entry)) := by
      rw [normalizeToolName, hnormal, hread]
    rw [normalizeToolName_of_compileEntries_nil h htext]
    exact mem_cons_self
  | inherited member =>
    unfold PlainObject.read at hread
    split at hread
    · cases hread
    split at hread
    · rename_i found hfound
      unfold inheritedMember? at hfound
      split at hfound
      · rename_i method hmethod
        obtain ⟨hascii, hlower⟩ := inherited_lower _ (JsMap.mem_of_get hmethod)
        refine hlower ?_
        rw [← LowerCase.ascii _ hascii, LowerCase.idempotent]
      · split at hfound
        · rename_i hproto
          rw [hproto]
          exact mem_cons_of_mem _ (mem_cons_of_mem _ mem_cons_self)
        · cases hfound
    · cases hread

/-! ## Folding -/

omit [LowerCase] in
theorem foldNative_folded {u : UInt16} (h : u ∈ foldNative entry) : isWordCharacter u ∨ u = STAR := by
  simpa using passes_of_mem_underscored (fun u => isWordCharacter u || u = STAR) (by decide) h

omit [LowerCase] in
theorem folded_unit {u : UInt16} (h : isWordCharacter u ∨ u = STAR) :
    u < 128 ∧ isWhiteSpace u = false ∧ asciiLower u ≠ 58 := by
  have hrange : u.toNat < 128 := by
    simp only [isWordCharacter, UNDERSCORE, STAR, Bool.or_eq_true, Bool.and_eq_true, decide_eq_true_eq,
      UInt16.le_iff_toNat_le, ← UInt16.toNat_inj] at h
    simp at h
    omega
  have hall : ∀ n < 128, (isWordCharacter (UInt16.ofNat n) ∨ UInt16.ofNat n = STAR) →
      isWhiteSpace (UInt16.ofNat n) = false ∧ asciiLower (UInt16.ofNat n) ≠ 58 := by
    decide
  have hu : UInt16.ofNat u.toNat = u := UInt16.ofNat_toNat
  refine ⟨UInt16.lt_iff_toNat_lt.mpr (by simpa using hrange), ?_⟩
  rw [← hu] at h ⊢
  exact hall u.toNat hrange h

omit [LowerCase] in
theorem trim_foldNative (entry : JsString) : trim (foldNative entry) = foldNative entry := by
  have hclean : ∀ u ∈ foldNative entry, isWhiteSpace u = false := fun u hu => (folded_unit (foldNative_folded hu)).2.1
  have hleft : (foldNative entry).dropWhile isWhiteSpace = foldNative entry := by
    rw [dropWhile_eq_self_iff]
    intro hpos
    simp [hclean _ (getElem_mem hpos)]
  rw [trim, hleft, rdropWhile_eq_self_iff]
  intro hne
  simp [hclean _ (getLast_mem hne)]

theorem toLowerCase_foldNative (entry : JsString) :
    toLowerCase (foldNative entry) = (foldNative entry).map asciiLower :=
  LowerCase.ascii _ fun _ hu => (folded_unit (foldNative_folded hu)).1

omit [LowerCase] in
theorem foldNative_ne_nil (h : entry ≠ []) : foldNative entry ≠ [] := by
  intro hempty
  have hself := underscored_eq_self _ entry (by rw [← foldNative, hempty]; simp)
  exact h (hself.symm.trans hempty)

theorem foldNative_no_group {text : JsString} (h : normalizeToolName (foldNative entry) = .text text) :
    JsMap.get TOOL_GROUPS text = none := by
  rcases normalizeToolName_text h with ⟨-, hnone⟩ | ⟨hown, -⟩
  · exact hnone
  cases hgroup : JsMap.get TOOL_GROUPS text with
  | none => rfl
  | some group =>
    have hcolon := (toolTables_plain.1 _ (JsMap.mem_of_get hgroup)).1
    rw [hown, normalizeLowercaseStringOrEmpty, trim_foldNative, toLowerCase_foldNative] at hcolon
    split at hcolon
    · cases hcolon
    · obtain ⟨u, hu, hlower⟩ := mem_map.mp hcolon
      exact absurd hlower (folded_unit (foldNative_folded hu)).2.2

theorem deniedBy_folded (h : compileEntries [foldNative entry] ≠ []) :
    deniedBy [foldNative entry] (foldNative entry) := by
  by_contra hallowed
  refine h (compileEntries_of_not_text fun text hne htext => hallowed ?_)
  exact deniedBy_self htext hne (foldNative_no_group htext)

omit [LowerCase] in
theorem proto_infix (h : (foldNative entry).map asciiLower = js "__proto__") :
    ∃ run : JsString, run.map asciiLower = js "proto" ∧ (∀ u ∈ run, u < 128 ∧ isWhiteSpace u = false) ∧
      run <:+: entry := by
  have hparts : (foldNative entry).map asciiLower = js "__" ++ (js "proto" ++ js "__") := by rw [h]; decide
  obtain ⟨head, rest, hfold, -, hrest⟩ := map_eq_append_iff.mp hparts
  obtain ⟨run, tail, hrun, hproto, -⟩ := map_eq_append_iff.mp hrest
  have hmem : ∀ u ∈ run, u ∈ foldNative entry := by
    intro u hu
    rw [hfold, hrun]
    exact mem_append_right _ (mem_append_left _ hu)
  refine ⟨run, hproto, fun u hu => ?_, ?_⟩
  · obtain ⟨hascii, hwhite, -⟩ := folded_unit (foldNative_folded (hmem u hu))
    exact ⟨hascii, hwhite⟩
  · refine infix_of_underscored (fun u => isWordCharacter u || u = STAR) entry (fun hunderscore => ?_) ?_
    · have hin : asciiLower UNDERSCORE ∈ js "proto" := hproto ▸ mem_map_of_mem hunderscore
      exact absurd hin (by decide)
    · rw [← foldNative, hfold, hrun]
      exact ⟨head, tail, by simp⟩

theorem compileEntries_folded_of_group {text : JsString} {group : List JsString}
    (h : normalizeToolName entry = .text text) (hne : text ≠ []) (hgroup : JsMap.get TOOL_GROUPS text = some group) :
    compileEntries [foldNative entry] ≠ [] := by
  intro hfolded
  have hbare := bare_of_compileEntries_nil hfolded
  rw [trim_foldNative, toLowerCase_foldNative] at hbare
  simp only [BARE_NAMES, mem_cons, not_mem_nil, or_false] at hbare
  rcases hbare with hempty | hconstructor | hproto
  · refine foldNative_ne_nil (fun hentry => hne ?_) (map_eq_nil_iff.mp hempty)
    subst hentry
    injection h with h
    exact h.symm
  · have hself : foldNative entry = entry := by
      refine underscored_eq_self _ entry fun hunderscore => ?_
      have hin : asciiLower UNDERSCORE ∈ js "constructor" := hconstructor ▸ mem_map_of_mem hunderscore
      exact absurd hin (by decide)
    rw [hself] at hfolded
    exact compileEntries_group h hne hgroup hfolded
  · obtain ⟨run, hrun, hunits, hinfix⟩ := proto_infix hproto
    have hrunne : run ≠ [] := by
      rintro rfl
      exact absurd hrun (by decide)
    obtain ⟨before, after, htrim⟩ := infix_trim hrunne (fun u hu => (hunits u hu).2) hinfix
    have hlower := LowerCase.run before run after fun u hu => (hunits u hu).1
    rw [htrim, hrun] at hlower
    refine (toolTables_plain.1 _ (JsMap.mem_of_get hgroup)).2.1 ?_
    rcases normalizeToolName_text h with ⟨-, hnone⟩ | ⟨hown, -⟩
    · cases hgroup.symm.trans hnone
    · rw [hown, normalizeLowercase_of_ne_nil (hown ▸ hne)]
      exact hlower

theorem deniedBy_self_or_folded (h : compileEntries [entry] ≠ [] ∨ compileEntries [foldNative entry] ≠ []) :
    deniedBy [entry] entry ∨ deniedBy [foldNative entry] (foldNative entry) := by
  by_cases hfolded : compileEntries [foldNative entry] = []
  · left
    by_contra hallowed
    refine (h.resolve_right (not_not_intro hfolded)) (compileEntries_of_not_text fun text hne htext => hallowed ?_)
    cases hgroup : JsMap.get TOOL_GROUPS text with
    | none => exact deniedBy_self htext hne hgroup
    | some group => exact absurd hfolded (compileEntries_folded_of_group htext hne hgroup)
  · exact .inr (deniedBy_folded hfolded)

variable {callableNamespace : JsString}

omit [LowerCase] in
theorem hashedToolPart_of_short (h : entry.length < COLLISION_HASH_LENGTH) :
    hashedToolPart entry callableNamespace = none := by
  unfold hashedToolPart
  split
  · rfl
  · rename_i rest hrest
    have hentry := append_eq_of_isPrefixOf?_eq_some hrest
    have hlength : ((rest.dropWhile (· = UNDERSCORE)).take COLLISION_HASH_LENGTH).length ≠ COLLISION_HASH_LENGTH := by
      have hdrop := (dropWhile_suffix (l := rest) (· = UNDERSCORE)).length_le
      have htotal := congrArg length hentry
      rw [length_append] at htotal
      rw [length_take]
      omega
    exact if_neg fun hhash => hlength hhash.2.1

omit [LowerCase] in
theorem bareNames_shape : ∀ name ∈ BARE_NAMES, name.length < COLLISION_HASH_LENGTH ∧ STAR ∉ name ∧
    ∀ i < 12, 0 < i → i + 2 < name.length → (name.drop i).take 2 ≠ js "__" := by
  decide

omit [LowerCase] in
theorem plainToolPart_of_bare (h : entry ∈ BARE_NAMES) (hne : callableNamespace ≠ []) :
    plainToolPart entry callableNamespace = none := by
  unfold plainToolPart
  split
  · rename_i tool htool
    by_cases htruthy : Truthy tool
    · have hentry := append_eq_of_isPrefixOf?_eq_some htool
      have hnamespace := length_pos_iff.mpr hne
      have htoolpos := length_pos_iff.mpr htruthy
      have hlength := congrArg length hentry
      rw [length_append, length_append, show (js "__").length = 2 from rfl] at hlength
      obtain ⟨hbound, -, hdelimiter⟩ := bareNames_shape entry h
      simp only [COLLISION_HASH_LENGTH] at hbound
      refine absurd ?_ (hdelimiter callableNamespace.length (by omega) hnamespace (by omega))
      rw [← hentry, append_assoc, drop_left]
      rfl
    · exact if_neg htruthy
  · rfl

theorem rewrittenNameReachesCall_of_bare {namespaces : List JsString} (h : compileEntries [entry] = [])
    (hnamespaces : ∀ callableNamespace ∈ namespaces, callableNamespace ≠ []) (toolParts : List JsString) :
    rewrittenNameReachesCall entry namespaces toolParts = false := by
  have hbare := bare_of_compileEntries_nil h
  obtain ⟨hshort, hstar, -⟩ := bareNames_shape _ hbare
  have hpart : mcpDenialToolPart (toLowerCase (trim entry)) namespaces = none := by
    have hhashed : namespaces.findSome? (hashedToolPart (toLowerCase (trim entry))) = none :=
      findSome?_eq_none_iff.mpr fun _ _ => hashedToolPart_of_short hshort
    have hplain : namespaces.findSome? (plainToolPart (toLowerCase (trim entry))) = none :=
      findSome?_eq_none_iff.mpr fun name hname => plainToolPart_of_bare hbare (hnamespaces name hname)
    rw [mcpDenialToolPart, hhashed, hplain]
    rfl
  simp only [rewrittenNameReachesCall, hpart, hstar, decide_false, Bool.false_and, Bool.or_false]

end Entries

section Calls

variable {ν : Type} [LowerCase] {plan : EnterpriseRunPlan} {node : EnterprisePlanNode} {call : ToolCall ν}

/-! ## What a spelling in the deny list does -/

variable {owner : McpOwnership}

omit [LowerCase] in
theorem ordinary_of_owned [LowerCase] (howner : callOwnership call = some owner) : isControlCall call = false := by
  unfold callOwnership mcpServerOwningTool at howner
  split at howner
  · cases howner
  · rename_i stamped hstamped
    simp [isControlCall, isWorkflowControlTool, hstamped]

theorem outward_silent (h : outwardActionsOnPath [node] = []) : callOutward plan node call = .silent := by
  simp [callOutward, outwardActionDecision, h, outwardTargetsServer]

/-- The spelling denies the call, whatever tree, step and policies it is listed under. -/
def SpellingDenies (governed : Bool) (call : ToolCall ν) (spelling : JsString) : Prop :=
  ∀ plan : EnterpriseRunPlan, plan.mcpGoverned = governed → ∀ node ∈ plan.nodes, ∀ policies,
    spelling ∈ node.ontology.deniedTools → (evaluateToolCallGovernance plan node policies call).effect = .deny

def denyingStep (spelling server : JsString) : EnterprisePlanNode where
  nodeId := js "step"
  ontology := { deniedTools := [spelling], mcpServers := some [server] }

def denyingPlan (governed : Bool) (spelling server : JsString) : EnterpriseRunPlan where
  runId := js "run"
  treeId := js "tree"
  nodes := [denyingStep spelling server]
  activeNodeId := js "step"
  mcpGoverned := governed

theorem denyingPlan_deny_iff {governed : Bool} {spelling : JsString} (howner : callOwnership call = some owner) :
    (evaluateToolCallGovernance (denyingPlan governed spelling owner.name) (denyingStep spelling owner.name) []
        call).effect = .deny ↔
      DeniedByNode (denyingPlan governed spelling owner.name) (denyingStep spelling owner.name) call := by
  have hattached : ¬ UnattachedServer (denyingPlan governed spelling owner.name) (denyingStep spelling owner.name)
      call := by
    rintro ⟨-, hgoverned, hfree⟩
    simp [mcpAttached, howner, hgoverned, attachesMcpServer, denyingStep] at hfree
  rw [evaluate_deny_iff (ordinary_of_owned howner), outward_silent rfl]
  simp [hattached, matchingPolicies]

theorem codexHookNamespaces_ne_nil {names : List JsString} {callableNamespace : JsString}
    (h : callableNamespace ∈ codexHookNamespaces names) : callableNamespace ≠ [] := by
  rw [codexHookNamespaces, mem_eraseDups] at h
  exact of_decide_eq_true (mem_filter.mp h).2

theorem not_entryNames_of_bare {entry : JsString} (h : compileEntries [entry] = [])
    (hfolded : compileEntries [foldNative entry] = []) : ¬ EntryNames call owner entry := by
  rintro (⟨identity, -, hdenied | hdenied⟩ | hrewritten)
  · rw [deniedBy_of_compileEntries_nil h] at hdenied
    cases hdenied
  · rw [deniedBy_of_compileEntries_nil hfolded] at hdenied
    cases hdenied
  · have hfree := rewrittenNameReachesCall_of_bare h
      (fun name (hname : name ∈ codexHookNamespaces owner.namespaces) => codexHookNamespaces_ne_nil hname)
      (callIdentity call (some owner)).toolParts
    cases hfree.symm.trans hrewritten

/-- **When a spelling in a deny list is sure to deny.** -/
theorem spellingDenies_iff {governed : Bool} {owner : McpOwnership} {spelling : JsString}
    (howner : callOwnership call = some owner)
    (hspelling : spelling ∈ mcpToolAliases call.toolName (some owner) true) :
    SpellingDenies governed call spelling ↔
      if governed then compileEntries [spelling] ≠ [] ∨ compileEntries [foldNative spelling] ≠ []
      else deniedBy [spelling] call.toolName = true := by
  constructor
  · intro hdenies
    have hdenied := (denyingPlan_deny_iff howner).mp
      (hdenies (denyingPlan governed spelling owner.name) rfl _ (mem_singleton_self _) []
        (mem_singleton_self _))
    cases governed with
    | true =>
      have hattached : mcpAttached (denyingPlan true spelling owner.name) (denyingStep spelling owner.name) call =
        true := by
        simp [mcpAttached, howner, attachesMcpServer, denyingStep, denyingPlan]
      obtain ⟨entry, hentry, hnames⟩ := (deniedByNode_attached_iff howner hattached).mp hdenied
      rw [mem_singleton.mp hentry] at hnames
      by_contra hbare
      rw [if_pos rfl, not_or, not_not, not_not] at hbare
      exact not_entryNames_of_bare hbare.1 hbare.2 hnames
    | false =>
      have hfree : mcpAttached (denyingPlan false spelling owner.name) (denyingStep spelling owner.name) call =
        false := by
        simp [mcpAttached, howner, denyingPlan]
      exact (deniedByNode_unattached_iff hfree).mp hdenied
  · rintro hentry plan rfl node - policies hlisted
    refine (evaluate_deny_iff (ordinary_of_owned howner)).mpr ?_
    cases hattached : mcpAttached plan node call with
    | true =>
      have hgoverned : plan.mcpGoverned = true := by
        simp only [mcpAttached, howner, Option.any_some, Bool.and_eq_true] at hattached
        exact hattached.1
      rw [if_pos hgoverned] at hentry
      refine Or.inr (Or.inl ((deniedByNode_attached_iff howner hattached).mpr ⟨spelling, hlisted, Or.inl ?_⟩))
      exact ⟨spelling, hspelling, deniedBy_self_or_folded hentry⟩
    | false =>
      by_cases hgoverned : plan.mcpGoverned = true
      · exact Or.inl ⟨by rw [howner]; rfl, hgoverned, hattached⟩
      · rw [if_neg hgoverned] at hentry
        exact Or.inr (Or.inl ((deniedByNode_unattached_iff hattached).mpr (deniedBy_iff.mpr
          ⟨spelling, hlisted, hentry⟩)))

end Calls

section Github

attribute [local instance] asciiLowerCase

/-- A tool of a registered server, under the name a Claude-style harness gives it. -/
def deleteRepository : ToolCall Int where
  toolName := js "mcp__github__delete"
  mcpTool := some ⟨js "github", js "github", js "delete"⟩
  mcpServers := [js "github"]

theorem spellingDenies_deleteRepository : SpellingDenies true deleteRepository (js "github__delete") :=
  (spellingDenies_iff
    (show callOwnership deleteRepository = some ⟨js "github", [js "github"], js "delete"⟩ from rfl)
    (by decide)).mpr (Or.inl (by decide))

/-- In a work-map without attachments, the other spelling of the call denies nothing. -/
theorem deleteRepository_escapes :
    js "github__delete" ∈ mcpToolAliases deleteRepository.toolName (callOwnership deleteRepository) true ∧
      ¬ SpellingDenies false deleteRepository (js "github__delete") := by
  refine ⟨by decide, fun hdenies => ?_⟩
  have hdeny := hdenies (denyingPlan false (js "github__delete") (js "github")) rfl _ (mem_singleton_self _) []
    (mem_singleton_self _)
  exact absurd hdeny (by decide)

end Github

end ClawWorks
