import ClawWorks.Exec.SystemRunCommand

/-!
# What an approval preview shows

A preview stands for the whole command when the shell gets nothing besides it and no wrapper changes the environment.
-/

namespace ClawWorks.Exec

open Option Peel

section

variable [LowerCase]

/-- What is expected of the preview of a vector. -/
def PreviewShowsCommand (platform : Platform) (argv : Argv) (rawCommand : Option JsString)
    (allowLegacyShellText : Bool) : Prop :=
  ∀ display previewText,
    validateSystemRunCommandConsistency platform argv rawCommand allowLegacyShellText = .ok display →
    display.previewText = some previewText →
      ∃ layers shell wrapper payload, resolveShellWrapperTransportArgv platform argv = some shell ∧
        Peels (wrapperUnwrap platform) layers argv shell ∧
        findShellWrapperSpec (normalizeExecutableToken (trimmedAt shell 0)) = some wrapper ∧
        extractShellWrapperPayload shell wrapper = some payload ∧ trim payload = previewText ∧
        (∀ argument ∈ argumentsAfterInlineCommand shell, hasText argument = false) ∧
        ∀ layer ∈ layers, layer.wrapper = ENV → envInvocationUsesModifiers layer.outer = false

/-- A wrapper that writes a file stands before a shell whose command can be shown, and the shell gets arguments. -/
def HidesArguments (platform : Platform) (argv : Argv) : Prop :=
  ∃ layers shell, Peels (wrapperUnwrap platform) layers argv shell ∧ layers.length ≤ MAX_DISPATCH_WRAPPER_DEPTH ∧
    (∃ layer ∈ layers, layer.wrapper = TIME ∧ timeInvocationWritesOutputFile layer.outer = true ∨
      layer.wrapper = SCRIPT) ∧
    (∀ layer ∈ layers, layer.wrapper = ENV → envInvocationUsesModifiers layer.outer = false) ∧
    (∃ argument ∈ argumentsAfterInlineCommand shell, hasText argument = true) ∧
    ∃ rawCommand, (extractShellWrapperCommand platform shell rawCommand).command ≠ none

/-! ## Layers -/

variable {platform : Platform} {argv shell : Argv} {layers : List (Layer JsString Argv)} {wrapper : ShellWrapperSpec}
  {payload command : JsString} {rawCommand : Option JsString}

variable {layer : Layer JsString Argv}

theorem layer_kind (h : Reaches (wrapperUnwrap platform) layers argv shell) (hlayer : layer ∈ layers) :
    (∃ inner, unwrapKnownDispatchWrapperInvocation platform layer.outer = .unwrapped layer.wrapper inner) ∨
      unwrapKnownDispatchWrapperInvocation platform layer.outer = .notWrapper ∧
        layer.wrapper ∉ DISPATCH_WRAPPER_SPECS.map (·.name) := by
  obtain ⟨inner, hinner⟩ := h.layer_unwrapped layer hlayer
  rcases orElse_eq_unwrapped_iff.mp hinner with hdispatch | ⟨hnone, hmultiplexer⟩
  · exact .inl ⟨inner, hdispatch⟩
  · exact .inr ⟨hnone, wrapperNames_disjoint.2 _ (multiplexerUnwrap_suffix hmultiplexer).2.2.1⟩

theorem env_mem_names : ENV ∈ DISPATCH_WRAPPER_SPECS.map (·.name) := List.mem_of_getElem? (i := 4) rfl

theorem time_mem_names : TIME ∈ DISPATCH_WRAPPER_SPECS.map (·.name) := List.mem_of_getElem? (i := 15) rfl

theorem script_mem_names : SCRIPT ∈ DISPATCH_WRAPPER_SPECS.map (·.name) := List.mem_of_getElem? (i := 10) rfl

theorem layer_env (h : Reaches (wrapperUnwrap platform) layers argv shell)
    (hlayer : layer ∈ layers) : hasDispatchEnvManipulation platform layer.outer = false ↔
      (layer.wrapper = ENV → envInvocationUsesModifiers layer.outer = false) := by
  rcases layer_kind h hlayer with ⟨inner, hdispatch⟩ | ⟨hnone, hname⟩
  · by_cases henv : layer.wrapper = ENV <;> simp [hasDispatchEnvManipulation, hdispatch, henv]
  · have hother : layer.wrapper ≠ ENV := fun henv => hname (henv ▸ env_mem_names)
    simp [hasDispatchEnvManipulation, hnone, hother]

theorem semanticLayer_iff (h : Reaches (wrapperUnwrap platform) layers argv shell)
    (hlayer : layer ∈ layers) (henv : layer.wrapper = ENV → envInvocationUsesModifiers layer.outer = false) :
    isSemanticLayer platform layer ↔
      layer.wrapper = TIME ∧ timeInvocationWritesOutputFile layer.outer ∨ layer.wrapper = SCRIPT := by
  rcases layer_kind h hlayer with ⟨inner, hdispatch⟩ | ⟨hnone, hname⟩
  · constructor
    · rintro ⟨-, hsemantic⟩
      rcases semantic_cases hdispatch hsemantic with ⟨hwrapper, hmodifiers⟩ | hfile
      · cases (henv hwrapper).symm.trans hmodifiers
      · exact hfile
    · intro hfile
      refine ⟨by rw [hdispatch]; exact nofun, ?_⟩
      rcases hfile with ⟨htime, hwrites⟩ | hscript
      · rw [htime]
        exact semantic_time platform hwrites
      · rw [hscript]
        exact semantic_script _ platform
  · refine iff_of_false (fun hsemantic => hsemantic.1 hnone) ?_
    rintro (⟨htime, -⟩ | hscript)
    · exact hname (htime ▸ time_mem_names)
    · exact hname (hscript ▸ script_mem_names)

theorem carriedState_env (state : Bool) :
    carriedState platform (fun state wrappedArgv => state || hasDispatchEnvManipulation platform wrappedArgv) layers
      state = false ↔ state = false ∧ ∀ layer ∈ layers, hasDispatchEnvManipulation platform layer.outer = false := by
  induction layers generalizing state with
  | nil => simp [carriedState]
  | cons layer layers ih =>
    rw [carriedState, ih, List.forall_mem_cons]
    split
    · rename_i hnone
      simp [hasDispatchEnvManipulation, hnone]
    · rw [Bool.or_eq_false_iff, and_assoc]

omit [LowerCase] in
theorem truthy_trim {s p : JsString} (h : truthy? (some (trim s)) = some p) : trim p = p ∧ p ≠ [] := by
  have hp := truthy?_eq_some h
  cases hp
  refine ⟨trim_trim s, fun hnil => ?_⟩
  rw [hnil] at h
  cases h

theorem inlineCommand_trimmed (argv : Argv) (flags : List JsString) (options : InlineCommandOptions) (rest : Argv)
    (i passed : Nat) (h : (resolveInlineCommandMatchFrom argv flags options rest i passed).command = some payload) :
    trim payload = payload ∧ payload ≠ [] := by
  fun_induction resolveInlineCommandMatchFrom argv flags options rest i passed with
  | case1 | case4 | case10 | case11 => cases h
  | case5 | case6 | case7 | case8 => exact truthy_trim h
  | case2 | case3 | case9 | case12 => rename_i ih; exact ih h

theorem payload_trimmed (h : extractShellWrapperPayload shell wrapper = some payload) :
    trim payload = payload ∧ payload ≠ [] := by
  unfold extractShellWrapperPayload at h
  split at h
  · exact inlineCommand_trimmed _ _ _ _ _ _ h
  · unfold extractCmdInlineCommand at h
    split at h
    · cases h
    · split at h
      · cases h
      · exact truthy_trim h
  · exact inlineCommand_trimmed _ _ _ _ _ _ h

/-! ## Extraction -/

def bindsLegacyText (shell : Argv) (payload : JsString) (raw : Option JsString) : Bool :=
  isLegacyShLoginInlineForm shell (normalizeExecutableToken (trimmedAt shell 0)) &&
    (raw == some payload || raw == some (formatShellWrapperArgv shell))

def runsMore (shell : Argv) (wrapper : ShellWrapperSpec) (binds : Bool) : Bool :=
  (wrapper.kind = .posix && normalizeExecutableToken (trimmedAt shell 0) == js "fish" &&
    hasFishAttachedCommandOption shell) ||
  startupWrapperRequiresFullArgv shell wrapper (normalizeExecutableToken (trimmedAt shell 0)) !binds

theorem bindsLegacyText_none (shell : Argv) (payload : JsString) :
    bindsLegacyText shell payload (normalizeRawCommand none) = false := by
  simp [bindsLegacyText, normalizeRawCommand, truthy?]

theorem binds_of_runsLess {binds : Bool} (hmore : runsMore shell wrapper false)
    (hless : ¬ runsMore shell wrapper binds) : binds := by
  by_contra hbinds
  rw [Bool.eq_false_iff.mpr hbinds] at hless
  exact hless hmore

structure ShellBehind (platform : Platform) (argv : Argv) (layers : List (Layer JsString Argv)) (shell : Argv)
    (wrapper : ShellWrapperSpec) (payload : JsString) : Prop where
  peels : Peels (wrapperUnwrap platform) layers argv shell
  length_le : layers.length ≤ MAX_DISPATCH_WRAPPER_DEPTH
  token_ne : trimmedAt shell 0 ≠ []
  spec : findShellWrapperSpec (normalizeExecutableToken (trimmedAt shell 0)) = some wrapper
  payload : extractShellWrapperPayload shell wrapper = some payload

theorem extract_of_shell (h : ShellBehind platform argv layers shell wrapper payload) :
    extractShellWrapperCommand platform shell rawCommand =
      ⟨true, if runsMore shell wrapper (bindsLegacyText shell payload (normalizeRawCommand rawCommand)) then none
        else some (if normalizeRawCommand rawCommand == some (formatShellWrapperArgv shell) then payload
          else (normalizeRawCommand rawCommand).getD payload)⟩ := by
  have hcandidate := candidate_of_peels (.of_notWrapper h.peels.ends) (Nat.zero_le _)
  rw [if_neg h.token_ne] at hcandidate
  have hshell : shellWrapperOf (⟨shell, trimmedAt shell 0, ()⟩ : ShellWrapperCandidate Unit) =
      some ⟨shell, wrapper, payload⟩ := by
    simp only [shellWrapperOf, h.spec, h.payload, map_some]
  have hresolved : resolveShellWrapperSpecAndArgvInternal platform shell 0 = some ⟨shell, wrapper, payload⟩ := by
    rw [resolveShellWrapperSpecAndArgvInternal, hcandidate, bind_some, hshell]
  simp only [extractShellWrapperCommand, extractShellWrapperCommandInternal, hcandidate, hshell, hresolved]
  generalize normalizeRawCommand rawCommand = raw
  unfold runsMore bindsLegacyText
  split
  · rename_i hfish
    simp only [hfish, Bool.true_or, if_true]
  · rename_i hfish
    simp only [Bool.eq_false_iff.mpr hfish, Bool.false_or]
    split <;> rfl

theorem shell_of_extracted (h : (extractShellWrapperCommand platform argv rawCommand).command = some command) :
    ∃ layers shell wrapper payload, ShellBehind platform argv layers shell wrapper payload := by
  cases hcandidate : resolveStatelessCandidate platform argv 0 with
  | none =>
    simp only [extractShellWrapperCommand, extractShellWrapperCommandInternal, hcandidate] at h
    cases h
  | some candidate =>
    obtain ⟨layers, hpeels, hlength, htoken, hne, -⟩ := peels_of_candidateWithin hcandidate
    rw [htoken] at hne
    cases hshell : shellWrapperOf candidate with
    | none =>
      simp only [extractShellWrapperCommand, extractShellWrapperCommandInternal, hcandidate, hshell] at h
      cases h
    | some resolution =>
      unfold shellWrapperOf at hshell
      rw [htoken] at hshell
      split at hshell
      · cases hshell
      · rename_i wrapper hwrapper
        obtain ⟨payload, hpayload, -⟩ := map_eq_some_iff.mp hshell
        exact ⟨layers, candidate.argv, wrapper, payload, hpeels, Nat.le_of_lt_succ hlength, hne, hwrapper, hpayload⟩

/-! ## The display -/

omit [LowerCase] in
theorem normalizeRawCommand_trimmed {text : JsString} (h : trim text = text) (hne : text ≠ []) :
    normalizeRawCommand (some text) = some text := by
  rw [normalizeRawCommand, map_some, h]
  exact truthy?_some hne

omit [LowerCase] in
theorem normalizeRawCommandText_normal (rawCommand : Option JsString) :
    normalizeRawCommand (normalizeRawCommandText rawCommand) = normalizeRawCommandText rawCommand := by
  cases hraw : normalizeRawCommandText rawCommand with
  | none => rfl
  | some text =>
    obtain ⟨raw, rfl, -⟩ : ∃ raw, rawCommand = some raw ∧ True := by
      cases rawCommand with
      | none => cases hraw
      | some raw => exact ⟨raw, rfl, trivial⟩
    obtain ⟨htrim, hne⟩ := truthy_trim hraw
    exact normalizeRawCommand_trimmed htrim hne

def displayResolution (platform : Platform) (argv : Argv) (raw : Option JsString) : ShellWrapperCommand :=
  if (extractShellWrapperCommand platform argv none).command.isNone && raw.isSome then
    extractShellWrapperCommand platform argv raw
  else extractShellWrapperCommand platform argv none

theorem display_command {raw : Option JsString} (hraw : normalizeRawCommand raw = raw)
    (hshell : ShellBehind platform argv layers shell wrapper payload)
    (h : (displayResolution platform argv raw).command = some command) :
    command = payload ∧ (displayResolution platform argv raw).isWrapper := by
  unfold displayResolution at h ⊢
  rw [extract_of_peels hshell.peels hshell.length_le, extract_of_peels hshell.peels hshell.length_le,
    extract_of_shell hshell, extract_of_shell hshell, hraw, bindsLegacyText_none] at h ⊢
  have hrawless : (normalizeRawCommand none).getD payload = payload := rfl
  simp only [hrawless, ite_self] at h ⊢
  by_cases hmore : runsMore shell wrapper false
  · simp only [if_pos hmore, isNone_none, Bool.true_and] at h ⊢
    cases raw with
    | none => cases h
    | some text =>
      simp only [isSome_some, if_true] at h ⊢
      refine ⟨?_, trivial⟩
      by_cases hless : runsMore shell wrapper (bindsLegacyText shell payload (some text))
      · rw [if_pos hless] at h
        cases h
      · have hbinds : bindsLegacyText shell payload (some text) := binds_of_runsLess hmore hless
        rw [if_neg hless] at h
        cases h
        rcases Bool.or_eq_true_iff.mp (Bool.and_eq_true_iff.mp hbinds).2 with hsame | hcanonical
        · rw [some.inj (eq_of_beq hsame), getD_some, ite_self]
        · rw [if_pos hcanonical]
  · simp only [if_neg hmore, isNone_some, Bool.false_and, Bool.false_eq_true, if_false] at h ⊢
    exact ⟨(some.inj h).symm, trivial⟩

theorem extract_payload (h : ShellBehind platform argv layers shell wrapper payload)
    (hbinds : (extractShellWrapperCommand platform shell rawCommand).command ≠ none) :
    (extractShellWrapperCommand platform shell none).command = some payload ∨
      (extractShellWrapperCommand platform shell none).command = none ∧
        (extractShellWrapperCommand platform shell (some payload)).command = some payload := by
  obtain ⟨htrim, hne⟩ := payload_trimmed h.payload
  have hnormal := normalizeRawCommand_trimmed htrim hne
  rw [extract_of_shell h] at hbinds
  rw [extract_of_shell h, extract_of_shell h, hnormal, bindsLegacyText_none]
  by_cases hmore : runsMore shell wrapper false
  · refine .inr ⟨if_pos hmore, ?_⟩
    have hless : ¬ runsMore shell wrapper (bindsLegacyText shell payload (normalizeRawCommand rawCommand)) :=
      fun hmore => hbinds (if_pos hmore)
    have hlegacy : bindsLegacyText shell payload (normalizeRawCommand rawCommand) := binds_of_runsLess hmore hless
    have hpayloadBinds : bindsLegacyText shell payload (some payload) :=
      Bool.and_eq_true_iff.mpr ⟨(Bool.and_eq_true_iff.mp hlegacy).1, by simp⟩
    rw [hlegacy] at hless
    rw [hpayloadBinds]
    simp only [if_neg hless, getD_some, ite_self]
  · refine .inl ?_
    simp only [if_neg hmore]
    rfl

theorem display_preview (platform : Platform) (argv : Argv) (raw : Option JsString) :
    (buildSystemRunCommandDisplay platform argv raw).previewText =
      if !((displayResolution platform argv raw).isWrapper && hasEnvManipulationBeforeShellWrapper platform argv) &&
          !hasTrailingPositionalArgvAfterInlineCommand platform argv then
        (displayResolution platform argv raw).command.map trim
      else none :=
  rfl

theorem display_of_validated {allowLegacyShellText : Bool} {display : SystemRunCommandDisplay}
    (h : validateSystemRunCommandConsistency platform argv rawCommand allowLegacyShellText = .ok display) :
    display = buildSystemRunCommandDisplay platform argv (normalizeRawCommandText rawCommand) := by
  unfold validateSystemRunCommandConsistency at h
  dsimp only at h
  split at h
  · exact (SystemRunCommandValidation.ok.inj h).symm
  · split at h
    · cases h
    · exact (SystemRunCommandValidation.ok.inj h).symm

section

variable (h : ShellBehind platform argv layers shell wrapper payload)

include h

/-- **The environment is left alone exactly when no `env` among the layers uses modifiers.** -/
theorem hasEnvManipulation_eq_false_iff : hasEnvManipulationBeforeShellWrapper platform argv = false ↔
      ∀ layer ∈ layers, layer.wrapper = ENV → envInvocationUsesModifiers layer.outer = false := by
  have hlevels : layers.length < MAX_DISPATCH_WRAPPER_DEPTH + 1 - 0 := Nat.lt_succ_of_le h.length_le
  unfold hasEnvManipulationBeforeShellWrapper resolveShellWrapperCandidate
  rw [candidateWithin_of_peels false h.peels hlevels h.token_ne]
  simp only [shellWrapperOf, h.spec, h.payload, map_some, isSome_some, Bool.true_and]
  rw [carriedState_env]
  simp only [true_and]
  exact forall₂_congr fun layer hlayer => layer_env h.peels.reaches hlayer

theorem hasTrailing_eq_false_iff
    (henv : ∀ layer ∈ layers, layer.wrapper = ENV → envInvocationUsesModifiers layer.outer = false) :
    hasTrailingPositionalArgvAfterInlineCommand platform argv = false ↔
      (∃ layer ∈ layers, layer.wrapper = TIME ∧ timeInvocationWritesOutputFile layer.outer ∨ layer.wrapper = SCRIPT) ∨
      ∀ argument ∈ argumentsAfterInlineCommand shell, hasText argument = false := by
  have hsemantic : (∃ layer ∈ layers, isSemanticLayer platform layer) ↔ ∃ layer ∈ layers,
      layer.wrapper = TIME ∧ timeInvocationWritesOutputFile layer.outer ∨ layer.wrapper = SCRIPT :=
    exists_congr fun layer => and_congr_right fun hlayer => semanticLayer_iff h.peels.reaches hlayer (henv layer hlayer)
  rw [← hsemantic, ← dispatchPlan_blocked_iff h.peels h.length_le]
  by_cases hblocked : (resolveDispatchWrapperTrustPlan argv MAX_DISPATCH_WRAPPER_DEPTH platform).policyBlocked
  · exact iff_of_true (hasTrailing_of_blocked hblocked) (.inl hblocked)
  · have hshell : isShellWrapperExecutable (trimmedAt shell 0) := by
      rw [← findShellWrapperSpec_isSome, h.spec, isSome_some]
    rw [hasTrailingPositionalArgvAfterInlineCommand,
      (shellWrapperArgv_of_unblocked h.peels (Bool.eq_false_iff.mpr hblocked)).1, hasTrailing_shell hshell h.token_ne,
      List.any_eq_false]
    simp only [hblocked, false_or, Bool.eq_false_iff, ne_eq, Bool.false_eq_true]

theorem exists_display_payload (hcommand : (extractShellWrapperCommand platform shell rawCommand).command ≠ none)
    (henv : hasEnvManipulationBeforeShellWrapper platform argv = false)
    (htrailing : hasTrailingPositionalArgvAfterInlineCommand platform argv = false) :
    ∃ raw allowLegacyShellText,
      (displayResolution platform argv (normalizeRawCommandText raw)).command = some payload ∧
        validateSystemRunCommandConsistency platform argv raw allowLegacyShellText =
          .ok (buildSystemRunCommandDisplay platform argv (normalizeRawCommandText raw)) := by
  obtain ⟨htrim, hne⟩ := payload_trimmed h.payload
  rcases extract_payload h hcommand with hrawless | ⟨hrawless, hlegacy⟩
  · rw [← extract_of_peels h.peels h.length_le] at hrawless
    refine ⟨none, false, ?_, rfl⟩
    have hnone : normalizeRawCommandText none = none := rfl
    rw [hnone, displayResolution, hrawless]
    simp [hrawless]
  · rw [← extract_of_peels h.peels h.length_le] at hrawless hlegacy
    have hnormal : normalizeRawCommandText (some payload) = some payload := normalizeRawCommand_trimmed htrim hne
    have hdisplay : (displayResolution platform argv (some payload)).command = some payload := by
      rw [displayResolution, hrawless]
      exact hlegacy
    refine ⟨some payload, true, by rw [hnormal]; exact hdisplay, ?_⟩
    have hpreview : (buildSystemRunCommandDisplay platform argv (some payload)).previewText = some payload := by
      rw [display_preview, henv, htrailing, hdisplay, Bool.and_false, map_some, htrim]
      rfl
    unfold validateSystemRunCommandConsistency
    simp [hnormal, hpreview]

end

theorem preview_cases {raw : Option JsString} {previewText : JsString} (hraw : normalizeRawCommand raw = raw)
    (h : (buildSystemRunCommandDisplay platform argv raw).previewText = some previewText) :
    ∃ layers shell wrapper command, ShellBehind platform argv layers shell wrapper command ∧
      trim command = previewText ∧ (∃ text, (extractShellWrapperCommand platform argv text).command = some command) ∧
      hasEnvManipulationBeforeShellWrapper platform argv = false ∧
      hasTrailingPositionalArgvAfterInlineCommand platform argv = false := by
  rw [display_preview] at h
  split at h
  · rename_i hshown
    obtain ⟨command, hcommand, rfl⟩ := map_eq_some_iff.mp h
    obtain ⟨text, hextracted⟩ : ∃ text, (extractShellWrapperCommand platform argv text).command = some command := by
      unfold displayResolution at hcommand
      split at hcommand
      · exact ⟨_, hcommand⟩
      · exact ⟨_, hcommand⟩
    obtain ⟨layers, shell, wrapper, payload, hshell⟩ := shell_of_extracted hextracted
    obtain ⟨rfl, hwrapper⟩ := display_command hraw hshell hcommand
    rw [hwrapper, Bool.true_and, Bool.and_eq_true, Bool.not_eq_true', Bool.not_eq_true'] at hshown
    exact ⟨layers, shell, wrapper, command, hshell, rfl, ⟨text, hextracted⟩, hshown.1, hshown.2⟩
  · cases h

/-- **A preview shows the whole command exactly when no wrapper that writes a file hides arguments.** -/
theorem previews_iff (platform : Platform) (argv : Argv) :
    (∀ rawCommand allowLegacyShellText, PreviewShowsCommand platform argv rawCommand allowLegacyShellText) ↔
      ¬ HidesArguments platform argv := by
  constructor
  · rintro h ⟨layers, shell, hpeels, hlength, hfile, henv, ⟨argument, hargument, htext⟩, rawCommand, hcommand⟩
    obtain ⟨command, hcommand'⟩ := ne_none_iff_exists'.mp hcommand
    obtain ⟨inner, shell', wrapper, payload, hinner⟩ := shell_of_extracted hcommand'
    obtain ⟨rfl, rfl⟩ := hinner.peels.eq_of_notWrapper hpeels.ends
    have hshell : ShellBehind platform argv _ _ wrapper payload :=
      ⟨hpeels, hlength, hinner.token_ne, hinner.spec, hinner.payload⟩
    have henv' := (hasEnvManipulation_eq_false_iff hshell).mpr henv
    have htrailing := (hasTrailing_eq_false_iff hshell henv).mpr (Or.inl hfile)
    obtain ⟨raw, allowLegacyShellText, hdisplay, hvalid⟩ := exists_display_payload hshell hcommand henv' htrailing
    -- the display has a preview, and so must show the argument
    obtain ⟨layers', shell'', -, -, -, hpeels', -, -, -, hblank, -⟩ := h raw allowLegacyShellText _ (trim payload)
      hvalid (by rw [display_preview, henv', htrailing, hdisplay, Bool.and_false]; rfl)
    obtain ⟨-, rfl⟩ := hpeels.unique hpeels'
    cases (hblank argument hargument).symm.trans htext
  · intro h rawCommand allowLegacyShellText display previewText hvalid hpreview
    rw [display_of_validated hvalid] at hpreview
    obtain ⟨layers, shell, wrapper, command, hshell, htrim, ⟨text, hextracted⟩, henv', htrailing⟩ :=
      preview_cases (normalizeRawCommandText_normal rawCommand) hpreview
    have henv := (hasEnvManipulation_eq_false_iff hshell).mp henv'
    have htransport : resolveShellWrapperTransportArgv platform argv = some shell := by
      rw [resolveShellWrapperTransportArgv, resolveShellWrapperSpecAndArgvInternal,
        candidate_of_peels hshell.peels hshell.length_le, if_neg hshell.token_ne]
      simp [shellWrapperOf, hshell.spec, hshell.payload]
    refine ⟨layers, shell, wrapper, command, htransport, hshell.peels, hshell.spec, hshell.payload, htrim, ?_, henv⟩
    rcases (hasTrailing_eq_false_iff hshell henv).mp htrailing with hfile | hblank
    · intro argument hargument
      by_contra htext
      refine h ⟨layers, shell, hshell.peels, hshell.length_le, hfile, henv,
        ⟨argument, hargument, Bool.not_eq_false _ ▸ htext⟩, text, ?_⟩
      rw [← extract_of_peels hshell.peels hshell.length_le, hextracted]
      exact some_ne_none command
    · exact hblank

end

section

attribute [local instance] asciiLowerCase

/-- `time -o log sh -c 'echo hi' extra` is shown as `echo hi`. -/
theorem time_output_hides_argument :
    ¬ PreviewShowsCommand .linux
      [js "time", js "-o", js "log", js "sh", js "-c", js "echo hi", js "extra"] none false := by
  intro h
  obtain ⟨layers, shell, wrapper, payload, htransport, -, -, -, -, hblank, -⟩ := h
    ⟨some (js "echo hi"), js "time -o log sh -c \"echo hi\" extra", some (js "echo hi")⟩ (js "echo hi")
    (by decide) rfl
  have hshell : resolveShellWrapperTransportArgv .linux
      [js "time", js "-o", js "log", js "sh", js "-c", js "echo hi", js "extra"] =
        some [js "sh", js "-c", js "echo hi", js "extra"] := by
    decide
  obtain rfl := mem_unique htransport hshell
  cases (hblank (js "extra") (by decide)).symm.trans (by decide : hasText (js "extra") = true)

end

end ClawWorks.Exec
