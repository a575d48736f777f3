import ClawWorks.Exec.WrapperTrustPlan

/-!
# When the trust plan fails closed

The plan takes a platform, but the inline command behind it is read by a classifier that asks for the platform of the
process.
-/

namespace ClawWorks.Exec

open Peel

section

variable [LowerCase]

/-- What is expected of the plan of `argv`, made for `platform` by a process on `process`. -/
structure PlanFailsClosed (process platform : Platform) (argv : Argv) : Prop where
  /-- A layer the plan comes to leaves a part of its vector, or is a split text, at which the plan is blocked. -/
  suffix : ∀ layers outer wrapper inner, Reaches (transparentUnwrap platform) layers argv outer →
    wrapperUnwrap platform outer = .unwrapped wrapper inner →
      inner <:+ outer ∨ wrapper = ENV ∧ envSplitsString outer = true ∧
        (resolveExecWrapperTrustPlan process argv MAX_DISPATCH_WRAPPER_DEPTH platform).policyBlocked = true
  target : (resolveExecWrapperTrustPlan process argv MAX_DISPATCH_WRAPPER_DEPTH platform).argv <:+ argv
  /-- When the plan is not blocked, few enough layers were peeled, each in a transparent use. -/
  layers : (resolveExecWrapperTrustPlan process argv MAX_DISPATCH_WRAPPER_DEPTH platform).policyBlocked = false →
    ∃ layers, Reaches (wrapperUnwrap platform) layers argv
        (resolveExecWrapperTrustPlan process argv MAX_DISPATCH_WRAPPER_DEPTH platform).argv ∧
      (resolveExecWrapperTrustPlan process argv MAX_DISPATCH_WRAPPER_DEPTH platform).wrapperChain =
        layers.map (·.wrapper) ∧
      layers.length ≤ MAX_DISPATCH_WRAPPER_DEPTH ∧
      ∀ layer ∈ layers, unwrapKnownDispatchWrapperInvocation platform layer.outer ≠ .notWrapper →
        isSemanticDispatchWrapperUsage layer.wrapper layer.outer platform = false
  notWrapper : (resolveExecWrapperTrustPlan process argv MAX_DISPATCH_WRAPPER_DEPTH platform).policyBlocked = false →
    unwrapKnownDispatchWrapperInvocation platform
        (resolveExecWrapperTrustPlan process argv MAX_DISPATCH_WRAPPER_DEPTH platform).argv = .notWrapper ∧
      unwrapKnownShellMultiplexerInvocation
        (resolveExecWrapperTrustPlan process argv MAX_DISPATCH_WRAPPER_DEPTH platform).argv = .notWrapper
  again : (resolveExecWrapperTrustPlan process argv MAX_DISPATCH_WRAPPER_DEPTH platform).policyBlocked = false →
    let target := (resolveExecWrapperTrustPlan process argv MAX_DISPATCH_WRAPPER_DEPTH platform).argv
    let replanned := resolveExecWrapperTrustPlan process target MAX_DISPATCH_WRAPPER_DEPTH platform
    replanned.policyBlocked = false ∧ replanned.wrapperChain = [] ∧ replanned.argv = target
  command : (resolveExecWrapperTrustPlan process argv MAX_DISPATCH_WRAPPER_DEPTH platform).policyBlocked = false →
    (resolveExecWrapperTrustPlan process argv MAX_DISPATCH_WRAPPER_DEPTH platform).shellInlineCommand =
      extractBindableShellWrapperInlineCommand process argv none

/-- `arch` or `xcrun` among the transparent layers of a plan for another platform hides an inline command. -/
def HidesInlineCommand (process platform : Platform) (argv : Argv) : Prop :=
  process ≠ .darwin ∧ ∃ layers command, Peels (transparentUnwrap platform) layers argv command ∧
    layers.length ≤ MAX_DISPATCH_WRAPPER_DEPTH ∧
    (∃ layer ∈ layers, layer.wrapper = ARCH ∨ layer.wrapper = XCRUN) ∧
    extractBindableShellWrapperInlineCommand process command none ≠ none

section

variable {process platform : Platform} {argv b : Argv} {layers : List (Layer JsString Argv)}

variable {outer inner : Argv} {wrapper : JsString}

theorem transparent_layer (h : transparentUnwrap platform outer = .unwrapped wrapper inner) :
    wrapperUnwrap platform outer = .unwrapped wrapper inner ∧
      (unwrapKnownDispatchWrapperInvocation platform outer ≠ .notWrapper →
        isSemanticDispatchWrapperUsage wrapper outer platform = false) := by
  rcases orElse_eq_unwrapped_iff.mp h with hdispatch | ⟨hnone, hmultiplexer⟩
  · obtain ⟨hunwrap, htransparent⟩ := transparentDispatchUnwrap_eq_unwrapped_iff.mp hdispatch
    exact ⟨orElse_eq_unwrapped_iff.mpr (.inl hunwrap), fun _ => htransparent⟩
  · have hdispatch := transparentDispatchUnwrap_eq_notWrapper_iff.mp hnone
    exact ⟨orElse_eq_unwrapped_iff.mpr (.inr ⟨hdispatch, hmultiplexer⟩), fun h => absurd hdispatch h⟩

theorem transparent_layers (h : Reaches (transparentUnwrap platform) layers argv b) :
    Reaches (wrapperUnwrap platform) layers argv b ∧
      ∀ layer ∈ layers, unwrapKnownDispatchWrapperInvocation platform layer.outer ≠ .notWrapper →
        isSemanticDispatchWrapperUsage layer.wrapper layer.outer platform = false := by
  refine ⟨h.congr fun layer hlayer => ?_, fun layer hlayer => ?_⟩
  · obtain ⟨inner, hinner⟩ := h.layer_unwrapped layer hlayer
    exact (transparent_layer hinner).1.trans hinner.symm
  · obtain ⟨inner, hinner⟩ := h.layer_unwrapped layer hlayer
    exact (transparent_layer hinner).2

theorem layer_followed (h : transparentUnwrap platform outer = .unwrapped wrapper inner) (process : Platform) :
    (((wrapper = ARCH ∨ wrapper = XCRUN) → process = .darwin) ∧
      wrapperUnwrap process outer = .unwrapped wrapper inner) ∨
    ((wrapper = ARCH ∨ wrapper = XCRUN) ∧ process ≠ .darwin ∧ wrapperUnwrap process outer = .blocked wrapper) := by
  rcases orElse_eq_unwrapped_iff.mp h with hdispatch | ⟨hnone, hmultiplexer⟩
  · obtain ⟨hunwrap, htransparent⟩ := transparentDispatchUnwrap_eq_unwrapped_iff.mp hdispatch
    by_cases hdarwin : wrapper = ARCH ∨ wrapper = XCRUN
    · by_cases hprocess : process = .darwin
      · rw [darwinWrapper_platform hunwrap hdarwin, ← hprocess] at hunwrap
        exact .inl ⟨fun _ => hprocess, orElse_eq_unwrapped_iff.mpr (.inl hunwrap)⟩
      · have hblocked := darwinWrapper_blocked hunwrap hdarwin hprocess
        refine .inr ⟨hdarwin, hprocess, ?_⟩
        rw [wrapperUnwrap, orElse_of_wrapper (by simp [hblocked]), hblocked]
    · refine .inl ⟨fun h => absurd h hdarwin, orElse_eq_unwrapped_iff.mpr (.inl ?_)⟩
      exact transparent_platform hunwrap htransparent hdarwin process
  · have hdispatch := transparentDispatchUnwrap_eq_notWrapper_iff.mp hnone
    have hprocess : unwrapKnownDispatchWrapperInvocation process outer = .notWrapper :=
      dispatchUnwrap_eq_notWrapper_iff.mpr (dispatchUnwrap_eq_notWrapper_iff.mp hdispatch)
    have hname : wrapper ∈ SHELL_MULTIPLEXER_WRAPPER_NAMES := (multiplexerUnwrap_suffix hmultiplexer).2.2.1
    have hother : ¬ (wrapper = ARCH ∨ wrapper = XCRUN) := by
      have hdisjoint := wrapperNames_disjoint.2 _ hname
      rw [dispatchWrapperSpecs_names] at hdisjoint
      rintro (rfl | rfl)
      · exact hdisjoint List.mem_cons_self
      · exact hdisjoint (by simp)
    exact .inl ⟨fun h => absurd h hother, orElse_eq_unwrapped_iff.mpr (.inr ⟨hprocess, hmultiplexer⟩)⟩

theorem notWrapper_followed (h : transparentUnwrap platform b = .notWrapper) (process : Platform) :
    wrapperUnwrap process b = .notWrapper := by
  have hplatform : wrapperUnwrap platform b = .notWrapper :=
    orElse_eq_notWrapper_iff.mpr (transparentUnwrap_eq_notWrapper_iff.mp h)
  exact wrapperUnwrap_eq_notWrapper_iff.mp hplatform

theorem plan_command (h : Peels (transparentUnwrap platform) layers argv b)
    (hlength : layers.length ≤ MAX_DISPATCH_WRAPPER_DEPTH) :
    extractBindableShellWrapperInlineCommand process argv none =
      if process ≠ .darwin ∧ ∃ layer ∈ layers, layer.wrapper = ARCH ∨ layer.wrapper = XCRUN then none
      else extractBindableShellWrapperInlineCommand process b none := by
  have hlayers := h.reaches.layer_unwrapped
  split
  · rename_i hhides
    obtain ⟨hprocess, layer, hlayer, hdarwin⟩ := hhides
    have hsame : ∀ layer ∈ layers, wrapperUnwrap process layer.outer = transparentUnwrap platform layer.outer ∨
        ∃ w, wrapperUnwrap process layer.outer = .blocked w := by
      intro layer hlayer
      obtain ⟨inner, hinner⟩ := hlayers layer hlayer
      rcases layer_followed hinner process with ⟨-, hsame⟩ | ⟨-, -, hblocked⟩
      · exact .inl (hsame.trans hinner.symm)
      · exact .inr ⟨_, hblocked⟩
    rcases h.reaches.follow_or_blocked hsame with hreaches | ⟨before, stuck, w, hreaches, hblocked⟩
    · obtain ⟨inner, hinner⟩ := hlayers layer hlayer
      obtain ⟨inner', hinner'⟩ := hreaches.layer_unwrapped layer hlayer
      rcases layer_followed hinner process with ⟨hwhen, -⟩ | ⟨-, -, hblocked⟩
      · exact absurd (hwhen hdarwin) hprocess
      · cases hblocked.symm.trans hinner'
    · simp only [extractBindableShellWrapperInlineCommand, extractShellWrapperCommand,
        extractShellWrapperCommandInternal, candidate_of_blocked hreaches hblocked 0]
  · rename_i hhides
    have hreaches : Reaches (wrapperUnwrap process) layers argv b := by
      refine h.reaches.congr fun layer hlayer => ?_
      obtain ⟨inner, hinner⟩ := hlayers layer hlayer
      rcases layer_followed hinner process with ⟨-, hsame⟩ | ⟨hdarwin, hprocess, -⟩
      · exact hsame.trans hinner.symm
      · exact absurd ⟨hprocess, layer, hlayer, hdarwin⟩ hhides
    exact congrArg (·.command) (extract_of_peels ⟨hreaches, notWrapper_followed h.ends process⟩ hlength)

theorem planned_layer_suffix (process : Platform) (h : Reaches (transparentUnwrap platform) layers argv outer)
    (hstep : wrapperUnwrap platform outer = .unwrapped wrapper inner) :
    inner <:+ outer ∨ wrapper = ENV ∧ envSplitsString outer ∧
      (resolveExecWrapperTrustPlan process argv MAX_DISPATCH_WRAPPER_DEPTH platform).policyBlocked := by
  rcases orElse_eq_unwrapped_iff.mp hstep with hdispatch | ⟨-, hmultiplexer⟩
  · rcases (dispatchUnwrap_suffix hdispatch).2 with hsuffix | ⟨henv, hsplit, hsemantic⟩
    · exact .inl hsuffix
    · refine .inr ⟨henv, hsplit, ?_⟩
      by_contra hblocked
      obtain ⟨way, b, -, hway, -⟩ := trustPlan_peels (Bool.eq_false_iff.mpr hblocked)
      have hstuck := transparentDispatchUnwrap_semantic hdispatch hsemantic
      have hstuck' : transparentUnwrap platform outer = .blocked wrapper := by
        rw [transparentUnwrap, orElse_of_wrapper (by simp [hstuck]), hstuck]
      exact absurd (h.not_peels (.inl ⟨wrapper, hstuck'⟩) hway) (lt_irrefl way.length)
  · exact .inl (multiplexerUnwrap_suffix hmultiplexer).1

end

/-- **The plan fails closed exactly when no layer of another platform hides an inline command.** -/
theorem planFailsClosed_iff (process platform : Platform) (argv : Argv) :
    PlanFailsClosed process platform argv ↔ ¬ HidesInlineCommand process platform argv := by
  constructor
  · rintro h ⟨hprocess, layers, command, hpeels, hlength, hlayer, hcommand⟩
    obtain ⟨policyArgv, hplan⟩ := trustPlan_of_peels process hpeels hlength
    have hfound := h.command (by rw [hplan]; rfl)
    rw [hplan, finalize_inlineCommand _ _ (notWrapper_followed hpeels.ends process), plan_command hpeels hlength,
      if_pos ⟨hprocess, hlayer⟩] at hfound
    exact hcommand hfound
  · intro h
    refine ⟨?_, trustPlan_suffix process platform argv _, ?_, ?_, ?_, ?_⟩
    · exact fun layers outer wrapper inner => planned_layer_suffix process
    all_goals
      intro hblocked
      obtain ⟨layers, b, policyArgv, hpeels, hlength, hplan⟩ := trustPlan_peels hblocked
      rw [hplan]
    · obtain ⟨hreaches, htransparent⟩ := transparent_layers hpeels.reaches
      exact ⟨layers, hreaches, rfl, hlength, htransparent⟩
    · exact transparentUnwrap_eq_notWrapper_iff.mp hpeels.ends
    · obtain ⟨again, hagain⟩ := trustPlan_of_peels process (.of_notWrapper hpeels.ends)
        (Nat.zero_le MAX_DISPATCH_WRAPPER_DEPTH)
      change (resolveExecWrapperTrustPlan process b MAX_DISPATCH_WRAPPER_DEPTH platform).policyBlocked = false ∧
        (resolveExecWrapperTrustPlan process b MAX_DISPATCH_WRAPPER_DEPTH platform).wrapperChain = [] ∧
        (resolveExecWrapperTrustPlan process b MAX_DISPATCH_WRAPPER_DEPTH platform).argv = b
      rw [hagain]
      exact ⟨rfl, rfl, rfl⟩
    · rw [finalize_inlineCommand _ _ (notWrapper_followed hpeels.ends process), plan_command hpeels hlength]
      split
      · rename_i hhides
        by_contra hcommand
        exact h ⟨hhides.1, layers, b, hpeels, hlength, hhides.2, hcommand⟩
      · rfl

end

section

attribute [local instance] asciiLowerCase

/-- On `linux`, `arch -arm64 bash -c ls` planned for `darwin` has the command `ls`, and the process finds none. -/
theorem arch_hides_inline_command :
    ¬ PlanFailsClosed .linux .darwin [js "arch", js "-arm64", js "bash", js "-c", js "ls"] := by
  intro h
  have hcommand := h.command (by decide)
  have hplan : (resolveExecWrapperTrustPlan .linux [js "arch", js "-arm64", js "bash", js "-c", js "ls"]
      MAX_DISPATCH_WRAPPER_DEPTH .darwin).shellInlineCommand = some (js "ls") := by
    decide
  have hfound : extractBindableShellWrapperInlineCommand .linux
      [js "arch", js "-arm64", js "bash", js "-c", js "ls"] none = none := by
    decide
  cases (hplan.symm.trans hcommand).trans hfound

end

end ClawWorks.Exec
