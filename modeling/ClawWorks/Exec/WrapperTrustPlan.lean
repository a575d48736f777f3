import ClawWorks.Exec.ShellWrappers

/-!
# The trust plan of a wrapped command

Policy looks at the command behind the wrappers. The plan takes transparent wrappers off and is blocked at any other.
-/

namespace ClawWorks.Exec

open List Peel

variable [LowerCase]

structure ExecWrapperTrustPlan where
  argv : Argv
  policyArgv : Argv
  wrapperChain : List JsString
  policyBlocked : Bool
  blockedWrapper : Option JsString
  shellWrapperExecutable : Bool
  shellInlineCommand : Option JsString

omit [LowerCase] in
def blockedExecWrapperTrustPlan (argv policyArgv : Argv) (wrapperChain : List JsString) (blockedWrapper : JsString) :
    ExecWrapperTrustPlan :=
  ⟨argv, policyArgv, wrapperChain, true, some blockedWrapper, false, none⟩

/-- `platform` is that of the process. -/
def finalizeExecWrapperTrustPlan (platform : Platform) (argv policyArgv : Argv) (wrapperChain : List JsString)
    (policyBlocked : Bool) : ExecWrapperTrustPlan :=
  let rawExecutable := trimmedAt argv 0
  let shellWrapperExecutable :=
    !policyBlocked && 0 < rawExecutable.length && isShellWrapperExecutable rawExecutable
  { argv
    policyArgv
    wrapperChain
    policyBlocked
    blockedWrapper := none
    shellWrapperExecutable
    shellInlineCommand :=
      if shellWrapperExecutable then extractBindableShellWrapperInlineCommand platform argv none else none }

structure TrustPlanState where
  current : Argv
  policyArgv : Argv
  sawShellMultiplexer : Bool
  wrapperChain : List JsString

/-- The loop, with so many rounds left: a blocked plan, or the state it ends in. -/
def peelExecWrappers (platform : Platform) (maxDepth : Nat) :
    Nat → TrustPlanState → Except ExecWrapperTrustPlan TrustPlanState
  | 0, s => .ok s
  | depth + 1, s =>
    let dispatchPlan := resolveDispatchWrapperTrustPlan s.current (maxDepth - s.wrapperChain.length) platform
    if dispatchPlan.policyBlocked then
      .error (blockedExecWrapperTrustPlan dispatchPlan.argv dispatchPlan.argv s.wrapperChain
        ((dispatchPlan.blockedWrapper <|> s.current[0]?).getD (js "unknown")))
    else if 0 < dispatchPlan.wrappers.length then
      let wrapperChain := s.wrapperChain ++ dispatchPlan.wrappers
      let next : TrustPlanState :=
        { s with
          current := dispatchPlan.argv
          policyArgv := if s.sawShellMultiplexer then s.policyArgv else dispatchPlan.argv
          wrapperChain }
      if maxDepth ≤ wrapperChain.length then .ok next else peelExecWrappers platform maxDepth depth next
    else
      match unwrapKnownShellMultiplexerInvocation s.current with
      | .blocked wrapper => .error (blockedExecWrapperTrustPlan s.current s.policyArgv s.wrapperChain wrapper)
      | .unwrapped wrapper inner =>
        let wrapperChain := s.wrapperChain ++ [wrapper]
        -- Policy sees the applet of the multiplexer, not only the shell it launches.
        let next : TrustPlanState :=
          { current := inner
            policyArgv := if s.sawShellMultiplexer then s.policyArgv else s.current
            sawShellMultiplexer := true
            wrapperChain }
        if maxDepth ≤ wrapperChain.length then .ok next else peelExecWrappers platform maxDepth depth next
      | .notWrapper => .ok s

/-- The plan of a vector for a platform, made by a process that runs on `process`. -/
def resolveExecWrapperTrustPlan (process : Platform) (argv : Argv) (maxDepth : Nat) (platform : Platform) :
    ExecWrapperTrustPlan :=
  match peelExecWrappers platform maxDepth maxDepth ⟨argv, argv, false, []⟩ with
  | .error plan => plan
  | .ok s =>
    if maxDepth ≤ s.wrapperChain.length then
      match unwrapKnownDispatchWrapperInvocation platform s.current with
      | .blocked wrapper => blockedExecWrapperTrustPlan s.current s.policyArgv s.wrapperChain wrapper
      | .unwrapped wrapper _ => blockedExecWrapperTrustPlan s.current s.policyArgv s.wrapperChain wrapper
      | .notWrapper =>
        match unwrapKnownShellMultiplexerInvocation s.current with
        | .blocked wrapper => blockedExecWrapperTrustPlan s.current s.policyArgv s.wrapperChain wrapper
        | .unwrapped wrapper _ => blockedExecWrapperTrustPlan s.current s.policyArgv s.wrapperChain wrapper
        | .notWrapper => finalizeExecWrapperTrustPlan process s.current s.policyArgv s.wrapperChain false
    else finalizeExecWrapperTrustPlan process s.current s.policyArgv s.wrapperChain false

/-! ## The layers of a plan -/

/-- One wrapper of either kind taken off, when its use is transparent. -/
def transparentUnwrap (platform : Platform) : Argv → Unwrap JsString Argv :=
  orElse (transparentDispatchUnwrap platform) unwrapKnownShellMultiplexerInvocation

section

variable {platform process : Platform} {argv b : Argv} {layers : List (Layer JsString Argv)} {maxDepth : Nat}

theorem transparentUnwrap_eq_notWrapper_iff : transparentUnwrap platform argv = .notWrapper ↔
    unwrapKnownDispatchWrapperInvocation platform argv = .notWrapper ∧
      unwrapKnownShellMultiplexerInvocation argv = .notWrapper := by
  rw [transparentUnwrap, orElse_eq_notWrapper_iff, transparentDispatchUnwrap_eq_notWrapper_iff]

theorem transparentLayers_suffix (h : Reaches (transparentUnwrap platform) layers argv b) : b <:+ argv := by
  refine h.related (fun a => suffix_refl a) (fun hab hbc => hab.trans hbc) fun hstep => ?_
  rcases orElse_eq_unwrapped_iff.mp hstep with hdispatch | ⟨-, hmultiplexer⟩
  · exact transparentDispatchUnwrap_suffix hdispatch
  · exact (multiplexerUnwrap_suffix hmultiplexer).1

theorem stuck_of_dispatch {limit : Nat} (before : List (Layer JsString Argv))
    (h : Stuck (transparentDispatchUnwrap platform) (limit - before.length) layers b) :
    Stuck (transparentUnwrap platform) limit (before ++ layers) b := by
  rcases h with ⟨w, hblocked⟩ | ⟨hlimit, hwrapper⟩
  · refine .inl ⟨w, ?_⟩
    rw [transparentUnwrap, orElse_of_wrapper (by rw [hblocked]; exact nofun), hblocked]
  · refine .inr ⟨?_, ?_⟩
    · rw [length_append]
      omega
    · rw [transparentUnwrap, orElse_of_wrapper hwrapper]
      exact hwrapper

/-- The layers the loop has taken off are its chain. -/
def Planned (platform : Platform) (argv : Argv) (s : TrustPlanState) : Prop :=
  ∃ layers, Reaches (transparentUnwrap platform) layers argv s.current ∧ s.wrapperChain = layers.map (·.wrapper)

/-- What the loop comes to: every layer off, or as many as allowed; or a blocked plan that is stuck. -/
def PlanOutcome (platform : Platform) (maxDepth : Nat) (argv : Argv) :
    Except ExecWrapperTrustPlan TrustPlanState → Prop
  | .ok s => Planned platform argv s ∧ s.wrapperChain.length ≤ maxDepth ∧
      (s.wrapperChain.length < maxDepth → transparentUnwrap platform s.current = .notWrapper)
  | .error plan => plan.policyBlocked = true ∧ ∃ layers, Reaches (transparentUnwrap platform) layers argv plan.argv ∧
        Stuck (transparentUnwrap platform) maxDepth layers plan.argv

/-- **The loop takes off what is transparent.** Each round takes a layer off, so the rounds are enough. -/
theorem peelExecWrappers_outcome (depth : Nat) (s : TrustPlanState) (hplanned : Planned platform argv s)
    (hrounds : maxDepth ≤ s.wrapperChain.length + depth) (hlimit : s.wrapperChain.length ≤ maxDepth)
    (hroom : 0 < depth → s.wrapperChain.length < maxDepth) :
    PlanOutcome platform maxDepth argv (peelExecWrappers platform maxDepth depth s) := by
  induction depth generalizing s with
  | zero => exact ⟨hplanned, hlimit, fun h => absurd h (by omega)⟩
  | succ depth ih =>
    obtain ⟨before, hreaches, hchain⟩ := hplanned
    have hlength : s.wrapperChain.length = before.length := by rw [hchain, length_map]
    have hroom := hroom (Nat.succ_pos depth)
    rw [hlength] at hrounds hlimit hroom
    have hstuck := @dispatchPlan_stuck _ platform s.current (maxDepth - before.length)
    have hpeels := @dispatchPlan_peels _ platform s.current (maxDepth - before.length)
    unfold peelExecWrappers
    rw [hlength]
    generalize resolveDispatchWrapperTrustPlan s.current (maxDepth - before.length) platform = plan at hstuck hpeels
    dsimp only
    split
    · rename_i hblocked
      obtain ⟨layers, hdispatch, hstuck⟩ := hstuck hblocked
      exact ⟨rfl, before ++ layers, hreaches.trans (hdispatch.orElse _), stuck_of_dispatch before hstuck⟩
    · rename_i hblocked
      obtain ⟨layers, hpeels, hwrappers, hcount⟩ := hpeels (Bool.eq_false_iff.mpr hblocked)
      have hcount' : plan.wrappers.length = layers.length := by rw [hwrappers, length_map]
      split
      · rename_i hsome
        have hnext : (s.wrapperChain ++ plan.wrappers) = (before ++ layers).map (·.wrapper) := by
          rw [map_append, ← hchain, hwrappers]
        have hway := hreaches.trans (hpeels.reaches.orElse unwrapKnownShellMultiplexerInvocation)
        split
        · rename_i hfull
          refine ⟨⟨_, hway, hnext⟩, ?_, fun h => absurd h (not_lt.mpr hfull)⟩
          rw [length_append, hlength, hcount']
          omega
        · refine ih _ ⟨_, hway, hnext⟩ ?_ ?_ ?_ <;> simp only [length_append, hlength, hcount'] at * <;> omega
      · rename_i hnone
        obtain rfl : layers = [] := length_eq_zero_iff.mp (by omega)
        have hhere := hpeels.reaches.eq_of_nil
        have hends : transparentDispatchUnwrap platform s.current = .notWrapper := hhere ▸ hpeels.ends
        cases hmultiplexer : unwrapKnownShellMultiplexerInvocation s.current with
        | blocked w =>
          exact ⟨rfl, before, hreaches, .inl ⟨w, (orElse_of_notWrapper hends).trans hmultiplexer⟩⟩
        | notWrapper =>
          refine ⟨⟨before, hreaches, hchain⟩, hlength ▸ hlimit, fun _ => ?_⟩
          exact (orElse_of_notWrapper hends).trans hmultiplexer
        | unwrapped w inner =>
          have hstep := hreaches.snoc ((orElse_of_notWrapper hends).trans hmultiplexer)
          have hnext : s.wrapperChain ++ [w] =
              (before ++ [(⟨w, s.current⟩ : Layer JsString Argv)]).map (·.wrapper) := by
            rw [map_append, ← hchain]
            rfl
          have hlength' : (s.wrapperChain ++ [w]).length = before.length + 1 := by
            rw [length_append, hlength, length_singleton]
          dsimp only
          rw [hlength']
          split
          · rename_i hfull
            exact ⟨⟨_, hstep, hnext⟩, hlength' ▸ hroom, fun h => absurd h (not_lt.mpr (hlength' ▸ hfull))⟩
          · rename_i hfull
            refine ih _ ⟨_, hstep, hnext⟩ ?_ ?_ ?_ <;> simp only [hlength'] <;> omega

theorem trustPlan_cases (process platform : Platform) (argv : Argv) (maxDepth : Nat) :
    ((resolveExecWrapperTrustPlan process argv maxDepth platform).policyBlocked ∧
      ∃ layers, Reaches (transparentUnwrap platform) layers argv
          (resolveExecWrapperTrustPlan process argv maxDepth platform).argv ∧
        Stuck (transparentUnwrap platform) maxDepth layers
          (resolveExecWrapperTrustPlan process argv maxDepth platform).argv) ∨
    ∃ layers b policyArgv, Peels (transparentUnwrap platform) layers argv b ∧ layers.length ≤ maxDepth ∧
      resolveExecWrapperTrustPlan process argv maxDepth platform =
        finalizeExecWrapperTrustPlan process b policyArgv (layers.map (·.wrapper)) false := by
  have houtcome : PlanOutcome platform maxDepth argv
      (peelExecWrappers platform maxDepth maxDepth ⟨argv, argv, false, []⟩) :=
    peelExecWrappers_outcome maxDepth _ ⟨[], .here argv, rfl⟩ (Nat.le_add_left _ _) (Nat.zero_le _) id
  unfold resolveExecWrapperTrustPlan
  cases hloop : peelExecWrappers platform maxDepth maxDepth ⟨argv, argv, false, []⟩ with
  | error plan =>
    rw [hloop] at houtcome
    exact .inl houtcome
  | ok s =>
    rw [hloop] at houtcome
    obtain ⟨⟨layers, hreaches, hchain⟩, hlimit, hends⟩ := houtcome
    have hlength : s.wrapperChain.length = layers.length := by rw [hchain, length_map]
    rw [hlength] at hlimit hends
    have hfinal : transparentUnwrap platform s.current = .notWrapper → ∃ layers b policyArgv,
        Peels (transparentUnwrap platform) layers argv b ∧ layers.length ≤ maxDepth ∧
          finalizeExecWrapperTrustPlan process s.current s.policyArgv s.wrapperChain false =
            finalizeExecWrapperTrustPlan process b policyArgv (layers.map (·.wrapper)) false :=
      fun hnone => ⟨layers, s.current, s.policyArgv, ⟨hreaches, hnone⟩, hlimit, by rw [hchain]⟩
    dsimp only
    by_cases hfull : maxDepth ≤ s.wrapperChain.length
    · have hstuck : transparentUnwrap platform s.current ≠ .notWrapper →
          Stuck (transparentUnwrap platform) maxDepth layers s.current :=
        fun hwrapper => .inr ⟨hlength ▸ hfull, hwrapper⟩
      rw [if_pos hfull]
      cases hdispatch : unwrapKnownDispatchWrapperInvocation platform s.current with
      | notWrapper =>
        cases hmultiplexer : unwrapKnownShellMultiplexerInvocation s.current with
        | notWrapper => exact .inr (hfinal (transparentUnwrap_eq_notWrapper_iff.mpr ⟨hdispatch, hmultiplexer⟩))
        | _ =>
          refine .inl ⟨rfl, layers, hreaches, hstuck fun hnone => ?_⟩
          cases hmultiplexer.symm.trans (transparentUnwrap_eq_notWrapper_iff.mp hnone).2
      | _ =>
        refine .inl ⟨rfl, layers, hreaches, hstuck fun hnone => ?_⟩
        cases hdispatch.symm.trans (transparentUnwrap_eq_notWrapper_iff.mp hnone).1
    · rw [if_neg hfull]
      exact .inr (hfinal (hends (hlength ▸ not_le.mp hfull)))

theorem trustPlan_of_peels (process : Platform) (h : Peels (transparentUnwrap platform) layers argv b)
    (hlength : layers.length ≤ maxDepth) : ∃ policyArgv, resolveExecWrapperTrustPlan process argv maxDepth platform =
      finalizeExecWrapperTrustPlan process b policyArgv (layers.map (·.wrapper)) false := by
  rcases trustPlan_cases process platform argv maxDepth with
    ⟨-, way, hreaches, hstuck⟩ | ⟨way, c, policyArgv, hway, -, hplan⟩
  · exact absurd (hreaches.not_peels hstuck h) (not_lt.mpr hlength)
  · obtain ⟨rfl, rfl⟩ := h.unique hway
    exact ⟨policyArgv, hplan⟩

theorem trustPlan_peels (h : (resolveExecWrapperTrustPlan process argv maxDepth platform).policyBlocked = false) :
    ∃ layers b policyArgv, Peels (transparentUnwrap platform) layers argv b ∧ layers.length ≤ maxDepth ∧
      resolveExecWrapperTrustPlan process argv maxDepth platform =
        finalizeExecWrapperTrustPlan process b policyArgv (layers.map (·.wrapper)) false := by
  rcases trustPlan_cases process platform argv maxDepth with ⟨hblocked, -⟩ | hplan
  · cases h.symm.trans hblocked
  · exact hplan

theorem trustPlan_suffix (process platform : Platform) (argv : Argv) (maxDepth : Nat) :
    (resolveExecWrapperTrustPlan process argv maxDepth platform).argv <:+ argv := by
  rcases trustPlan_cases process platform argv maxDepth with
    ⟨-, way, hreaches, -⟩ | ⟨way, c, policyArgv, hway, -, hplan⟩
  · exact transparentLayers_suffix hreaches
  · rw [hplan]
    exact transparentLayers_suffix hway.reaches

theorem finalize_inlineCommand (policyArgv : Argv) (wrapperChain : List JsString)
    (h : wrapperUnwrap process b = .notWrapper) :
    (finalizeExecWrapperTrustPlan process b policyArgv wrapperChain false).shellInlineCommand =
      extractBindableShellWrapperInlineCommand process b none := by
  by_cases hshell : trimmedAt b 0 = [] ∨ isShellWrapperExecutable (trimmedAt b 0) = false
  · have hnone : extractShellWrapperCommand process b none = ⟨false, none⟩ := extract_of_not_shell h hshell
    have hplain :
        (!false && decide (0 < (trimmedAt b 0).length) && isShellWrapperExecutable (trimmedAt b 0)) = false := by
      rcases hshell with hblank | hshell
      · simp [hblank]
      · simp [hshell]
    simp only [finalizeExecWrapperTrustPlan, extractBindableShellWrapperInlineCommand, hnone, hplain]
    rfl
  · obtain ⟨hblank, hshell⟩ := not_or.mp hshell
    have hplain : (!false && decide (0 < (trimmedAt b 0).length) && isShellWrapperExecutable (trimmedAt b 0)) := by
      simp [length_pos_iff.mpr hblank, Bool.not_eq_false _ ▸ hshell]
    simp only [finalizeExecWrapperTrustPlan, hplain, if_true]

end

end ClawWorks.Exec
