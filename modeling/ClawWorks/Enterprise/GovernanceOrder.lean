import ClawWorks.Enterprise.GovernanceLayers

/-!
# The order of policies

The effect of a decision neither depends on the order of the policies nor weakens when one is added, while the approval
settings are those of the first policy that asks for approval.
-/

namespace ClawWorks

open Option List

section Gate

variable {ν : Type} [LowerCase] {plan : EnterpriseRunPlan} {node : EnterprisePlanNode} {call : ToolCall ν}
  {policies : List GovernancePolicy}

theorem matchingPolicies_perm {policies' : List GovernancePolicy} (h : policies.Perm policies') :
    (matchingPolicies plan node call policies).Perm (matchingPolicies plan node call policies') :=
  h.filter _

theorem effect_perm {policies' : List GovernancePolicy} (h : policies.Perm policies') :
    (evaluateToolCallGovernance plan node policies' call).effect =
      (evaluateToolCallGovernance plan node policies call).effect := by
  have hmatching : (matchingPolicies plan node call policies).Perm (matchingPolicies plan node call policies') :=
    matchingPolicies_perm h
  have hwinner := policyWinner_effect_perm hmatching
  cases hverdict : scopeVerdict plan node call with
  | decided decision => rw [evaluate_of_decided hverdict, evaluate_of_decided hverdict]
  | openToPolicies omitted satisfied =>
    cases omitted with
    | none => rw [(evaluate_of_open hverdict).1, (evaluate_of_open hverdict).1, winningEffect, winningEffect, hwinner]
    | some omitted => rw [(evaluate_of_omitted hverdict).1, (evaluate_of_omitted hverdict).1, hwinner]

def AgreeingApprovals (matching : List GovernancePolicy) : Prop :=
  ∀ p ∈ matching, ∀ q ∈ matching, p.effect = .requireApproval → q.effect = .requireApproval →
    p.unanswered = q.unanswered

def OrderIndependent (plan : EnterpriseRunPlan) (node : EnterprisePlanNode) (call : ToolCall ν)
    (policies : List GovernancePolicy) : Prop :=
  ∀ policies' : List GovernancePolicy, policies.Perm policies' →
    (evaluateToolCallGovernance plan node policies' call).effect =
        (evaluateToolCallGovernance plan node policies call).effect ∧
      (evaluateToolCallGovernance plan node policies' call).unanswered =
        (evaluateToolCallGovernance plan node policies call).unanswered

theorem unanswered_of_first {satisfied : Option OntologyAction}
    (hverdict : scopeVerdict plan node call = .openToPolicies none satisfied)
    (hundenied : ∀ q ∈ matchingPolicies plan node call policies, q.effect ≠ .deny) {p : GovernancePolicy}
    (hp : p ∈ matchingPolicies plan node call policies) (happroval : p.effect = .requireApproval) :
    ∃ policies', policies.Perm policies' ∧
      (evaluateToolCallGovernance plan node policies' call).unanswered = some p.unanswered := by
  obtain ⟨hmem, happlies⟩ := mem_filter.mp hp
  obtain ⟨before, after, rfl⟩ := append_of_mem hmem
  refine ⟨p :: (before ++ after), perm_middle, ?_⟩
  have hmatching : matchingPolicies plan node call (p :: (before ++ after)) =
      p :: matchingPolicies plan node call (before ++ after) := filter_cons_of_pos happlies
  have hrest : ∀ q ∈ matchingPolicies plan node call (before ++ after), q.effect ≠ .deny := by
    intro q hq
    refine hundenied q ?_
    rw [(matchingPolicies_perm perm_middle).mem_iff, hmatching]
    exact mem_cons_of_mem _ hq
  rw [(evaluate_of_open hverdict).2, hmatching, policyWinner_cons_of_requireApproval happroval hrest]
  simp [happroval]

/-- **When the order of the policies does not matter.** -/
theorem orderIndependent_iff :
    OrderIndependent plan node call policies ↔
      ¬ LeftToPolicies plan node call ∨ (∃ p ∈ matchingPolicies plan node call policies, p.effect = .deny) ∨
        AgreeingApprovals (matchingPolicies plan node call policies) := by
  constructor
  · intro hind
    by_cases hleft : LeftToPolicies plan node call
    · obtain ⟨satisfied, hverdict⟩ := leftToPolicies_iff.mp hleft
      by_cases hdeny : ∃ p ∈ matchingPolicies plan node call policies, p.effect = .deny
      · exact Or.inr (Or.inl hdeny)
      refine Or.inr (Or.inr fun p hp q hq happroval happroval' => ?_)
      have hundenied : ∀ q ∈ matchingPolicies plan node call policies, q.effect ≠ .deny :=
        fun q hq h => hdeny ⟨q, hq, h⟩
      obtain ⟨policies₁, hperm₁, hfirst₁⟩ := unanswered_of_first hverdict hundenied hp happroval
      obtain ⟨policies₂, hperm₂, hfirst₂⟩ := unanswered_of_first hverdict hundenied hq happroval'
      have hsame := (hind policies₁ hperm₁).2.trans (hind policies₂ hperm₂).2.symm
      rw [hfirst₁, hfirst₂] at hsame
      exact some.inj hsame
    · exact Or.inl hleft
  · intro hcond policies' hperm
    refine ⟨effect_perm hperm, ?_⟩
    have hmatching : (matchingPolicies plan node call policies).Perm (matchingPolicies plan node call policies') :=
      matchingPolicies_perm hperm
    have hwinner := policyWinner_effect_perm hmatching
    cases hverdict : scopeVerdict plan node call with
    | decided decision => rw [evaluate_of_decided hverdict, evaluate_of_decided hverdict]
    | openToPolicies omitted satisfied =>
      cases omitted with
      | some omitted => rw [(evaluate_of_omitted hverdict).2, (evaluate_of_omitted hverdict).2, hwinner]
      | none =>
        rw [(evaluate_of_open hverdict).2, (evaluate_of_open hverdict).2]
        rcases hcond with hsettled | ⟨p, hp, hdeny⟩ | hagree
        · exact absurd (leftToPolicies_iff.mpr ⟨satisfied, hverdict⟩) hsettled
        · have hdenied := policyWinner_of_deny hp hdeny
          rw [hdenied] at hwinner
          obtain ⟨w, hw, heffect⟩ := map_eq_some_iff.mp hdenied
          obtain ⟨w', hw', heffect'⟩ := map_eq_some_iff.mp hwinner.symm
          simp [hw, hw', heffect, heffect']
        · cases hw : policyWinner (matchingPolicies plan node call policies) with
          | none =>
            rw [hw, map_none, eq_comm, map_eq_none_iff] at hwinner
            rw [hwinner]
          | some w =>
            rw [hw, map_some, eq_comm] at hwinner
            obtain ⟨w', hw', heffect⟩ := map_eq_some_iff.mp hwinner
            rw [hw', bind_some, bind_some, heffect]
            by_cases happroval : w.effect = .requireApproval
            · have hmem' := hmatching.mem_iff.mpr (mem_of_policyWinner hw')
              rw [if_pos happroval, if_pos happroval,
                hagree w' hmem' w (mem_of_policyWinner hw) (heffect.trans happroval) happroval]
            · rw [if_neg happroval, if_neg happroval]

/-! ## Adding a policy -/

theorem matchingPolicies_insert (before after : List GovernancePolicy) (p : GovernancePolicy) :
    matchingPolicies plan node call (before ++ p :: after) =
      if policyAppliesToToolCall p (policySubject plan node call (callIdentity call (callOwnership call))) then
        matchingPolicies plan node call before ++ p :: matchingPolicies plan node call after
      else matchingPolicies plan node call (before ++ after) := by
  unfold matchingPolicies
  rw [filter_append, filter_cons, filter_append]
  split <;> rfl

theorem effect_monotone (before after : List GovernancePolicy) (p : GovernancePolicy) :
    (evaluateToolCallGovernance plan node (before ++ after) call).effect.strictness ≤
      (evaluateToolCallGovernance plan node (before ++ p :: after) call).effect.strictness := by
  have hwinner : (winningEffect (matchingPolicies plan node call (before ++ after))).strictness ≤
      (winningEffect (matchingPolicies plan node call (before ++ p :: after))).strictness := by
    rw [matchingPolicies_insert]
    split
    · have hsplit : matchingPolicies plan node call (before ++ after) =
          matchingPolicies plan node call before ++ matchingPolicies plan node call after := filter_append ..
      rw [hsplit]
      exact winningEffect_insert _ _ p
    · exact le_rfl
  cases hverdict : scopeVerdict plan node call with
  | decided decision => rw [evaluate_of_decided hverdict, evaluate_of_decided hverdict]
  | openToPolicies omitted satisfied =>
    cases omitted with
    | none =>
      rw [(evaluate_of_open hverdict).1, (evaluate_of_open hverdict).1]
      exact hwinner
    | some omitted =>
      rw [(evaluate_of_omitted hverdict).1, (evaluate_of_omitted hverdict).1]
      by_cases hdeny : (policyWinner (matchingPolicies plan node call (before ++ after))).map (·.effect) = some .deny
      · have hdeny' : (policyWinner (matchingPolicies plan node call (before ++ p :: after))).map (·.effect) =
            some .deny := by
          rw [winningEffect, hdeny, winningEffect] at hwinner
          cases hnew : (policyWinner (matchingPolicies plan node call (before ++ p :: after))).map (·.effect) with
          | none => rw [hnew] at hwinner; exact absurd hwinner (by decide)
          | some effect => rw [hnew] at hwinner; cases effect <;> first | rfl | exact absurd hwinner (by decide)
        rw [if_pos hdeny, if_pos hdeny']
      · rw [if_neg hdeny]
        split <;> decide

/-- Adding a policy keeps a decision as strict, and makes no unanswered approval newly resolve to allow. -/
def InsertionMonotone (plan : EnterpriseRunPlan) (node : EnterprisePlanNode) (call : ToolCall ν)
    (before after : List GovernancePolicy) (p : GovernancePolicy) : Prop :=
  (evaluateToolCallGovernance plan node (before ++ after) call).effect.strictness ≤
      (evaluateToolCallGovernance plan node (before ++ p :: after) call).effect.strictness ∧
    ((evaluateToolCallGovernance plan node (before ++ after) call).effect =
        (evaluateToolCallGovernance plan node (before ++ p :: after) call).effect →
      (evaluateToolCallGovernance plan node (before ++ p :: after) call).unanswered = some .allow →
      (evaluateToolCallGovernance plan node (before ++ after) call).unanswered = some .allow)

/-- A policy whose approval resolves to allow stands before the first policy that asks for one that does not, and
nothing denies the call or leaves it out of the tool scope. -/
structure ShadowsApproval (plan : EnterpriseRunPlan) (node : EnterprisePlanNode) (call : ToolCall ν)
    (before after : List GovernancePolicy) (p : GovernancePolicy) : Prop where
  left : LeftToPolicies plan node call
  applies : policyAppliesToToolCall p (policySubject plan node call (callIdentity call (callOwnership call))) = true
  asks : p.effect = .requireApproval
  allows : p.unanswered = .allow
  undenied : ∀ q ∈ matchingPolicies plan node call (before ++ after), q.effect ≠ .deny
  first : ∀ q ∈ matchingPolicies plan node call before, q.effect ≠ .requireApproval
  shadowed : ∃ q, (matchingPolicies plan node call after).find? (·.effect = .requireApproval) = some q ∧
    q.unanswered = .deny

/-- **When adding a policy is monotone.** -/
theorem insertionMonotone_iff (before after : List GovernancePolicy) (p : GovernancePolicy) :
    InsertionMonotone plan node call before after p ↔ ¬ ShadowsApproval plan node call before after p := by
  have hsplit : matchingPolicies plan node call (before ++ after) =
      matchingPolicies plan node call before ++ matchingPolicies plan node call after := filter_append ..
  constructor
  · rintro ⟨-, hmonotone⟩ h
    obtain ⟨satisfied, hverdict⟩ := leftToPolicies_iff.mp h.left
    obtain ⟨q, hq, hdeny⟩ := h.shadowed
    have hask : q.effect = .requireApproval := by simpa using find?_some hq
    have hundenied := h.undenied
    rw [hsplit] at hundenied
    have hwithout : policyWinner (matchingPolicies plan node call (before ++ after)) = some q := by
      rw [hsplit]
      refine policyWinner_of_undenied hundenied ?_
      rw [find?_append, find?_eq_none.mpr fun r hr => by simpa using h.first r hr, none_or, hq]
    have hwith : policyWinner (matchingPolicies plan node call (before ++ p :: after)) = some p := by
      rw [matchingPolicies_insert, if_pos h.applies]
      refine policyWinner_of_undenied (fun r hr => ?_) ?_
      · rcases mem_append.mp hr with hr | hr
        · exact hundenied r (mem_append_left _ hr)
        · rcases mem_cons.mp hr with rfl | hr
          · rw [h.asks]
            decide
          · exact hundenied r (mem_append_right _ hr)
      · rw [find?_append, find?_eq_none.mpr fun r hr => by simpa using h.first r hr, none_or,
          find?_cons_of_pos (by simpa using h.asks)]
    have hallow := hmonotone
      (by rw [(evaluate_of_open hverdict).1, (evaluate_of_open hverdict).1, winningEffect, winningEffect, hwithout,
            hwith]
          simp [hask, h.asks])
      (by rw [(evaluate_of_open hverdict).2, hwith]
          simp [h.asks, h.allows])
    rw [(evaluate_of_open hverdict).2, hwithout] at hallow
    simp [hask, hdeny] at hallow
  · intro hclear
    refine ⟨effect_monotone before after p, fun hsame hallow => ?_⟩
    cases hverdict : scopeVerdict plan node call with
    | decided decision =>
      rw [evaluate_of_decided hverdict] at hallow
      rw [evaluate_of_decided hverdict, hallow]
    | openToPolicies omitted satisfied =>
      cases omitted with
      | some omitted =>
        rw [(evaluate_of_omitted hverdict).2] at hallow
        split at hallow <;> cases hallow
      | none =>
        rw [(evaluate_of_open hverdict).2] at hallow ⊢
        rw [(evaluate_of_open hverdict).1, (evaluate_of_open hverdict).1, winningEffect, winningEffect] at hsame
        rw [matchingPolicies_insert] at hallow hsame
        by_cases happlies : policyAppliesToToolCall p
            (policySubject plan node call (callIdentity call (callOwnership call))) = true
        · rw [if_pos happlies] at hallow hsame
          rw [hsplit] at hsame ⊢
          rw [policyWinner_eq_argmax] at hallow
          rcases argmax_insert (f := fun q : GovernancePolicy => q.effect.precedence)
              (matchingPolicies plan node call before) (matchingPolicies plan node call after) p with
            ⟨htake, hbefore, -⟩ | hunchanged
          · rw [htake, bind_some] at hallow
            by_cases hasks : p.effect = .requireApproval
            · rw [if_pos hasks] at hallow
              rw [policyWinner_eq_argmax (_ ++ _ :: _), htake, map_some, getD_some, hasks] at hsame
              cases hwithout : policyWinner
                  (matchingPolicies plan node call before ++ matchingPolicies plan node call after) with
              | none => rw [hwithout] at hsame; cases hsame
              | some w =>
                rw [hwithout, map_some, getD_some] at hsame
                obtain ⟨hundenied, hfirst⟩ := undenied_of_policyWinner hwithout hsame
                have hnone : ∀ q ∈ matchingPolicies plan node call before, q.effect ≠ .requireApproval := by
                  intro q hq heq
                  have hlt := hbefore q hq
                  rw [heq, hasks] at hlt
                  exact absurd hlt (lt_irrefl _)
                rw [find?_append, find?_eq_none.mpr fun r hr => by simpa using hnone r hr,
                  none_or] at hfirst
                rw [bind_some, if_pos hsame]
                cases hw : w.unanswered with
                | allow => rfl
                | deny =>
                  exact absurd ⟨leftToPolicies_iff.mpr ⟨satisfied, hverdict⟩, happlies, hasks,
                    some.inj hallow, by rwa [hsplit], hnone, ⟨w, hfirst, hw⟩⟩ hclear
            · rw [if_neg hasks] at hallow
              cases hallow
          · rw [hunchanged, ← policyWinner_eq_argmax] at hallow
            exact hallow
        · rw [if_neg happlies] at hallow
          exact hallow

end Gate

section Search

attribute [local instance] asciiLowerCase

def askBeforeSearch (id : String) (timeoutBehavior : TimeoutBehavior) : GovernancePolicy where
  id := js id
  effect := .requireApproval
  tools := some [js "web_search"]
  approval := some { timeoutBehavior := some timeoutBehavior }

/-- The first of two policies that ask decides what an unanswered approval resolves to. -/
theorem order_decides_webSearch :
    ¬ OrderIndependent searchPlan searchStep webSearch
      [askBeforeSearch "lenient" .allow, askBeforeSearch "strict" .deny] := by
  intro h
  have hswap := (h [askBeforeSearch "strict" .deny, askBeforeSearch "lenient" .allow] (List.Perm.swap ..)).2
  have hstrict : (evaluateToolCallGovernance searchPlan searchStep
      [askBeforeSearch "strict" .deny, askBeforeSearch "lenient" .allow] webSearch).unanswered = some .deny := by
    decide
  have hlenient : (evaluateToolCallGovernance searchPlan searchStep
      [askBeforeSearch "lenient" .allow, askBeforeSearch "strict" .deny] webSearch).unanswered = some .allow := by
    decide
  rw [hstrict, hlenient] at hswap
  cases hswap

/-- A lenient policy in front of a strict one makes the unanswered approval resolve to allow. -/
theorem insertion_relaxes_webSearch :
    ¬ InsertionMonotone searchPlan searchStep webSearch [] [askBeforeSearch "strict" .deny]
      (askBeforeSearch "lenient" .allow) := by
  rintro ⟨-, h⟩
  have hwithout := h (by decide) (by decide)
  have hstrict : (evaluateToolCallGovernance searchPlan searchStep
      ([] ++ [askBeforeSearch "strict" .deny]) webSearch).unanswered = some .deny := by
    decide
  rw [hstrict] at hwithout
  cases hwithout

end Search

end ClawWorks
