import ClawWorks.Enterprise.Governance
import ClawWorks.Lib.FirstMaximum

/-!
# Composing policies

The matching policies of a call compose by precedence: the winner is the first of the strongest
(`policyWinner_eq_argmax`), so its effect neither depends on the order of the list (`policyWinner_effect_perm`) nor
weakens when a policy is added (`winningEffect_insert`).
-/

namespace ClawWorks

open List

/-! ## Precedence -/

def GovernanceEffect.precedence : GovernanceEffect → Nat
  | .audit => 0
  | .allow => 1
  | .requireApproval => 2
  | .deny => 3

open GovernanceEffect

theorem GovernanceEffect.precedence_injective : Function.Injective GovernanceEffect.precedence := by
  intro a b h
  cases a <;> cases b <;> first | rfl | cases h

theorem policyWinner_eq_argmax (matching : List GovernancePolicy) :
    policyWinner matching = matching.argmax (·.effect.precedence) := by
  induction matching with
  | nil => rfl
  | cons policy matching ih =>
    rw [argmax_cons, ← ih]
    unfold policyWinner
    cases hdeny : matching.find? (·.effect = .deny) with
    | some d =>
      have heffect : d.effect = .deny := by simpa using find?_some hdeny
      cases hpolicy : policy.effect <;> simp [hpolicy, hdeny, heffect, precedence]
    | none =>
      cases hrequire : matching.find? (·.effect = .requireApproval) with
      | some r =>
        have heffect : r.effect = .requireApproval := by simpa using find?_some hrequire
        cases hpolicy : policy.effect <;> simp [hpolicy, hdeny, hrequire, heffect, precedence]
      | none =>
        cases hallow : matching.find? (·.effect = .allow) with
        | some a =>
          have heffect : a.effect = .allow := by simpa using find?_some hallow
          cases hpolicy : policy.effect <;>
            simp [hpolicy, hdeny, hrequire, hallow, heffect, precedence]
        | none =>
          cases haudit : matching.find? (·.effect = .audit) with
          | some a =>
            have heffect : a.effect = .audit := by simpa using find?_some haudit
            cases hpolicy : policy.effect <;>
              simp [hpolicy, hdeny, hrequire, hallow, haudit, heffect, precedence]
          | none => cases hpolicy : policy.effect <;> simp [hpolicy, hdeny, hrequire, hallow, haudit]

theorem policyWinner_effect_perm {matching matching' : List GovernancePolicy} (h : matching.Perm matching') :
    (policyWinner matching).map (·.effect) = (policyWinner matching').map (·.effect) := by
  refine Option.map_injective precedence_injective ?_
  rw [Option.map_map, Option.map_map, policyWinner_eq_argmax, policyWinner_eq_argmax]
  exact map_argmax_perm h

def winningEffect (matching : List GovernancePolicy) : GovernanceEffect :=
  ((policyWinner matching).map (·.effect)).getD .allow

variable {matching : List GovernancePolicy}

theorem mem_of_policyWinner {winner : GovernancePolicy}
    (h : policyWinner matching = some winner) : winner ∈ matching := by
  rw [policyWinner_eq_argmax] at h
  exact argmax_mem h

theorem policyWinner_of_deny {policy : GovernancePolicy} (hmem : policy ∈ matching)
    (hdeny : policy.effect = .deny) : (policyWinner matching).map (·.effect) = some .deny := by
  unfold policyWinner
  obtain ⟨winner, hwinner⟩ := Option.isSome_iff_exists.mp
    (find?_isSome.mpr ⟨policy, hmem, decide_eq_true hdeny⟩ : (matching.find? (·.effect = .deny)).isSome)
  have heffect : winner.effect = .deny := by simpa using find?_some hwinner
  rw [hwinner, Option.some_or, Option.map_some, heffect]

theorem policyWinner_deny_iff :
    (policyWinner matching).map (·.effect) = some .deny ↔ ∃ policy ∈ matching, policy.effect = .deny := by
  constructor
  · intro h
    obtain ⟨winner, hwinner, hdeny⟩ := Option.map_eq_some_iff.mp h
    exact ⟨winner, mem_of_policyWinner hwinner, hdeny⟩
  · rintro ⟨policy, hpolicy, hdeny⟩
    exact policyWinner_of_deny hpolicy hdeny

theorem policyWinner_cons_of_requireApproval {policy : GovernancePolicy}
    (happroval : policy.effect = .requireApproval) (hundenied : ∀ q ∈ matching, q.effect ≠ .deny) :
    policyWinner (policy :: matching) = some policy := by
  rw [policyWinner_eq_argmax, argmax_eq_some_iff_split]
  refine ⟨[], matching, rfl, by simp, fun q hq => ?_⟩
  have hne := hundenied q hq
  rw [happroval]
  cases heffect : q.effect with
  | deny => exact absurd heffect hne
  | _ => decide

theorem policyWinner_of_undenied (hundenied : ∀ q ∈ matching, q.effect ≠ .deny)
    {q : GovernancePolicy} (hfirst : matching.find? (·.effect = .requireApproval) = some q) :
    policyWinner matching = some q := by
  have hdeny : matching.find? (·.effect = .deny) = none := by
    rw [find?_eq_none]
    intro r hr
    simpa using hundenied r hr
  rw [policyWinner, hdeny, hfirst]
  rfl

theorem undenied_of_policyWinner {q : GovernancePolicy}
    (h : policyWinner matching = some q) (happroval : q.effect = .requireApproval) :
    (∀ r ∈ matching, r.effect ≠ .deny) ∧ matching.find? (·.effect = .requireApproval) = some q := by
  have hundenied : ∀ r ∈ matching, r.effect ≠ .deny := by
    intro r hr hdeny
    have hwinner := policyWinner_of_deny hr hdeny
    rw [h, Option.map_some, happroval] at hwinner
    cases hwinner
  refine ⟨hundenied, ?_⟩
  cases hfirst : matching.find? (·.effect = .requireApproval) with
  | some r => exact (policyWinner_of_undenied hundenied hfirst).symm.trans h
  | none =>
    rw [find?_eq_none] at hfirst
    exact absurd happroval (by simpa using hfirst q (mem_of_policyWinner h))

/-- Strictness of a decision: deny before approval before the rest. -/
def GovernanceEffect.strictness : GovernanceEffect → Nat
  | .audit => 0
  | .allow => 0
  | .requireApproval => 1
  | .deny => 2

theorem GovernanceEffect.strictness_mono {a b : GovernanceEffect} (h : a.precedence ≤ b.precedence) :
    a.strictness ≤ b.strictness := by
  revert h
  cases a <;> cases b <;> decide

theorem winningEffect_insert (before after : List GovernancePolicy) (p : GovernancePolicy) :
    (winningEffect (before ++ after)).strictness ≤ (winningEffect (before ++ p :: after)).strictness := by
  simp only [winningEffect, policyWinner_eq_argmax]
  rcases argmax_insert (f := fun q : GovernancePolicy => q.effect.precedence) before after p with
    ⟨htake, hbefore, hafter⟩ | hsame
  · rw [htake]
    cases hwinner : (before ++ after).argmax (·.effect.precedence) with
    | none => exact Nat.zero_le _
    | some w =>
      refine strictness_mono ?_
      rcases mem_append.mp (argmax_mem hwinner) with h | h
      · exact (hbefore w h).le
      · exact hafter w h
  · rw [hsame]

/-- What the approval of a policy resolves to when nobody answers. -/
def GovernancePolicy.unanswered (policy : GovernancePolicy) : TimeoutBehavior :=
  (policy.approval.bind (·.timeoutBehavior)).getD .deny

/-- What an approval nobody answers resolves to; nothing where no approval is raised. -/
def GovernanceDecision.unanswered (decision : GovernanceDecision) : Option TimeoutBehavior :=
  if decision.effect = .requireApproval then some ((decision.approval.bind (·.timeoutBehavior)).getD .deny) else none

end ClawWorks
