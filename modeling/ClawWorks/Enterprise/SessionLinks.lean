import ClawWorks.Enterprise.Types
import Mathlib.Logic.Function.Basic

/-!
# The run of a session

Next to the registry of active runs there is a map from a session to the run it executes, through which a caller outside
the process finds its run. A registration writes a link, an adoption moves it when the transcript of a session rotates,
and the end of a run clears it, the latter two only while it names that run.
-/

namespace ClawWorks

open Function

/-! ## The two maps -/

structure SessionRun extends EnterpriseActiveRun where
  sessionId : Option JsString := none

structure ActiveRunRegistry where
  activeRuns : JsString → Option SessionRun
  sessionActiveRuns : JsString → Option JsString

/-- The registry of a process that has just started. -/
def ActiveRunRegistry.empty : ActiveRunRegistry :=
  ⟨fun _ => none, fun _ => none⟩

def dropLink (links : JsString → Option JsString) (sessionId : Option JsString) (runId : JsString) :
    JsString → Option JsString :=
  match truthy? sessionId with
  | none => links
  | some session => if links session = some runId then update links session none else links

def registerEnterpriseActiveRun (registry : ActiveRunRegistry) (run : SessionRun) : ActiveRunRegistry where
  activeRuns := update registry.activeRuns run.plan.runId (some run)
  sessionActiveRuns :=
    match truthy? run.sessionId with
    | none => registry.sessionActiveRuns
    | some session => update registry.sessionActiveRuns session (some run.plan.runId)

/-- Follow a transcript rotation: the run and the link move to the new session. -/
def adoptEnterpriseActiveRunSessionId (registry : ActiveRunRegistry) (runId sessionId : JsString) :
    ActiveRunRegistry :=
  match registry.activeRuns runId with
  | none => registry
  | some run =>
    if ¬ Truthy sessionId ∨ run.sessionId = some sessionId then registry
    else
      { activeRuns := update registry.activeRuns runId (some { run with sessionId := some sessionId })
        sessionActiveRuns :=
          update (dropLink registry.sessionActiveRuns run.sessionId runId) sessionId (some runId) }

/-- End a run. It runs outside the session lane, so the next run of the session may have begun. -/
def unregisterEnterpriseActiveRun (registry : ActiveRunRegistry) (runId : JsString) : ActiveRunRegistry where
  activeRuns := update registry.activeRuns runId none
  sessionActiveRuns :=
    dropLink registry.sessionActiveRuns ((registry.activeRuns runId).bind (·.sessionId)) runId

/-! ## Links lead to active runs -/

structure Linked (registry : ActiveRunRegistry) : Prop where
  active : ∀ {session runId}, registry.sessionActiveRuns session = some runId →
    ∃ run, registry.activeRuns runId = some run ∧ run.sessionId = some session
  truthy : ∀ {session runId}, registry.sessionActiveRuns session = some runId → Truthy session

theorem truthy_of_truthy? {value : Option JsString} {s : JsString} (h : truthy? value = some s) : Truthy s := by
  obtain rfl := truthy?_eq_some h
  by_contra hempty
  rw [truthy?, if_neg hempty] at h
  cases h

section Links

variable {registry : ActiveRunRegistry}

theorem dropLink_eq_some {links : JsString → Option JsString} {sessionId : Option JsString}
    {runId session other : JsString} (h : dropLink links sessionId runId session = some other) :
    links session = some other ∧ ¬(truthy? sessionId = some session ∧ other = runId) := by
  unfold dropLink at h
  cases htruthy : truthy? sessionId with
  | none =>
    rw [htruthy] at h
    exact ⟨h, fun hboth => nomatch hboth.1⟩
  | some dropped =>
    rw [htruthy] at h
    by_cases hnamed : links dropped = some runId
    · simp only [if_pos hnamed] at h
      by_cases hsession : session = dropped
      · rw [hsession, update_self] at h
        cases h
      · rw [update_of_ne hsession] at h
        exact ⟨h, fun hboth => hsession (Option.some.inj hboth.1).symm⟩
    · simp only [if_neg hnamed] at h
      refine ⟨h, fun hboth => hnamed ?_⟩
      rw [Option.some.inj hboth.1, h, hboth.2]

theorem Linked.ne_of_dropLink (hlinked : Linked registry) {run : Option SessionRun} {runId session other : JsString}
    (hrun : registry.activeRuns runId = run)
    (h : dropLink registry.sessionActiveRuns (run.bind (·.sessionId)) runId session = some other) : other ≠ runId := by
  obtain ⟨hlink, hkept⟩ := dropLink_eq_some h
  rintro rfl
  obtain ⟨named, hnamed, hsession⟩ := hlinked.active hlink
  refine hkept ⟨?_, rfl⟩
  rw [← hrun, hnamed, Option.bind_some, hsession]
  exact truthy?_some (hlinked.truthy hlink)

theorem linked_register (h : Linked registry) {run : SessionRun} (hfresh : registry.activeRuns run.plan.runId = none) :
    Linked (registerEnterpriseActiveRun registry run) := by
  have hold : ∀ {session runId}, registry.sessionActiveRuns session = some runId →
      ∃ named, (registerEnterpriseActiveRun registry run).activeRuns runId = some named ∧
        named.sessionId = some session := by
    intro session runId hlink
    obtain ⟨named, hnamed, hsession⟩ := h.active hlink
    have hne : runId ≠ run.plan.runId := by
      rintro rfl
      cases hfresh.symm.trans hnamed
    exact ⟨named, (update_of_ne hne _ _).trans hnamed, hsession⟩
  cases htruthy : truthy? run.sessionId with
  | none =>
    have hlinks : (registerEnterpriseActiveRun registry run).sessionActiveRuns = registry.sessionActiveRuns := by
      simp only [registerEnterpriseActiveRun, htruthy]
    exact ⟨fun hlink => hold (hlinks ▸ hlink), fun hlink => h.truthy (hlinks ▸ hlink)⟩
  | some own =>
    have hlinks : (registerEnterpriseActiveRun registry run).sessionActiveRuns =
        update registry.sessionActiveRuns own (some run.plan.runId) := by
      simp only [registerEnterpriseActiveRun, htruthy]
    constructor
    · intro session runId hlink
      rw [hlinks] at hlink
      by_cases hsession : session = own
      · rw [hsession, update_self] at hlink
        obtain rfl := Option.some.inj hlink
        exact ⟨run, update_self _ _ _, hsession ▸ truthy?_eq_some htruthy⟩
      · rw [update_of_ne hsession] at hlink
        exact hold hlink
    · intro session runId hlink
      rw [hlinks] at hlink
      by_cases hsession : session = own
      · exact hsession ▸ truthy_of_truthy? htruthy
      · rw [update_of_ne hsession] at hlink
        exact h.truthy hlink

theorem linked_adopt (h : Linked registry) (runId sessionId : JsString) :
    Linked (adoptEnterpriseActiveRunSessionId registry runId sessionId) := by
  unfold adoptEnterpriseActiveRunSessionId
  cases hrun : registry.activeRuns runId with
  | none => exact h
  | some run =>
    dsimp only
    split
    · exact h
    rename_i hmoves
    rw [not_or, not_not] at hmoves
    constructor
    · intro session other hlink
      dsimp only at hlink ⊢
      by_cases hsession : session = sessionId
      · rw [hsession, update_self] at hlink
        obtain rfl := Option.some.inj hlink
        exact ⟨_, update_self _ _ _, by rw [hsession]⟩
      · rw [update_of_ne hsession] at hlink
        obtain ⟨named, hnamed, hown⟩ := h.active (dropLink_eq_some hlink).1
        have hne := h.ne_of_dropLink hrun hlink
        exact ⟨named, (update_of_ne hne _ _).trans hnamed, hown⟩
    · intro session other hlink
      dsimp only at hlink
      by_cases hsession : session = sessionId
      · exact hsession ▸ hmoves.1
      · rw [update_of_ne hsession] at hlink
        exact h.truthy (dropLink_eq_some hlink).1

theorem linked_unregister (h : Linked registry) (runId : JsString) :
    Linked (unregisterEnterpriseActiveRun registry runId) := by
  constructor
  · intro session other hlink
    obtain ⟨named, hnamed, hown⟩ := h.active (dropLink_eq_some hlink).1
    have hne := h.ne_of_dropLink rfl hlink
    exact ⟨named, (update_of_ne hne _ _).trans hnamed, hown⟩
  · exact fun hlink => h.truthy (dropLink_eq_some hlink).1

end Links

/-- The registries reached by registrations of runs whose ids no active run has, adoptions and ends of runs, in any
order. -/
inductive ReachableRegistry : ActiveRunRegistry → Prop
  | empty : ReachableRegistry .empty
  | register {registry : ActiveRunRegistry} {run : SessionRun} : ReachableRegistry registry →
      registry.activeRuns run.plan.runId = none → ReachableRegistry (registerEnterpriseActiveRun registry run)
  | adopt {registry : ActiveRunRegistry} (runId sessionId : JsString) : ReachableRegistry registry →
      ReachableRegistry (adoptEnterpriseActiveRunSessionId registry runId sessionId)
  | unregister {registry : ActiveRunRegistry} (runId : JsString) : ReachableRegistry registry →
      ReachableRegistry (unregisterEnterpriseActiveRun registry runId)

theorem ReachableRegistry.linked {registry : ActiveRunRegistry} (h : ReachableRegistry registry) : Linked registry := by
  induction h with
  | empty => exact ⟨nofun, nofun⟩
  | register _ hfresh ih => exact linked_register ih hfresh
  | adopt runId sessionId _ ih => exact linked_adopt ih runId sessionId
  | unregister runId _ ih => exact linked_unregister ih runId

/-- **A session's link never outlives its run and never leads to the run of another session.** -/
theorem sessionActiveRun_linked {registry : ActiveRunRegistry} (h : ReachableRegistry registry)
    (session runId : JsString) (hlink : registry.sessionActiveRuns session = some runId) :
    ∃ run, registry.activeRuns runId = some run ∧ run.sessionId = some session :=
  h.linked.active hlink

def chatRun (runId : JsString) : SessionRun where
  plan := { runId, treeId := js "assist", nodes := [], activeNodeId := js "root" }
  sessionId := some (js "chat")

/-- The next run of a session has begun before the one that rotated its transcript ends. -/
def rotatedRegistry : ActiveRunRegistry :=
  unregisterEnterpriseActiveRun (registerEnterpriseActiveRun (adoptEnterpriseActiveRunSessionId
        (registerEnterpriseActiveRun .empty (chatRun (js "first"))) (js "first") (js "rotated"))
      (chatRun (js "second"))) (js "first")

theorem sessionActiveRun_linked_rotated : ∃ run, rotatedRegistry.activeRuns (js "second") = some run ∧
    run.sessionId = some (js "chat") :=
  sessionActiveRun_linked (.unregister _ (.register (.adopt _ _ (.register .empty rfl)) (by decide))) _ _ (by decide)

end ClawWorks
