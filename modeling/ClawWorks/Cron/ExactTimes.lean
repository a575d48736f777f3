import ClawWorks.Cron.Maintenance
import Mathlib.Order.Bounds.Basic
import Mathlib.Tactic.Linarith

/-!
# Exact next runs

Against the slots of a cron expression: the run computed for a job is the least time to come that is a slot after the
epoch plus the job's offset, and the recognizer accepts just these times. An interval job runs on its grid, or its
interval after its last run. Computing the next runs a second time changes none.
-/

namespace ClawWorks.Cron

open List

def IsNext (s : Set ℚ) (t : ℚ) : Option ℚ → Prop
  | some x => IsLeast {x ∈ s | t < x} x
  | none => ∀ x ∈ s, x ≤ t

def IsPrevious (s : Set ℚ) (t : ℚ) : Option ℚ → Prop
  | some x => IsGreatest {x ∈ s | x < t} x
  | none => ∀ x ∈ s, t ≤ x

/-- The elements after zero, moved by an offset. -/
def shifted (s : Set ℚ) (offset : ℚ) : Set ℚ :=
  {t | ∃ x ∈ s, 0 < x ∧ t = x + offset}

variable {slots : Set ℚ} {offset now t : ℚ} {found : Option ℚ}

theorem IsNext.shifted (h : IsNext slots (max 0 (now - offset)) found) :
    IsNext (shifted slots offset) now (found.map (· + offset)) := by
  cases found with
  | none =>
    rintro _ ⟨x, hx, hpos, rfl⟩
    rcases le_max_iff.mp (h x hx) with hle | hle <;> linarith
  | some x =>
    obtain ⟨⟨hx, hlt⟩, hleast⟩ := h
    obtain ⟨hpos, hlate⟩ := max_lt_iff.mp hlt
    refine ⟨⟨⟨x, hx, hpos, rfl⟩, by dsimp only; linarith⟩, ?_⟩
    rintro _ ⟨⟨y, hy, hy0, rfl⟩, hynow⟩
    have hxy : x ≤ y := hleast ⟨hy, max_lt hy0 (by linarith)⟩
    dsimp only
    linarith

theorem IsNext.none_of_le (h : IsNext slots now none) (hle : now ≤ t) (hfound : IsNext slots t found) :
    found = none := by
  cases found with
  | none => rfl
  | some x => exact absurd (h x hfound.1.1) (not_le.mpr (hle.trans_lt hfound.1.2))

theorem second_le (t : ℚ) : (⌊t / 1000⌋ : ℚ) * 1000 ≤ t := by
  have h := Int.floor_le (t / 1000)
  linarith

/-! ## Cron jobs -/

variable [Croner]

/-- The evaluator gives the slots of an expression: whole seconds, and of these the next one after a time and the
previous one before the second of a time. A blank expression has none. -/
structure HasSlots (expr tz : Option JsString) (slots : Set ℚ) : Prop where
  whole : ∀ slot ∈ slots, ∃ second : ℤ, slot = second * 1000
  evaluates : resolveCronFromSchedule expr tz = .ok none ∧ slots = ∅ ∨
    ∃ cron, resolveCronFromSchedule expr tz = .ok (some cron) ∧ ∀ date,
      (∃ next, Croner.nextRun cron.1 cron.2 date = .ok next ∧ IsNext slots date next) ∧
        ∃ previous, Croner.previousRun cron.1 cron.2 date = .ok previous ∧
          IsPrevious slots (⌊date / 1000⌋ * 1000) previous

variable {expr tz : Option JsString} {staggerMs : Option ℚ} {job : CronJob} {nowMs : ℚ}

theorem CronJob.offsetMs_nonneg (job : CronJob) : 0 ≤ job.offsetMs := by
  unfold CronJob.offsetMs
  split
  · unfold resolveStableCronOffsetMs
    split
    · exact le_rfl
    · exact Int.emod_nonneg _ (by omega)
  · exact le_rfl

section

variable (h : HasSlots expr tz slots)

include h

theorem HasSlots.next (staggerMs : Option ℚ) (t : ℚ) :
    ∃ next, computeNextRunAtMs (.cron expr tz staggerMs) t = .ok next ∧ IsNext slots t next := by
  obtain ⟨hblank, rfl⟩ | ⟨cron, hcron, heval⟩ := h.evaluates
  · exact ⟨none, by simp [computeNextRunAtMs, hblank, pure, Except.pure, bind, Except.bind], nofun⟩
  · obtain ⟨⟨next, hnext, hleast⟩, -⟩ := heval t
    refine ⟨next, ?_, hleast⟩
    cases next with
    | none => simp [computeNextRunAtMs, hcron, hnext, pure, Except.pure, bind, Except.bind]
    | some x =>
      have hlt : ¬x ≤ t := not_le.mpr hleast.1.2
      simp [computeNextRunAtMs, hcron, hnext, hlt, pure, Except.pure, bind, Except.bind]

theorem HasSlots.previous (staggerMs : Option ℚ) (t : ℚ) :
    ∃ previous, computePreviousRunAtMs (.cron expr tz staggerMs) t = .ok previous ∧
      IsPrevious slots (⌊t / 1000⌋ * 1000) previous := by
  obtain ⟨hblank, rfl⟩ | ⟨cron, hcron, heval⟩ := h.evaluates
  · exact ⟨none, by simp [computePreviousRunAtMs, hblank, pure, Except.pure, bind, Except.bind], nofun⟩
  · obtain ⟨-, previous, hprevious, hgreatest⟩ := heval t
    refine ⟨previous, ?_, hgreatest⟩
    cases previous with
    | none => simp [computePreviousRunAtMs, hcron, hprevious, pure, Except.pure, bind, Except.bind]
    | some x =>
      have hlt : x < t := hgreatest.1.2.trans_le (second_le t)
      simp [computePreviousRunAtMs, hcron, hprevious, hlt, pure, Except.pure, bind, Except.bind]

/-- Moved by its offset a job looks for its first slot from a cursor that is not before the epoch. -/
theorem HasSlots.staggered_next (hjob : job.schedule = .cron expr tz staggerMs) (hnow : 0 ≤ nowMs) :
    ∃ found, computeStaggeredCronNextRunAtMs job nowMs = .ok found ∧
      IsNext (shifted slots job.offsetMs) nowMs found := by
  have hoffset := job.offsetMs_nonneg
  obtain ⟨found, hfound, hnext⟩ := h.next staggerMs (max 0 (nowMs - job.offsetMs))
  refine ⟨_, ?_, hnext.shifted⟩
  rw [computeStaggeredCronNextRunAtMs, hjob]
  split
  · rename_i hle
    have hzero : job.offsetMs = 0 := le_antisymm hle hoffset
    rw [hzero, Int.cast_zero, sub_zero, max_eq_right hnow] at hfound
    rw [hfound, hzero]
    simp
  · rw [staggeredNextFrom, hfound]
    cases found with
    | none => rfl
    | some x =>
      have hlate : nowMs < x + job.offsetMs := by
        have hcursor := (le_max_right 0 (nowMs - (job.offsetMs : ℚ))).trans_lt hnext.1.2
        linarith
      simp [hlate, bind, Except.bind, pure, Except.pure]

theorem HasSlots.staggered_previous (hjob : job.schedule = .cron expr tz staggerMs) (ht : job.offsetMs ≤ t) :
    ∃ found, computeStaggeredCronPreviousRunAtMs job (t + 1000) = .ok (found.map (· + (job.offsetMs : ℚ))) ∧
      IsPrevious slots (⌊(t + 1000 - job.offsetMs) / 1000⌋ * 1000) found := by
  have hoffset := job.offsetMs_nonneg
  obtain ⟨found, hfound, hprevious⟩ := h.previous staggerMs (t + 1000 - job.offsetMs)
  refine ⟨found, ?_, hprevious⟩
  rw [computeStaggeredCronPreviousRunAtMs, hjob]
  split
  · rename_i hle
    have hzero : job.offsetMs = 0 := le_antisymm hle hoffset
    rw [hzero, Int.cast_zero, sub_zero] at hfound
    rw [hfound, hzero]
    simp
  · rw [staggeredPreviousFrom, max_eq_right (by linarith), hfound]
    cases found with
    | none => rfl
    | some x =>
      have hearly : x + job.offsetMs ≤ t + 1000 := by
        have hlt := hprevious.1.2.trans_le (second_le _)
        linarith
      simp [hearly, bind, Except.bind, pure, Except.pure]

theorem HasSlots.computed (hjob : job.schedule = .cron expr tz staggerMs) (henabled : isJobEnabled job)
    (hnow : 0 ≤ nowMs) :
    ∃ found, computeJobNextRunAtMs job nowMs = .ok found ∧ IsNext (shifted slots job.offsetMs) nowMs found := by
  have hlater : nowMs ≤ nextSecond nowMs := by
    have hfloor := Int.lt_floor_add_one (nowMs / 1000)
    unfold nextSecond
    linarith
  obtain ⟨found, hfound, hnext⟩ := h.staggered_next hjob hnow
  obtain ⟨found', hfound', hnext'⟩ := h.staggered_next hjob (hnow.trans hlater)
  refine ⟨found, ?_, hnext⟩
  rw [computeJobNextRunAtMs, henabled, hjob, hfound]
  cases found with
  | none =>
    obtain rfl := hnext.none_of_le hlater hnext'
    exact hfound'
  | some x => rfl

theorem HasSlots.recognized (hjob : job.schedule = .cron expr tz staggerMs) (ht : job.offsetMs ≤ t) :
    ∃ accepted, isStaggeredCronRunAtMs job t = .ok accepted ∧ (accepted ↔ t - job.offsetMs ∈ slots) := by
  obtain ⟨found, hfound, hprevious⟩ := h.staggered_previous hjob ht
  refine ⟨_, by rw [isStaggeredCronRunAtMs, hjob, hfound]; rfl, ?_⟩
  -- The second of the probe ends the slot, and no other slot lies between them.
  have hprobe : t - job.offsetMs ∈ slots → (⌊(t + 1000 - job.offsetMs) / 1000⌋ : ℚ) * 1000 = t - job.offsetMs + 1000 ∧
        ∀ slot ∈ slots, slot < t - job.offsetMs + 1000 → slot ≤ t - job.offsetMs := by
    intro hmem
    obtain ⟨second, hsecond⟩ := h.whole _ hmem
    have hdiv : (t + 1000 - job.offsetMs) / 1000 = ((second + 1 : ℤ) : ℚ) := by
      push_cast
      linarith
    refine ⟨by rw [hdiv, Int.floor_intCast]; push_cast; linarith, fun slot hslot hlt => ?_⟩
    obtain ⟨other, rfl⟩ := h.whole slot hslot
    have hle : other < second + 1 := by
      have : (other : ℚ) < second + 1 := by linarith
      exact_mod_cast this
    have hle' : (other : ℚ) ≤ second := by exact_mod_cast Int.lt_add_one_iff.mp hle
    linarith
  constructor
  · intro haccepted
    obtain ⟨x, rfl, hx⟩ : ∃ x, found = some x ∧ x + job.offsetMs = t := by simpa using haccepted
    rw [← hx, add_sub_cancel_right]
    exact hprevious.1.1
  · intro hmem
    obtain ⟨hend, hlast⟩ := hprobe hmem
    rw [hend] at hprevious
    cases found with
    | none => exact absurd (hprevious _ hmem) (by linarith)
    | some x =>
      have hx : x = t - job.offsetMs := le_antisymm (hlast x hprevious.1.1 hprevious.1.2)
        (hprevious.2 ⟨hmem, by linarith⟩)
      simp [hx]

end

def OnGrid (anchor everyMs next : ℚ) : Prop :=
  ∃ steps : ℕ, next = anchor + steps * everyMs

theorem computeNextRunAtMs_every (everyMs anchor : ℤ) (nowMs : ℚ) :
    ∃ next, computeNextRunAtMs (.every (some (max 1 (everyMs : ℚ))) (some (max 0 (anchor : ℚ)))) nowMs =
      .ok (some next) ∧ nowMs < next ∧ OnGrid (max 0 (anchor : ℚ)) (max 1 (everyMs : ℚ)) next := by
  have hevery := max_floor 1 everyMs
  have hanchor := max_floor 0 anchor
  push_cast at hevery hanchor
  simp only [computeNextRunAtMs, Option.map_some, Option.getD_some, hevery, hanchor]
  have hpos : 0 < max 1 (everyMs : ℚ) := lt_max_of_lt_left one_pos
  generalize max 1 (everyMs : ℚ) = every at hpos ⊢
  generalize max 0 (anchor : ℚ) = start
  refine ⟨_, rfl, ?_⟩
  split
  · rename_i hlt
    exact ⟨hlt, 0, by simp⟩
  · rename_i hge
    have hsteps : 0 ≤ ⌊(nowMs - start) / every⌋ := Int.floor_nonneg.mpr (div_nonneg (by linarith) hpos.le)
    have hlate := (div_lt_iff₀ hpos).mp (Int.lt_floor_add_one ((nowMs - start) / every))
    lift ⌊(nowMs - start) / every⌋ to ℕ using hsteps with steps
    exact ⟨by linarith, steps + 1, by push_cast; rfl⟩

theorem computeJobNextRunAtMs_every {everyMs : ℚ} {anchorMs : Option ℚ}
    (hjob : job.schedule = .every (some everyMs) anchorMs) (henabled : isJobEnabled job) :
    ∃ next, computeJobNextRunAtMs job nowMs = .ok (some next) ∧ nowMs < next ∧
      ((∃ lastRun ∈ job.state.lastRunAtMs, next = ⌊lastRun⌋ + max 1 (⌊everyMs⌋ : ℚ)) ∨
        OnGrid (resolveEveryAnchorMs anchorMs (job.createdAtMs.getD nowMs)) (max 1 (⌊everyMs⌋ : ℚ)) next) := by
  simp only [computeJobNextRunAtMs, henabled, hjob]
  cases hlast : (job.state.lastRunAtMs.map fun lastRunAtMs => ⌊lastRunAtMs⌋ + max 1 (⌊everyMs⌋ : ℚ)).filter
      (nowMs < ·) with
  | some next =>
    obtain ⟨hmap, hlate⟩ := Option.filter_eq_some_iff.mp hlast
    obtain ⟨lastRun, hrun, rfl⟩ := Option.map_eq_some_iff.mp hmap
    exact ⟨_, rfl, of_decide_eq_true hlate, .inl ⟨lastRun, hrun, rfl⟩⟩
  | none =>
    obtain ⟨next, hnext, hlate, hgrid⟩ :=
      computeNextRunAtMs_every ⌊everyMs⌋ ⌊anchorMs.getD (job.createdAtMs.getD nowMs)⌋ nowMs
    exact ⟨next, hnext, hlate, .inr hgrid⟩

/-! ## A second pass -/

section

variable {backoffMs : Option (List ℚ)} {nextRunAtMs : Option ℚ} {scheduleErrorCount : Option ℕ}

omit [Croner] in
theorem rescheduled_again {next running next' running' : Option ℚ} {count count' : Option ℕ} :
    rescheduled (rescheduled job nowMs next running count) nowMs next' running' count' =
      rescheduled job nowMs next' running' count' := by
  have hschedule : anchoredSchedule (rescheduled job nowMs next running count) nowMs = anchoredSchedule job nowMs := by
    obtain ⟨id, enabled, createdAtMs, schedule, payload, state⟩ := job
    cases schedule <;> simp [anchoredSchedule, rescheduled]
  rw [rescheduled, hschedule]
  rfl

/-- What a recomputation writes does not depend on the plan before. -/
theorem recompute_rescheduled (backoffMs : Option (List ℚ)) (h : computeJobNextRunAtMs job nowMs = .ok found) :
    ∃ next, ∀ nextRunAtMs scheduleErrorCount, (recomputeJobNextRunAtMs backoffMs
      (rescheduled job nowMs nextRunAtMs job.state.runningAtMs scheduleErrorCount) nowMs).1 =
        rescheduled job nowMs next job.state.runningAtMs (scheduleErrorCount.filter (· = 0)) := by
  refine ⟨(recomputeJobNextRunAtMs backoffMs
    (rescheduled job nowMs none job.state.runningAtMs none) nowMs).1.state.nextRunAtMs, fun _ _ => ?_⟩
  simp only [recomputeJobNextRunAtMs, computeJobNextRunAtMs_rescheduled, h]
  rfl

theorem recomputeDue_cases (backoffMs : Option (List ℚ)) (nowMs : ℚ) (plan : CronJob) :
    recomputeDue backoffMs nowMs plan = recomputeJobNextRunAtMs backoffMs plan nowMs ∨
      recomputeDue backoffMs nowMs plan = (plan, false) ∧ hasScheduledNextRunAtMs plan.state.nextRunAtMs := by
  unfold recomputeDue
  dsimp only
  split
  · exact .inl rfl
  · rename_i hcalm
    simp only [Bool.or_eq_true, not_or, Bool.not_eq_true', Bool.not_eq_false] at hcalm
    exact .inr ⟨rfl, hcalm.1.1⟩

variable (henabled : isJobEnabled job = true) (hstuck : isStuck job nowMs = false)

include henabled hstuck

theorem walk_rescheduled : (walkJob (recomputeDue backoffMs nowMs) nowMs
    (rescheduled job nowMs nextRunAtMs job.state.runningAtMs scheduleErrorCount)).1 =
      (recomputeDue backoffMs nowMs (rescheduled job nowMs (nextRunAtMs.filter (0 < ·)) job.state.runningAtMs
        scheduleErrorCount)).1 := by
  have hplan : ∀ plan, plan = rescheduled job nowMs nextRunAtMs job.state.runningAtMs scheduleErrorCount →
      isJobEnabled plan ∧ isStuck plan nowMs = false := by
    rintro _ rfl
    exact ⟨henabled, hstuck⟩
  rw [walkJob, tick_enabled (hplan _ rfl).1, (hplan _ rfl).2, rescheduled_again]
  rfl

/-- Where the second pass recomputes it finds what the first one wrote, and elsewhere it leaves that. -/
theorem walk_again (h : computeJobNextRunAtMs job nowMs = .ok found) :
    (walkJob (recomputeDue backoffMs nowMs) nowMs (walkJob (recomputeDue backoffMs nowMs) nowMs job).1).1 =
      (walkJob (recomputeDue backoffMs nowMs) nowMs job).1 := by
  obtain ⟨next, hnext⟩ := recompute_rescheduled backoffMs h
  have hfirst : (walkJob (recomputeDue backoffMs nowMs) nowMs job).1 = (recomputeDue backoffMs nowMs
      (rescheduled job nowMs (job.state.nextRunAtMs.filter (0 < ·)) job.state.runningAtMs
        job.state.scheduleErrorCount)).1 := by
    rw [walkJob, tick_enabled henabled, hstuck]
    rfl
  rw [hfirst]
  obtain hrecomputed | ⟨hkept, -⟩ := recomputeDue_cases backoffMs nowMs
    (rescheduled job nowMs (job.state.nextRunAtMs.filter (0 < ·)) job.state.runningAtMs job.state.scheduleErrorCount)
  · rw [hrecomputed, hnext, walk_rescheduled henabled hstuck]
    obtain hagain | ⟨hkept, hscheduled⟩ := recomputeDue_cases backoffMs nowMs
      (rescheduled job nowMs (next.filter (0 < ·)) job.state.runningAtMs (job.state.scheduleErrorCount.filter (· = 0)))
    · rw [hagain, hnext, Option.filter_filter]
      simp only [Bool.and_self]
    · rw [hkept]
      obtain ⟨x, hx, -⟩ := (Option.any_eq_true _ _).mp hscheduled
      rw [show next.filter (0 < ·) = next from hx.trans (Option.filter_eq_some_iff.mp hx).1.symm]
  · rw [hkept, walk_rescheduled henabled hstuck, Option.filter_filter]
    simpa only [Bool.and_self] using congrArg Prod.fst hkept

end

theorem walk_disabled {backoffMs : Option (List ℚ)} (h : isJobEnabled job = false) :
    (walkJob (recomputeDue backoffMs nowMs) nowMs job).1 =
      rescheduled job nowMs none none job.state.scheduleErrorCount := by
  simp [walkJob, normalizeJobTickState, rescheduled, h]

theorem recomputeNextRuns_again {backoffMs : Option (List ℚ)} {jobs : List CronJob}
    (h : ∀ job ∈ jobs, isStuck job nowMs = false ∧ ∃ found, computeJobNextRunAtMs job nowMs = .ok found) :
    (recomputeNextRuns backoffMs (recomputeNextRuns backoffMs jobs nowMs).1 nowMs).1 =
      (recomputeNextRuns backoffMs jobs nowMs).1 := by
  simp only [recomputeNextRuns, walkSchedulableJobs, map_map]
  refine map_congr_left fun job hjob => ?_
  obtain ⟨hstuck, found, hfound⟩ := h job hjob
  cases henabled : isJobEnabled job with
  | true => exact walk_again henabled hstuck hfound
  | false =>
    have hplan : isJobEnabled (rescheduled job nowMs none none job.state.scheduleErrorCount) = false := henabled
    rw [Function.comp_apply, walk_disabled henabled, walk_disabled hplan, rescheduled_again]
    rfl

/-- **From the epoch on, an enabled cron job runs next at the least time after now that is a slot after the epoch plus
its offset, and the times from the offset on that the recognizer accepts are the slots plus the offset. An interval job
runs after now, on its grid or its interval after its last run. A second pass at the same time changes no job, where no
marker is stuck and no schedule fails.** -/
theorem nextRuns_exact (h : HasSlots expr tz slots) (backoffMs : Option (List ℚ)) (nowMs : ℚ) :
    (∀ job staggerMs, job.schedule = .cron expr tz staggerMs →
      (isJobEnabled job = true → 0 ≤ nowMs → ∃ found, computeJobNextRunAtMs job nowMs = .ok found ∧
        IsNext (shifted slots job.offsetMs) nowMs found) ∧
      ∀ t : ℚ, job.offsetMs ≤ t → ∃ accepted, isStaggeredCronRunAtMs job t = .ok accepted ∧
        (accepted = true ↔ t - job.offsetMs ∈ slots)) ∧
    (∀ job everyMs anchorMs, job.schedule = .every (some everyMs) anchorMs → isJobEnabled job = true →
      ∃ next, computeJobNextRunAtMs job nowMs = .ok (some next) ∧ nowMs < next ∧
        ((∃ lastRun ∈ job.state.lastRunAtMs, next = ⌊lastRun⌋ + max 1 (⌊everyMs⌋ : ℚ)) ∨
          OnGrid (resolveEveryAnchorMs anchorMs (job.createdAtMs.getD nowMs)) (max 1 (⌊everyMs⌋ : ℚ)) next)) ∧
    ∀ jobs, (∀ job ∈ jobs, isStuck job nowMs = false ∧ ∃ found, computeJobNextRunAtMs job nowMs = .ok found) →
      (recomputeNextRuns backoffMs (recomputeNextRuns backoffMs jobs nowMs).1 nowMs).1 =
        (recomputeNextRuns backoffMs jobs nowMs).1 :=
  ⟨fun _ _ hjob => ⟨h.computed hjob, fun _ => h.recognized hjob⟩,
    fun _ _ _ => computeJobNextRunAtMs_every, fun _ => recomputeNextRuns_again⟩

/-- The start of 2030. -/
def newYear : ℚ := 1893456000000

abbrev newYearHost : Croner :=
  { plainHost with
    nextRun := fun _ _ date => .ok (if date < newYear then some newYear else none)
    previousRun := fun _ _ date => .ok (if newYear < ⌊date / 1000⌋ * 1000 then some newYear else none)
    digestWord := fun _ => 7 }

omit [Croner] in
theorem newYearHost_hasSlots : @HasSlots newYearHost (some (js "0 0 0 1 1 * 2030")) none {newYear} := by
  let := newYearHost
  refine ⟨fun _ hslot => ⟨1893456000, by rw [hslot]; norm_num [newYear]⟩,
    .inr ⟨_, rfl, fun date => ⟨⟨_, rfl, ?_⟩, _, rfl, ?_⟩⟩⟩
  · split
    · rename_i hlt
      exact ⟨⟨rfl, hlt⟩, fun _ hx => hx.1.ge⟩
    · rename_i hge
      exact fun _ hx => hx ▸ not_lt.mp hge
  · split
    · rename_i hlt
      exact ⟨⟨rfl, hlt⟩, fun _ hx => hx.1.le⟩
    · rename_i hge
      exact fun _ hx => hx ▸ not_lt.mp hge

def newYearJob : CronJob where
  id := js "greeting"
  schedule := .cron (some (js "0 0 0 1 1 * 2030")) none (some 1000)

omit [Croner] in
theorem nextRuns_exact_newYear : ∃ found, @computeJobNextRunAtMs newYearHost newYearJob 0 = .ok found ∧
    IsNext (shifted {newYear} (@CronJob.offsetMs newYearHost newYearJob)) 0 found := by
  let := newYearHost
  exact ((nextRuns_exact newYearHost_hasSlots none 0).1 newYearJob _ rfl).1 rfl le_rfl

omit [Croner] in
theorem last_run_off_grid : ¬∀ [Croner] (job : CronJob) (everyMs : ℚ) (anchorMs : Option ℚ) (nowMs next : ℚ),
    job.schedule = .every (some everyMs) anchorMs → computeJobNextRunAtMs job nowMs = .ok (some next) →
      OnGrid (resolveEveryAnchorMs anchorMs (job.createdAtMs.getD nowMs)) (max 1 (⌊everyMs⌋ : ℚ)) next := by
  intro hall
  let := plainHost
  obtain ⟨steps, hsteps⟩ := hall
    { id := js "poll", schedule := .every (some 10) (some 0), state := { lastRunAtMs := some 5 } }
    10 (some 0) 5 15 rfl (by decide +kernel)
  have hgrid : (15 : ℚ) = steps * 10 := by simpa [resolveEveryAnchorMs] using hsteps
  have hsteps' : 15 = steps * 10 := by exact_mod_cast hgrid
  omega

end ClawWorks.Cron
