import ClawWorks.Enterprise.Plan
import ClawWorks.Enterprise.SkillBody

/-!
# The skill appendix

The instructions of the skills that a plan's steps declare, charged to the prompt's budget one skill at a time, and the
section that the prompt renders them in.
-/

namespace ClawWorks

open List Markdown

/-! ## Resolving -/

def MAX_SKILLS : Nat := 8
def MAX_CHARS_PER_SKILL : Nat := 4000
def MAX_TOTAL_CHARS : Nat := 12000
def DEFAULT_SKILL_READ_BYTES : Nat := 256000

/-- What the prompt wraps the bodies in: one label line. -/
def APPENDIX_LABEL_CHARS : Nat :=
  (js "\nSkill instructions for the steps above ():\n").length

def perSkillWrapperCost (name : JsString) : Nat :=
  (js "### " ++ name ++ js "\n").length + name.length + 2

structure ResolvedSkillInstructions where
  name : JsString
  instructions : JsString

structure AvailableSkill where
  name : JsString
  filePath : JsString
  baseDir : JsString

def collectPlanDeclaredSkills (skillsOfSteps : List (List JsString)) : List JsString :=
  toSorted (distinct skillsOfSteps.flatten)

structure Appendix where
  resolved : List ResolvedSkillInstructions := []
  total : Nat := 0

/-- One round of the loop, which ends at `none`. A skill without a body, or whose file cannot be read, is skipped. -/
def resolveSkill (skillCap totalBudget : Nat) (body? : JsString → Option JsString) (appendix : Appendix)
    (name : JsString) : Option Appendix :=
  if skillCap ≤ appendix.resolved.length ∨ totalBudget ≤ appendix.total then none
  else
    match truthy? (body? name) with
    | none => some appendix
    | some body =>
      let room := min MAX_CHARS_PER_SKILL (totalBudget - appendix.total - perSkillWrapperCost name)
      if room = 0 then none
      else
        let instructions := boundBody body room
        some {
          resolved := appendix.resolved ++ [⟨name, instructions⟩]
          total := appendix.total + (instructions.length + perSkillWrapperCost name) }

def resolveSkills (skillCap totalBudget : Nat) (body? : JsString → Option JsString) :
    List JsString → Appendix → Appendix
  | [], appendix => appendix
  | name :: declared, appendix =>
    (resolveSkill skillCap totalBudget body? appendix name).elim appendix
      (resolveSkills skillCap totalBudget body? declared)

def skillCapOf (maxSkills : Option Nat) : Nat :=
  min MAX_SKILLS (maxSkills.getD MAX_SKILLS)

def totalBudgetOf (maxPromptChars : Option Nat) : Nat :=
  maxPromptChars.elim MAX_TOTAL_CHARS fun chars => min MAX_TOTAL_CHARS (chars - APPENDIX_LABEL_CHARS)

variable (readSkillBody : AvailableSkill → Nat → Option JsString) (skillsOfSteps : List (List JsString))
  (available : List AvailableSkill) (maxSkills maxSkillFileBytes : Option Nat)

def bodyOf (name : JsString) : Option JsString :=
  (JsMap.get (JsMap.setAll [] (available.map fun skill => (skill.name, skill))) name).bind
    (readSkillBody · (max 1 (maxSkillFileBytes.getD DEFAULT_SKILL_READ_BYTES)))

def resolveEnterpriseSkillInstructions (maxPromptChars : Option Nat) : List ResolvedSkillInstructions :=
  let declared := collectPlanDeclaredSkills skillsOfSteps
  if declared = [] ∨ available.isEmpty then []
  else if totalBudgetOf maxPromptChars = 0 ∨ skillCapOf maxSkills = 0 then []
  else (resolveSkills (skillCapOf maxSkills) (totalBudgetOf maxPromptChars)
    (bodyOf readSkillBody available maxSkillFileBytes) declared {}).resolved

/-! ## Rendering -/

variable (skills : List ResolvedSkillInstructions)

def skillSectionLines : List JsString :=
  if skills.isEmpty then []
  else
    (js "Skill instructions for the steps above (" ++ intercalate (js ", ") (skills.map (·.name)) ++ js "):") ::
      skills.flatMap fun skill => [js "### " ++ skill.name, skill.instructions]

def skillSection : JsString :=
  [NEWLINE].intercalate (skillSectionLines skills)

theorem length_intercalate_cons (separator line : JsString) (lines : List JsString) :
    (separator.intercalate (line :: lines)).length =
      line.length + (lines.map fun line => separator.length + line.length).sum := by
  induction lines generalizing line with
  | nil => simp
  | cons next lines ih =>
    rw [intercalate_cons_cons, length_append, length_append, ih, map_cons, sum_cons]
    omega

theorem perSkillWrapperCost_eq (name : JsString) : perSkillWrapperCost name = 2 * name.length + 7 := by
  have hlengths : (js "### ").length = 4 ∧ (js "\n").length = 1 := ⟨rfl, rfl⟩
  rw [perSkillWrapperCost, length_append, length_append, hlengths.1, hlengths.2]
  omega

/-- What is charged for a list of skills. -/
def charged : Nat :=
  (skills.map fun skill => skill.instructions.length + perSkillWrapperCost skill.name).sum

theorem sum_length_lines : ((skills.map (·.name)).map fun name => (js ", ").length + name.length).sum +
      ((skills.flatMap fun skill => [js "### " ++ skill.name, skill.instructions]).map
        fun line => [NEWLINE].length + line.length).sum = charged skills + skills.length := by
  induction skills with
  | nil => rfl
  | cons skill skills ih =>
    have hlengths : (js ", ").length = 2 ∧ (js "### ").length = 4 := ⟨rfl, rfl⟩
    simp [charged, perSkillWrapperCost_eq, hlengths.1, hlengths.2] at ih ⊢
    omega

theorem length_skillSection {skills : List ResolvedSkillInstructions} (h : skills ≠ []) :
    (skillSection skills).length + 4 = APPENDIX_LABEL_CHARS + charged skills + skills.length := by
  obtain ⟨skill, skills, rfl⟩ := exists_cons_of_ne_nil h
  have hlines := sum_length_lines (skill :: skills)
  have hcomma : (js ", ").length = 2 := rfl
  have hlabel : APPENDIX_LABEL_CHARS =
      (js "Skill instructions for the steps above (").length + (js "):").length + 2 := rfl
  rw [skillSection, skillSectionLines, if_neg (by simp), length_intercalate_cons, length_append,
    length_append, map_cons, length_intercalate_cons]
  rw [map_cons, map_cons, sum_cons] at hlines
  omega

/-! ## The budget -/

section Budget

variable {skillCap totalBudget room : Nat} {body? : JsString → Option JsString} {appendix next : Appendix}
  {name : JsString} {declared : List JsString}

/-- The total is what was charged, and within the budget. -/
def Appendix.Charged (totalBudget : Nat) (appendix : Appendix) : Prop :=
  appendix.total = charged appendix.resolved ∧ appendix.total ≤ totalBudget

/-- What was charged, with the characters that a section of more than four skills takes over it. -/
def Appendix.needed (appendix : Appendix) : Nat :=
  appendix.total + (appendix.resolved.length - 4)

/-- In no round a skill is taken that leaves too little of the room for what is needed then. -/
def LeavesRoom (skillCap totalBudget room : Nat) (body? : JsString → Option JsString) :
    List JsString → Appendix → Prop
  | [], _ => True
  | name :: declared, appendix =>
    ∀ next, resolveSkill skillCap totalBudget body? appendix name = some next →
      next.needed ≤ room ∧ LeavesRoom skillCap totalBudget room body? declared next

theorem resolveSkill_spec (h : resolveSkill skillCap totalBudget body? appendix name = some next)
    (hcharged : appendix.Charged totalBudget) : next.Charged totalBudget ∧ appendix.needed ≤ next.needed := by
  rw [resolveSkill] at h
  split at h
  · cases h
  split at h
  · obtain rfl := Option.some.inj h
    exact ⟨hcharged, le_rfl⟩
  rename_i body hbody
  dsimp only at h
  split at h
  · cases h
  rename_i hroom
  obtain rfl := Option.some.inj h
  have hbound := (length_boundBody body (Nat.one_le_iff_ne_zero.mpr hroom)).trans (min_le_right _ _)
  refine ⟨⟨?_, ?_⟩, ?_⟩
  · simp only [hcharged.1, charged, map_append, sum_append, map_singleton, sum_singleton]
  · dsimp only
    omega
  · simp only [Appendix.needed, length_append]
    omega

theorem resolveSkills_spec (hcharged : appendix.Charged totalBudget) :
    (resolveSkills skillCap totalBudget body? declared appendix).Charged totalBudget ∧
      appendix.needed ≤ (resolveSkills skillCap totalBudget body? declared appendix).needed := by
  induction declared generalizing appendix with
  | nil => exact ⟨hcharged, le_rfl⟩
  | cons name declared ih =>
    rw [resolveSkills]
    cases hnext : resolveSkill skillCap totalBudget body? appendix name with
    | none => exact ⟨hcharged, le_rfl⟩
    | some next =>
      obtain ⟨hstep, hle⟩ := resolveSkill_spec hnext hcharged
      exact ⟨(ih hstep).1, hle.trans (ih hstep).2⟩

theorem needed_le_iff (hcharged : appendix.Charged totalBudget) (hneeded : appendix.needed ≤ room) :
    (resolveSkills skillCap totalBudget body? declared appendix).needed ≤ room ↔
      LeavesRoom skillCap totalBudget room body? declared appendix := by
  induction declared generalizing appendix with
  | nil => exact iff_of_true hneeded trivial
  | cons name declared ih =>
    rw [resolveSkills, LeavesRoom]
    cases hnext : resolveSkill skillCap totalBudget body? appendix name with
    | none => exact iff_of_true hneeded nofun
    | some next =>
      have hstep := (resolveSkill_spec hnext hcharged).1
      constructor
      · rintro hall _ ⟨⟩
        have hle := (resolveSkills_spec hstep).2.trans hall
        exact ⟨hle, (ih hstep hle).mp hall⟩
      · intro hrounds
        obtain ⟨hle, hleaves⟩ := hrounds next rfl
        exact (ih hstep hle).mpr hleaves

theorem resolveSkills_of_none (h : ∀ name, body? name = none) :
    (resolveSkills skillCap totalBudget body? declared appendix) = appendix := by
  induction declared with
  | nil => rfl
  | cons name declared ih =>
    rw [resolveSkills, resolveSkill, h]
    split
    · rfl
    · exact ih

end Budget

theorem resolveEnterpriseSkillInstructions_eq (maxPromptChars : Option Nat) :
    resolveEnterpriseSkillInstructions readSkillBody skillsOfSteps available maxSkills maxSkillFileBytes
        maxPromptChars = (resolveSkills (skillCapOf maxSkills) (totalBudgetOf maxPromptChars)
        (bodyOf readSkillBody available maxSkillFileBytes) (collectPlanDeclaredSkills skillsOfSteps) {}).resolved := by
  rw [resolveEnterpriseSkillInstructions]
  split
  · rename_i hnothing
    rcases hnothing with hnone | hnone
    · rw [hnone, resolveSkills]
    · have hbody : ∀ name, bodyOf readSkillBody [] maxSkillFileBytes name = none := fun _ => rfl
      rw [isEmpty_iff.mp hnone, resolveSkills_of_none hbody]
  split
  · rename_i hclosed
    cases collectPlanDeclaredSkills skillsOfSteps with
    | nil => rfl
    | cons name declared =>
      have hstop : resolveSkill (skillCapOf maxSkills) (totalBudgetOf maxPromptChars)
          (bodyOf readSkillBody available maxSkillFileBytes) {} name = none :=
        if_pos (hclosed.symm.imp Nat.le_of_eq Nat.le_of_eq)
      rw [resolveSkills, hstop]
      rfl
  · rfl

/-- **The section keeps to the budget exactly if every skill after the fourth leaves room** for the characters that it
takes over what was charged. -/
theorem skillSection_within_iff (maxPromptChars : Nat) :
    (skillSection (resolveEnterpriseSkillInstructions readSkillBody skillsOfSteps available maxSkills
        maxSkillFileBytes (some maxPromptChars))).length ≤ maxPromptChars ↔
      LeavesRoom (skillCapOf maxSkills) (totalBudgetOf (some maxPromptChars)) (maxPromptChars - APPENDIX_LABEL_CHARS)
        (bodyOf readSkillBody available maxSkillFileBytes) (collectPlanDeclaredSkills skillsOfSteps) {} := by
  have hstart : Appendix.Charged (totalBudgetOf (some maxPromptChars)) {} := ⟨rfl, Nat.zero_le _⟩
  rw [← needed_le_iff hstart (Nat.zero_le _), resolveEnterpriseSkillInstructions_eq]
  obtain ⟨⟨htotal, hbudget⟩, -⟩ := @resolveSkills_spec (skillCapOf maxSkills) _
    (bodyOf readSkillBody available maxSkillFileBytes) _ (collectPlanDeclaredSkills skillsOfSteps) hstart
  generalize resolveSkills _ _ _ _ _ = appendix at htotal hbudget ⊢
  replace hbudget := hbudget.trans (min_le_right _ _)
  rw [Appendix.needed]
  cases hresolved : appendix.resolved with
  | nil =>
    rw [hresolved] at htotal
    exact iff_of_true (Nat.zero_le _) (htotal ▸ Nat.zero_le _)
  | cons skill skills =>
    have hlength := length_skillSection (cons_ne_nil skill skills)
    have hpos : 2 ≤ charged (skill :: skills) := by
      simp only [charged, perSkillWrapperCost_eq, map_cons, sum_cons]
      omega
    rw [← hresolved] at hlength hpos ⊢
    rw [← htotal] at hlength hpos
    omega

/-- Five skills of which the section takes one character more than its budget. -/
theorem five_skills_overrun :
    ¬∀ (readSkillBody : AvailableSkill → Nat → Option JsString) (skillsOfSteps : List (List JsString))
      (available : List AvailableSkill) (maxSkills maxSkillFileBytes : Option Nat) (maxPromptChars : Nat),
      (skillSection (resolveEnterpriseSkillInstructions readSkillBody skillsOfSteps available maxSkills
        maxSkillFileBytes (some maxPromptChars))).length ≤ maxPromptChars := by
  intro hall
  let names := [js "a", js "b", js "c", js "d", js "e"]
  exact absurd (hall (fun _ _ => some (js "x")) [names] (names.map fun name => ⟨name, name, name⟩) none none 94)
    (by decide +kernel)

end ClawWorks
