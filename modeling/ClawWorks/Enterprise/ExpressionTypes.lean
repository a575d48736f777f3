import ClawWorks.Enterprise.OntologyExpression
import ClawWorks.Lib.Outcome

/-!
# Type soundness of expressions

An expression that type-checks evaluates to `null` or to a value of its type, or fails for a reason the types do not
exclude: an operand is `null`, a divisor is zero, a number is not finite (`Yields`).
-/

namespace ClawWorks

open Except

variable {ν : Type}

/-- A value of a type; `null` is one of every type, and the only one of the null type. -/
def ExpressionType.admits (type : ExpressionType) (value : OntologyValue ν) : Bool :=
  match type, value with
  | _, .null => true
  | .number, .number _ => true
  | .string, .string _ => true
  | .boolean, .boolean _ => true
  | _, _ => false

open ExpressionType

/-- The failures that types do not exclude: an operand is `null`, a divisor is zero, a number is not finite. -/
inductive EvalError.Excused : EvalError ν → Prop
  | nullOperand (context : JsString) (wanted : ExpressionType) : Excused (.expects context wanted .null)
  | nullLeft (op : BinaryOp) (right : OntologyValue ν) : Excused (.unordered op .null right)
  | nullRight (op : BinaryOp) (left : OntologyValue ν) : Excused (.unordered op left .null)
  | divisionByZero : Excused .divisionByZero
  | nonFinite : Excused .nonFinite

/-- The evaluation gives a value with a property, or fails for a reason that is excused. -/
abbrev Yields {α : Type} (result : Evaluation ν α) (admitted : α → Prop) : Prop :=
  Except.Yields result admitted EvalError.Excused

/-- Every typed property is `null` or a value of its type in the scope. -/
def ScopeTyped (properties : OntologyPropertyTypes) (scope : OntologyScope ν) : Prop :=
  ∀ id declared, properties.get id = some declared → ∀ value, JsMap.get scope id = some value →
    ontologyValueMatchesType value declared = true

variable {value : OntologyValue ν}

theorem yields_asNumber (h : number.admits value) (context : JsString) :
    Yields (asNumber context value) fun _ => True := by
  cases value with
  | number n => exact trivial
  | null => exact .nullOperand _ _
  | string s => cases h
  | boolean b => cases h
  | structured => cases h

theorem yields_asString (h : string.admits value) (context : JsString) :
    Yields (asString context value) fun _ => True := by
  cases value with
  | string s => exact trivial
  | null => exact .nullOperand _ _
  | number n => cases h
  | boolean b => cases h
  | structured => cases h

theorem yields_asBoolean (h : boolean.admits value)
    (context : JsString) : Yields (asBoolean context value) fun _ => True := by
  cases value with
  | boolean b => exact trivial
  | null => exact .nullOperand _ _
  | number n => cases h
  | string s => cases h
  | structured => cases h

variable {left right type : ExpressionType} {context : JsString}

theorem admits_of_unify (h : unify context left right = .ok type) (hvalue : left.admits value ∨ right.admits value) :
    type.admits value := by
  have hnull : null.admits value → type.admits value := by
    intro hadmits
    cases value with
    | null => cases type <;> rfl
    | _ => cases hadmits
  unfold unify at h
  split at h
  · rename_i hsame
    cases h
    exact hvalue.elim id fun hright => hsame ▸ hright
  split at h
  · rename_i hleft
    cases h
    exact hvalue.elim (fun hadmits => hnull (hleft ▸ hadmits)) id
  split at h
  · rename_i hright
    cases h
    exact hvalue.elim id fun hadmits => hnull (hright ▸ hadmits)
  · cases h

theorem expect_ok {wanted actual type : ExpressionType} (h : expect context wanted actual = .ok type) :
    actual = wanted ∧ type = wanted := by
  unfold expect at h
  split at h
  · rename_i hsame
    cases h
    exact ⟨hsame, rfl⟩
  · cases h

theorem concreteOperand_ok (h : concreteOperand context left right = .ok type) : left = type ∧ right = type := by
  unfold concreteOperand at h
  split at h
  · cases h
  rename_i hconcrete
  simp only [Bool.or_eq_true, decide_eq_true_eq, not_or] at hconcrete
  unfold unify at h
  rw [if_neg hconcrete.1, if_neg hconcrete.2] at h
  split at h
  · rename_i hsame
    cases h
    exact ⟨rfl, hsame.symm⟩
  · cases h

/-! ## One operation -/

variable [JsArithmetic ν]

theorem yields_finite {type : ExpressionType} (h : type.admits value) : Yields (finite value) (type.admits ·) := by
  cases value with
  | number n =>
    by_cases hfinite : JsArithmetic.isFinite n
    · rw [finite, if_pos hfinite]
      exact h
    · rw [finite, if_neg hfinite]
      exact EvalError.Excused.nonFinite
  | _ => exact h

theorem yields_compare {type : ExpressionType} (htype : type = .number ∨ type = .string) {left right : OntologyValue ν}
    (hleft : type.admits left) (hright : type.admits right) (op : BinaryOp) :
    Yields (compare op left right) fun _ => True := by
  rcases htype with rfl | rfl
  all_goals
    cases left <;> cases right <;> first
      | exact trivial
      | exact absurd hleft Bool.false_ne_true
      | exact absurd hright Bool.false_ne_true
      | exact EvalError.Excused.nullLeft _ _
      | exact EvalError.Excused.nullRight _ _

omit [JsArithmetic ν] in
theorem yields_arithmetic {left right : OntologyValue ν} (hleft : number.admits left)
    (hright : number.admits right) (op : BinaryOp) (apply : ν → ν → ν) :
    Yields (arithmetic op apply left right) (number.admits ·) :=
  (yields_asNumber hleft _).bind fun _ _ => (yields_asNumber hright _).bind fun _ _ => Except.Yields.pure rfl

theorem yields_division {left right : OntologyValue ν} (hleft : number.admits left)
    (hright : number.admits right) (op : BinaryOp) (apply : ν → ν → ν) :
    Yields (division op apply left right) (number.admits ·) := by
  refine (yields_asNumber hright _).bind fun divisor _ => ?_
  split
  · exact .divisionByZero
  · exact (yields_asNumber hleft _).bind fun _ _ => Except.Yields.pure rfl

theorem yields_addition {type : ExpressionType} (htype : type = .number ∨ type = .string) {left right : OntologyValue ν}
    (hleft : type.admits left) (hright : type.admits right) :
    Yields (addition left right) (type.admits ·) := by
  rcases htype with rfl | rfl
  · cases left with
    | number a | null =>
      cases right with
      | number b | null => exact yields_arithmetic hleft hright _ _
      | _ => cases hright
    | _ => cases hleft
  · cases left with
    | string a =>
      cases right with
      | string b => exact Except.Yields.pure rfl
      | null => exact .nullOperand _ _
      | _ => cases hright
    | null =>
      cases right with
      | string b | null => exact .nullOperand _ _
      | _ => cases hright
    | _ => cases hleft

variable {op : BinaryOp}

theorem yields_logical {left right : Evaluation ν (OntologyValue ν)}
    (hleft : Yields left (boolean.admits ·))
    (hright : Yields right (boolean.admits ·)) (hop : op = .and ∨ op = .or) :
    Yields (evaluateBinary op left right) (boolean.admits ·) := by
  have hrest (context : JsString) : Yields (do return .boolean (← asBoolean context (← right)))
      (boolean.admits (ν := ν) ·) :=
    hright.bind fun _ hvalue => (yields_asBoolean hvalue _).bind fun _ _ => Except.Yields.pure rfl
  rcases hop with rfl | rfl
  · refine hleft.bind fun value hvalue => (yields_asBoolean hvalue _).bind fun decided _ => ?_
    cases decided with
    | true => exact hrest _
    | false => exact Except.Yields.pure rfl
  · refine hleft.bind fun value hvalue => (yields_asBoolean hvalue _).bind fun decided _ => ?_
    cases decided with
    | true => exact Except.Yields.pure rfl
    | false => exact hrest _

theorem inferBinary_number (hop : op = .sub ∨ op = .mul ∨ op = .div ∨ op = .rem)
    (h : inferBinary op left right = .ok type) :
    left = .number ∧ right = .number ∧ type = .number := by
  have hchecks : (do
      let _ ← expect (quoted op.text) .number left
      let _ ← expect (quoted op.text) .number right
      return .number : Except JsString ExpressionType) = .ok type := by
    rcases hop with rfl | rfl | rfl | rfl <;> exact h
  obtain ⟨_, hleft, hrest⟩ := bind_eq_ok.mp hchecks
  obtain ⟨_, hright, htype⟩ := bind_eq_ok.mp hrest
  exact ⟨(expect_ok hleft).1, (expect_ok hright).1, (ok.inj htype).symm⟩

theorem inferBinary_ordered (hop : op = .lt ∨ op = .le ∨ op = .gt ∨ op = .ge)
    (h : inferBinary op left right = .ok type) :
    left = right ∧ (left = .number ∨ left = .string) ∧ type = .boolean := by
  have hchecks : (do
      let operand ← concreteOperand (quoted op.text) left right
      if operand = .number || operand = .string then return .boolean
      else .error (quoted op.text ++ js " orders numbers or strings, got " ++ operand.text) :
        Except JsString ExpressionType) = .ok type := by
    rcases hop with rfl | rfl | rfl | rfl <;> exact h
  obtain ⟨operand, hoperand, hrest⟩ := bind_eq_ok.mp hchecks
  obtain ⟨rfl, rfl⟩ := concreteOperand_ok hoperand
  split at hrest
  · rename_i hordered
    exact ⟨rfl, by simpa using hordered, (ok.inj hrest).symm⟩
  · cases hrest

theorem inferBinary_add (h : inferBinary .add left right = .ok type) :
    left = type ∧ right = type ∧ (type = .number ∨ type = .string) := by
  obtain ⟨operand, hoperand, hrest⟩ := bind_eq_ok.mp h
  obtain ⟨rfl, rfl⟩ := concreteOperand_ok hoperand
  split at hrest
  · rename_i hordered
    cases hrest
    exact ⟨rfl, rfl, by simpa using hordered⟩
  · cases hrest

theorem yields_evaluateBinary {leftType rightType type : ExpressionType}
    (h : inferBinary op leftType rightType = .ok type) {left right : Evaluation ν (OntologyValue ν)}
    (hleft : Yields left (leftType.admits ·)) (hright : Yields right (rightType.admits ·)) :
    Yields (evaluateBinary op left right) (type.admits ·) := by
  have hlogical (hop : op = .and ∨ op = .or) : Yields (evaluateBinary op left right) (type.admits ·) := by
    have hchecks : (do
        let _ ← expect (quoted op.text) .boolean leftType
        let _ ← expect (quoted op.text) .boolean rightType
        return .boolean : Except JsString ExpressionType) = .ok type := by
      rcases hop with rfl | rfl <;> exact h
    obtain ⟨_, hl, hrest⟩ := bind_eq_ok.mp hchecks
    obtain ⟨_, hr, htype⟩ := bind_eq_ok.mp hrest
    obtain ⟨rfl, -⟩ := expect_ok hl
    obtain ⟨rfl, -⟩ := expect_ok hr
    rw [← ok.inj htype]
    exact yields_logical hleft hright hop
  have hequality (hop : op = .eq ∨ op = .ne) : type = .boolean := by
    have hchecks : (do
        let _ ← unify (quoted op.text) leftType rightType
        return .boolean : Except JsString ExpressionType) = .ok type := by
      rcases hop with rfl | rfl <;> exact h
    obtain ⟨_, -, htype⟩ := bind_eq_ok.mp hchecks
    exact (ok.inj htype).symm
  have hordered (hop : op = .lt ∨ op = .le ∨ op = .gt ∨ op = .ge) :
      Yields (do return .boolean (← compare op (← left) (← right))) (type.admits (ν := ν) ·) := by
    obtain ⟨rfl, htype, rfl⟩ := inferBinary_ordered hop h
    exact hleft.bind fun _ hl => hright.bind fun _ hr =>
      (yields_compare htype hl hr op).bind fun _ _ => Except.Yields.pure rfl
  cases op with
  | and => exact hlogical (.inl rfl)
  | or => exact hlogical (.inr rfl)
  | eq =>
    rw [hequality (.inl rfl)]
    exact hleft.bind fun _ _ => hright.bind fun _ _ => Except.Yields.pure rfl
  | ne =>
    rw [hequality (.inr rfl)]
    exact hleft.bind fun _ _ => hright.bind fun _ _ => Except.Yields.pure rfl
  | lt | le | gt | ge => exact hordered (by simp)
  | add =>
    obtain ⟨rfl, rfl, htype⟩ := inferBinary_add h
    exact hleft.bind fun _ hl => hright.bind fun _ hr => yields_addition htype hl hr
  | sub | mul =>
    obtain ⟨rfl, rfl, rfl⟩ := inferBinary_number (by simp) h
    exact hleft.bind fun _ hl => hright.bind fun _ hr => yields_arithmetic hl hr _ _
  | div | rem =>
    obtain ⟨rfl, rfl, rfl⟩ := inferBinary_number (by simp) h
    exact hleft.bind fun _ hl => hright.bind fun _ hr => yields_division hl hr _ _

theorem yields_evaluateCall [LowerCase] [UpperCase] {name : UnaryCall} {argType type : ExpressionType}
    (h : inferCall name argType = .ok type) {arg : Evaluation ν (OntologyValue ν)}
    (harg : Yields arg (argType.admits ·)) : Yields (evaluateCall name arg) (type.admits ·) := by
  have hnumber (hname : name ∈ [.abs, .round, .floor, .ceil]) : argType = .number ∧ type = .number := by
    simp only [List.mem_cons, List.not_mem_nil, or_false] at hname
    rcases hname with rfl | rfl | rfl | rfl <;> exact expect_ok h
  have hstring (hname : name ∈ [.lower, .upper]) : argType = .string ∧ type = .string := by
    simp only [List.mem_cons, List.not_mem_nil, or_false] at hname
    rcases hname with rfl | rfl <;> exact expect_ok h
  cases name with
  | length =>
    obtain ⟨_, hstr, htype⟩ := bind_eq_ok.mp h
    obtain ⟨rfl, -⟩ := expect_ok hstr
    rw [← ok.inj htype]
    exact harg.bind fun _ hvalue => (yields_asString hvalue _).bind fun _ _ => Except.Yields.pure rfl
  | lower | upper =>
    obtain ⟨rfl, rfl⟩ := hstring (by simp)
    exact harg.bind fun _ hvalue => (yields_asString hvalue _).bind fun _ _ => Except.Yields.pure rfl
  | abs | round | floor | ceil =>
    obtain ⟨rfl, rfl⟩ := hnumber (by simp)
    exact harg.bind fun _ hvalue => (yields_asNumber hvalue _).bind fun _ _ => Except.Yields.pure rfl

theorem yields_evaluateCall₂ {name : BinaryCall} {firstType secondType type : ExpressionType}
    (h : inferCall₂ name firstType secondType = .ok type) {first second : Evaluation ν (OntologyValue ν)}
    (hfirst : Yields first (firstType.admits ·)) (hsecond : Yields second (secondType.admits ·)) :
    Yields (evaluateCall₂ name first second) (type.admits ·) := by
  cases name with
  | coalesce =>
    refine hfirst.bind fun value hvalue => ?_
    split
    · cases second with
      | error error => exact hsecond
      | ok fallback => exact admits_of_unify h (.inr hsecond)
    · exact admits_of_unify h (.inl hvalue)
  | min | max =>
    obtain ⟨_, hf, hs⟩ := bind_eq_ok.mp h
    obtain ⟨rfl, -⟩ := expect_ok hf
    obtain ⟨rfl, rfl⟩ := expect_ok hs
    exact hfirst.bind fun _ hvalue => hsecond.bind fun _ hvalue' =>
      (yields_asNumber hvalue _).bind fun _ _ => (yields_asNumber hvalue' _).bind fun _ _ => Except.Yields.pure rfl

/-! ## Expressions -/

omit [JsArithmetic ν] in
theorem admits_of_matchesType {declared : OntologyValueType}
    (h : ontologyValueMatchesType value declared) : declared.expressionType.admits value := by
  cases value <;> cases declared <;> first
    | rfl
    | simp only [ontologyValueMatchesType, OntologyValue.typeOf, expressionTypeOf] at h
      exact absurd (of_decide_eq_true h) (by decide)

/-- **An expression that type-checks evaluates to `null` or to a value of its type, or fails for an excused reason.** -/
theorem evaluate_yields [LowerCase] [UpperCase] {properties : OntologyPropertyTypes} {scope : OntologyScope ν}
    (hscope : ScopeTyped properties scope) {expression : ExpressionNode ν} {type : ExpressionType}
    (h : infer properties expression = .ok type) : Yields (evaluate scope expression) (type.admits ·) := by
  induction expression generalizing type with
  | literal value =>
    cases h
    exact yields_finite (by cases value <;> rfl)
  | property id =>
    unfold infer at h
    split at h
    · rename_i declared hdeclared
      cases h
      refine yields_finite ?_
      cases hvalue : JsMap.get scope id with
      | none => cases declared <;> rfl
      | some value => exact admits_of_matchesType (hscope id declared hdeclared value hvalue)
    · cases h
  | unary op operand ih =>
    cases op with
    | neg =>
      obtain ⟨operandType, hoperand, hexpect⟩ := bind_eq_ok.mp h
      obtain ⟨rfl, rfl⟩ := expect_ok hexpect
      exact (ih hoperand).bind fun _ hvalue => (yields_asNumber hvalue _).bind fun _ _ => yields_finite rfl
    | not =>
      obtain ⟨operandType, hoperand, hexpect⟩ := bind_eq_ok.mp h
      obtain ⟨rfl, rfl⟩ := expect_ok hexpect
      exact (ih hoperand).bind fun _ hvalue => (yields_asBoolean hvalue _).bind fun _ _ => yields_finite rfl
  | binary op left right ihl ihr =>
    obtain ⟨leftType, hleft, hrest⟩ := bind_eq_ok.mp h
    obtain ⟨rightType, hright, hop⟩ := bind_eq_ok.mp hrest
    exact (yields_evaluateBinary hop (ihl hleft) (ihr hright)).bind fun _ hvalue => yields_finite hvalue
  | ternary condition whenTrue whenFalse ihc iht ihf =>
    obtain ⟨conditionType, hcondition, hrest⟩ := bind_eq_ok.mp h
    obtain ⟨_, hexpect, hrest⟩ := bind_eq_ok.mp hrest
    obtain ⟨trueType, htrue, hrest⟩ := bind_eq_ok.mp hrest
    obtain ⟨falseType, hfalse, hunify⟩ := bind_eq_ok.mp hrest
    obtain ⟨rfl, -⟩ := expect_ok hexpect
    refine (ihc hcondition).bind fun _ hvalue => (yields_asBoolean hvalue _).bind fun decided _ => ?_
    cases decided with
    | true => exact (iht htrue).bind fun _ hvalue => yields_finite (admits_of_unify hunify (.inl hvalue))
    | false => exact (ihf hfalse).bind fun _ hvalue => yields_finite (admits_of_unify hunify (.inr hvalue))
  | call name arg ih =>
    obtain ⟨argType, harg, hcall⟩ := bind_eq_ok.mp h
    exact (yields_evaluateCall hcall (ih harg)).bind fun _ hvalue => yields_finite hvalue
  | call₂ name first second ihf ihs =>
    obtain ⟨firstType, hfirst, hrest⟩ := bind_eq_ok.mp h
    obtain ⟨secondType, hsecond, hcall⟩ := bind_eq_ok.mp hrest
    exact (yields_evaluateCall₂ hcall (ihf hfirst) (ihs hsecond)).bind fun _ hvalue => yields_finite hvalue

/-- What a type check says about every evaluation over properly typed properties. -/
def SoundlyTyped [LowerCase] [UpperCase] (expression : ExpressionNode ν) (type : ExpressionType)
    (scope : OntologyScope ν) :
    Prop :=
  match evaluateOntologyExpression expression scope with
  | .ok value => value = .null ∨ (type ≠ .null ∧ type.admits value = true)
  | .error message => ∃ error : EvalError ν, error.Excused ∧ evaluate scope expression = .error error ∧
      message = error.message

/-- **Type inference is sound for evaluation.** -/
theorem inferOntologyExpressionType_sound [LowerCase] [UpperCase] (expression : ExpressionNode ν)
    (properties : OntologyPropertyTypes) (scope : OntologyScope ν) (type : ExpressionType)
    (htype : inferOntologyExpressionType expression properties = .ok type) (hscope : ScopeTyped properties scope) :
    SoundlyTyped expression type scope := by
  have hyields := evaluate_yields hscope htype
  unfold SoundlyTyped evaluateOntologyExpression
  cases hevaluated : evaluate scope expression with
  | error error =>
    rw [hevaluated] at hyields
    exact ⟨error, hyields, rfl, rfl⟩
  | ok value =>
    rw [hevaluated] at hyields
    cases value with
    | null => exact Or.inl rfl
    | _ => exact Or.inr ⟨fun hnull => by rw [hnull] at hyields; exact absurd hyields Bool.false_ne_true, hyields⟩

section Score

attribute [local instance] asciiLowerCase

@[reducible] def asciiUpperCase : UpperCase where
  toUpperCase s := s.map fun u => if 97 ≤ u && u ≤ 122 then u - 32 else u

attribute [local instance] asciiUpperCase

/-- `coalesce($score, 10) / 4 >= 2`. -/
def scored : ExpressionNode ℚ :=
  .binary .ge (.binary .div (.call₂ .coalesce (.property (js "score")) (.literal (.number 10))) (.literal (.number 4)))
    (.literal (.number 2))

theorem inferOntologyExpressionType_sound_scored : SoundlyTyped scored .boolean [(js "score", .number 9)] :=
  inferOntologyExpressionType_sound scored [(js "score", .number)] [(js "score", .number 9)] .boolean (by decide) (by
    intro id declared hdeclared value hvalue
    have hid : js "score" = id := by
      by_contra hne
      simp [JsMap.get, hne] at hdeclared
    subst hid
    cases hdeclared
    cases hvalue
    decide)

end Score

end ClawWorks
