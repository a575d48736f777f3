import ClawWorks.Enterprise.ExpressionTypes

/-!
# The properties an expression reads

An import checks that the properties an expression reads are declared. They are collected by one recursion over the
syntax tree and read by another.
-/

namespace ClawWorks

variable {ν : Type}

/-- `visit`: the properties found up to a node and in it. -/
def ExpressionNode.visit (found : List EnterpriseId) : ExpressionNode ν → List EnterpriseId
  | .literal _ => found
  | .property id => if id ∈ found then found else found ++ [id]
  | .unary _ operand => operand.visit found
  | .binary _ left right => right.visit (left.visit found)
  | .ternary condition whenTrue whenFalse => whenFalse.visit (whenTrue.visit (condition.visit found))
  | .call _ arg => arg.visit found
  | .call₂ _ first second => second.visit (first.visit found)

def ontologyExpressionProperties (expression : ExpressionNode ν) : List EnterpriseId :=
  toSorted (expression.visit [])

theorem mem_ontologyExpressionProperties {id : EnterpriseId} {expression : ExpressionNode ν} :
    id ∈ ontologyExpressionProperties expression ↔ id ∈ expression.visit [] :=
  List.mem_insertionSort _

theorem ExpressionNode.subset_visit (node : ExpressionNode ν) (found : List EnterpriseId) :
    found ⊆ node.visit found := by
  induction node generalizing found with
  | literal value => exact List.Subset.refl _
  | property id =>
    unfold visit
    split
    · exact List.Subset.refl _
    · exact List.subset_append_left _ _
  | unary op operand ih | call name arg ih => exact ih found
  | binary op left right ihLeft ihRight => exact List.Subset.trans (ihLeft found) (ihRight _)
  | ternary condition whenTrue whenFalse ihCondition ihTrue ihFalse =>
    exact List.Subset.trans (ihCondition found) (List.Subset.trans (ihTrue _) (ihFalse _))
  | call₂ name first second ihFirst ihSecond => exact List.Subset.trans (ihFirst found) (ihSecond _)

def OntologyScope.AgreeOn (ids : List EnterpriseId) (a b : OntologyScope ν) : Prop :=
  ∀ id ∈ ids, a.get id = b.get id

theorem OntologyScope.AgreeOn.mono {ids ids' : List EnterpriseId} {a b : OntologyScope ν} (h : AgreeOn ids' a b)
    (hsubset : ids ⊆ ids') : AgreeOn ids a b :=
  fun id hid => h id (hsubset hid)

section Agree

variable [JsArithmetic ν] [LowerCase] [UpperCase]

theorem evaluate_agree {a b : OntologyScope ν} (node : ExpressionNode ν) (found : List EnterpriseId)
    (h : OntologyScope.AgreeOn (node.visit found) a b) : evaluate a node = evaluate b node := by
  -- a node shares what it finds with the nodes after it
  induction node generalizing found with
  | literal value => rfl
  | property id =>
    have hid : id ∈ (ExpressionNode.property id : ExpressionNode ν).visit found := by
      unfold ExpressionNode.visit
      split
      · assumption
      · exact List.mem_append_right _ (List.mem_singleton_self id)
    rw [evaluate, evaluate, h id hid]
  | unary op operand ih =>
    cases op with
    | neg | not => rw [evaluate, evaluate, ih found h]
  | binary op left right ihLeft ihRight =>
    rw [evaluate, evaluate, ihLeft found (h.mono (right.subset_visit _)), ihRight _ h]
  | ternary condition whenTrue whenFalse ihCondition ihTrue ihFalse =>
    have hTrue := h.mono (whenFalse.subset_visit _)
    rw [evaluate, evaluate, ihCondition found (hTrue.mono (whenTrue.subset_visit _)), ihTrue _ hTrue, ihFalse _ h]
  | call name arg ih => rw [evaluate, evaluate, ih found h]
  | call₂ name first second ihFirst ihSecond =>
    rw [evaluate, evaluate, ihFirst found (h.mono (second.subset_visit _)), ihSecond _ h]

/-- **An expression reads only what it declares**: in scopes that agree on the collected properties it comes to the same
value or message. -/
theorem evaluateOntologyExpression_agree {expression : ExpressionNode ν} {a b : OntologyScope ν}
    (h : OntologyScope.AgreeOn (ontologyExpressionProperties expression) a b) :
    evaluateOntologyExpression expression a = evaluateOntologyExpression expression b := by
  have hvisit : OntologyScope.AgreeOn (expression.visit []) a b :=
    fun id hid => h id (mem_ontologyExpressionProperties.mpr hid)
  rw [evaluateOntologyExpression, evaluateOntologyExpression, evaluate_agree expression [] hvisit]

end Agree

section Score

attribute [local instance] asciiLowerCase asciiUpperCase

theorem evaluateOntologyExpression_agree_scored :
    evaluateOntologyExpression scored [(js "score", .number 9), (js "tier", .string (js "gold"))] =
      evaluateOntologyExpression scored [(js "tier", .null), (js "score", .number 9)] :=
  evaluateOntologyExpression_agree (by
    intro id hid
    obtain rfl : id = js "score" := List.mem_singleton.mp hid
    rfl)

end Score

end ClawWorks
