import ClawWorks.Enterprise.ActionEffect

/-!
# An action inside its write transaction

`invokeOntologyAction` runs statement by statement inside a transaction of the caller, and an error it returns does not
roll that transaction back: what was written before the error stays written. `StoreProgram` is that reading, with every
store access in its place.
-/

namespace ClawWorks

variable {ν : Type}

/-! ## Programs of a transaction -/

/-- Statements that read and write the store and may return an error, which skips the rest and rolls nothing back. -/
def StoreProgram (ν α : Type) :=
  ObjectStore ν → Except JsString α × ObjectStore ν

namespace StoreProgram

variable {α β : Type}

instance : Monad (StoreProgram ν) where
  pure value := fun database => (.ok value, database)
  bind program next := fun database =>
    match program database with
    | (Except.error error, database) => (Except.error error, database)
    | (Except.ok value, database) => next value database

def fail (error : JsString) : StoreProgram ν α :=
  fun database => (.error error, database)

def query (read : ObjectStore ν → Except JsString α) : StoreProgram ν α :=
  fun database => (read database, database)

def check (error? : ObjectStore ν → Option JsString) : StoreProgram ν Unit :=
  query fun database =>
    match error? database with
    | some error => .error error
    | none => .ok ()

def write (update : ObjectStore ν → ObjectStore ν) : StoreProgram ν Unit :=
  fun database => (.ok (), update database)

def writeAll (items : List β) (update : ObjectStore ν → β → ObjectStore ν) : StoreProgram ν Unit :=
  match items with
  | [] => pure ()
  | item :: items => do
    write (update · item)
    writeAll items update

def Computes (program : StoreProgram ν α) (read : ObjectStore ν → Except JsString α) : Prop :=
  ∀ database, program database = (read database, database)

theorem bind_of_ok {program : StoreProgram ν α} {database after : ObjectStore ν} {value : α}
    (h : program database = (.ok value, after)) (next : α → StoreProgram ν β) :
    (program >>= next) database = next value after := by
  change (match program database with
    | (Except.error error, database) => (Except.error error, database)
    | (Except.ok value, database) => next value database) = _
  rw [h]

theorem bind_of_error {program : StoreProgram ν α} {database after : ObjectStore ν} {error : JsString}
    (h : program database = (.error error, after)) (next : α → StoreProgram ν β) :
    (program >>= next) database = (.error error, after) := by
  change (match program database with
    | (Except.error error, database) => (Except.error error, database)
    | (Except.ok value, database) => next value database) = _
  rw [h]

theorem writeAll_apply (items : List β) (update : ObjectStore ν → β → ObjectStore ν) (database : ObjectStore ν) :
    writeAll items update database = (.ok (), items.foldl update database) := by
  induction items generalizing database with
  | nil => rfl
  | cons item items ih => exact ih (update database item)

end StoreProgram

open StoreProgram

variable [JsNumber ν]

def planWritesIn (scope : NodeOntologyScope) (action : OntologyAction) (args : OntologyRecord ν) :
    List ObjectWriteEffect → JsMap JsString (PlannedWrite ν) → List JsString →
      StoreProgram ν (JsMap JsString (PlannedWrite ν) × List JsString)
  | [], targets, consumed => return (targets, consumed)
  | effect :: effects, targets, consumed => do
    let (write, consumed) ← query fun database => planEffect database scope action args effect consumed
    let target := targetOf write.object
    if (targets.get target).isSome then
      fail (js "action " ++ quoted action.id ++ js " declares more than one effect on " ++ quoted target ++
        js "; effects are not ordered, so one object may be written once")
    else planWritesIn scope action args effects (targets.set target write) consumed

/-- Look up the ends of the planned links, in order. -/
def checkEndpointsIn (action : OntologyAction) (targets : JsMap JsString (PlannedWrite ν)) :
    List PlannedLink → StoreProgram ν Unit
  | [] => pure ()
  | link :: links => do
    check fun database => linkEndpointError database action targets [link]
    checkEndpointsIn action targets links

def outcomeOf (plan : ActionPlan ν) (args : OntologyRecord ν) : OntologyActionOutcome ν where
  writes := plan.writes.map (fun write => .object write.object.entity write.object.objectId write.kind) ++
    plan.links.map fun link =>
      .edge link.edge.relationship link.edge.fromObjectId link.edge.toObjectId link.kind
  unmappedParameters := args.filter (·.1 ∉ plan.consumed)

variable (scope : NodeOntologyScope) (action : OntologyAction) (args : OntologyRecord ν)

/-- Apply one action's declared effects to the object store, inside the caller's write transaction. -/
def invokeOntologyActionIn (now : Nat) : StoreProgram ν (OntologyActionOutcome ν) :=
  match validateParameters action args with
  | some error => fail error
  | none =>
  if (writeEffects action).isEmpty && (linkEffects action).isEmpty then fail (readOnlyError action)
  else do
    -- plan: every effect is resolved and checked before any of them writes
    let (targets, consumed) ← planWritesIn scope action args (writeEffects action) [] []
    let (links, consumed) ← query fun _ => planLinks scope action args (linkEffects action) [] consumed
    checkEndpointsIn action targets links
    -- apply
    let plan : ActionPlan ν := ⟨targets, links, consumed⟩
    writeAll plan.writes (applyWrite now)
    writeAll plan.links (applyLink now)
    return outcomeOf plan args

/-- The error of a name the step's ontology does not have. -/
def outOfScopeMessage (kind : String) (requested : JsString) (available : List JsString) : JsString :=
  js kind ++ js " " ++ quoted requested ++ js " is not in the ontology of this workflow step. Available " ++ js kind ++
    js "s: " ++ if available.isEmpty then js "(none)" else joinNames (toSorted available)

def invokeActionTool (runs : ActiveRuns) (runId actionId : JsString) (args : OntologyRecord ν) (now : Nat) :
    StoreProgram ν (OntologyActionOutcome ν) :=
  match resolveActiveOntologyScope runs runId with
  | none => fail (js "this run is not governed by a workflow tree, so it has no ontology")
  | some scope =>
  if trim actionId = [] then fail (js "action required")
  else
  match scope.actions.get (trim actionId) with
  | none => fail (outOfScopeMessage "action" (trim actionId) (scope.actions.map (·.1)))
  | some action => invokeOntologyActionIn scope action args now

theorem computes_planWritesIn
    (effects : List ObjectWriteEffect) (targets : JsMap JsString (PlannedWrite ν)) (consumed : List JsString) :
    (planWritesIn scope action args effects targets consumed).Computes
      (planWrites · scope action args effects targets consumed) := by
  induction effects generalizing targets consumed with
  | nil => exact fun _ => rfl
  | cons effect effects ih =>
    intro database
    unfold planWritesIn
    cases hplan : planEffect database scope action args effect consumed with
    | error error =>
      have hquery : query (planEffect · scope action args effect consumed) database = (.error error, database) := by
        rw [query, hplan]
      rw [bind_of_error hquery]
      simp only [planWrites, hplan]
    | ok entry =>
      have hquery : query (planEffect · scope action args effect consumed) database = (.ok entry, database) := by
        rw [query, hplan]
      rw [bind_of_ok hquery]
      simp only [planWrites, hplan]
      split
      · rfl
      · exact ih _ _ database

omit [JsNumber ν] in
theorem computes_checkEndpointsIn (targets : JsMap JsString (PlannedWrite ν)) (links : List PlannedLink) :
    (checkEndpointsIn action targets links).Computes fun database =>
      (linkEndpointError database action targets links).elim (.ok ()) .error := by
  induction links with
  | nil => exact fun _ => rfl
  | cons link links ih =>
    intro database
    have hsplit : linkEndpointError database action targets (link :: links) =
        (linkEndpointError database action targets [link]).or (linkEndpointError database action targets links) := by
      unfold linkEndpointError
      rw [← List.findSome?_append]
      rfl
    simp only [hsplit]
    unfold checkEndpointsIn
    cases hlink : linkEndpointError database action targets [link] with
    | some error => exact bind_of_error (by rw [check, query, hlink]) _
    | none =>
      have hcheck : check (linkEndpointError · action targets [link]) database = (.ok (), database) := by
        rw [check, query, hlink]
      rw [bind_of_ok hcheck]
      exact ih database

theorem invokeOntologyActionIn_eq (now : Nat) (database : ObjectStore ν) :
    invokeOntologyActionIn scope action args now database = ((invokeOntologyAction database scope action args now).2,
        (invokeOntologyAction database scope action args now).1) := by
  unfold invokeOntologyActionIn invokeOntologyAction planOntologyAction
  cases hvalid : validateParameters action args with
  | some error => rfl
  | none =>
  by_cases hempty : ((writeEffects action).isEmpty && (linkEffects action).isEmpty) = true
  · simp only [hempty, if_true]
    rfl
  simp only [hempty, Bool.false_eq_true, if_false]
  have hwrites := computes_planWritesIn scope action args (writeEffects action) [] [] database
  cases hplanned : planWrites database scope action args (writeEffects action) [] [] with
  | error error =>
    simp only [hplanned] at hwrites
    rw [bind_of_error hwrites]
  | ok entry =>
  simp only [hplanned] at hwrites
  rw [bind_of_ok hwrites]
  cases hlinked : planLinks scope action args (linkEffects action) [] entry.2 with
  | error error =>
    simp only [hlinked]
    exact bind_of_error rfl _
  | ok linked =>
  simp only [hlinked]
  have hlinks : query (fun _ => .ok linked) database = (.ok linked, database) := rfl
  rw [bind_of_ok hlinks]
  have hends := computes_checkEndpointsIn action entry.1 linked.1 database
  cases hend : linkEndpointError database action entry.1 linked.1 with
  | some error =>
    simp only [hend, Option.elim] at hends
    rw [bind_of_error hends]
  | none =>
    simp only [hend, Option.elim] at hends
    rw [bind_of_ok hends, bind_of_ok (writeAll_apply _ _ _), bind_of_ok (writeAll_apply _ _ _)]
    rfl

theorem store_of_refused {scope : NodeOntologyScope} {action : OntologyAction} {args : OntologyRecord ν}
    {now : Nat} {database after : ObjectStore ν} {error : JsString}
    (h : invokeOntologyActionIn scope action args now database = (.error error, after)) : after = database := by
  rw [invokeOntologyActionIn_eq] at h
  rcases invokeOntologyAction_cases database scope action args now with ⟨error, hrefused⟩ | ⟨plan, outcome, -, hran⟩
  · rw [hrefused] at h
    exact (Prod.mk.inj h).2.symm
  · rw [hran] at h
    cases (Prod.mk.inj h).1

/-- **A refused action leaves both tables as they were**, whatever it was refused for: called directly with any action,
or by name through the tool. -/
theorem invokeActionTool_refused {scope : NodeOntologyScope} {action : OntologyAction} {runs : ActiveRuns}
    {runId actionId : JsString} {args : OntologyRecord ν} {now : Nat} {database after : ObjectStore ν}
    {error : JsString}
    (h : invokeOntologyActionIn scope action args now database = (.error error, after) ∨
      invokeActionTool runs runId actionId args now database = (.error error, after)) : after = database := by
  rcases h with hcall | htool
  · exact store_of_refused hcall
  · unfold invokeActionTool at htool
    rcases hscope : resolveActiveOntologyScope runs runId with _ | stepScope <;> simp only [hscope] at htool
    · exact (Prod.mk.inj htool).2.symm
    by_cases hblank : trim actionId = [] <;> simp only [hblank, if_true, if_false] at htool
    · exact (Prod.mk.inj htool).2.symm
    rcases hnamed : stepScope.actions.get (trim actionId) with _ | named <;> simp only [hnamed] at htool
    · exact (Prod.mk.inj htool).2.symm
    · exact store_of_refused htool

/-- Selling a taken account to a new customer is refused at its second effect, and does not leave the customer
behind. -/
theorem openAccount_taken_refused :
    (invokeOntologyActionIn (ownsScope sellStep) openAccount (holderArgs "customerid" "2" "9") 1 soldStore).2 =
      soldStore := by
  let args := holderArgs "customerid" "2" "9"
  let after := (invokeOntologyActionIn (ownsScope sellStep) openAccount args 1 soldStore).2
  let taken := js "a " ++ quoted (js "account") ++ js " object with id " ++ quoted (js "9") ++ js " already exists"
  have herror : (invokeOntologyActionIn (ownsScope sellStep) openAccount args 1 soldStore).1 = .error taken := by
    decide
  have hrefused : invokeOntologyActionIn (ownsScope sellStep) openAccount args 1 soldStore = (.error taken, after) ∨
      invokeActionTool (fun _ => none) [] [] args 1 soldStore = (.error taken, after) :=
    Or.inl (Prod.ext herror rfl)
  exact invokeActionTool_refused hrefused

end ClawWorks
