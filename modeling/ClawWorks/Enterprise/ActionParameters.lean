import ClawWorks.Enterprise.ObjectStore
import ClawWorks.Enterprise.Plan

/-!
# The declared parameters of an action

Both the write path and the governance gate hold the arguments of a call against the parameters an action declares:
no parameter declared twice, no argument that is not declared, no required one missing, none of another type. They
differ in the texts they report.
-/

namespace ClawWorks

variable {ν : Type}

def outwardTools (action : OntologyAction) : List JsString :=
  action.effects.filterMap fun
    | .call tool => some tool
    | _ => none

/-- `names.join(", ")`. -/
def joinNames (names : List JsString) : JsString :=
  List.intercalate (js ", ") names

/-- The `typeof` a value of a declared type has; `date` and `id` are strings. -/
def expressionTypeOf : OntologyValueType → JsString
  | .number => js "number"
  | .boolean => js "boolean"
  | .string | .date | .id => js "string"

/-- `null` is a value of every type. -/
def ontologyValueMatchesType (value : OntologyValue ν) (type : OntologyValueType) : Bool :=
  match value with
  | .null => true
  | value => value.typeOf = expressionTypeOf type

/-- `value === null`. -/
def OntologyValue.isNull (value : OntologyValue ν) : Bool :=
  match value with
  | .null => true
  | _ => false

/-- A property that is absent or `null`. -/
def isUnset : PropertyRead (OntologyValue ν) → Bool
  | .own value => value.isNull
  | .inherited _ => false
  | .undefined => true

def argumentError (args : OntologyRecord ν) (parameter : OntologyActionParameter) (missing : JsString)
    (mismatch : JsString → JsString) : Option JsString :=
  let read := args.read parameter.id
  if isUnset read then if parameter.required then some missing else none
  else
    match read with
    | .own value => if ontologyValueMatchesType value parameter.type then none else some (mismatch value.typeOf)
    | .inherited member => some (mismatch member.typeOf)
    | .undefined => none

def declaredArgumentsError (action : OntologyAction) (args : OntologyRecord ν)
    (parameterError : OntologyActionParameter → Option JsString) : Option JsString :=
  let declared := action.parameters.map (·.id)
  if declared.Nodup then
    match (args.map (·.1)).find? (· ∉ declared) with
    | some name =>
      some (js "action " ++ quoted action.id ++ js " does not declare a parameter " ++ quoted name ++
        js "; it declares: " ++
        (if declared.isEmpty then js "(none)" else joinNames (toSorted declared)))
    | none => action.parameters.findSome? parameterError
  else some (js "action " ++ quoted action.id ++ js " declares the same parameter more than once")

end ClawWorks
