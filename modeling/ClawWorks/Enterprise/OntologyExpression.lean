import ClawWorks.Enterprise.ActionParameters
import ClawWorks.Js.LowerCase
import ClawWorks.Js.Number

/-!
# The expression language of ontology functions

A derived value is computed from an object's properties by an expression: `evaluate` computes it, `infer` checks it
against the declared property types. Both were written over one syntax tree and each has null rules of its own.

A call has its arguments as fields, one or two, so a call with the wrong number of arguments cannot be built; the parser
is where the arity is checked.
-/

namespace ClawWorks

/-! ## Syntax -/

inductive OntologyLiteral (ν : Type)
  | string (value : JsString)
  | number (value : ν)
  | boolean (value : Bool)
  | null

inductive UnaryOp
  | neg
  | not

inductive BinaryOp
  | or
  | and
  | eq
  | ne
  | lt
  | le
  | gt
  | ge
  | add
  | sub
  | mul
  | div
  | rem
  deriving DecidableEq, Repr

inductive UnaryCall
  | abs
  | round
  | floor
  | ceil
  | lower
  | upper
  | length
  deriving Repr

/-- Callable helpers of two arguments. -/
inductive BinaryCall
  | min
  | max
  | coalesce
  deriving Repr

inductive ExpressionNode (ν : Type)
  | literal (value : OntologyLiteral ν)
  | property (id : EnterpriseId)
  | unary (op : UnaryOp) (operand : ExpressionNode ν)
  | binary (op : BinaryOp) (left right : ExpressionNode ν)
  | ternary (condition whenTrue whenFalse : ExpressionNode ν)
  | call (name : UnaryCall) (arg : ExpressionNode ν)
  | call₂ (name : BinaryCall) (first second : ExpressionNode ν)

/-- An operator as it is written. -/
def UnaryOp.text : UnaryOp → JsString
  | .neg => js "-"
  | .not => js "!"

def BinaryOp.text : BinaryOp → JsString
  | .or => js "||"
  | .and => js "&&"
  | .eq => js "=="
  | .ne => js "!="
  | .lt => js "<"
  | .le => js "<="
  | .gt => js ">"
  | .ge => js ">="
  | .add => js "+"
  | .sub => js "-"
  | .mul => js "*"
  | .div => js "/"
  | .rem => js "%"

/-- A helper as it is written. -/
def UnaryCall.text : UnaryCall → JsString
  | .abs => js "abs"
  | .round => js "round"
  | .floor => js "floor"
  | .ceil => js "ceil"
  | .lower => js "lower"
  | .upper => js "upper"
  | .length => js "length"

def BinaryCall.text : BinaryCall → JsString
  | .min => js "min"
  | .max => js "max"
  | .coalesce => js "coalesce"

/-! ## Evaluation -/

variable {ν : Type}

def OntologyLiteral.value : OntologyLiteral ν → OntologyValue ν
  | .string s => .string s
  | .number n => .number n
  | .boolean b => .boolean b
  | .null => .null

inductive ExpressionType
  | number
  | string
  | boolean
  | null
  deriving DecidableEq, Repr

def ExpressionType.text : ExpressionType → JsString
  | .number => js "number"
  | .string => js "string"
  | .boolean => js "boolean"
  | .null => js "null"

inductive EvalError (ν : Type)
  | expects (context : JsString) (wanted : ExpressionType) (got : OntologyValue ν)
  | unordered (op : BinaryOp) (left right : OntologyValue ν)
  | divisionByZero
  | nonFinite

def EvalError.message : EvalError ν → JsString
  | .expects context wanted got =>
    context ++ js " expects a " ++ wanted.text ++ js ", got " ++ got.typeOrNull
  | .unordered op left right =>
    quoted op.text ++ js " expects two numbers or two strings, got " ++ left.typeOrNull ++ js " and " ++
      right.typeOrNull
  | .divisionByZero => js "division by zero"
  | .nonFinite => js "expression produced a non-finite number"

abbrev Evaluation (ν : Type) :=
  Except (EvalError ν)

variable (context : JsString)

def asNumber : OntologyValue ν → Evaluation ν ν
  | .number n => .ok n
  | value => .error (.expects context .number value)

def asString : OntologyValue ν → Evaluation ν JsString
  | .string s => .ok s
  | value => .error (.expects context .string value)

def asBoolean : OntologyValue ν → Evaluation ν Bool
  | .boolean b => .ok b
  | value => .error (.expects context .boolean value)

/-- `String.prototype.toUpperCase`, from the Unicode tables of the engine. -/
class UpperCase where
  toUpperCase : JsString → JsString

variable [JsArithmetic ν]

/-- `left === right`. -/
def strictEquals : OntologyValue ν → OntologyValue ν → Bool
  | .string a, .string b => a = b
  | .number a, .number b => JsArithmetic.eq a b
  | .boolean a, .boolean b => a = b
  | .null, .null => true
  | _, _ => false

def orderedCompare {α : Type} (lt le : α → α → Bool) (op : BinaryOp) (left right : α) : Bool :=
  match op with
  | .lt => lt left right
  | .le => le left right
  | .gt => lt right left
  | _ => le right left

variable (op : BinaryOp)

/-- Ordering compares numbers with numbers and strings with strings. -/
def compare : OntologyValue ν → OntologyValue ν → Evaluation ν Bool
  | .number a, .number b => .ok (orderedCompare JsArithmetic.lt JsArithmetic.le op a b)
  | .string a, .string b => .ok (orderedCompare (· < ·) (· ≤ ·) op a b)
  | left, right => .error (.unordered op left right)

def arithmetic (apply : ν → ν → ν) (left right : OntologyValue ν) : Evaluation ν (OntologyValue ν) := do
  let left ← asNumber (quoted op.text) left
  let right ← asNumber (quoted op.text) right
  return .number (apply left right)

def division (apply : ν → ν → ν) (left right : OntologyValue ν) : Evaluation ν (OntologyValue ν) := do
  let divisor ← asNumber (quoted op.text) right
  if JsArithmetic.eq divisor (JsArithmetic.ofNat 0) then .error .divisionByZero
  else
    let left ← asNumber (quoted op.text) left
    return .number (apply left divisor)

/-- `+` concatenates two strings or adds two numbers. -/
def addition (left right : OntologyValue ν) : Evaluation ν (OntologyValue ν) :=
  match left, right with
  | .string _, _ | _, .string _ => do
    let left ← asString (quoted BinaryOp.add.text) left
    let right ← asString (quoted BinaryOp.add.text) right
    return .string (left ++ right)
  | _, _ => arithmetic .add JsArithmetic.add left right

/-- A binary operator. The logical ones look at the right operand only where the left one leaves it open. -/
def evaluateBinary (left right : Evaluation ν (OntologyValue ν)) : Evaluation ν (OntologyValue ν) := do
  match op with
  | .and =>
    if ← asBoolean (quoted op.text) (← left) then return .boolean (← asBoolean (quoted op.text) (← right))
    else return .boolean false
  | .or =>
    if ← asBoolean (quoted op.text) (← left) then return .boolean true
    else return .boolean (← asBoolean (quoted op.text) (← right))
  | op =>
    let left ← left
    let right ← right
    match op with
    | .eq => return .boolean (strictEquals left right)
    | .ne => return .boolean (!strictEquals left right)
    | .lt | .le | .gt | .ge => return .boolean (← compare op left right)
    | .add => addition left right
    | .sub => arithmetic op JsArithmetic.sub left right
    | .mul => arithmetic op JsArithmetic.mul left right
    | .div => division op JsArithmetic.div left right
    | _ => division op JsArithmetic.rem left right

/-- A helper of one argument. -/
def evaluateCall [LowerCase] [UpperCase] (name : UnaryCall) (arg : Evaluation ν (OntologyValue ν)) :
    Evaluation ν (OntologyValue ν) := do
  let arg ← arg
  let context := quoted name.text
  match name with
  | .abs => return .number (JsArithmetic.abs (← asNumber context arg))
  | .round => return .number (JsArithmetic.round (← asNumber context arg))
  | .floor => return .number (JsArithmetic.floor (← asNumber context arg))
  | .ceil => return .number (JsArithmetic.ceil (← asNumber context arg))
  | .lower => return .string (toLowerCase (← asString context arg))
  | .upper => return .string (UpperCase.toUpperCase (← asString context arg))
  | .length => return .number (JsArithmetic.ofNat (← asString context arg).length)

/-- A helper of two arguments: the fallback of `coalesce` is evaluated where it is needed. -/
def evaluateCall₂ (name : BinaryCall) (first second : Evaluation ν (OntologyValue ν)) :
    Evaluation ν (OntologyValue ν) := do
  match name with
  | .coalesce =>
    let value ← first
    if value.isNull then second else return value
  | name =>
    let first ← first
    let second ← second
    let context := quoted name.text
    let apply := match name with
      | .min => JsArithmetic.min
      | _ => JsArithmetic.max
    let first ← asNumber context first
    let second ← asNumber context second
    return .number (apply first second)

/-- A result that is a number is finite. -/
def finite : OntologyValue ν → Evaluation ν (OntologyValue ν)
  | .number n => if JsArithmetic.isFinite n then .ok (.number n) else .error .nonFinite
  | value => .ok value

/-- The properties an expression reads: absent ones are `null`, and nothing is inherited. -/
abbrev OntologyScope (ν : Type) := OntologyRecord ν

def evaluate [LowerCase] [UpperCase] (scope : OntologyScope ν) : ExpressionNode ν → Evaluation ν (OntologyValue ν)
  | .literal value => finite value.value
  | .property id => finite ((JsMap.get scope id).getD .null)
  | .unary .neg operand => do
    finite (.number (JsArithmetic.neg (← asNumber (quoted UnaryOp.neg.text) (← evaluate scope operand))))
  | .unary .not operand => do
    finite (.boolean (!(← asBoolean (quoted UnaryOp.not.text) (← evaluate scope operand))))
  | .binary op left right => do
    finite (← evaluateBinary op (evaluate scope left) (evaluate scope right))
  | .ternary condition whenTrue whenFalse => do
    if ← asBoolean (quoted (js "? :") ++ js " condition") (← evaluate scope condition) then
      finite (← evaluate scope whenTrue)
    else finite (← evaluate scope whenFalse)
  | .call name arg => do finite (← evaluateCall name (evaluate scope arg))
  | .call₂ name first second => do finite (← evaluateCall₂ name (evaluate scope first) (evaluate scope second))

/-- Evaluate against one object's properties: a value or a message. -/
def evaluateOntologyExpression [LowerCase] [UpperCase] (expression : ExpressionNode ν) (scope : OntologyScope ν) :
    Except JsString (OntologyValue ν) :=
  (evaluate scope expression).mapError EvalError.message

/-! ## Type checking -/

def OntologyValueType.expressionType : OntologyValueType → ExpressionType
  | .number => .number
  | .boolean => .boolean
  | .string | .date | .id => .string

abbrev OntologyPropertyTypes := JsMap EnterpriseId OntologyValueType

/-- `null` unifies with every type, two different types never do. -/
def unify (left right : ExpressionType) : Except JsString ExpressionType :=
  if left = right then .ok left
  else if left = .null then .ok right
  else if right = .null then .ok left
  else .error (context ++ js " mixes " ++ left.text ++ js " and " ++ right.text)

/-- Strict: `null` is not accepted. -/
def expect (wanted actual : ExpressionType) : Except JsString ExpressionType :=
  if actual = wanted then .ok wanted
  else .error (context ++ js " expects " ++ wanted.text ++ js ", got " ++ actual.text)

/-- Ordering and `+` need two operands that are no `null` literals. -/
def concreteOperand (left right : ExpressionType) : Except JsString ExpressionType :=
  if left = .null || right = .null then .error (context ++ js " cannot operate on null")
  else unify context left right

def inferBinary (left right : ExpressionType) : Except JsString ExpressionType := do
  let context := quoted op.text
  match op with
  | .and | .or =>
    let _ ← expect context .boolean left
    let _ ← expect context .boolean right
    return .boolean
  | .eq | .ne =>
    let _ ← unify context left right
    return .boolean
  | .lt | .le | .gt | .ge =>
    let operand ← concreteOperand context left right
    if operand = .number || operand = .string then return .boolean
    else .error (context ++ js " orders numbers or strings, got " ++ operand.text)
  | .add =>
    let operand ← concreteOperand context left right
    if operand = .number || operand = .string then return operand
    else .error (context ++ js " adds numbers or concatenates strings, got " ++ operand.text)
  | _ =>
    let _ ← expect context .number left
    let _ ← expect context .number right
    return .number

def inferCall (name : UnaryCall) (arg : ExpressionType) : Except JsString ExpressionType := do
  let context := quoted name.text
  match name with
  | .abs | .round | .floor | .ceil => expect context .number arg
  | .lower | .upper => expect context .string arg
  | .length =>
    let _ ← expect context .string arg
    return .number

def inferCall₂ (name : BinaryCall) (first second : ExpressionType) : Except JsString ExpressionType := do
  let context := quoted name.text
  match name with
  | .coalesce => unify context first second
  | _ =>
    let _ ← expect context .number first
    expect context .number second

def OntologyLiteral.expressionType : OntologyLiteral ν → ExpressionType
  | .string _ => .string
  | .number _ => .number
  | .boolean _ => .boolean
  | .null => .null

omit [JsArithmetic ν] in
def infer (properties : OntologyPropertyTypes) : ExpressionNode ν → Except JsString ExpressionType
  | .literal value => .ok value.expressionType
  | .property id =>
    match properties.get id with
    | some declared => .ok declared.expressionType
    | none => .error (js "\"$" ++ id ++ js "\" is not a declared property")
  | .unary .neg operand => do expect (quoted UnaryOp.neg.text) .number (← infer properties operand)
  | .unary .not operand => do expect (quoted UnaryOp.not.text) .boolean (← infer properties operand)
  | .binary op left right => do inferBinary op (← infer properties left) (← infer properties right)
  | .ternary condition whenTrue whenFalse => do
    let _ ← expect (quoted (js "? :") ++ js " condition") .boolean (← infer properties condition)
    unify (quoted (js "? :") ++ js " branches") (← infer properties whenTrue) (← infer properties whenFalse)
  | .call name arg => do inferCall name (← infer properties arg)
  | .call₂ name first second => do inferCall₂ name (← infer properties first) (← infer properties second)

def inferOntologyExpressionType (expression : ExpressionNode ν) (properties : OntologyPropertyTypes) :
    Except JsString ExpressionType :=
  infer properties expression

end ClawWorks
