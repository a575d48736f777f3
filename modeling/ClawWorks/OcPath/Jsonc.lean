import ClawWorks.OcPath.Canonical
import Mathlib.Data.Nat.Digits.Defs
import Mathlib.Data.Rat.Defs

/-!
# Paths into JSONC documents

A path that names one node is resolved segment by segment.
-/

namespace ClawWorks.OcPath

open List

structure JsoncEntryOf (α : Type) where
  key : JsString
  value : α
  line : Nat

/-- A number is the text `String` gives for it. -/
inductive JsoncValue
  | object (entries : List (JsoncEntryOf JsoncValue)) (line : Option Nat)
  | array (items : List JsoncValue) (line : Option Nat)
  | string (value : JsString) (line : Option Nat)
  | number (text : JsString) (line : Option Nat)
  | boolean (value : Bool) (line : Option Nat)
  | null (line : Option Nat)

abbrev JsoncEntry := JsoncEntryOf JsoncValue

def JsoncValue.lineOf : JsoncValue → Option Nat
  | .object _ line | .array _ line | .string _ line | .number _ line | .boolean _ line | .null line => line

/-! ## Tokens -/

def PLUS : UInt16 := 43
def COMMA : UInt16 := 44

def POS_FIRST : JsString := js "$first"
def POS_LAST : JsString := js "$last"
def WILDCARD_SINGLE : JsString := js "*"
def WILDCARD_RECURSIVE : JsString := js "**"

def isPositionalSeg (seg : JsString) : Bool :=
  seg == POS_FIRST || seg == POS_LAST

/-- Union segment `{a,b,c}`. -/
def isUnionSeg (seg : JsString) : Bool :=
  2 ≤ seg.length && startsWith seg LBRACE && endsWith seg RBRACE

def parseUnionSeg (seg : JsString) : Option (List JsString) :=
  if !isUnionSeg seg then none
  else if (inside seg).isEmpty then none
  else
    let alts := (inside seg).splitOn COMMA
    if alts.any (·.isEmpty) then none else some alts

/-- Value predicate `[key<op>value]`: an operator of one unit is inside. -/
def isPredicateSeg (seg : JsString) : Bool :=
  4 ≤ seg.length && startsWith seg LBRACKET && endsWith seg RBRACKET &&
    PREDICATE_OPS.any fun op => op.length == 1 && op.all fun u => (inside seg).contains u

def boolText (value : Bool) : JsString :=
  if value then js "true" else js "false"

/-- `Number(text)` where it is finite: finite numbers are rationals. -/
class FiniteNumber where
  finiteNumber : JsString → Option ℚ

/-- Numeric operators require both sides to be finite numbers. -/
def evaluatePredicate [FiniteNumber] (actual : Option JsString) (pred : PredicateSpec) : Bool :=
  match actual with
  | none => false
  | some actual =>
    if pred.op = js "=" then actual == pred.value
    else if pred.op = js "!=" then actual != pred.value
    else
      match FiniteNumber.finiteNumber actual, FiniteNumber.finiteNumber pred.value with
      | some a, some b =>
        if pred.op = js "<" then a < b
        else if pred.op = js "<=" then a ≤ b
        else if pred.op = js ">" then b < a
        else b ≤ a
      | _, _ => false

/-- `String(n)`. -/
def decimalText (n : Nat) : JsString :=
  (Nat.toDigits 10 n).map fun c => c.toNat.toUInt16

/-- The number digits spell. -/
def decimalValue (seg : JsString) : Nat :=
  seg.foldl (fun n u => 10 * n + (u.toNat - 48)) 0

/-- `/^(0|[1-9]\d*)$/`. -/
def isDecimal (seg : JsString) : Bool :=
  seg == [48] || (seg.head?.any (· != 48) && seg.all isDigit)

/-- An array is shorter than 2^32, so an index below its length is a safe integer. -/
def parseArrayIndexSegment (seg : JsString) (length : Nat) : Option Nat :=
  if isDecimal seg && decimalValue seg < length then some (decimalValue seg) else none

/-- `$first` and `$last` of a container with these keys, or this many items. -/
def positionalForJsoncNode (node : JsoncValue) (seg : JsString) : Option JsString :=
  match node with
  | .object entries _ =>
    if seg = POS_FIRST then entries.head?.map (·.key)
    else if seg = POS_LAST then entries.getLast?.map (·.key)
    else none
  | .array items _ =>
    if items.isEmpty then none
    else if seg = POS_FIRST then some (js "0")
    else if seg = POS_LAST then some (decimalText (items.length - 1))
    else none
  | _ => none

/-! ## Resolution -/

/-- What a path names: the document, or a node with the keys and indices on the way to it. -/
inductive JsoncMatch
  | root
  | value (node : JsoncValue) (path : List JsString)
  | objectEntry (entry : JsoncEntry) (path : List JsString)

def JsoncMatch.node (root : JsoncValue) : JsoncMatch → JsoncValue
  | .root => root
  | .value node _ => node
  | .objectEntry entry _ => entry.value

def JsoncMatch.path : JsoncMatch → List JsString
  | .root => []
  | .value _ path | .objectEntry _ path => path

/-- The match at the end of the segments; `lastEntry` is the entry the current node is the value of. -/
def matchAt (current : JsoncValue) (lastEntry : Option JsoncEntry) (walked : List JsString) : JsoncMatch :=
  match lastEntry with
  | some entry => .objectEntry entry walked
  | none => .value current walked

/-- `resolveJsoncValueOcPath`, from the node behind the segments walked. -/
def resolveFrom (current : JsoncValue) (lastEntry : Option JsoncEntry) (walked : List JsString) :
    List JsString → Option JsoncMatch
  | [] => some (matchAt current lastEntry walked)
  | seg :: segments =>
    if seg.isEmpty then none
    else
      let seg := if isPositionalSeg seg then (positionalForJsoncNode current seg).getD seg else seg
      match current with
      | .object entries _ =>
        match entries.find? fun entry => entry.key == seg with
        | some entry => resolveFrom entry.value (some entry) (walked ++ [seg]) segments
        | none => none
      | .array items _ =>
        match (parseArrayIndexSegment seg items.length).bind fun index => items[index]? with
        | some item => resolveFrom item none (walked ++ [seg]) segments
        | none => none
      | _ => none

def resolveJsoncValueOcPath (root : JsoncValue) (segments : List JsString) : Option JsoncMatch :=
  resolveFrom root none [] segments

def slotSegments : Option JsString → Except Failure (List JsString)
  | none => .ok []
  | some slot => splitRespectingBrackets slot DOT slot

def splitSlots (path : OcPath) : Except Failure (List JsString) := do
  let sections ← slotSegments path.sectionSlot
  let items ← slotSegments path.item
  let fields ← slotSegments path.field
  return sections ++ items ++ fields

def resolveJsoncOcPath (root : Option JsoncValue) (path : OcPath) : Except Failure (Option JsoncMatch) :=
  match root with
  | none => .ok none
  | some root => do
    let subs ← splitSlots path
    return if subs.isEmpty then some .root else resolveJsoncValueOcPath root (subs.map unquoteSeg)

inductive LeafType
  | string | number | boolean | null
  deriving DecidableEq

inductive ContainerKind
  | object | array
  deriving DecidableEq

inductive OcMatch
  | root
  | leaf (valueText : JsString) (leafType : LeafType) (line : Nat)
  | node (descriptor : ContainerKind) (line : Nat)
  | insertionPoint (container : ContainerKind) (line : Nat)
  deriving DecidableEq

def jsoncValueToMatch (value : JsoncValue) (line : Nat) : OcMatch :=
  match value with
  | .object _ _ => .node .object line
  | .array _ _ => .node .array line
  | .string value _ => .leaf value .string line
  | .number text _ => .leaf text .number line
  | .boolean value _ => .leaf (boolText value) .boolean line
  | .null _ => .leaf (js "null") .null line

def JsoncMatch.toUniversal : JsoncMatch → OcMatch
  | .root => .root
  | .objectEntry entry _ => jsoncValueToMatch entry.value entry.line
  | .value node _ => jsoncValueToMatch node (node.lineOf.getD 1)

/-- What finding and resolving throw. -/
inductive OcFailure
  | path (failure : Failure)
  /-- `OC_PATH_WILDCARD_IN_RESOLVE`, with the path in text. -/
  | wildcardInResolve (formatted : JsString)
  /-- `OC_PATH_DEPTH_EXCEEDED`. -/
  | depthExceeded
  deriving DecidableEq

/-- What parsing and formatting throw is thrown on. -/
def lift {α : Type} : Except Failure α → Except OcFailure α
  | .ok a => .ok a
  | .error failure => .error (.path failure)

/-- A segment that may match more than one node. -/
def isMultiMatch (sub : JsString) : Bool :=
  sub == WILDCARD_SINGLE || sub == WILDCARD_RECURSIVE || isUnionSeg sub || isPredicateSeg sub

def anyPattern : List (Option JsString) → Except Failure Bool
  | [] => .ok false
  | slot :: slots => do
    let subs ← slotSegments slot
    if subs.any isMultiMatch then return true else anyPattern slots

/-- `isPattern`, alias `hasWildcard`. -/
def isPattern (path : OcPath) : Except Failure Bool :=
  anyPattern [path.sectionSlot, path.item, path.field]

/-- The parent of a path whose last slot is an insertion. -/
def detectInsertion (path : OcPath) : Option OcPath :=
  match path.field, path.item, path.sectionSlot with
  | some last, _, _ => if startsWith last PLUS then some { path with field := none } else none
  | none, some last, _ => if startsWith last PLUS then some { path with item := none } else none
  | none, none, some last => if startsWith last PLUS then some { path with sectionSlot := none } else none
  | none, none, none => none

def resolveJsoncInsertion (root : Option JsoncValue) (parentPath : OcPath) : Except Failure (Option OcMatch) := do
  let found ← resolveJsoncOcPath root parentPath
  return match root, found with
  | some root, some found =>
    match found.node root with
    | .object _ line => some (.insertionPoint .object (line.getD 1))
    | .array _ line => some (.insertionPoint .array (line.getD 1))
    | _ => none
  | _, _ => none

def resolveOcPath (root : Option JsoncValue) (path : OcPath) : Except OcFailure (Option OcMatch) := do
  let wildcard ← lift (isPattern path)
  if wildcard then
    let formatted ← lift (formatOcPath path)
    throw (.wildcardInResolve formatted)
  else
    match detectInsertion path with
    | some parentPath => lift (resolveJsoncInsertion root parentPath)
    | none => do
      let found ← lift (resolveJsoncOcPath root path)
      return found.map (·.toUniversal)

theorem isPattern_of_splitSlots {path : OcPath} {values : List JsString} (h : splitSlots path = .ok values) :
    isPattern path = .ok (values.any isMultiMatch) := by
  simp only [splitSlots, Except.bind_eq_ok, pure, Except.pure, Except.ok.injEq] at h
  obtain ⟨sections, hsections, items, hitems, fields, hfields, rfl⟩ := h
  simp only [isPattern, anyPattern, hsections, hitems, hfields, bind, Except.bind, pure, Except.pure, any_append]
  cases sections.any isMultiMatch <;> cases items.any isMultiMatch <;> cases fields.any isMultiMatch <;> rfl

/-! ## The text of an index -/

theorem digitUnit {d : Nat} (h : d < 10) : (Nat.digitChar d).toNat.toUInt16.toNat = 48 + d := by
  have hall : ∀ d : Fin 10, (Nat.digitChar d).toNat.toUInt16.toNat = 48 + d := by decide
  exact hall ⟨d, h⟩

theorem decimalText_of_lt {n : Nat} (h : n < 10) : decimalText n = [(Nat.digitChar n).toNat.toUInt16] := by
  rw [decimalText, Nat.toDigits_of_lt_base h]
  rfl

theorem decimalText_of_le {n : Nat} (h : 10 ≤ n) :
    decimalText n = decimalText (n / 10) ++ [(Nat.digitChar (n % 10)).toNat.toUInt16] := by
  rw [decimalText, Nat.toDigits_of_base_le (by decide) h, map_append]
  rfl

theorem decimalValue_concat (seg : JsString) (u : UInt16) :
    decimalValue (seg ++ [u]) = 10 * decimalValue seg + (u.toNat - 48) := by
  rw [decimalValue, foldl_append]
  rfl

theorem decimalValue_decimalText (n : Nat) : decimalValue (decimalText n) = n := by
  induction n using Nat.strongRecOn with
  | ind n ih =>
    by_cases hn : n < 10
    · have hvalue : decimalValue [(Nat.digitChar n).toNat.toUInt16] =
          10 * 0 + ((Nat.digitChar n).toNat.toUInt16.toNat - 48) := rfl
      rw [decimalText_of_lt hn, hvalue, digitUnit hn]
      omega
    · rw [decimalText_of_le (by omega), decimalValue_concat, ih (n / 10) (by omega), digitUnit (by omega)]
      omega

theorem isDigit_iff {u : UInt16} : isDigit u ↔ 48 ≤ u.toNat ∧ u.toNat ≤ 57 := by
  simp only [isDigit, Bool.and_eq_true, decide_eq_true_eq, UInt16.le_iff_toNat_le]
  rfl

theorem decimalText_ne_nil (n : Nat) : decimalText n ≠ [] := fun h => Nat.toDigits_ne_nil (map_eq_nil_iff.mp h)

theorem head_decimalText {n : Nat} (hn : 0 < n) :
    (decimalText n).head?.any (· != 48) ∧ (decimalText n).all isDigit := by
  induction n using Nat.strongRecOn with
  | ind n ih =>
    have hdigit : ∀ d, d < 10 → isDigit (Nat.digitChar d).toNat.toUInt16 := fun d hd =>
      isDigit_iff.mpr (by rw [digitUnit hd]; omega)
    by_cases hten : n < 10
    · rw [decimalText_of_lt hten]
      refine ⟨?_, by simp [hdigit n hten]⟩
      simp only [head?_cons, Option.any_some, bne_iff_ne, ne_eq]
      intro hzero
      have hvalue := digitUnit hten
      rw [hzero] at hvalue
      simp at hvalue
      omega
    · obtain ⟨hhead, hall⟩ := ih (n / 10) (by omega) (by omega)
      rw [decimalText_of_le (by omega)]
      refine ⟨?_, ?_⟩
      · rw [head?_append_of_ne_nil _ (decimalText_ne_nil _)]
        exact hhead
      · rw [all_append, hall, all_cons, hdigit _ (by omega)]
        rfl

theorem isDecimal_decimalText (n : Nat) : isDecimal (decimalText n) := by
  by_cases hn : 0 < n
  · obtain ⟨hhead, hall⟩ := head_decimalText hn
    rw [isDecimal, hhead, hall]
    simp
  · obtain rfl : n = 0 := by omega
    rfl

theorem decimalText_decimalValue {seg : JsString} (h : isDecimal seg) : decimalText (decimalValue seg) = seg := by
  have hpositive : ∀ s : JsString, s.head?.any (· != 48) → s.all isDigit →
      0 < decimalValue s ∧ decimalText (decimalValue s) = s := by
    intro s
    induction s using reverseRecOn with
    | nil => exact fun hhead => nomatch hhead
    | append_singleton s u ih =>
      intro hhead hall
      rw [all_append, Bool.and_eq_true, all_cons, all_nil, Bool.and_true] at hall
      obtain ⟨hlow, hhigh⟩ := isDigit_iff.mp hall.2
      have hunit : (Nat.digitChar (u.toNat - 48)).toNat.toUInt16 = u := by
        rw [← UInt16.toNat_inj, digitUnit (by omega)]
        omega
      rw [decimalValue_concat]
      cases s with
      | nil =>
        have hne : u ≠ 48 := by simpa using hhead
        have hne' : u.toNat ≠ 48 := fun hu => hne (UInt16.toNat_inj.mp hu)
        have hzero : decimalValue [] = 0 := rfl
        rw [hzero, Nat.mul_zero, Nat.zero_add, decimalText_of_lt (by omega), hunit]
        exact ⟨by omega, rfl⟩
      | cons v s =>
        obtain ⟨hpos, htext⟩ := ih (by simpa using hhead) hall.1
        refine ⟨by omega, ?_⟩
        rw [decimalText_of_le (by omega)]
        have hdiv : (10 * decimalValue (v :: s) + (u.toNat - 48)) / 10 = decimalValue (v :: s) := by omega
        have hmod : (10 * decimalValue (v :: s) + (u.toNat - 48)) % 10 = u.toNat - 48 := by omega
        rw [hdiv, hmod, htext, hunit]
  rw [isDecimal, Bool.or_eq_true, beq_iff_eq, Bool.and_eq_true] at h
  rcases h with rfl | ⟨hhead, hall⟩
  · rfl
  · exact (hpositive seg hhead hall).2

end ClawWorks.OcPath
