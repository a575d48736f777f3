import ClawWorks.OcPath.Jsonc

/-!
# Finding paths in JSONC documents

A pattern is a path whose sub-segments may match more than one child. The search walks the document along the
sub-segments of the pattern, writes a segment for each child it goes to and packs the segments of each walk that ends
into the slots of the pattern.
-/

namespace ClawWorks.OcPath

inductive Slot
  | sectionSlot | item | field
  deriving DecidableEq

/-- A sub-segment and the slot it stands in, of a pattern or of a path found. -/
structure SlotSub where
  slot : Slot
  value : JsString

def slotSubs (slot : Slot) (text : Option JsString) : Except Failure (List SlotSub) := do
  let values ← slotSegments text
  return values.map (SlotSub.mk slot)

/-- Brackets keep the dots inside `[k=1.0]` or `{a.b,c}`. -/
def patternSubs (pattern : OcPath) : Except Failure (List SlotSub) := do
  let sections ← slotSubs .sectionSlot pattern.sectionSlot
  let items ← slotSubs .item pattern.item
  let fields ← slotSubs .field pattern.field
  return sections ++ items ++ fields

/-- The text of a slot, when anything stands in it. -/
def joinSlot (slot : Slot) (subs : List SlotSub) : Option JsString :=
  let values := (subs.filter fun sub => sub.slot = slot).map (·.value)
  if values.isEmpty then none else some ([DOT].intercalate values)

def repackSlotSubs (pattern : OcPath) (subs : List SlotSub) : OcPath :=
  { file := pattern.file
    sectionSlot := joinSlot .sectionSlot subs
    item := joinSlot .item subs
    field := joinSlot .field subs
    session := pattern.session }

/-! ## The walk -/

/-- A child, and the segment for it unless writing that throws. -/
abbrev Visit (α : Type) := Except Failure JsString × α

/-- What a kind of document gives the walk. -/
structure WalkOps (α : Type) where
  enumerate : α → List (Visit α)
  lookup : α → JsString → Option (Visit α)
  positional : α → JsString → Option (Visit α)
  predicate : α → PredicateSpec → List (Visit α)

/-- What the visits emit, one after another. -/
def visitAll {α β : Type} (walk : JsString → α → Except OcFailure (List β)) :
    List (Visit α) → Except OcFailure (List β)
  | [] => .ok []
  | (keySub, child) :: visits => do
    let key ← lift keySub
    let found ← walk key child
    let others ← visitAll walk visits
    return found ++ others

/-- The alternatives of a union in its place, and so on while they are unions; other values stand for themselves. A
union without alternatives matches nothing. `fuel` bounds how deep unions stand in unions. -/
def alternativesWithin : Nat → JsString → List JsString
  | 0, _ => []
  | fuel + 1, value =>
    if isUnionSeg value then
      match parseUnionSeg value with
      | none => []
      | some alts => alts.flatMap (alternativesWithin fuel)
    else [value]

/-- An alternative is shorter than its union. -/
def alternatives (value : JsString) : List JsString :=
  alternativesWithin (value.length + 1) value

/-- The children a value other than a union and `**` selects. -/
def selectedBy {α : Type} (ops : WalkOps α) (node : α) (value : JsString) : List (Visit α) :=
  if isPredicateSeg value then
    match parsePredicateSeg value with
    | none => []
    | some pred => ops.predicate node pred
  else if value = WILDCARD_SINGLE then ops.enumerate node
  else if isPositionalSeg value then (ops.positional node value).toList
  else (ops.lookup node value).toList

/-- `dispatchSeg`, behind the alternatives of unions: `**` is used up and kept. -/
def dispatchSeg {α : Type} (ops : WalkOps α)
    (walk : α → List SlotSub → List SlotSub → Except OcFailure (List (List SlotSub)))
    (node : α) (slot : Slot) (rest walked : List SlotSub) (value : JsString) :
    Except OcFailure (List (List SlotSub)) :=
  if value = WILDCARD_RECURSIVE then do
    let own := if rest.isEmpty then [walked] else []
    let deeper ← visitAll (fun key child => do
      let used ← walk child rest (walked ++ [⟨slot, key⟩])
      let kept ← walk child (⟨slot, value⟩ :: rest) (walked ++ [⟨slot, key⟩])
      return used ++ kept) (ops.enumerate node)
    return own ++ deeper
  else visitAll (fun key child => walk child rest (walked ++ [⟨slot, key⟩])) (selectedBy ops node value)

/-- What each of the values emits, one after another. -/
def dispatchAll {β : Type} (dispatch : JsString → Except OcFailure (List β)) :
    List JsString → Except OcFailure (List β)
  | [] => .ok []
  | value :: values => do
    let found ← dispatch value
    let others ← dispatchAll dispatch values
    return found ++ others

/-- The walk of the sub-segments that are left: what it hands to `onMatch`, in order. It may take `depth` more steps
before `checkDepth` throws. -/
def walkSubs {α : Type} (ops : WalkOps α) :
    Nat → α → List SlotSub → List SlotSub → Except OcFailure (List (List SlotSub))
  | 0, _, _, _ => .error .depthExceeded
  | _ + 1, _, [], walked => .ok [walked]
  | depth + 1, node, cur :: rest, walked =>
    dispatchAll (dispatchSeg ops (walkSubs ops depth) node cur.slot rest walked) (alternatives cur.value)

/-! ## JSONC documents -/

section Jsonc

variable [FiniteNumber]

def jsoncChildFieldText (node : JsoncValue) (key : JsString) : Option JsString :=
  match node with
  | .object entries _ =>
    (entries.find? fun entry => entry.key == key).bind fun entry =>
      match entry.value with
      | .string value _ => some value
      | .number text _ => some text
      | .boolean value _ => some (boolText value)
      | .null _ => some (js "null")
      | _ => none
  | _ => none

def jsoncChildMatchesPredicate (node : JsoncValue) (pred : PredicateSpec) : Bool :=
  evaluatePredicate (jsoncChildFieldText node pred.key) pred

def jsoncEnumerate : JsoncValue → List (Visit JsoncValue)
  | .object entries _ => entries.map fun entry => (quoteSeg entry.key, entry.value)
  | .array items _ => items.zipIdx.map fun item => (.ok (decimalText item.2), item.1)
  | _ => []

/-- Quotes around a key of the path are stripped for objects. -/
def jsoncLookup (node : JsoncValue) (key : JsString) : Option (Visit JsoncValue) :=
  match node with
  | .object entries _ =>
    (entries.find? fun entry => entry.key == unquoteSeg key).map fun entry => (.ok key, entry.value)
  | .array items _ =>
    ((parseArrayIndexSegment key items.length).bind fun index => items[index]?).map fun item => (.ok key, item)
  | _ => none

def jsoncPredicate (node : JsoncValue) (pred : PredicateSpec) : List (Visit JsoncValue) :=
  match node with
  | .object entries _ =>
    (entries.filter fun entry => jsoncChildMatchesPredicate entry.value pred).map fun entry =>
      (quoteSeg entry.key, entry.value)
  | .array items _ =>
    (items.zipIdx.filter fun item => jsoncChildMatchesPredicate item.1 pred).map fun item =>
      (.ok (decimalText item.2), item.1)
  | _ => []

def jsoncOps : WalkOps JsoncValue where
  enumerate := jsoncEnumerate
  lookup := jsoncLookup
  positional node seg := (positionalForJsoncNode node seg).bind (jsoncLookup node)
  predicate := jsoncPredicate

def walkJsonc (node : JsoncValue) (subs : List SlotSub) : Except OcFailure (List (List SlotSub)) :=
  walkSubs jsoncOps (MAX_TRAVERSAL_DEPTH + 1) node subs []

def needsExpansion (sub : SlotSub) : Bool :=
  sub.value == WILDCARD_SINGLE || sub.value == WILDCARD_RECURSIVE || isPositionalSeg sub.value ||
    isUnionSeg sub.value || isPredicateSeg sub.value

/-- A concrete path and what it resolves to. -/
structure OcPathMatch where
  path : OcPath
  found : OcMatch
  deriving DecidableEq

def resolveAll (root : Option JsoncValue) : List OcPath → Except OcFailure (List OcPathMatch)
  | [] => .ok []
  | concrete :: paths => do
    let found ← resolveOcPath root concrete
    let others ← resolveAll root paths
    return (found.map (OcPathMatch.mk concrete)).toList ++ others

def findOcPaths (root : Option JsoncValue) (pattern : OcPath) : Except OcFailure (List OcPathMatch) := do
  let subs ← lift (patternSubs pattern)
  if subs.any needsExpansion then
    match root with
    | none => return []
    | some node => do
      let walks ← walkJsonc node subs
      resolveAll root (walks.map (repackSlotSubs pattern))
  else resolveAll root [pattern]

end Jsonc

variable {value : JsString} {alts : List JsString}

theorem parseUnionSeg_eq_some (h : parseUnionSeg value = some alts) :
    isUnionSeg value = true ∧ alts = (inside value).splitOn COMMA := by
  unfold parseUnionSeg at h
  split at h
  · cases h
  · rename_i hunion
    split at h
    · cases h
    · dsimp only at h
      split at h
      · cases h
      · exact ⟨by simpa using hunion, (Option.some.inj h).symm⟩

theorem length_lt_of_mem_parseUnionSeg {value alt : JsString}
    (h : parseUnionSeg value = some alts) (halt : alt ∈ alts) : alt.length < value.length := by
  obtain ⟨hunion, rfl⟩ := parseUnionSeg_eq_some h
  have hinside := (infix_intercalate (s := [COMMA]) halt).length_le
  rw [List.intercalate_splitOn] at hinside
  simp only [isUnionSeg, Bool.and_eq_true, decide_eq_true_eq] at hunion
  simp only [inside, List.length_dropLast, List.length_tail] at hinside
  omega

theorem alternativesWithin_of_lt {fuel : Nat} (h : value.length < fuel) :
    alternativesWithin fuel value = alternatives value := by
  rw [alternatives]
  generalize hother : value.length + 1 = other
  replace hother : value.length < other := by omega
  induction fuel generalizing value other with
  | zero => exact absurd h (Nat.not_lt_zero _)
  | succ fuel ih =>
    cases other with
    | zero => exact absurd hother (Nat.not_lt_zero _)
    | succ other =>
      rw [alternativesWithin, alternativesWithin]
      cases halts : parseUnionSeg value with
      | none => rfl
      | some alts =>
        have hsame : ∀ alt ∈ alts, alternativesWithin fuel alt = alternativesWithin other alt := fun alt halt => by
          have hshorter := length_lt_of_mem_parseUnionSeg halts halt
          exact ih (by omega) other (by omega)
        simp only [List.flatMap_congr hsame]

theorem alternatives_self (h : isUnionSeg value = false) : alternatives value = [value] := by
  rw [alternatives, alternativesWithin, h]
  rfl

theorem alternatives_union (h : parseUnionSeg value = some alts) : alternatives value = alts.flatMap alternatives := by
  rw [alternatives, alternativesWithin, (parseUnionSeg_eq_some h).1, if_pos rfl, h]
  exact List.flatMap_congr fun alt halt => alternativesWithin_of_lt (length_lt_of_mem_parseUnionSeg h halt)

theorem visitAll_append {α β : Type} (walk : JsString → α → Except OcFailure (List β))
    (visits others : List (Visit α)) :
    visitAll walk (visits ++ others) = do
      let found ← visitAll walk visits
      let rest ← visitAll walk others
      return found ++ rest := by
  induction visits with
  | nil =>
    cases h : visitAll walk others <;> simp [visitAll, h, bind, Except.bind, pure, Except.pure]
  | cons visit visits ih =>
    obtain ⟨keySub, child⟩ := visit
    simp only [List.cons_append, visitAll, ih, bind, Except.bind, pure, Except.pure]
    cases lift keySub with
    | error failure => rfl
    | ok key =>
      simp only
      cases walk key child with
      | error failure => rfl
      | ok found =>
        simp only
        cases visitAll walk visits with
        | error failure => rfl
        | ok more =>
          simp only
          cases visitAll walk others <;> simp

theorem walk_eq_visitAll {α : Type} (ops : WalkOps α) (depth : Nat) (node : α) (cur : SlotSub)
    (rest walked : List SlotSub) (h : ∀ value ∈ alternatives cur.value, value ≠ WILDCARD_RECURSIVE) :
    walkSubs ops (depth + 1) node (cur :: rest) walked =
      visitAll (fun key child => walkSubs ops depth child rest (walked ++ [⟨cur.slot, key⟩]))
        ((alternatives cur.value).flatMap (selectedBy ops node)) := by
  rw [walkSubs]
  generalize alternatives cur.value = values at h ⊢
  induction values with
  | nil => rfl
  | cons value values ih =>
    rw [dispatchAll, List.flatMap_cons, visitAll_append, ih fun v hv => h v (List.mem_cons_of_mem _ hv), dispatchSeg,
      if_neg (h value List.mem_cons_self)]

end ClawWorks.OcPath
