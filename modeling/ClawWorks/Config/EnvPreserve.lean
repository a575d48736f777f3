import ClawWorks.Config.EnvSubstitution
import ClawWorks.OcPath.Jsonc

/-!
# Putting environment references back

`restoreEnvVarRefs` walks the resolved config about to be written beside the parsed one of the file, and puts an
authored template back where it resolves to the incoming string.

What `Object.prototype` gives is never an array, a string or a plain object with members of its own, so that reading
an inherited name is reading nothing.
-/

namespace ClawWorks

open JsMap
namespace Config

structure EnvRefArrayMutationError where
deriving DecidableEq

def EnvRefArrayMutationError.message : JsString :=
  js "Config write would reorder or modify an array containing environment references."

/-! ## References of a text -/

/-- A `${VAR}` anywhere: the name of the pattern holds no brace, so that it ends at the next closing one. -/
def hasEnvVarRef : JsString → Bool
  | [] => false
  | u :: s => (u == DOLLAR && s.take 1 == [LBRACE] && (envName? (s.drop 1)).isSome) || hasEnvVarRef s

inductive AuthoredEnvRefKind
  | escaped
  | unescaped
deriving DecidableEq

structure AuthoredEnvRef where
  kind : AuthoredEnvRefKind
  name : JsString

def collectAuthoredEnvRefs (value : JsString) : List AuthoredEnvRef :=
  match value with
  | [] => []
  | u :: s =>
    if u ≠ DOLLAR then collectAuthoredEnvRefs s
    else if s.take 2 = [DOLLAR, LBRACE] then
      match _h : envName? (s.drop 2) with
      | some (name, rest) => ⟨.escaped, name⟩ :: collectAuthoredEnvRefs rest
      | none => collectAuthoredEnvRefs s
    else if s.take 1 = [LBRACE] then
      match _h : envName? (s.drop 1) with
      | some (name, rest) => ⟨.unescaped, name⟩ :: collectAuthoredEnvRefs rest
      | none => collectAuthoredEnvRefs s
    else collectAuthoredEnvRefs s
termination_by value.length
decreasing_by
  all_goals
    try have hlength := length_of_envName? _h
    simp only [List.length_cons, List.length_drop] at *
    omega

/-- The scanner of this module: what `substituteString` gives, hand-written a second time. -/
def tryResolveString (env : Env) (template : JsString) : JsString :=
  match template with
  | [] => []
  | u :: s =>
    if u = DOLLAR then
      match _h : if s.take 2 = [DOLLAR, LBRACE] then envName? (s.drop 2) else none with
      | some (name, rest) => placeholder name ++ tryResolveString env rest
      | none =>
        match _h : if s.take 1 = [LBRACE] then envName? (s.drop 1) else none with
        | some (name, rest) => envText env name ++ tryResolveString env rest
        | none => u :: tryResolveString env s
    else u :: tryResolveString env s
termination_by template.length
decreasing_by
  all_goals
    try
      split at _h
      · have hlength := length_of_envName? _h
        simp only [List.length_cons, List.length_drop] at *
        omega
      · cases _h
  all_goals exact Nat.lt_succ_self _

def containsAuthoredEnvTemplate (kind : AuthoredEnvRefKind) : ConfigValue → Bool
  | .string text => (collectAuthoredEnvRefs text).any (·.kind == kind)
  | .array items => (items.map fun item => containsAuthoredEnvTemplate kind item).any id
  | .object members => (members.map fun member => containsAuthoredEnvTemplate kind member.2).any id
  | .number _ | .boolean _ | .null => false
termination_by value => sizeOf value
decreasing_by
  · exact ConfigValue.sizeOf_item_lt ‹_›
  · exact ConfigValue.sizeOf_member_lt ‹_›

def containsAuthoredUnescapedEnvTemplate (value : ConfigValue) : Bool :=
  containsAuthoredEnvTemplate .unescaped value

def containsAuthoredEscapedEnvTemplate (value : ConfigValue) : Bool :=
  containsAuthoredEnvTemplate .escaped value

/-! ## References counted by path -/

/-- How often each variable is referred to at each path. -/
abbrev EnvRefCounts := JsMap JsString (JsMap (List JsString) Nat)

/-- `counts.get(name)?.get(path) ?? 0`. -/
def EnvRefCounts.at (counts : EnvRefCounts) (name : JsString) (path : List JsString) : Nat :=
  ((get counts name).bind fun pathCounts => get pathCounts path).getD 0

/-- One more reference to a variable at a path. -/
def countRef (counts : EnvRefCounts) (ref : JsString × List JsString) : EnvRefCounts :=
  let pathCounts := (get counts ref.1).getD []
  JsMap.set counts ref.1 (JsMap.set pathCounts ref.2 ((JsMap.get pathCounts ref.2).getD 0 + 1))

def refsAt (kind : AuthoredEnvRefKind) (text : JsString) (path : List JsString) : List (JsString × List JsString) :=
  ((collectAuthoredEnvRefs text).filter (·.kind == kind)).map fun ref => (ref.name, path)

/-- The references that the walk of `countAuthoredEnvRefsByPath` meets. -/
def authoredEnvRefs (kind : AuthoredEnvRefKind) : ConfigValue → List JsString → List (JsString × List JsString)
  | .string text, path => refsAt kind text path
  | .array items, path => (items.map fun item below => authoredEnvRefs kind item below).zipIdx.flatMap fun visit =>
    visit.1 (path ++ [OcPath.decimalText visit.2])
  | .object members, path => members.flatMap fun member => authoredEnvRefs kind member.2 (path ++ [member.1])
  | _, _ => []
termination_by value => sizeOf value
decreasing_by
  · exact ConfigValue.sizeOf_item_lt ‹_›
  · exact ConfigValue.sizeOf_member_lt ‹_›

/-- The counts of a value; there are none where the item is `undefined`. -/
def countAuthoredEnvRefsByPath (value : Option ConfigValue) (kind : AuthoredEnvRefKind) : EnvRefCounts :=
  match value with
  | some value => (authoredEnvRefs kind value []).foldl countRef []
  | none => []

/-- The references that the walk of `countResolvedActiveEnvRefsByPath` meets. -/
def resolvedActiveEnvRefs (env : Env) :
    ConfigValue → Option ConfigValue → List JsString → List (JsString × List JsString)
  | .string template, some (.string text), path =>
    if text = tryResolveString env template then refsAt .unescaped template path else []
  | .array parsed, some (.array incoming), path =>
    (parsed.map fun item value below => resolvedActiveEnvRefs env item value below).zipIdx.flatMap fun visit =>
      visit.1 incoming[visit.2]? (path ++ [OcPath.decimalText visit.2])
  | .object parsed, some (.object incoming), path =>
    parsed.flatMap fun member =>
      resolvedActiveEnvRefs env member.2 (get incoming member.1) (path ++ [member.1])
  | _, _, _ => []
termination_by value => sizeOf value
decreasing_by
  · exact ConfigValue.sizeOf_item_lt ‹_›
  · exact ConfigValue.sizeOf_member_lt ‹_›

def countResolvedActiveEnvRefsByPath (env : Env) (incoming parsed : Option ConfigValue) : EnvRefCounts :=
  match parsed with
  | some parsed => (resolvedActiveEnvRefs env parsed incoming []).foldl countRef []
  | none => []

/-- A reference that an escaped one could have become is in the item and not accounted for by what it is matched
with. -/
def containsUnaccountedActiveEscapedEnvRef (env : Env) (incoming escapedParsed : ConfigValue)
    (matchedIncoming matchedParsed : Option ConfigValue) : Bool :=
  let escapedCounts := countAuthoredEnvRefsByPath (some escapedParsed) .escaped
  let incomingActiveCounts := countAuthoredEnvRefsByPath (some incoming) .unescaped
  let incomingEscapedCounts := countAuthoredEnvRefsByPath (some incoming) .escaped
  let matchedActiveCounts := countResolvedActiveEnvRefsByPath env matchedIncoming matchedParsed
  let matchedEscapedCounts := countAuthoredEnvRefsByPath matchedParsed .escaped
  escapedCounts.any fun (name, escapedPathCounts) =>
    (((get incomingActiveCounts name).getD []).any fun (path, count) =>
      matchedActiveCounts.at name path < count) ||
    escapedPathCounts.any fun (path, _) =>
      0 < incomingActiveCounts.at name path && incomingEscapedCounts.at name path < matchedEscapedCounts.at name path

def preservesAuthoredEscapedEnvRefs (incoming parsed : ConfigValue) : Bool :=
  let incomingEscapedCounts := countAuthoredEnvRefsByPath (some incoming) .escaped
  (countAuthoredEnvRefsByPath (some parsed) .escaped).all fun (name, parsedPathCounts) =>
    parsedPathCounts.all fun (path, count) => count ≤ incomingEscapedCounts.at name path

/-! ## Identities of array items -/

abbrev ArrayIdentityPath := List JsString

def getArrayIdentityPathValue : ConfigValue → ArrayIdentityPath → Option ConfigValue
  | value, [] => some value
  | .object members, segment :: path =>
    (get members segment).bind fun child => getArrayIdentityPathValue child path
  | _, _ :: _ => none

/-- The comparison where either side can be `undefined`. -/
def isDeepStrictEqual? : Option ConfigValue → Option ConfigValue → Bool
  | some value, some other => value.isDeepStrictEqual other
  | none, none => true
  | _, _ => false

def indexesWithIdentity (items : List ConfigValue) (path : ArrayIdentityPath) (identityValue : Option ConfigValue) :
    List Nat :=
  (items.zipIdx.filter fun entry =>
    isDeepStrictEqual? (getArrayIdentityPathValue entry.1 path) identityValue).map (·.2)

def isLiteralText : ConfigValue → Bool
  | .string text => !hasEnvVarRef text
  | _ => false

def collectStableArrayIdentityPaths : ConfigValue → List ArrayIdentityPath
  | .object members =>
    match [js "id", js "agentId"].find? fun key => (get members key).any isLiteralText with
    | some key => [[key]]
    | none => []
  | _ => []

inductive StableArrayIdentity
  | none
  | invalid
  | found (incomingIndex : Nat)
deriving DecidableEq

def matchIdentityPaths (incoming parsed : List ConfigValue) (parsedItem : ConfigValue) :
    List ArrayIdentityPath → Option Nat → Bool → StableArrayIdentity
  | [], some incomingIndex, _ => .found incomingIndex
  | [], none, hasUniqueAuthoredIdentity => if hasUniqueAuthoredIdentity then .invalid else .none
  | path :: paths, incomingIndex, hasUniqueAuthoredIdentity =>
    let identityValue := getArrayIdentityPathValue parsedItem path
    if (indexesWithIdentity parsed path identityValue).length ≠ 1 then
      matchIdentityPaths incoming parsed parsedItem paths incomingIndex hasUniqueAuthoredIdentity
    else
      match indexesWithIdentity incoming path identityValue with
      | [index] =>
        if incomingIndex.any (· ≠ index) then .invalid
        else matchIdentityPaths incoming parsed parsedItem paths (some index) true
      | _ => .invalid

def resolveStableArrayIdentityMatch (incoming parsed : List ConfigValue) (parsedItem : ConfigValue) :
    StableArrayIdentity :=
  match collectStableArrayIdentityPaths parsedItem with
  | [] => .none
  | paths => matchIdentityPaths incoming parsed parsedItem paths none false

def collectLiteralArrayIdentityPaths : ConfigValue → ArrayIdentityPath → List ArrayIdentityPath
  | .string text, path => if hasEnvVarRef text then [] else [path]
  | .object members, path =>
    members.flatMap fun member => collectLiteralArrayIdentityPaths member.2 (path ++ [member.1])
  | _, _ => []
termination_by value => sizeOf value
decreasing_by exact ConfigValue.sizeOf_member_lt ‹_›

def hasStableSameIndexLiteralShape (incoming parsed : List ConfigValue) (parsedItem : ConfigValue)
    (parsedIndex : Nat) : Bool :=
  let literalPaths := collectLiteralArrayIdentityPaths parsedItem []
  let identityAt := getArrayIdentityPathValue parsedItem
  incoming.length == parsed.length && !literalPaths.isEmpty && (literalPaths.all fun path => isDeepStrictEqual?
      (incoming[parsedIndex]?.bind fun item => getArrayIdentityPathValue item path) (identityAt path)) &&
    literalPaths.any fun path =>
      (indexesWithIdentity parsed path (identityAt path)).length == 1 &&
        (indexesWithIdentity incoming path (identityAt path)).length == 1

/-- The copy of an object is made by `Object.fromEntries`, which keeps every member. -/
def resolveEnvVarRefsForComparison (env : Env) : ConfigValue → ConfigValue
  | .string text => .string (if hasEnvVarRef text then tryResolveString env text else text)
  | .array items => .array (items.map fun item => resolveEnvVarRefsForComparison env item)
  | .object members =>
    .object (setAll [] (members.map fun member => (member.1, resolveEnvVarRefsForComparison env member.2)))
  | .number text => .number text
  | .boolean value => .boolean value
  | .null => .null
termination_by value => sizeOf value
decreasing_by
  · exact ConfigValue.sizeOf_item_lt ‹_›
  · exact ConfigValue.sizeOf_member_lt ‹_›

def matchesArrayElementAtSameIndex (env : Env) (incoming parsed : ConfigValue) : Bool :=
  incoming.isDeepStrictEqual parsed || incoming.isDeepStrictEqual (resolveEnvVarRefsForComparison env parsed)

section Arrays

variable (env : Env) (incoming parsed : List ConfigValue)

def matchesAt (index : Nat) (parsedItem : ConfigValue) : Bool :=
  incoming[index]?.any fun item => matchesArrayElementAtSameIndex env item parsedItem

/-- The arrays have one length and every incoming item matches the authored one of its index. -/
def matchesEverywhere : Bool :=
  incoming.length == parsed.length && parsed.zipIdx.all fun entry => matchesAt env incoming entry.2 entry.1

def matchesRetainedArrayItem (incomingIndex parsedIndex : Nat) : Bool :=
  parsed[parsedIndex]?.any fun parsedItem =>
    matchesAt env incoming incomingIndex parsedItem ||
      resolveStableArrayIdentityMatch incoming parsed parsedItem == .found incomingIndex

def hasStableSameIndexNeighbors (parsedIndex : Nat) : Bool :=
  incoming.length == parsed.length && parsed.zipIdx.all fun entry =>
    entry.2 == parsedIndex || matchesAt env incoming entry.2 entry.1

end Arrays

/-- Each incoming item under the first authored one that fits and is free. -/
def earliestParsedIndexes (fits : Nat → Nat → Bool) (count : Nat) : List Nat → Nat → Option (List Nat)
  | [], _ => some []
  | i :: incomingIndexes, nextParsedIndex => do
    let parsedIndex ← (List.range count).find? fun j => nextParsedIndex ≤ j && fits i j
    let later ← earliestParsedIndexes fits count incomingIndexes (parsedIndex + 1)
    some (parsedIndex :: later)

/-- From the last, each incoming item under the last authored one below the bound that fits. -/
def latestParsedIndexes (fits : Nat → Nat → Bool) : List Nat → Nat → Option (List Nat)
  | [], _ => some []
  | i :: incomingIndexes, bound => do
    let parsedIndex ← (List.range bound).reverse.find? (fits i)
    let earlier ← latestParsedIndexes fits incomingIndexes parsedIndex
    some (parsedIndex :: earlier)

/-- The one way in which the incoming items are what deletions left of the authored ones. -/
def matchUniqueRetainedArrayItems (env : Env) (incoming parsed : List ConfigValue) : Option (JsMap Nat Nat) :=
  if parsed.length ≤ incoming.length then none
  else do
    let fits := matchesRetainedArrayItem env incoming parsed
    let earliest ← earliestParsedIndexes fits parsed.length (List.range incoming.length) 0
    let latest ← latestParsedIndexes fits (List.range incoming.length).reverse parsed.length
    if earliest = latest.reverse then some (setAll [] earliest.zipIdx) else none

/-! ## Alignment -/

/-- Authored indices with the incoming ones they are matched with, and the incoming indices in use. -/
structure Alignment where
  matched : JsMap Nat Nat
  usedIncomingIndexes : List Nat

def addMatch (st : Alignment) (parsedIndex incomingIndex : Nat) : Except EnvRefArrayMutationError Alignment :=
  if incomingIndex ∈ st.usedIncomingIndexes then .error {}
  else .ok ⟨JsMap.set st.matched parsedIndex incomingIndex, incomingIndex :: st.usedIncomingIndexes⟩

def isContainer : ConfigValue → Bool
  | .object _ | .array _ => true
  | _ => false

section Alignment

variable (env : Env) (incoming parsed : List ConfigValue)

/-- An edit in place: of the only item, of one whose literals are the authored ones, or of one among unchanged ones. -/
def isEditInPlace (parsedItem : ConfigValue) (parsedIndex : Nat) : Bool :=
  (incoming.length == 1 && parsed.length == 1) ||
    hasStableSameIndexLiteralShape incoming parsed parsedItem parsedIndex ||
      hasStableSameIndexNeighbors env incoming parsed parsedIndex

def isOnlyMatchInPlace (parsedItem : ConfigValue) (parsedIndex : Nat) : Bool :=
  (incoming.length == parsed.length ||
    (parsed.take parsedIndex).zipIdx.all fun entry => matchesAt env incoming entry.2 entry.1) &&
  !(parsed.zipIdx.any fun entry => entry.2 != parsedIndex && matchesAt env incoming parsedIndex entry.1) &&
  !(incoming.zipIdx.any fun entry =>
    entry.2 != parsedIndex && matchesArrayElementAtSameIndex env entry.1 parsedItem)

/-- One round of `matchAuthoredTemplateArrayItems`. -/
def matchTemplateItem (st : Alignment) (parsedItem : ConfigValue) (parsedIndex : Nat) :
    Except EnvRefArrayMutationError Alignment :=
  match resolveStableArrayIdentityMatch incoming parsed parsedItem with
  | .invalid => .error {}
  | .found incomingIndex => addMatch st parsedIndex incomingIndex
  | .none =>
    if matchesAt env incoming parsedIndex parsedItem then
      if isOnlyMatchInPlace env incoming parsed parsedItem parsedIndex then addMatch st parsedIndex parsedIndex
      else .error {}
    else if isContainer parsedItem then
      if isEditInPlace env incoming parsed parsedItem parsedIndex then addMatch st parsedIndex parsedIndex
      else .error {}
    else if incoming.zipIdx.any fun entry =>
        entry.2 != parsedIndex && matchesArrayElementAtSameIndex env entry.1 parsedItem then .error {}
    else if parsedIndex < incoming.length then addMatch st parsedIndex parsedIndex
    else .ok st

/-- The authored items with an unescaped reference, and their indices. -/
def templateItems : List (ConfigValue × Nat) :=
  parsed.zipIdx.filter fun entry => containsAuthoredUnescapedEnvTemplate entry.1

def matchAuthoredTemplateArrayItems : Except EnvRefArrayMutationError (JsMap Nat Nat) :=
  if matchesEverywhere env incoming parsed then
    .ok (setAll [] ((templateItems parsed).map fun entry => (entry.2, entry.2)))
  else
    match matchUniqueRetainedArrayItems env incoming parsed with
    | some retained =>
      .ok (setAll [] ((templateItems parsed).filterMap fun entry =>
        (get retained entry.2).map fun incomingIndex => (entry.2, incomingIndex)))
    | none => do
      let st ← (templateItems parsed).foldlM
        (fun st entry => matchTemplateItem env incoming parsed st entry.1 entry.2) ⟨[], []⟩
      .ok st.matched

def escapedTemplateItems : List (ConfigValue × Nat) :=
  parsed.zipIdx.filter fun entry =>
    containsAuthoredEscapedEnvTemplate entry.1 && !containsAuthoredUnescapedEnvTemplate entry.1

/-- One round of `matchAuthoredEscapedTemplateArrayItems`. -/
def matchEscapedTemplateItem (st : Alignment) (parsedItem : ConfigValue) (parsedIndex : Nat) :
    Except EnvRefArrayMutationError Alignment :=
  let stableIdentity := resolveStableArrayIdentityMatch incoming parsed parsedItem
  match stableIdentity with
  | .found incomingIndex => addMatch st parsedIndex incomingIndex
  | _ =>
    let resolvedItem := resolveEnvVarRefsForComparison env parsedItem
    let incomingMatches := (incoming.zipIdx.filter fun entry =>
      !st.usedIncomingIndexes.contains entry.2 && entry.1.isDeepStrictEqual resolvedItem).map (·.2)
    let authoredMatches := (escapedTemplateItems parsed).filter fun entry =>
      (resolveEnvVarRefsForComparison env entry.1).isDeepStrictEqual resolvedItem
    match incomingMatches with
    | first :: _ =>
      if incomingMatches.length ≤ authoredMatches.length &&
          authoredMatches.all fun entry => entry.1.isDeepStrictEqual parsedItem then
        addMatch st parsedIndex (if parsedIndex ∈ incomingMatches then parsedIndex else first)
      else .error {}
    | [] =>
      if isContainer parsedItem && stableIdentity == .none && parsedIndex < incoming.length &&
          !st.usedIncomingIndexes.contains parsedIndex && isEditInPlace env incoming parsed parsedItem parsedIndex then
        addMatch st parsedIndex parsedIndex
      else .ok st

def matchAuthoredEscapedTemplateArrayItems (usedIncomingIndexes : List Nat) :
    Except EnvRefArrayMutationError (JsMap Nat Nat) :=
  if matchesEverywhere env incoming parsed then
    .ok (setAll [] ((escapedTemplateItems parsed).map fun entry => (entry.2, entry.2)))
  else
    match matchUniqueRetainedArrayItems env incoming parsed with
    | some retained => do
      let found ← Except.collect (fun entry : ConfigValue × Nat =>
        match get retained entry.2 with
        | some incomingIndex =>
          if incomingIndex ∈ usedIncomingIndexes then .error {} else .ok (some (entry.2, incomingIndex))
        | none => .ok none) (escapedTemplateItems parsed)
      .ok (setAll [] found)
    | none => do
      let st ← (escapedTemplateItems parsed).foldlM
        (fun st entry => matchEscapedTemplateItem env incoming parsed st entry.1 entry.2) ⟨[], usedIncomingIndexes⟩
      .ok st.matched

def matchArrayItems : Except EnvRefArrayMutationError (JsMap Nat Nat) := do
  let unescapedMatches ← matchAuthoredTemplateArrayItems env incoming parsed
  let escapedMatches ← matchAuthoredEscapedTemplateArrayItems env incoming parsed (unescapedMatches.map (·.2))
  .ok (setAll unescapedMatches escapedMatches)

/-! ## The walk -/

def containsAuthoredTemplate (value : ConfigValue) : Bool :=
  containsAuthoredUnescapedEnvTemplate value || containsAuthoredEscapedEnvTemplate value

/-- `matchedParsedIndexByIncoming`. -/
def matchedParsedIndexByIncoming (matched : JsMap Nat Nat) : JsMap Nat Nat :=
  setAll [] (matched.map fun entry => (entry.2, entry.1))

/-- The authored item that the item at an index of `next` is restored from: the one matched with it, else the one of
the same index where that has no references. -/
def authoredIndex? (matched : JsMap Nat Nat) (index : Nat) : Option Nat :=
  match get (matchedParsedIndexByIncoming matched) index with
  | some parsedIndex => some parsedIndex
  | none => if parsed[index]?.any fun item => !containsAuthoredTemplate item then some index else none

def authoredSource (index : Nat) : Option Nat :=
  if (parsed.any containsAuthoredTemplate) = false then
    if index < parsed.length then some index else none
  else
    match matchArrayItems env incoming parsed with
    | .ok matched => authoredIndex? parsed matched index
    | .error _ => none

/-- No escaped reference of the authored items has become an active one. -/
def checkEscapedRefs (matched : JsMap Nat Nat) (next : List ConfigValue) : Except EnvRefArrayMutationError Unit :=
  parsed.zipIdx.forM fun (escapedParsedItem, escapedParsedIndex) =>
    if !containsAuthoredEscapedEnvTemplate escapedParsedItem then .ok ()
    else if ((get matched escapedParsedIndex).bind (next[·]?)).any fun item =>
        preservesAuthoredEscapedEnvRefs item escapedParsedItem then .ok ()
    else if next.zipIdx.any fun (item, incomingIndex) =>
        containsUnaccountedActiveEscapedEnvRef env item escapedParsedItem incoming[incomingIndex]?
          ((get (matchedParsedIndexByIncoming matched) incomingIndex).bind (parsed[·]?)) then .error {}
    else .ok ()

end Alignment

/-- What restores an item from an authored one. -/
abbrev Restorer := ConfigValue → Except EnvRefArrayMutationError ConfigValue

def restoreAt (restorers : List Restorer) (source : Option Nat) (item : ConfigValue) :
    Except EnvRefArrayMutationError ConfigValue :=
  match source.bind (restorers[·]?) with
  | some restore => restore item
  | none => .ok item

def restoreArray (env : Env) (incoming parsed : List ConfigValue) (restorers : List Restorer) :
    Except EnvRefArrayMutationError (List ConfigValue) :=
  if (parsed.any containsAuthoredTemplate) = false then
    incoming.zipIdx.mapM fun entry =>
      restoreAt restorers (if entry.2 < parsed.length then some entry.2 else none) entry.1
  else do
    let matched ← matchArrayItems env incoming parsed
    let next ← incoming.zipIdx.mapM fun entry => restoreAt restorers (authoredIndex? parsed matched entry.2) entry.1
    checkEscapedRefs env incoming parsed matched next
    .ok next

/-- The branch for objects: a key that is not among the authored ones keeps its value. -/
def restoreObject (incoming : List (JsString × ConfigValue)) (restorers : List (JsString × Restorer)) :
    Except EnvRefArrayMutationError (List (JsString × ConfigValue)) := do
  let result ← incoming.mapM fun member =>
    match get restorers member.1 with
    | some restore => do
      let value ← restore member.2
      .ok (member.1, value)
    | none => .ok member
  .ok (assignAll result)

def restoreEnvVarRefs (env : Env) (incoming parsed : ConfigValue) : Except EnvRefArrayMutationError ConfigValue :=
  match parsed, incoming with
  | .null, incoming => .ok incoming
  | .string template, .string text =>
    .ok (.string (if hasEnvVarRef template && tryResolveString env template == text then template else text))
  | .array parsed, .array incoming => do
    let items ← restoreArray env incoming parsed (parsed.map fun item value => restoreEnvVarRefs env value item)
    .ok (.array items)
  | .object parsed, .object incoming => do
    let members ← restoreObject incoming
      (parsed.map fun member => (member.1, fun value => restoreEnvVarRefs env value member.2))
    .ok (.object members)
  | _, incoming => .ok incoming
termination_by sizeOf parsed
decreasing_by
  · exact ConfigValue.sizeOf_item_lt ‹_›
  · exact ConfigValue.sizeOf_member_lt ‹_›

end Config
end ClawWorks
