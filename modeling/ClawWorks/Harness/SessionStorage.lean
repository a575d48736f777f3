import ClawWorks.Harness.Messages
import ClawWorks.Js.Object
import ClawWorks.Lib.Outcome

/-!
# The storage of a session tree

A session is a list of rows that only grows. Two cursors run over it: the visible leaf, and the row that the next append
hangs from. Most rows advance both; side rows and rows of unknown types advance the second only; a leaf row sets them.
-/

namespace ClawWorks

/-! ## Rows -/

structure CompactionDetails where
  readFiles : List JsString
  modifiedFiles : List JsString
deriving DecidableEq, Repr

def SESSION_ENTRY_TYPES : List JsString :=
  [js "message", js "thinking_level_change", js "model_change", js "compaction", js "branch_summary", js "custom",
    js "custom_message", js "label", js "session_info", js "leaf"]

/-- The type of a row that plugins write and the session does not know. -/
abbrev UnknownType := {type : JsString // type ∉ SESSION_ENTRY_TYPES}

/-- What a row holds, by its type. -/
inductive EntryBody where
  | message (message : AgentMessage)
  | thinkingLevelChange (thinkingLevel : JsString)
  | modelChange (provider modelId : JsString)
  | compaction (summary firstKeptEntryId : JsString) (tokensBefore : Nat) (details : Option CompactionDetails)
      (fromHook : Bool)
  | branchSummary (fromId summary : JsString)
  | custom (customType : JsString)
  | customMessage (customType : JsString) (content : MessageContent) (display : Bool)
  | label (targetId : JsString) (label : Option JsString)
  | sessionInfo (name : Option JsString)
  /-- `appendParentId` may be absent, `null` or an id. -/
  | leaf (targetId : Option JsString) (appendParentId : Option (Option JsString))
  | unknown (type : UnknownType)
deriving DecidableEq, Repr

structure SessionTreeEntry where
  body : EntryBody
  id : JsString
  parentId : Option JsString
  timestamp : JsString
  /-- `appendMode: "side"`. -/
  side : Bool := false
deriving DecidableEq, Repr

variable (entry : SessionTreeEntry)

/-- A leaf row: a control record that no path shows. -/
def SessionTreeEntry.isLeaf : Bool :=
  match entry.body with
  | .leaf _ _ => true
  | _ => false

def leafIdUpdateAfterEntry : Option (Option JsString) :=
  match entry.body with
  | .leaf targetId _ => some targetId
  | .unknown _ => none
  | _ => if entry.side then none else some (some entry.id)

def appendParentIdAfterEntry : Option JsString :=
  match entry.body with
  | .leaf targetId appendParentId => appendParentId.getD targetId
  | _ => some entry.id

/-- `map.delete(key)`. -/
def JsMap.delete {κ α : Type*} [DecidableEq κ] (m : JsMap κ α) (key : κ) : JsMap κ α :=
  m.filter (·.1 ≠ key)

/-- A label row sets the label of its target, or clears it when it is blank. -/
def updateLabelCache (labelsById : JsMap JsString JsString) (entry : SessionTreeEntry) : JsMap JsString JsString :=
  match entry.body with
  | .label targetId label =>
    match truthy? (label.map trim) with
    | some label => labelsById.set targetId label
    | none => labelsById.delete targetId
  | _ => labelsById

/-! ## What a storage that is opened computes -/

variable (entries : List SessionTreeEntry)

def buildLabelsById : JsMap JsString JsString :=
  entries.foldl updateLabelCache []

def resolveLeafId : Option JsString :=
  entries.foldl (fun leafId entry => (leafIdUpdateAfterEntry entry).getD leafId) none

def resolveAppendParentId : Option JsString :=
  entries.foldl (fun _ entry => appendParentIdAfterEntry entry) none

/-- The visible parents that are not the raw ones. -/
abbrev LogicalParents := JsMap JsString (Option JsString)

/-- Patch the visible parent of a row: an ordinary row that hangs from the append cursor continues the visible leaf. -/
def setLogicalParent (logicalParentsById : LogicalParents) (leafId appendParentId : Option JsString)
    (entry : SessionTreeEntry) : LogicalParents :=
  if leafIdUpdateAfterEntry entry = some (some entry.id) ∧ ¬ entry.side ∧ entry.parentId = appendParentId ∧
      leafId ≠ appendParentId then
    logicalParentsById.set entry.id leafId
  else logicalParentsById

/-- The state of the fold of `buildLogicalParentsById`. -/
structure LogicalFold where
  logicalParentsById : LogicalParents := []
  leafId : Option JsString := none
  appendParentId : Option JsString := none

/-- One row of `buildLogicalParentsById`. -/
def LogicalFold.step (fold : LogicalFold) (entry : SessionTreeEntry) : LogicalFold where
  logicalParentsById := setLogicalParent fold.logicalParentsById fold.leafId fold.appendParentId entry
  leafId := (leafIdUpdateAfterEntry entry).getD fold.leafId
  appendParentId := appendParentIdAfterEntry entry

/-- The visible parents of a list of rows, where they are not the raw ones. -/
def buildLogicalParentsById : LogicalParents :=
  (entries.foldl LogicalFold.step {}).logicalParentsById

/-! ## The storage -/

/-- The rows of a session and the indexes over them. -/
structure SessionStorage where
  entries : List SessionTreeEntry
  byId : JsMap JsString SessionTreeEntry
  labelsById : JsMap JsString JsString
  logicalParentsById : LogicalParents
  leafId : Option JsString
  appendParentId : Option JsString
deriving DecidableEq, Repr

namespace SessionStorage

variable (storage : SessionStorage)

def Has (id : JsString) : Prop :=
  storage.byId.get id ≠ none

instance (storage : SessionStorage) (id : JsString) : Decidable (storage.Has id) :=
  inferInstanceAs (Decidable (_ ≠ none))

variable (entries : List SessionTreeEntry)

/-- The storage before the constructor's checks: the rows with every index computed from them. -/
def indexed (leafId appendParentId : Option JsString) : SessionStorage where
  entries := entries
  byId := entries.foldl (fun byId entry => byId.set entry.id entry) []
  labelsById := buildLabelsById entries
  logicalParentsById := buildLogicalParentsById entries
  leafId := leafId
  appendParentId := appendParentId

/-- `Entry … not found`. -/
def entryNotFound (code : SessionErrorCode) (id : JsString) : SessionError :=
  ⟨code, js "Entry " ++ id ++ js " not found"⟩

/-- `Append parent … not found`. -/
def appendParentNotFound (code : SessionErrorCode) (id : JsString) : SessionError :=
  ⟨code, js "Append parent " ++ id ++ js " not found"⟩

/-- The constructor: both cursors have to be at rows of the storage. -/
def create (leafId appendParentId : Option JsString) : Except SessionError SessionStorage :=
  let storage := indexed entries leafId appendParentId
  match leafId.filter (¬ storage.Has ·), appendParentId.filter (¬ storage.Has ·) with
  | some leafId, _ => .error (entryNotFound .invalidSession leafId)
  | none, some appendParentId => .error (appendParentNotFound .invalidSession appendParentId)
  | none, none => .ok storage

/-- The storage without rows. -/
def empty : SessionStorage :=
  indexed [] none none

variable (entry : SessionTreeEntry)

/-- What an append checks: a cursor that does not move to the new row has to move to one of the storage. -/
def validateEntryForAppend : Except SessionError Unit :=
  let leafId := (leafIdUpdateAfterEntry entry).join.filter fun id =>
    ¬ (¬ entry.isLeaf ∧ id = entry.id) ∧ ¬ storage.Has id
  let appendParentId := (appendParentIdAfterEntry entry).filter fun id =>
    ¬ (¬ entry.isLeaf ∧ id = entry.id) ∧ ¬ storage.Has id
  match leafId, appendParentId with
  | some leafId, _ => .error (entryNotFound .notFound leafId)
  | none, some appendParentId => .error (appendParentNotFound .notFound appendParentId)
  | none, none => .ok ()

/-- What an append writes: the row, and every index with it. -/
def pushEntry : SessionStorage where
  entries := storage.entries ++ [entry]
  byId := storage.byId.set entry.id entry
  labelsById := updateLabelCache storage.labelsById entry
  logicalParentsById :=
    setLogicalParent storage.logicalParentsById storage.leafId storage.appendParentId entry
  leafId := (leafIdUpdateAfterEntry entry).getD storage.leafId
  appendParentId := appendParentIdAfterEntry entry

def recordEntry : Except SessionError SessionStorage := do
  storage.validateEntryForAppend entry
  return storage.pushEntry entry

/-- A UUID: 36 code units. -/
abbrev Uuid := {text : JsString // text.length = 36}

/-- A short id that no row has, or after a hundred tries a whole UUID. -/
def generateEntryId (uuidv7 : Nat → Uuid) : JsString :=
  match (List.range 100).find? fun i => ¬ storage.Has ((uuidv7 i).val.take 8) with
  | some i => (uuidv7 i).val.take 8
  | none => (uuidv7 100).val

def createLeafEntry (uuidv7 : Nat → Uuid) (now : JsString) (leafId : Option JsString) :
    Except SessionError SessionTreeEntry :=
  match leafId.filter (¬ storage.Has ·) with
  | some leafId => .error (entryNotFound .notFound leafId)
  | none =>
    .ok
      { body := .leaf leafId none
        id := storage.generateEntryId uuidv7
        parentId := storage.appendParentId
        timestamp := now }

/-- The row that a row continues on the visible branch. -/
def visibleParentId (current : SessionTreeEntry) : Option JsString :=
  truthy? <| match current.body with
    | .leaf targetId _ => targetId
    | _ => (storage.logicalParentsById.get current.id).getD current.parentId

/-- The rows a row shows of itself. -/
def visibleRow : List SessionTreeEntry :=
  if entry.isLeaf then [] else [entry]

/-- `Cycle found at entry …`. -/
def cycleFound (id : JsString) : SessionError :=
  ⟨.invalidSession, js "Cycle found at entry " ++ id⟩

/-- The loop of `getPathToRoot`. A round sees a row of the storage that no round before saw, so after as many rounds as
there are rows the next one finds a cycle. -/
def walkToRoot (storage : SessionStorage) : Nat → List JsString → SessionTreeEntry → List SessionTreeEntry →
    Except SessionError (List SessionTreeEntry)
  | 0, _, current, _ => .error (cycleFound current.id)
  | rounds + 1, seen, current, path =>
    if current.id ∈ seen then .error (cycleFound current.id)
    else
      match storage.visibleParentId current with
      | none => .ok (visibleRow current ++ path)
      | some parentId =>
        match storage.byId.get parentId with
        | none => .error (entryNotFound .invalidSession parentId)
        | some parent => walkToRoot storage rounds (current.id :: seen) parent (visibleRow current ++ path)

def getPathToRoot : Option JsString → Except SessionError (List SessionTreeEntry)
  | none => .ok []
  | some leafId =>
    match storage.byId.get leafId with
    | none => .error (entryNotFound .notFound leafId)
    | some current => storage.walkToRoot (storage.byId.length + 1) [] current []

/-! ## What an append does -/

variable {storage storage' : SessionStorage} {entry : SessionTreeEntry}

/-- A cursor stays in the storage: it is nowhere, at the row that comes in, or at a row that is there. -/
def Anchored (storage : SessionStorage) (entry : SessionTreeEntry) (cursor : Option JsString) : Prop :=
  ∀ id, cursor = some id → (entry.isLeaf = false ∧ id = entry.id) ∨ storage.Has id

theorem filter_unanchored_eq_none {cursor : Option JsString} :
    (cursor.filter fun id => ¬ (¬ entry.isLeaf ∧ id = entry.id) ∧ ¬ storage.Has id) = none ↔
      storage.Anchored entry cursor := by
  cases cursor with
  | none => exact ⟨fun _ id hid => (nomatch hid), fun _ => rfl⟩
  | some cursor =>
    rw [Option.filter_eq_none_iff, Anchored]
    refine forall₂_congr fun id _ => ?_
    rw [decide_eq_true_eq, Bool.not_eq_true]
    tauto

theorem validateEntryForAppend_eq_ok : storage.validateEntryForAppend entry = .ok () ↔
      storage.Anchored entry (leafIdUpdateAfterEntry entry).join ∧
        storage.Anchored entry (appendParentIdAfterEntry entry) := by
  rw [← filter_unanchored_eq_none, ← filter_unanchored_eq_none]
  unfold validateEntryForAppend
  extract_lets leafId appendParentId
  change _ ↔ leafId = none ∧ appendParentId = none
  clear_value leafId appendParentId
  cases leafId with
  | some leafId => simp
  | none => cases appendParentId <;> simp

theorem recordEntry_eq_ok : storage.recordEntry entry = .ok storage' ↔
      storage.validateEntryForAppend entry = .ok () ∧ storage' = storage.pushEntry entry := by
  rw [recordEntry, Except.bind_eq_ok]
  exact ⟨fun ⟨_, hvalid, hpush⟩ => ⟨hvalid, (Except.ok.inj hpush).symm⟩,
    fun ⟨hvalid, hpush⟩ => ⟨(), hvalid, by rw [hpush]; rfl⟩⟩

variable {leafId : Option JsString} {uuidv7 : Nat → Uuid} {now : JsString}

theorem createLeafEntry_eq_ok : storage.createLeafEntry uuidv7 now leafId = .ok entry ↔
      (∀ id, leafId = some id → storage.Has id) ∧ entry =
          { body := .leaf leafId none
            id := storage.generateEntryId uuidv7
            parentId := storage.appendParentId
            timestamp := now } := by
  have hfound : leafId.filter (¬ storage.Has ·) = none ↔ ∀ id, leafId = some id → storage.Has id := by
    simp [Option.filter_eq_none_iff]
  rw [← hfound, createLeafEntry]
  split <;> rename_i h
  · rw [h]
    exact ⟨fun h => (nomatch h), fun h => (nomatch h.1)⟩
  · rw [h]
    exact ⟨fun h => ⟨rfl, (Except.ok.inj h).symm⟩, fun h => by rw [h.2]⟩

theorem generateEntryId_truthy (storage : SessionStorage) (uuidv7 : Nat → Uuid) :
    Truthy (storage.generateEntryId uuidv7) := by
  have hlength : ∀ n, (uuidv7 n).val.length = 36 := fun n => (uuidv7 n).property
  rw [generateEntryId]
  split
  · rename_i i _
    refine List.ne_nil_of_length_pos ?_
    rw [List.length_take, hlength]
    decide
  · refine List.ne_nil_of_length_pos ?_
    rw [hlength]
    decide

theorem validateEntryForAppend_of_createLeafEntry (h : storage.createLeafEntry uuidv7 now leafId = .ok entry) :
    storage.validateEntryForAppend entry = .ok () := by
  obtain ⟨hfound, rfl⟩ := createLeafEntry_eq_ok.mp h
  exact validateEntryForAppend_eq_ok.mpr ⟨fun id hid => .inr (hfound id hid), fun id hid => .inr (hfound id hid)⟩

theorem has_pushEntry {id : JsString} : (storage.pushEntry entry).Has id ↔ id = entry.id ∨ storage.Has id := by
  rw [Has, Has, pushEntry, JsMap.get_set]
  split
  · rename_i h
    exact ⟨fun _ => .inl h.symm, fun _ => Option.some_ne_none _⟩
  · rename_i h
    exact ⟨.inr, fun hid => hid.resolve_left fun e => h e.symm⟩

theorem create_eq_ok {entries : List SessionTreeEntry} {leafId appendParentId : Option JsString} :
    create entries leafId appendParentId = .ok storage ↔
      (∀ id, leafId = some id → (indexed entries leafId appendParentId).Has id) ∧
        (∀ id, appendParentId = some id → (indexed entries leafId appendParentId).Has id) ∧
          storage = indexed entries leafId appendParentId := by
  have hfound : ∀ cursor : Option JsString, cursor.filter (¬ (indexed entries leafId appendParentId).Has ·) = none ↔
        ∀ id, cursor = some id → (indexed entries leafId appendParentId).Has id := fun cursor => by
    simp [Option.filter_eq_none_iff]
  rw [← hfound, ← hfound, create]
  generalize leafId.filter _ = leaf
  generalize appendParentId.filter _ = parent
  cases leaf with
  | some leaf => simp
  | none => cases parent <;> simp [eq_comm]

/-- What a storage that is opened computes from rows. -/
def reloaded : SessionStorage :=
  indexed entries (resolveLeafId entries) (resolveAppendParentId entries)

theorem logicalFold_eq : entries.foldl LogicalFold.step {} =
      ⟨buildLogicalParentsById entries, resolveLeafId entries, resolveAppendParentId entries⟩ := by
  induction entries using List.reverseRecOn with
  | nil => rfl
  | append_singleton entries entry ih =>
    rw [buildLogicalParentsById, resolveLeafId, resolveAppendParentId, List.foldl_concat, List.foldl_concat,
      List.foldl_concat, ih]
    rfl

theorem reloaded_append (entry : SessionTreeEntry) :
    reloaded (entries ++ [entry]) = (reloaded entries).pushEntry entry := by
  have hlogical : buildLogicalParentsById (entries ++ [entry]) =
      setLogicalParent (buildLogicalParentsById entries) (resolveLeafId entries) (resolveAppendParentId entries)
        entry := by
    rw [buildLogicalParentsById, List.foldl_concat, logicalFold_eq]
    rfl
  rw [reloaded, indexed, hlogical]
  simp only [buildLabelsById, resolveLeafId, resolveAppendParentId, List.foldl_concat]
  rfl

end SessionStorage

end ClawWorks
