import ClawWorks.Harness.SessionStorage

/-!
# The visible branch of a session

`Session` appends rows at the append cursor and moves the visible leaf; other writers append side rows and rows of types
the session does not know, at the same cursor.
-/

namespace ClawWorks

open SessionStorage SessionTreeEntry List

/-! ## Operations of a session -/

/-- What one append takes from outside: the UUIDs it draws, the time, and the failure of its write, where the storage
writes to a file. -/
structure AppendEnvironment where
  uuidv7 : Nat → SessionStorage.Uuid
  now : JsString
  failure : Option SessionError := none

namespace SessionStorage

/-- Persist a row. -/
def appendEntry (storage : SessionStorage) (entry : SessionTreeEntry) (failure : Option SessionError) :
    Except SessionError SessionStorage := do
  storage.validateEntryForAppend entry
  match failure with
  | some error => .error error
  | none => storage.recordEntry entry

/-- Persist a row that selects a leaf. -/
def setLeafId (storage : SessionStorage) (leafId : Option JsString) (environment : AppendEnvironment) :
    Except SessionError SessionStorage := do
  let entry ← storage.createLeafEntry environment.uuidv7 environment.now leafId
  match environment.failure with
  | some error => .error error
  | none => storage.recordEntry entry

def getLeafId (storage : SessionStorage) : Except SessionError (Option JsString) :=
  match storage.leafId.filter (¬ storage.Has ·) with
  | some leafId => .error (entryNotFound .invalidSession leafId)
  | none => .ok storage.leafId

def getAppendParentId (storage : SessionStorage) : Except SessionError (Option JsString) :=
  match storage.appendParentId.filter (¬ storage.Has ·) with
  | some appendParentId => .error (appendParentNotFound .invalidSession appendParentId)
  | none => .ok storage.appendParentId

end SessionStorage

namespace Session

/-- The visible rows from the root to the leaf. -/
def getBranch (storage : SessionStorage) : Except SessionError (List SessionTreeEntry) := do
  let leafId ← storage.getLeafId
  storage.getPathToRoot leafId

/-- Append a row at the append cursor; what comes back is its id. -/
def appendTypedEntry (storage : SessionStorage) (body : EntryBody) (environment : AppendEnvironment) :
    Except SessionError (JsString × SessionStorage) := do
  let parentId ← storage.getAppendParentId
  let entry : SessionTreeEntry :=
    { body := body
      id := storage.generateEntryId environment.uuidv7
      parentId := parentId
      timestamp := environment.now }
  return (entry.id, ← storage.appendEntry entry environment.failure)

section Appends

variable (storage : SessionStorage)

def appendMessage (message : AgentMessage) :=
  appendTypedEntry storage (.message message)

def appendThinkingLevelChange (thinkingLevel : JsString) :=
  appendTypedEntry storage (.thinkingLevelChange thinkingLevel)

def appendModelChange (provider modelId : JsString) :=
  appendTypedEntry storage (.modelChange provider modelId)

def appendCompaction (summary firstKeptEntryId : JsString) (tokensBefore : Nat) (details : Option CompactionDetails)
    (fromHook : Bool) :=
  appendTypedEntry storage (.compaction summary firstKeptEntryId tokensBefore details fromHook)

/-- Append a non-LLM transcript marker. -/
def appendCustomEntry (customType : JsString) :=
  appendTypedEntry storage (.custom customType)

def appendCustomMessageEntry (customType : JsString) (content : MessageContent) (display : Bool) :=
  appendTypedEntry storage (.customMessage customType content display)

/-- Record or clear the display label of a row of the storage. -/
def appendLabel (targetId : JsString) (label : Option JsString) (environment : AppendEnvironment) :
    Except SessionError (JsString × SessionStorage) :=
  if storage.Has targetId then appendTypedEntry storage (.label targetId label) environment
  else .error (entryNotFound .notFound targetId)

def appendSessionName (name : JsString) :=
  appendTypedEntry storage (.sessionInfo (some (trim name)))

end Appends

/-- The row that sums up an abandoned branch. -/
def branchSummaryEntry (storage : SessionStorage) (entryId : Option JsString) (summary : JsString)
    (environment : AppendEnvironment) : SessionTreeEntry where
  body := .branchSummary (entryId.getD (js "root")) summary
  id := storage.generateEntryId environment.uuidv7
  parentId := entryId
  timestamp := environment.now

/-- Move the visible leaf, and optionally attach a summary of the abandoned branch. When the summary fails the leaf has
moved. -/
def moveTo (storage : SessionStorage) (entryId : Option JsString) (summary : Option JsString)
    (environment summaryEnvironment : AppendEnvironment) : Except SessionError (Option JsString) × SessionStorage :=
  match entryId.filter (¬ storage.Has ·) with
  | some entryId => (.error (entryNotFound .notFound entryId), storage)
  | none =>
    match storage.setLeafId entryId environment with
    | .error error => (.error error, storage)
    | .ok moved =>
      match summary with
      | none => (.ok none, moved)
      | some summary =>
        let entry := branchSummaryEntry moved entryId summary summaryEnvironment
        match moved.appendEntry entry summaryEnvironment.failure with
        | .error error => (.error error, moved)
        | .ok appended => (.ok (some entry.id), appended)

inductive Append where
  | message (message : AgentMessage)
  | thinkingLevelChange (thinkingLevel : JsString)
  | modelChange (provider modelId : JsString)
  | compaction (summary firstKeptEntryId : JsString) (tokensBefore : Nat) (details : Option CompactionDetails)
      (fromHook : Bool)
  | customEntry (customType : JsString)
  | customMessageEntry (customType : JsString) (content : MessageContent) (display : Bool)
  | label (targetId : JsString) (label : Option JsString)
  | sessionName (name : JsString)

def append (storage : SessionStorage) : Append → AppendEnvironment → Except SessionError (JsString × SessionStorage)
  | .message message => appendMessage storage message
  | .thinkingLevelChange thinkingLevel => appendThinkingLevelChange storage thinkingLevel
  | .modelChange provider modelId => appendModelChange storage provider modelId
  | .compaction summary firstKeptEntryId tokensBefore details fromHook =>
    appendCompaction storage summary firstKeptEntryId tokensBefore details fromHook
  | .customEntry customType => appendCustomEntry storage customType
  | .customMessageEntry customType content display => appendCustomMessageEntry storage customType content display
  | .label targetId label => appendLabel storage targetId label
  | .sessionName name => appendSessionName storage name

end Session

structure SideRow (storage : SessionStorage) (entry : SessionTreeEntry) : Prop where
  keepsLeaf : leafIdUpdateAfterEntry entry = none
  parent : entry.parentId = storage.appendParentId
  fresh : ¬ storage.Has entry.id
  truthy : Truthy entry.id

def UniqueUuid (storage : SessionStorage) (environment : AppendEnvironment) : Prop :=
  ¬ storage.Has (environment.uuidv7 100)

/-- The UUIDs that a move falls back to are no ids of the storage, nor one of the other's row. -/
structure UniqueUuids (storage : SessionStorage) (environment summaryEnvironment : AppendEnvironment) : Prop where
  first : UniqueUuid storage environment
  second : UniqueUuid storage summaryEnvironment
  different : (summaryEnvironment.uuidv7 100).val ≠ storage.generateEntryId environment.uuidv7

/-- The storages of the runs of a session among other writers. -/
inductive Reachable : SessionStorage → Prop where
  | empty : Reachable .empty
  | append {storage storage' : SessionStorage} {append : Session.Append} {environment : AppendEnvironment}
      {id : JsString} (h : Reachable storage) (hunique : UniqueUuid storage environment)
      (happend : Session.append storage append environment = .ok (id, storage')) : Reachable storage'
  | moveTo {storage : SessionStorage} {environment summaryEnvironment : AppendEnvironment} (h : Reachable storage)
      (entryId summary : Option JsString) (hunique : UniqueUuids storage environment summaryEnvironment) :
      Reachable (Session.moveTo storage entryId summary environment summaryEnvironment).2
  | side {storage storage' : SessionStorage} {entry : SessionTreeEntry} {failure : Option SessionError}
      (h : Reachable storage) (hside : SideRow storage entry)
      (happend : storage.appendEntry entry failure = .ok storage') : Reachable storage'

namespace SessionStorage

variable {storage storage' : SessionStorage} {entry : SessionTreeEntry}

/-- How early a row came. -/
def position (storage : SessionStorage) (id : JsString) : Nat :=
  (storage.entries.map SessionTreeEntry.id).idxOf id

/-- The invariant of runs. -/
structure Grown (storage : SessionStorage) : Prop where
  nodup : (storage.entries.map SessionTreeEntry.id).Nodup
  byId : storage.byId = storage.entries.map fun entry => (entry.id, entry)
  truthy : ∀ id, storage.Has id → Truthy id
  leaf : ∀ id, storage.leafId = some id → storage.Has id
  appendParent : ∀ id, storage.appendParentId = some id → storage.Has id
  logical : ∀ id, ¬ storage.Has id → storage.logicalParentsById.get id = none
  earlier : ∀ entry ∈ storage.entries, ∀ parentId, storage.visibleParentId entry = some parentId →
    storage.Has parentId ∧ storage.position parentId < storage.position entry.id

variable {id : JsString}

theorem Grown.get_eq_some_iff (h : storage.Grown) :
    storage.byId.get id = some entry ↔ entry ∈ storage.entries ∧ entry.id = id := by
  have hkeys : (storage.byId.map (·.1)).Nodup := by
    rw [h.byId, map_map]
    exact h.nodup
  constructor
  · intro hget
    have hmem := JsMap.mem_of_get hget
    rw [h.byId] at hmem
    obtain ⟨row, hrow, hpair⟩ := mem_map.mp hmem
    obtain ⟨rfl, rfl⟩ := Prod.mk.inj hpair
    exact ⟨hrow, rfl⟩
  · rintro ⟨hmem, rfl⟩
    refine JsMap.get_of_mem hkeys ?_
    rw [h.byId]
    exact mem_map_of_mem hmem

theorem Grown.has_iff (h : storage.Grown) : storage.Has id ↔ ∃ row ∈ storage.entries, row.id = id := by
  rw [Has, Option.ne_none_iff_exists']
  exact exists_congr fun row => h.get_eq_some_iff

theorem Grown.has_of_mem (h : storage.Grown) (hmem : entry ∈ storage.entries) : storage.Has entry.id :=
  h.has_iff.mpr ⟨entry, hmem, rfl⟩

theorem grown_empty : Grown .empty :=
  ⟨nodup_nil, rfl, fun _ h => absurd rfl h, fun _ h => (nomatch h), fun _ h => (nomatch h),
    fun _ _ => rfl, fun _ h => (nomatch h)⟩

theorem get_setLogicalParent {logicalParentsById : LogicalParents} {leafId appendParentId : Option JsString}
    (hid : id ≠ entry.id) :
    (setLogicalParent logicalParentsById leafId appendParentId entry).get id = logicalParentsById.get id := by
  rw [setLogicalParent]
  split
  · rw [JsMap.get_set, if_neg hid.symm]
  · rfl

theorem visibleParentId_pushEntry {row : SessionTreeEntry} (hid : row.id ≠ entry.id) :
    (storage.pushEntry entry).visibleParentId row = storage.visibleParentId row := by
  rw [visibleParentId, visibleParentId]
  congr 1
  cases row.body <;> first | exact congrArg (·.getD row.parentId) (get_setLogicalParent hid) | rfl

/-- A row that comes in as an append does: its id is new, and its parent and the cursors are at rows of the storage. -/
structure Attachable (storage : SessionStorage) (entry : SessionTreeEntry) : Prop where
  fresh : ¬ storage.Has entry.id
  truthy : Truthy entry.id
  parent : ∀ id, entry.parentId = some id → storage.Has id
  target : ∀ id, entry.isLeaf = true → leafIdUpdateAfterEntry entry = some (some id) → storage.Has id
  next : ∀ id, entry.isLeaf = true → appendParentIdAfterEntry entry = some id → storage.Has id

theorem cursors_of_not_isLeaf (h : entry.isLeaf = false) :
    (leafIdUpdateAfterEntry entry = none ∨ leafIdUpdateAfterEntry entry = some (some entry.id)) ∧
      appendParentIdAfterEntry entry = some entry.id := by
  rw [isLeaf] at h
  rw [leafIdUpdateAfterEntry, appendParentIdAfterEntry]
  cases hbody : entry.body with
  | leaf targetId appendParentId =>
    rw [hbody] at h
    cases h
  | unknown type => exact ⟨.inl rfl, rfl⟩
  | _ =>
    refine ⟨?_, rfl⟩
    cases entry.side
    · exact .inr rfl
    · exact .inl rfl

theorem Grown.has_visibleParent (h : storage.Grown) (hentry : storage.Attachable entry) {parentId : JsString}
    (hparent : (storage.pushEntry entry).visibleParentId entry = some parentId) : storage.Has parentId := by
  have hparent' := truthy?_eq_some hparent
  cases hleaf : entry.isLeaf with
  | true =>
    rw [isLeaf] at hleaf
    cases hbody : entry.body with
    | leaf targetId appendParentId =>
      rw [hbody] at hparent'
      refine hentry.target parentId (by rw [isLeaf, hbody]) ?_
      rw [leafIdUpdateAfterEntry, hbody]
      exact congrArg some hparent'
    | _ =>
      rw [hbody] at hleaf
      cases hleaf
  | false =>
    have hpatched : ((storage.pushEntry entry).logicalParentsById.get entry.id).getD entry.parentId =
        some parentId := by
      rw [isLeaf] at hleaf
      cases hbody : entry.body <;> rw [hbody] at hparent' hleaf <;> first | exact hparent' | cases hleaf
    rw [pushEntry, setLogicalParent] at hpatched
    split at hpatched
    · rw [JsMap.get_set, if_pos rfl] at hpatched
      exact h.leaf parentId hpatched
    · rw [h.logical entry.id hentry.fresh] at hpatched
      exact hentry.parent parentId hpatched

theorem Grown.pushEntry (h : storage.Grown) (hentry : storage.Attachable entry) : (storage.pushEntry entry).Grown := by
  have hfresh : entry.id ∉ storage.entries.map SessionTreeEntry.id := fun hmem => by
    obtain ⟨row, hrow, hid⟩ := mem_map.mp hmem
    exact hentry.fresh (h.has_iff.mpr ⟨row, hrow, hid⟩)
  have hpush : (storage.pushEntry entry).entries.map SessionTreeEntry.id =
      storage.entries.map SessionTreeEntry.id ++ [entry.id] := map_append
  have hkept : ∀ {id}, storage.Has id → (storage.pushEntry entry).Has id := fun hid => has_pushEntry.mpr (.inr hid)
  have hold : ∀ {id}, storage.Has id → (storage.pushEntry entry).position id = storage.position id := by
    intro id hid
    obtain ⟨row, hrow, rfl⟩ := h.has_iff.mp hid
    rw [position, position, hpush]
    exact idxOf_append_of_mem (mem_map_of_mem hrow)
  have hnew : (storage.pushEntry entry).position entry.id = storage.entries.length := by
    rw [position, hpush, idxOf_append_of_notMem hfresh, idxOf_cons_self, Nat.add_zero, length_map]
  have hbound : ∀ {id}, storage.Has id → storage.position id < storage.entries.length := by
    intro id hid
    obtain ⟨row, hrow, rfl⟩ := h.has_iff.mp hid
    rw [position, ← length_map (f := SessionTreeEntry.id)]
    exact idxOf_lt_length_of_mem (mem_map_of_mem hrow)
  refine ⟨?_, ?_, fun id hid => ?_, fun id hid => ?_, fun id hid => ?_, fun id hid => ?_,
    fun row hrow parentId hparent => ?_⟩
  · rw [hpush]
    exact nodup_append.mpr ⟨h.nodup, nodup_singleton _, fun a ha b hb heq => hfresh (mem_singleton.mp hb ▸ heq ▸ ha)⟩
  · change storage.byId.set entry.id entry = (storage.entries ++ [entry]).map _
    have hnone : storage.byId.get entry.id = none := not_not.mp hentry.fresh
    rw [JsMap.set_of_get_none hnone, h.byId, map_append, map_singleton]
  · rcases has_pushEntry.mp hid with rfl | hid
    · exact hentry.truthy
    · exact h.truthy id hid
  · change (leafIdUpdateAfterEntry entry).getD storage.leafId = some id at hid
    cases hleaf : entry.isLeaf with
    | true =>
      cases hupdate : leafIdUpdateAfterEntry entry with
      | none =>
        rw [hupdate] at hid
        exact hkept (h.leaf id hid)
      | some update =>
        rw [hupdate] at hid
        exact hkept (hentry.target id hleaf (hupdate.trans (congrArg some hid)))
    | false =>
      rcases (cursors_of_not_isLeaf hleaf).1 with hupdate | hupdate
      · rw [hupdate] at hid
        exact hkept (h.leaf id hid)
      · rw [hupdate] at hid
        obtain rfl := Option.some.inj hid
        exact has_pushEntry.mpr (.inl rfl)
  · change appendParentIdAfterEntry entry = some id at hid
    cases hleaf : entry.isLeaf with
    | true =>
      exact hkept (hentry.next id hleaf hid)
    | false =>
      rw [(cursors_of_not_isLeaf hleaf).2] at hid
      obtain rfl := Option.some.inj hid
      exact has_pushEntry.mpr (.inl rfl)
  · rw [has_pushEntry, not_or] at hid
    exact (get_setLogicalParent hid.1).trans (h.logical id hid.2)
  · rcases mem_append.mp hrow with hrow | hrow
    · have hrowHas := h.has_of_mem hrow
      have hid : row.id ≠ entry.id := fun heq => hentry.fresh (heq ▸ hrowHas)
      rw [visibleParentId_pushEntry hid] at hparent
      obtain ⟨hhas, hlt⟩ := h.earlier row hrow parentId hparent
      exact ⟨hkept hhas, by rwa [hold hhas, hold hrowHas]⟩
    · obtain rfl := mem_singleton.mp hrow
      have hhas := h.has_visibleParent hentry hparent
      exact ⟨hkept hhas, by rw [hold hhas, hnew]; exact hbound hhas⟩

/-! ## Paths -/

/-- The rows visible from a row: what it continues, and then itself. -/
inductive PathOf (storage : SessionStorage) : Option JsString → List SessionTreeEntry → Prop where
  | root : PathOf storage none []
  | row {id : JsString} {entry : SessionTreeEntry} {path : List SessionTreeEntry}
      (hget : storage.byId.get id = some entry) (hpath : PathOf storage (storage.visibleParentId entry) path) :
      PathOf storage (some id) (path ++ visibleRow entry)

variable {cursor : Option JsString} {path : List SessionTreeEntry}

theorem Grown.exists_pathOf (h : storage.Grown) (hid : storage.Has id) : ∃ path, storage.PathOf (some id) path := by
  -- By strong induction on the position: what a row continues came before it.
  induction hn : storage.position id using Nat.strong_induction_on generalizing id with
  | _ n ih =>
    obtain ⟨entry, hmem, rfl⟩ := h.has_iff.mp hid
    have hget := h.get_eq_some_iff.mpr ⟨hmem, rfl⟩
    cases hparent : storage.visibleParentId entry with
    | none => exact ⟨[] ++ visibleRow entry, .row hget (by rw [hparent]; exact .root)⟩
    | some parentId =>
      obtain ⟨hhas, hlt⟩ := h.earlier entry hmem parentId hparent
      obtain ⟨path, hpath⟩ := ih _ (hn ▸ hlt) hhas rfl
      exact ⟨path ++ visibleRow entry, .row hget (by rw [hparent]; exact hpath)⟩

theorem Grown.exists_pathOf_cursor (h : storage.Grown) (hcursor : ∀ id, cursor = some id → storage.Has id) :
    ∃ path, storage.PathOf cursor path := by
  cases cursor with
  | none => exact ⟨[], .root⟩
  | some id => exact h.exists_pathOf (hcursor id rfl)

theorem Grown.walkToRoot (h : storage.Grown) (hpath : storage.PathOf cursor path) :
    ∀ {current : SessionTreeEntry}, cursor = some current.id → current ∈ storage.entries →
      ∀ (rounds : Nat) (seen : List JsString) (below : List SessionTreeEntry),
        storage.position current.id < rounds → (∀ id ∈ seen, storage.position current.id < storage.position id) →
        storage.walkToRoot rounds seen current below = .ok (path ++ below) := by
  induction hpath with
  | root => exact fun hcursor => (nomatch hcursor)
  | @row id entry path hget hpath ih =>
    intro current hcursor hmem rounds seen below hrounds hseen
    obtain rfl := Option.some.inj hcursor
    obtain rfl : current = entry := Option.mem_unique (h.get_eq_some_iff.mpr ⟨hmem, rfl⟩) hget
    obtain ⟨rounds, rfl⟩ := Nat.exists_eq_succ_of_ne_zero (Nat.ne_of_gt (Nat.zero_lt_of_lt hrounds))
    rw [SessionStorage.walkToRoot, if_neg fun hin => lt_irrefl _ (hseen _ hin)]
    cases hparent : storage.visibleParentId current with
    | none =>
      rw [hparent] at hpath
      cases hpath
      rfl
    | some parentId =>
      obtain ⟨hhas, hlt⟩ := h.earlier current hmem parentId hparent
      obtain ⟨parent, hparentMem, rfl⟩ := h.has_iff.mp hhas
      dsimp only
      rw [h.get_eq_some_iff.mpr ⟨hparentMem, rfl⟩]
      dsimp only
      rw [ih hparent hparentMem rounds (current.id :: seen) _ (by omega) ?_, append_assoc]
      intro id hid
      rcases mem_cons.mp hid with rfl | hid
      · exact hlt
      · exact hlt.trans (hseen id hid)

/-- **`getPathToRoot` computes the path.** -/
theorem Grown.getPathToRoot (h : storage.Grown) (hpath : storage.PathOf cursor path) :
    storage.getPathToRoot cursor = .ok path := by
  cases hpath with
  | root => rfl
  | @row id entry path hget hpath =>
    obtain ⟨hmem, rfl⟩ := h.get_eq_some_iff.mp hget
    have hbound : storage.position entry.id < storage.byId.length := by
      rw [h.byId, length_map, position, ← length_map (f := SessionTreeEntry.id)]
      exact idxOf_lt_length_of_mem (mem_map_of_mem hmem)
    rw [getPathToRoot, hget]
    dsimp only
    rw [h.walkToRoot (.row hget hpath) rfl hmem _ _ _ (Nat.lt_succ_of_lt hbound) (forall_mem_nil _), append_nil]

theorem PathOf.has_of_mem (hpath : storage.PathOf cursor path) (h : storage.Grown) :
    ∀ row ∈ path, storage.Has row.id := by
  induction hpath with
  | root => exact forall_mem_nil _
  | @row id entry path hget hpath ih =>
    intro row hrow
    rcases mem_append.mp hrow with hrow | hrow
    · exact ih row hrow
    · rw [visibleRow] at hrow
      split at hrow
      · cases hrow
      · obtain rfl := mem_singleton.mp hrow
        exact h.has_of_mem (h.get_eq_some_iff.mp hget).1

theorem PathOf.pushEntry (hpath : storage.PathOf cursor path) (h : storage.Grown) (hfresh : ¬ storage.Has entry.id) :
    (storage.pushEntry entry).PathOf cursor path := by
  induction hpath with
  | root => exact .root
  | @row id row path hget hpath ih =>
    obtain ⟨hmem, rfl⟩ := h.get_eq_some_iff.mp hget
    have hid : row.id ≠ entry.id := fun heq => hfresh (heq ▸ h.has_of_mem hmem)
    refine .row ((JsMap.get_set ..).trans ((if_neg hid.symm).trans hget)) ?_
    rw [visibleParentId_pushEntry hid]
    exact ih

/-- An ordinary row at the append cursor. -/
structure AtCursor (storage : SessionStorage) (entry : SessionTreeEntry) : Prop where
  ordinary : leafIdUpdateAfterEntry entry = some (some entry.id)
  notLeaf : entry.isLeaf = false
  notSide : entry.side = false
  parent : entry.parentId = storage.appendParentId
  fresh : ¬ storage.Has entry.id
  truthy : Truthy entry.id

theorem AtCursor.attachable (hentry : storage.AtCursor entry) (h : storage.Grown) : storage.Attachable entry :=
  ⟨hentry.fresh, hentry.truthy, fun id hid => h.appendParent id (hentry.parent ▸ hid),
    fun _ hleaf => absurd (hentry.notLeaf.symm.trans hleaf) Bool.false_ne_true,
    fun _ hleaf => absurd (hentry.notLeaf.symm.trans hleaf) Bool.false_ne_true⟩

/-- **An ordinary row continues the visible leaf**, wherever the append cursor is. -/
theorem AtCursor.visibleParentId (hentry : storage.AtCursor entry) (h : storage.Grown) :
    (storage.pushEntry entry).visibleParentId entry = storage.leafId := by
  have hpatched : ((storage.pushEntry entry).logicalParentsById.get entry.id).getD entry.parentId =
      storage.leafId := by
    rw [pushEntry, setLogicalParent]
    by_cases hcursors : storage.leafId = storage.appendParentId
    · rw [if_neg fun hpatch => hpatch.2.2.2 hcursors, h.logical entry.id hentry.fresh, Option.getD_none,
        hentry.parent, hcursors]
    · rw [if_pos ⟨hentry.ordinary, by rw [hentry.notSide]; decide, hentry.parent, hcursors⟩, JsMap.get_set, if_pos rfl,
        Option.getD_some]
  have hraw : (storage.pushEntry entry).visibleParentId entry =
      truthy? (((storage.pushEntry entry).logicalParentsById.get entry.id).getD entry.parentId) := by
    have hleaf := hentry.notLeaf
    rw [isLeaf] at hleaf
    rw [SessionStorage.visibleParentId]
    cases hbody : entry.body <;> first | rfl | (rw [hbody] at hleaf; cases hleaf)
  rw [hraw, hpatched]
  cases hleafId : storage.leafId with
  | none => rfl
  | some leafId => exact truthy?_some (h.truthy leafId (h.leaf leafId hleafId))

theorem AtCursor.pathOf (hentry : storage.AtCursor entry) (h : storage.Grown)
    (hpath : storage.PathOf storage.leafId path) :
    (storage.pushEntry entry).PathOf (storage.pushEntry entry).leafId (path ++ [entry]) := by
  have hleafId : (storage.pushEntry entry).leafId = some entry.id := by
    rw [pushEntry, hentry.ordinary, Option.getD_some]
  have hget : (storage.pushEntry entry).byId.get entry.id = some entry := (JsMap.get_set ..).trans (if_pos rfl)
  have hshown : visibleRow entry = [entry] := by rw [visibleRow, hentry.notLeaf]; rfl
  rw [hleafId, ← hshown]
  exact .row hget (hentry.visibleParentId h ▸ hpath.pushEntry h hentry.fresh)

/-! ## What the operations append -/

theorem generateEntryId_fresh {uuidv7 : Nat → Uuid} (h : ¬ storage.Has (uuidv7 100)) :
    ¬ storage.Has (storage.generateEntryId uuidv7) := by
  rw [generateEntryId]
  split
  · rename_i i hfound
    have hdecided := find?_some hfound
    exact of_decide_eq_true hdecided
  · exact h

theorem appendEntry_eq_ok {failure : Option SessionError} (h : storage.appendEntry entry failure = .ok storage') :
    storage' = storage.pushEntry entry := by
  obtain ⟨-, -, hwrite⟩ := Except.bind_eq_ok.mp h
  cases failure with
  | some error => cases hwrite
  | none => exact (recordEntry_eq_ok.mp hwrite).2

theorem getLeafId_eq (h : storage.Grown) : storage.getLeafId = .ok storage.leafId := by
  have hfound : storage.leafId.filter (¬ storage.Has ·) = none := by
    simpa [Option.filter_eq_none_iff] using h.leaf
  rw [getLeafId, hfound]

theorem getAppendParentId_eq (h : storage.Grown) : storage.getAppendParentId = .ok storage.appendParentId := by
  have hfound : storage.appendParentId.filter (¬ storage.Has ·) = none := by
    simpa [Option.filter_eq_none_iff] using h.appendParent
  rw [getAppendParentId, hfound]

theorem PathOf.getBranch (hpath : storage.PathOf storage.leafId path) (h : storage.Grown) :
    Session.getBranch storage = .ok path := by
  rw [Session.getBranch, getLeafId_eq h]
  exact h.getPathToRoot hpath

end SessionStorage

section Operations

variable {storage storage' : SessionStorage} {entry : SessionTreeEntry} {environment : AppendEnvironment}

theorem appendTypedEntry_eq_ok (h : storage.Grown) {body : EntryBody} {id : JsString}
    (hunique : UniqueUuid storage environment) (hordinary : ∀ id parentId timestamp,
      leafIdUpdateAfterEntry ⟨body, id, parentId, timestamp, false⟩ = some (some id) ∧
        isLeaf ⟨body, id, parentId, timestamp, false⟩ = false)
    (happend : Session.appendTypedEntry storage body environment = .ok (id, storage')) :
    ∃ entry, storage.AtCursor entry ∧ entry.id = id ∧ storage' = storage.pushEntry entry := by
  rw [Session.appendTypedEntry, getAppendParentId_eq h] at happend
  obtain ⟨parentId, hparent, happend⟩ := Except.bind_eq_ok.mp happend
  obtain rfl := Except.ok.inj hparent
  obtain ⟨appended, hwrite, hresult⟩ := Except.bind_eq_ok.mp happend
  obtain ⟨rfl, rfl⟩ := Prod.mk.inj (Except.ok.inj hresult)
  exact ⟨_, ⟨(hordinary _ _ _).1, (hordinary _ _ _).2, rfl, rfl, generateEntryId_fresh hunique,
    generateEntryId_truthy _ _⟩, rfl, appendEntry_eq_ok hwrite⟩

theorem append_eq_ok (h : storage.Grown) {append : Session.Append} {id : JsString}
    (hunique : UniqueUuid storage environment)
    (happend : Session.append storage append environment = .ok (id, storage')) :
    ∃ entry, storage.AtCursor entry ∧ entry.id = id ∧ storage' = storage.pushEntry entry := by
  cases append with
  | label targetId label =>
    rw [Session.append, Session.appendLabel] at happend
    split at happend
    · exact appendTypedEntry_eq_ok h hunique (fun _ _ _ => ⟨rfl, rfl⟩) happend
    · cases happend
  | _ => exact appendTypedEntry_eq_ok h hunique (fun _ _ _ => ⟨rfl, rfl⟩) happend

theorem SideRow.attachable (hside : SideRow storage entry) (h : storage.Grown) : storage.Attachable entry := by
  have hleaf : ∀ id, entry.isLeaf → storage.Has id := by
    intro id hleaf
    have hkeeps := hside.keepsLeaf
    rw [isLeaf] at hleaf
    rw [leafIdUpdateAfterEntry] at hkeeps
    cases hbody : entry.body with
    | leaf targetId appendParentId =>
      rw [hbody] at hkeeps
      cases hkeeps
    | _ =>
      rw [hbody] at hleaf
      cases hleaf
  exact ⟨hside.fresh, hside.truthy, fun id hid => h.appendParent id (hside.parent ▸ hid),
    fun id hid _ => hleaf id hid, fun id hid _ => hleaf id hid⟩

/-- **What a move does**: nothing, or it pushes a leaf row that takes both cursors to the target; with a summary it then
fails, or pushes that at the append cursor. -/
theorem moveTo_cases (h : storage.Grown) {entryId summary : Option JsString}
    {summaryEnvironment : AppendEnvironment}
    (hunique : UniqueUuids storage environment summaryEnvironment) :
    (∃ error, Session.moveTo storage entryId summary environment summaryEnvironment = (.error error, storage)) ∨
      ∃ leafRow, storage.Attachable leafRow ∧ (∀ id, entryId = some id → storage.Has id) ∧
        (storage.pushEntry leafRow).leafId = entryId ∧ (storage.pushEntry leafRow).appendParentId = entryId ∧
        ((summary = none ∧ Session.moveTo storage entryId summary environment summaryEnvironment =
            (.ok none, storage.pushEntry leafRow)) ∨
          (∃ error, Session.moveTo storage entryId summary environment summaryEnvironment =
            (.error error, storage.pushEntry leafRow)) ∨
          ∃ text entry, summary = some text ∧ (storage.pushEntry leafRow).AtCursor entry ∧
            entry.body = .branchSummary (entryId.getD (js "root")) text ∧
            Session.moveTo storage entryId summary environment summaryEnvironment =
              (.ok (some entry.id), (storage.pushEntry leafRow).pushEntry entry)) := by
  rw [Session.moveTo]
  split
  · exact .inl ⟨_, rfl⟩
  split
  · exact .inl ⟨_, rfl⟩
  rename_i moved hmoved
  right
  obtain ⟨leafRow, hcreated, hwrite⟩ := Except.bind_eq_ok.mp hmoved
  have hpush : moved = storage.pushEntry leafRow := by
    cases hfailure : environment.failure with
    | some error =>
      rw [hfailure] at hwrite
      cases hwrite
    | none =>
      rw [hfailure] at hwrite
      exact (recordEntry_eq_ok.mp hwrite).2
  obtain ⟨hhas, hrow⟩ := createLeafEntry_eq_ok.mp hcreated
  have hid : leafRow.id = storage.generateEntryId environment.uuidv7 := by rw [hrow]
  have hleafRow : storage.Attachable leafRow := by
    refine ⟨hid ▸ generateEntryId_fresh hunique.first,
      hid ▸ generateEntryId_truthy _ _, fun id hparent => ?_, fun id _ htarget => ?_, fun id _ hnext => ?_⟩
    · rw [hrow] at hparent
      exact h.appendParent id hparent
    · rw [hrow] at htarget
      exact hhas id (Option.some.inj htarget)
    · rw [hrow] at hnext
      exact hhas id hnext
  have hleafId : (storage.pushEntry leafRow).leafId = entryId := by rw [hrow]; rfl
  have happendParent : (storage.pushEntry leafRow).appendParentId = entryId := by rw [hrow]; rfl
  refine ⟨leafRow, hleafRow, hhas, hleafId, happendParent, ?_⟩
  rw [← hpush] at happendParent ⊢
  cases summary with
  | none => exact .inl ⟨rfl, rfl⟩
  | some text =>
    right
    dsimp only
    split
    · exact .inl ⟨_, rfl⟩
    · rename_i appended happended
      rw [appendEntry_eq_ok happended]
      refine .inr ⟨text, _, rfl, ⟨rfl, rfl, rfl, happendParent.symm, ?_, ?_⟩, rfl, rfl⟩
      · refine generateEntryId_fresh ?_
        rw [hpush, has_pushEntry, not_or, hid]
        exact ⟨hunique.different, hunique.second⟩
      · exact generateEntryId_truthy _ _

theorem Reachable.grown (h : Reachable storage) : storage.Grown := by
  induction h with
  | empty => exact grown_empty
  | append _ hunique happend ih =>
    obtain ⟨entry, hentry, -, rfl⟩ := append_eq_ok ih hunique happend
    exact ih.pushEntry (hentry.attachable ih)
  | moveTo _ entryId summary hunique ih =>
    rcases moveTo_cases ih hunique with ⟨_, hfailed⟩ | ⟨leafRow, hleafRow, -, -, -, hmoved⟩
    · rw [hfailed]
      exact ih
    have hgrown := ih.pushEntry hleafRow
    rcases hmoved with ⟨-, hmoved⟩ | ⟨_, hmoved⟩ | ⟨_, entry, -, hentry, -, hmoved⟩
    · rw [hmoved]
      exact hgrown
    · rw [hmoved]
      exact hgrown
    · rw [hmoved]
      exact hgrown.pushEntry (hentry.attachable hgrown)
  | side _ hside happend ih =>
    rw [appendEntry_eq_ok happend]
    exact ih.pushEntry (hside.attachable ih)

inductive AppendsSides : SessionStorage → List SessionTreeEntry → SessionStorage → Prop where
  | nil {storage : SessionStorage} : AppendsSides storage [] storage
  | cons {storage next last : SessionStorage} {side : SessionTreeEntry} {sides : List SessionTreeEntry}
      {failure : Option SessionError} (hside : SideRow storage side)
      (happend : storage.appendEntry side failure = .ok next) (hrest : AppendsSides next sides last) :
      AppendsSides storage (side :: sides) last

theorem AppendsSides.keeps {sides : List SessionTreeEntry} (hsides : AppendsSides storage sides storage')
    (h : storage.Grown) {path : List SessionTreeEntry} (hpath : storage.PathOf storage.leafId path) :
    storage'.Grown ∧ storage'.PathOf storage'.leafId path ∧
      ∀ side ∈ sides, storage'.Has side.id ∧ ∀ row ∈ path, row ≠ side := by
  suffices hkeeps : storage'.Grown ∧ storage'.PathOf storage'.leafId path ∧
      (∀ id, storage.Has id → storage'.Has id) ∧ ∀ side ∈ sides, ¬ storage.Has side.id ∧ storage'.Has side.id by
    obtain ⟨hgrown, hpath', -, hnew⟩ := hkeeps
    refine ⟨hgrown, hpath', fun side hside => ⟨(hnew side hside).2, fun row hrow heq => ?_⟩⟩
    exact (hnew side hside).1 (heq ▸ hpath.has_of_mem h row hrow)
  induction hsides with
  | nil => exact ⟨h, hpath, fun _ hid => hid, forall_mem_nil _⟩
  | @cons storage next last side sides failure hside happend hrest ih =>
    obtain rfl := appendEntry_eq_ok happend
    have hleafId : (storage.pushEntry side).leafId = storage.leafId := by
      rw [pushEntry, hside.keepsLeaf, Option.getD_none]
    obtain ⟨hgrown, hpath', hkept, hnew⟩ := ih (h.pushEntry (hside.attachable h))
      (hleafId ▸ hpath.pushEntry h hside.fresh)
    have hpushed : ∀ id, storage.Has id → (storage.pushEntry side).Has id := fun id hid => has_pushEntry.mpr (.inr hid)
    refine ⟨hgrown, hpath', fun id hid => hkept id (hpushed id hid), forall_mem_cons.mpr ⟨?_, ?_⟩⟩
    · exact ⟨hside.fresh, hkept _ (has_pushEntry.mpr (.inl rfl))⟩
    · exact fun row hrow => ⟨fun hid => (hnew row hrow).1 (hpushed _ hid), (hnew row hrow).2⟩

/-- **The visible branch grows only by what was appended.** In every storage that a run reaches, every row has a path;
side rows and rows of unknown types leave the branch as it is, and the next ordinary append adds its row and none of
them; a move makes the branch the path of its target, with the summary after it if one was given. -/
theorem branch_grows (h : Reachable storage) :
    (∀ entry ∈ storage.entries, ∃ path, storage.getPathToRoot (some entry.id) = .ok path) ∧
    ∃ branch, Session.getBranch storage = .ok branch ∧
      (∀ sides storage₁, AppendsSides storage sides storage₁ →
        Session.getBranch storage₁ = .ok branch ∧
        ∀ append environment id storage₂, UniqueUuid storage₁ environment →
          Session.append storage₁ append environment = .ok (id, storage₂) →
          ∃ entry, storage₂.entries = storage₁.entries ++ [entry] ∧ entry.id = id ∧
            Session.getBranch storage₂ = .ok (branch ++ [entry]) ∧ ∀ side ∈ sides, side ∉ branch ++ [entry]) ∧
      ∀ entryId summary environment summaryEnvironment result,
        UniqueUuids storage environment summaryEnvironment →
        (Session.moveTo storage entryId summary environment summaryEnvironment).1 = .ok result →
        ∃ path, storage.getPathToRoot entryId = .ok path ∧
          match summary with
          | none =>
            Session.getBranch (Session.moveTo storage entryId summary environment summaryEnvironment).2 = .ok path
          | some text => ∃ entry, result = some entry.id ∧
            entry.body = .branchSummary (entryId.getD (js "root")) text ∧
            Session.getBranch (Session.moveTo storage entryId summary environment summaryEnvironment).2 =
              .ok (path ++ [entry]) := by
  have hgrown := h.grown
  obtain ⟨branch, hbranch⟩ := hgrown.exists_pathOf_cursor hgrown.leaf
  refine ⟨fun entry hmem => ?_, branch, hbranch.getBranch hgrown, fun sides storage₁ hsides => ?_,
    fun entryId summary environment summaryEnvironment result hunique hok => ?_⟩
  · obtain ⟨path, hpath⟩ := hgrown.exists_pathOf (hgrown.has_of_mem hmem)
    exact ⟨path, hgrown.getPathToRoot hpath⟩
  · obtain ⟨hgrown₁, hbranch₁, hsides⟩ := hsides.keeps hgrown hbranch
    refine ⟨hbranch₁.getBranch hgrown₁, fun append environment id storage₂ hunique happend => ?_⟩
    obtain ⟨entry, hentry, hid, rfl⟩ := append_eq_ok hgrown₁ hunique happend
    refine ⟨entry, rfl, hid, ?_, fun side hside hmem => ?_⟩
    · exact (hentry.pathOf hgrown₁ hbranch₁).getBranch (hgrown₁.pushEntry (hentry.attachable hgrown₁))
    · obtain ⟨hhas, hpath⟩ := hsides side hside
      rcases mem_append.mp hmem with hmem | hmem
      · exact hpath side hmem rfl
      · exact hentry.fresh (mem_singleton.mp hmem ▸ hhas)
  · rcases moveTo_cases hgrown hunique with ⟨_, hfailed⟩ | ⟨leafRow, hleafRow, hhas, hleafId, -, hmoved⟩
    · rw [hfailed] at hok
      cases hok
    obtain ⟨path, hpath⟩ := hgrown.exists_pathOf_cursor hhas
    have hgrown' := hgrown.pushEntry hleafRow
    have hpath' : (storage.pushEntry leafRow).PathOf (storage.pushEntry leafRow).leafId path :=
      hleafId ▸ hpath.pushEntry hgrown hleafRow.fresh
    refine ⟨path, hgrown.getPathToRoot hpath, ?_⟩
    rcases hmoved with ⟨rfl, hmoved⟩ | ⟨_, hmoved⟩ | ⟨text, entry, rfl, hentry, hbody, hmoved⟩
    · dsimp only
      rw [hmoved]
      exact hpath'.getBranch hgrown'
    · rw [hmoved] at hok
      cases hok
    · dsimp only
      rw [hmoved] at hok ⊢
      exact ⟨entry, (Except.ok.inj hok).symm, hbody,
        (hentry.pathOf hgrown' hpath').getBranch (hgrown'.pushEntry (hentry.attachable hgrown'))⟩

end Operations

/-- One draw of a generator that always gives the same UUID. -/
def sameUuid : AppendEnvironment where
  uuidv7 := fun _ => ⟨replicate 36 48, by decide⟩
  now := js "2026-01-01T00:00:00.000Z"

def greeting : SessionTreeEntry where
  body := .message (.user (.string (js "hello")))
  id := replicate 8 48
  parentId := none
  timestamp := js "2026-01-01T00:00:00.000Z"

/-- A row that a plugin hangs from it. -/
def sideNote : SessionTreeEntry where
  body := .custom (js "note")
  id := js "side-one"
  parentId := some greeting.id
  timestamp := js "2026-01-01T00:00:01.000Z"
  side := true

theorem greeting_reachable : Reachable (empty.pushEntry greeting) :=
  have happend : Session.append .empty (.message (.user (.string (js "hello")))) sameUuid =
      .ok (greeting.id, empty.pushEntry greeting) := rfl
  .append .empty (fun h => h rfl) happend

theorem sideNote_off_branch :
    ∃ branch, Session.getBranch (empty.pushEntry greeting) = .ok branch ∧
      Session.getBranch ((empty.pushEntry greeting).pushEntry sideNote) = .ok branch := by
  obtain ⟨-, branch, hbranch, hsides, -⟩ := branch_grows greeting_reachable
  have happend : (empty.pushEntry greeting).appendEntry sideNote none =
      .ok ((empty.pushEntry greeting).pushEntry sideNote) := rfl
  have hside : SideRow (empty.pushEntry greeting) sideNote := ⟨rfl, rfl, by decide, by decide⟩
  exact ⟨branch, hbranch, (hsides [sideNote] _ (.cons hside happend .nil)).1⟩

end ClawWorks
