import Mathlib.Data.List.Find
import ClawWorks.Harness.SessionStorage

/-!
# The model context of a branch
-/

namespace ClawWorks

open Except Option List

/-! ## Rows of a branch -/

def SessionTreeEntry.isCompaction (entry : SessionTreeEntry) : Bool :=
  match entry.body with
  | .compaction .. => true
  | _ => false

open SessionTreeEntry

section Context

variable [DateParse]

variable (entry : SessionTreeEntry)

/-- The message that the context shows for a row: none for a compaction, nor for a branch summary without text. -/
def contextMessage : Except SessionError (Option AgentMessage) :=
  match entry.body with
  | .message message => .ok (some message)
  | .customMessage customType content display =>
    some <$> createCustomMessage customType content display entry.timestamp
  | .branchSummary fromId summary =>
    if Truthy summary then some <$> createBranchSummaryMessage summary fromId entry.timestamp else .ok none
  | _ => .ok none

def contextMessages (entries : List SessionTreeEntry) : Except SessionError (List AgentMessage) :=
  collect contextMessage entries

def compactionMessage : Except SessionError (Option AgentMessage) :=
  match entry.body with
  | .compaction summary _ tokensBefore _ _ =>
    some <$> createCompactionSummaryMessage summary tokensBefore entry.timestamp
  | _ => .ok none

/-- The state a model continues from. -/
structure SessionContext where
  messages : List AgentMessage
  thinkingLevel : JsString
  model : Option (JsString × JsString)
deriving DecidableEq, Repr

structure BranchMarkers where
  thinkingLevel : JsString := js "off"
  model : Option (JsString × JsString) := none
  compaction : Option SessionTreeEntry := none

/-- The markers after one more row. -/
def BranchMarkers.step (markers : BranchMarkers) (entry : SessionTreeEntry) : BranchMarkers :=
  match entry.body with
  | .thinkingLevelChange thinkingLevel => { markers with thinkingLevel := thinkingLevel }
  | .modelChange provider modelId => { markers with model := some (provider, modelId) }
  | .message (.assistant message) => { markers with model := some (message.provider, message.model) }
  | .compaction .. => { markers with compaction := some entry }
  | _ => markers

def firstKeptEntryId? : Option JsString :=
  match entry.body with
  | .compaction _ firstKeptEntryId _ _ _ => some firstKeptEntryId
  | _ => none

def branchMessages (pathEntries : List SessionTreeEntry) :
    Option SessionTreeEntry → Except SessionError (List AgentMessage)
  | none => contextMessages pathEntries
  | some compaction => do
    let summary ← compactionMessage compaction
    let compactionIdx := pathEntries.findIdx fun entry => entry.isCompaction ∧ entry.id = compaction.id
    -- The rows before the compaction are shown from the first one it kept.
    let kept := (pathEntries.take compactionIdx).dropWhile (some ·.id ≠ firstKeptEntryId? compaction)
    let keptMessages ← contextMessages kept
    let newMessages ← contextMessages (pathEntries.drop (compactionIdx + 1))
    return summary.toList ++ (keptMessages ++ newMessages)

/-- Build model context from the active session branch and its latest state markers. -/
def buildSessionContext (pathEntries : List SessionTreeEntry) : Except SessionError SessionContext := do
  let markers := pathEntries.foldl BranchMarkers.step {}
  let messages ← branchMessages pathEntries markers.compaction
  return { messages := messages, thinkingLevel := markers.thinkingLevel, model := markers.model }

end Context

variable (pathEntries : List SessionTreeEntry)

def prevCompactionIndex : Option Nat :=
  (range pathEntries.length).reverse.find? fun i => pathEntries[i]?.any SessionTreeEntry.isCompaction

/-- Where the rows that a compaction may summarize begin: at the first row the latest compaction kept. -/
def boundaryStart : Nat :=
  match prevCompactionIndex pathEntries with
  | none => 0
  | some index =>
    let firstKeptEntryIndex := pathEntries.findIdx fun entry =>
      some entry.id = (pathEntries[index]?.bind firstKeptEntryId?)
    if firstKeptEntryIndex < pathEntries.length then firstKeptEntryIndex else index + 1

def latestCompaction : Option SessionTreeEntry :=
  (prevCompactionIndex pathEntries).bind (pathEntries[·]?)

/-- A branch whose ids are its rows' own, and whose compactions kept rows that came before them. -/
structure SessionPath (pathEntries : List SessionTreeEntry) : Prop where
  nodup : (pathEntries.map SessionTreeEntry.id).Nodup
  kept : ∀ (index : Nat) (compaction : SessionTreeEntry) (firstKeptEntryId : JsString),
    pathEntries[index]? = some compaction → firstKeptEntryId? compaction = some firstKeptEntryId →
      ∃ first < index, pathEntries[first]?.map SessionTreeEntry.id = some firstKeptEntryId

section Boundary

variable {pathEntries : List SessionTreeEntry}

theorem isCompaction_iff {entry : SessionTreeEntry} :
    entry.isCompaction ↔ ∃ firstKeptEntryId, firstKeptEntryId? entry = some firstKeptEntryId := by
  rw [isCompaction, firstKeptEntryId?]
  cases entry.body <;> simp

theorem prevCompactionIndex_append (entry : SessionTreeEntry) : prevCompactionIndex (pathEntries ++ [entry]) =
      if entry.isCompaction then some pathEntries.length else prevCompactionIndex pathEntries := by
  rw [prevCompactionIndex, length_append, length_singleton, range_succ, reverse_append,
    reverse_singleton, singleton_append, find?_cons, getElem?_append_right (Nat.le_refl _),
    Nat.sub_self, getElem?_cons_zero, any_some]
  cases entry.isCompaction with
  | true => rfl
  | false =>
    refine find?_congr fun i hi => ?_
    rw [getElem?_append_left (mem_range.mp (mem_reverse.mp hi))]

theorem prevCompactionIndex_lt {index : Nat} (h : prevCompactionIndex pathEntries = some index) :
    index < pathEntries.length :=
  mem_range.mp (mem_reverse.mp (mem_of_find?_eq_some h))

theorem foldl_step_compaction (pathEntries : List SessionTreeEntry) :
    (pathEntries.foldl BranchMarkers.step {}).compaction = latestCompaction pathEntries := by
  induction pathEntries using reverseRecOn with
  | nil => rfl
  | append_singleton pathEntries entry ih =>
    rw [foldl_concat, latestCompaction, prevCompactionIndex_append]
    cases hcompaction : entry.isCompaction with
    | true =>
      have hstep : (BranchMarkers.step (pathEntries.foldl BranchMarkers.step {}) entry).compaction = some entry := by
        rw [isCompaction] at hcompaction
        rw [BranchMarkers.step]
        cases hbody : entry.body with
        | compaction => rfl
        | _ =>
          rw [hbody] at hcompaction
          cases hcompaction
      rw [hstep, if_pos rfl, bind_some, getElem?_append_right (Nat.le_refl _), Nat.sub_self, getElem?_cons_zero]
    | false =>
      have hstep : (BranchMarkers.step (pathEntries.foldl BranchMarkers.step {}) entry).compaction =
          (pathEntries.foldl BranchMarkers.step {}).compaction := by
        rw [isCompaction] at hcompaction
        rw [BranchMarkers.step]
        cases hbody : entry.body with
        | compaction =>
          rw [hbody] at hcompaction
          cases hcompaction
        | message message => cases message <;> rfl
        | _ => rfl
      rw [hstep, ih, latestCompaction, if_neg Bool.false_ne_true]
      cases hindex : prevCompactionIndex pathEntries with
      | none => rfl
      | some index =>
        rw [bind_some, bind_some, getElem?_append_left (prevCompactionIndex_lt hindex)]

theorem SessionPath.index_inj (h : SessionPath pathEntries) {i j : Nat} (hi : i < pathEntries.length)
    (hj : j < pathEntries.length) (hid : pathEntries[i].id = pathEntries[j].id) : i = j := by
  refine (getElem?_inj (by rwa [length_map]) h.nodup).mp ?_
  rw [getElem?_map, getElem?_map, getElem?_eq_getElem hi, getElem?_eq_getElem hj, map_some, map_some, hid]

theorem SessionPath.boundary (h : SessionPath pathEntries) {index : Nat}
    (hindex : prevCompactionIndex pathEntries = some index) :
    ∃ compaction firstKeptEntryId, pathEntries[index]? = some compaction ∧
      latestCompaction pathEntries = some compaction ∧ compaction.isCompaction ∧
      firstKeptEntryId? compaction = some firstKeptEntryId ∧ boundaryStart pathEntries < index ∧
      pathEntries[boundaryStart pathEntries]?.map SessionTreeEntry.id = some firstKeptEntryId := by
  have hlt := prevCompactionIndex_lt hindex
  have hcompaction : (pathEntries[index]).isCompaction := by
    have hfound := find?_some hindex
    rwa [getElem?_eq_getElem hlt, any_some] at hfound
  obtain ⟨firstKeptEntryId, hfirst⟩ := isCompaction_iff.mp hcompaction
  have hget := getElem?_eq_getElem hlt
  obtain ⟨first, hbefore, hkept⟩ := h.kept index _ _ hget hfirst
  have hfirstLt : first < pathEntries.length := hbefore.trans hlt
  rw [getElem?_eq_getElem hfirstLt, map_some, some_inj] at hkept
  have hfind : (pathEntries.findIdx fun entry =>
      decide (some entry.id = (pathEntries[index]?.bind firstKeptEntryId?))) = first := by
    rw [findIdx_eq hfirstLt, hget, bind_some, hfirst]
    refine ⟨decide_eq_true (congrArg some hkept), fun j hj => decide_eq_false fun heq => ?_⟩
    exact hj.ne (h.index_inj (hj.trans hfirstLt) hfirstLt ((some.inj heq).trans hkept.symm))
  have hboundary : boundaryStart pathEntries = first := by
    rw [boundaryStart, hindex]
    dsimp only
    rw [hfind, if_pos hfirstLt]
  refine ⟨_, firstKeptEntryId, hget, ?_, hcompaction, hfirst, hboundary ▸ hbefore, ?_⟩
  · rw [latestCompaction, hindex, bind_some, hget]
  · rw [hboundary, getElem?_eq_getElem hfirstLt, map_some, hkept]

end Boundary

section Messages

variable [DateParse] {pathEntries : List SessionTreeEntry}

/-- The message of the latest compaction, which stands for everything before the boundary. -/
def earlierSummary (pathEntries : List SessionTreeEntry) : Except SessionError (Option AgentMessage) :=
  match latestCompaction pathEntries with
  | none => .ok none
  | some compaction => compactionMessage compaction

theorem contextMessage_of_isCompaction {entry : SessionTreeEntry} (h : entry.isCompaction) :
    contextMessage entry = .ok none := by
  rw [isCompaction] at h
  rw [contextMessage]
  cases hbody : entry.body with
  | message | customMessage | branchSummary =>
    rw [hbody] at h
    cases h
  | _ => rfl

variable {messages : List AgentMessage}

theorem SessionPath.branchMessages_some (h : SessionPath pathEntries) {compaction : SessionTreeEntry}
    (hlatest : latestCompaction pathEntries = some compaction) :
    branchMessages pathEntries (some compaction) = .ok messages ↔
      ∃ summary shown, compactionMessage compaction = .ok summary ∧
        contextMessages (pathEntries.drop (boundaryStart pathEntries)) = .ok shown ∧
        messages = summary.toList ++ shown := by
  obtain ⟨index, hindex, -⟩ := bind_eq_some_iff.mp hlatest
  obtain ⟨found, firstKeptEntryId, hget, hlatest', hcompaction, hfirst, hboundary, hstart⟩ := h.boundary hindex
  obtain rfl : compaction = found := mem_unique hlatest hlatest'
  have hlt := prevCompactionIndex_lt hindex
  rw [getElem?_eq_getElem hlt, some_inj] at hget
  have hstartLt := hboundary.trans hlt
  rw [getElem?_eq_getElem hstartLt, map_some, some_inj] at hstart
  have hfind : (pathEntries.findIdx fun entry => decide (entry.isCompaction ∧ entry.id = compaction.id)) = index := by
    rw [findIdx_eq hlt, hget]
    refine ⟨decide_eq_true ⟨hcompaction, rfl⟩, fun j hj => decide_eq_false fun hsame => ?_⟩
    exact hj.ne (h.index_inj (hj.trans hlt) hlt (hsame.2.trans (congrArg _ hget.symm)))
  have hdrop : ((pathEntries.take index).dropWhile fun entry => decide (some entry.id ≠ firstKeptEntryId? compaction)) =
      (pathEntries.take index).drop (boundaryStart pathEntries) := by
    rw [dropWhile_eq_drop_findIdx_not]
    congr 1
    have hlength : boundaryStart pathEntries < (pathEntries.take index).length := by
      rw [length_take]
      omega
    rw [findIdx_eq hlength, hfirst]
    refine ⟨?_, fun j hj => ?_⟩
    · rw [getElem_take, hstart]
      simp
    · rw [getElem_take]
      have hne : pathEntries[j].id ≠ firstKeptEntryId := fun heq =>
        hj.ne (h.index_inj (hj.trans hstartLt) hstartLt (heq.trans hstart.symm))
      simpa using hne
  have hsplit : pathEntries.drop (boundaryStart pathEntries) =
      (pathEntries.take index).drop (boundaryStart pathEntries) ++ compaction :: pathEntries.drop (index + 1) := by
    have hlength : boundaryStart pathEntries ≤ (pathEntries.take index).length := by
      rw [length_take]
      omega
    rw [← hget, ← drop_eq_getElem_cons hlt, ← drop_append_of_le_length hlength, take_append_drop]
  have hshown : ∀ shown, contextMessages (pathEntries.drop (boundaryStart pathEntries)) = .ok shown ↔
      ∃ kept new, contextMessages ((pathEntries.take index).drop (boundaryStart pathEntries)) = .ok kept ∧
        contextMessages (pathEntries.drop (index + 1)) = .ok new ∧ shown = kept ++ new := by
    intro shown
    rw [hsplit, contextMessages, collect_append_eq_ok]
    refine exists_congr fun kept => exists_congr fun new => and_congr_right fun _ => and_congr_left fun _ => ?_
    rw [collect_cons_eq_ok]
    constructor
    · rintro ⟨_, _, hnone, hnew, rfl⟩
      rw [contextMessage_of_isCompaction hcompaction] at hnone
      cases hnone
      exact hnew
    · exact fun hnew => ⟨none, new, contextMessage_of_isCompaction hcompaction, hnew, rfl⟩
  rw [branchMessages, hfind]
  dsimp only
  rw [hdrop, bind_eq_ok]
  refine exists_congr fun summary => ?_
  constructor
  · rintro ⟨hsummary, hrows⟩
    obtain ⟨kept, hkept, hrows⟩ := bind_eq_ok.mp hrows
    obtain ⟨new, hnew, hresult⟩ := bind_eq_ok.mp hrows
    exact ⟨kept ++ new, hsummary, (hshown _).mpr ⟨kept, new, hkept, hnew, rfl⟩, (ok.inj hresult).symm⟩
  · rintro ⟨shown, hsummary, hall, rfl⟩
    obtain ⟨kept, new, hkept, hnew, rfl⟩ := (hshown _).mp hall
    exact ⟨hsummary, bind_eq_ok.mpr ⟨kept, hkept, bind_eq_ok.mpr ⟨new, hnew, rfl⟩⟩⟩

/-- **The context is the summary of the latest compaction, and the messages from the boundary on.** -/
theorem SessionPath.buildSessionContext_messages (h : SessionPath pathEntries) :
    (∃ context, buildSessionContext pathEntries = .ok context ∧ context.messages = messages) ↔
      ∃ summary shown, earlierSummary pathEntries = .ok summary ∧
        contextMessages (pathEntries.drop (boundaryStart pathEntries)) = .ok shown ∧
        messages = summary.toList ++ shown := by
  have hbuild : (∃ context, buildSessionContext pathEntries = .ok context ∧ context.messages = messages) ↔
      branchMessages pathEntries (latestCompaction pathEntries) = .ok messages := by
    rw [← foldl_step_compaction, buildSessionContext]
    constructor
    · rintro ⟨context, hcontext, rfl⟩
      obtain ⟨built, hbuilt, hcontext⟩ := bind_eq_ok.mp hcontext
      obtain rfl := ok.inj hcontext
      exact hbuilt
    · exact fun hbuilt => ⟨_, bind_eq_ok.mpr ⟨messages, hbuilt, rfl⟩, rfl⟩
  rw [hbuild, earlierSummary]
  cases hlatest : latestCompaction pathEntries with
  | some compaction => exact h.branchMessages_some hlatest
  | none =>
    have hindex : prevCompactionIndex pathEntries = none := by
      cases hindex : prevCompactionIndex pathEntries with
      | none => rfl
      | some index =>
        obtain ⟨_, _, -, hlatest', -⟩ := h.boundary hindex
        exact absurd (hlatest'.symm.trans hlatest) (some_ne_none _)
    rw [boundaryStart, hindex, branchMessages]
    dsimp only
    rw [drop_zero]
    constructor
    · exact fun hmessages => ⟨none, messages, rfl, hmessages, rfl⟩
    · rintro ⟨_, shown, hnone, hshown, rfl⟩
      cases hnone
      exact hshown

/-- A row that stores a compaction: its id is new, and it kept the row at an index of the branch. -/
structure StoresCompaction (pathEntries : List SessionTreeEntry) (cut : Nat) (entry : SessionTreeEntry) : Prop where
  fresh : entry.id ∉ pathEntries.map SessionTreeEntry.id
  firstKept : ∃ firstKeptEntryId, firstKeptEntryId? entry = some firstKeptEntryId ∧
    pathEntries[cut]?.map SessionTreeEntry.id = some firstKeptEntryId
  timestamp : parseSessionTimestampMs entry.timestamp ≠ none

variable {entry : SessionTreeEntry} {cut : Nat}

section

variable (hentry : StoresCompaction pathEntries cut entry)

include hentry

theorem StoresCompaction.lt : cut < pathEntries.length := by
  obtain ⟨firstKeptEntryId, -, hkept⟩ := hentry.firstKept
  obtain ⟨row, hrow, -⟩ := map_eq_some_iff.mp hkept
  exact (List.getElem?_eq_some_iff.mp hrow).1

theorem StoresCompaction.sessionPath (h : SessionPath pathEntries) : SessionPath (pathEntries ++ [entry]) := by
  refine ⟨?_, fun index compaction firstKeptEntryId hget hfirst => ?_⟩
  · rw [map_append, map_singleton]
    exact nodup_append.mpr ⟨h.nodup, nodup_singleton _, fun a ha b hb heq =>
      hentry.fresh (mem_singleton.mp hb ▸ heq ▸ ha)⟩
  · have hkept : ∃ first < index, pathEntries[first]?.map SessionTreeEntry.id = some firstKeptEntryId := by
      rcases Nat.lt_or_ge index pathEntries.length with hlt | hge
      · rw [getElem?_append_left hlt] at hget
        exact h.kept index compaction firstKeptEntryId hget hfirst
      · have hindex : index = pathEntries.length := by
          have hbound := (List.getElem?_eq_some_iff.mp hget).1
          rw [List.length_append, List.length_singleton] at hbound
          omega
        rw [hindex, List.getElem?_append_right (Nat.le_refl _), Nat.sub_self, List.getElem?_cons_zero] at hget
        obtain rfl := some.inj hget
        obtain ⟨_, hfirst', hcut⟩ := hentry.firstKept
        obtain rfl := mem_unique hfirst hfirst'
        exact ⟨cut, hindex ▸ hentry.lt, hcut⟩
    obtain ⟨first, hlt, hid⟩ := hkept
    obtain ⟨row, hrow, -⟩ := map_eq_some_iff.mp hid
    exact ⟨first, hlt, by rw [List.getElem?_append_left (List.getElem?_eq_some_iff.mp hrow).1, hid]⟩

theorem StoresCompaction.boundary (h : SessionPath pathEntries) :
    latestCompaction (pathEntries ++ [entry]) = some entry ∧ boundaryStart (pathEntries ++ [entry]) = cut := by
  obtain ⟨firstKeptEntryId, hfirst, hkept⟩ := hentry.firstKept
  have hindex : prevCompactionIndex (pathEntries ++ [entry]) = some pathEntries.length := by
    rw [prevCompactionIndex_append, if_pos (isCompaction_iff.mpr ⟨_, hfirst⟩)]
  obtain ⟨found, _, hget, hlatest, -, hfirst', hbefore, hstart⟩ := (hentry.sessionPath h).boundary hindex
  rw [getElem?_append_right (Nat.le_refl _), Nat.sub_self, getElem?_cons_zero] at hget
  obtain rfl := some.inj hget
  obtain rfl := mem_unique hfirst' hfirst
  refine ⟨hlatest, ?_⟩
  rw [getElem?_append_left hbefore, ← hkept, ← getElem?_map, ← getElem?_map] at hstart
  refine (getElem?_inj ?_ h.nodup).mp hstart
  rwa [length_map]

theorem StoresCompaction.buildSessionContext_messages (h : SessionPath pathEntries) :
    (∃ context, buildSessionContext (pathEntries ++ [entry]) = .ok context ∧ context.messages = messages) ↔
      ∃ summary shown, compactionMessage entry = .ok summary ∧
        contextMessages (pathEntries.drop cut) = .ok shown ∧ messages = summary.toList ++ shown := by
  obtain ⟨hlatest, hboundary⟩ := hentry.boundary h
  obtain ⟨firstKeptEntryId, hfirst, -⟩ := hentry.firstKept
  have hnone := contextMessage_of_isCompaction (isCompaction_iff.mpr ⟨_, hfirst⟩)
  have hrows : ∀ shown, contextMessages ((pathEntries ++ [entry]).drop cut) = .ok shown ↔
      contextMessages (pathEntries.drop cut) = .ok shown := by
    intro shown
    rw [drop_append_of_le_length hentry.lt.le, contextMessages, collect_append_eq_ok]
    constructor
    · rintro ⟨kept, rest, hkept, hrest, rfl⟩
      obtain ⟨_, _, hnone', hnil, rfl⟩ := collect_cons_eq_ok.mp hrest
      rw [hnone] at hnone'
      cases hnone'
      cases hnil
      rw [toList_none, append_nil, append_nil]
      exact hkept
    · exact fun hshown => ⟨shown, [], hshown, collect_cons_eq_ok.mpr ⟨none, [], hnone, rfl, rfl⟩, (append_nil _).symm⟩
  rw [(hentry.sessionPath h).buildSessionContext_messages, earlierSummary, hlatest, hboundary]
  exact exists_congr fun summary => exists_congr fun shown => and_congr_right fun _ => and_congr_left fun _ =>
    hrows shown

theorem StoresCompaction.compactionMessage_eq : ∃ message, compactionMessage entry = .ok (some message) := by
  obtain ⟨firstKeptEntryId, hfirst, -⟩ := hentry.firstKept
  obtain ⟨time, htime⟩ := ne_none_iff_exists'.mp hentry.timestamp
  rw [firstKeptEntryId?] at hfirst
  rw [compactionMessage]
  cases hbody : entry.body with
  | compaction summary firstKept tokensBefore details fromHook =>
    refine ⟨.compactionSummary summary tokensBefore time, ?_⟩
    dsimp only
    rw [createCompactionSummaryMessage, requireSessionTimestampMs, htime]
    rfl
  | _ =>
    rw [hbody] at hfirst
    cases hfirst

end

end Messages

end ClawWorks
