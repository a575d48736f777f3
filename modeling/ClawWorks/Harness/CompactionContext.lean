import ClawWorks.Harness.Compaction

/-!
# What a compaction keeps of the context
-/

namespace ClawWorks

open Except SessionTreeEntry Option List

def rowsBetween (pathEntries : List SessionTreeEntry) (fromIndex toIndex : Nat) : List SessionTreeEntry :=
  (pathEntries.take toIndex).drop fromIndex

section Rows

variable {pathEntries : List SessionTreeEntry} {a b c : Nat}

theorem rowsBetween_append (hab : a ≤ b) (hbc : b ≤ c) (hlength : b ≤ pathEntries.length) :
    rowsBetween pathEntries a b ++ rowsBetween pathEntries b c = rowsBetween pathEntries a c := by
  have htake : (pathEntries.take c).take b = pathEntries.take b := by rw [take_take, Nat.min_eq_left hbc]
  have hle : a ≤ (pathEntries.take b).length := by rwa [length_take, Nat.min_eq_left hlength]
  rw [rowsBetween, rowsBetween, rowsBetween, ← drop_append_of_le_length hle, ← htake, take_append_drop]

theorem rowsBetween_append_drop (hab : a ≤ b) (hlength : b ≤ pathEntries.length) :
    rowsBetween pathEntries a b ++ pathEntries.drop b = pathEntries.drop a := by
  have hle : a ≤ (pathEntries.take b).length := by rwa [length_take, Nat.min_eq_left hlength]
  rw [rowsBetween, ← drop_append_of_le_length hle, take_append_drop]

end Rows

/-! ## The cut -/

section Cut

variable {ν : Type} [JsArithmetic ν] {entries : List SessionTreeEntry} {startIndex cutIndex i : Nat}
  {keepRecentTokens : ν}

theorem mem_findValidCutPoints {endIndex : Nat} : i ∈ findValidCutPoints entries startIndex endIndex ↔
      startIndex ≤ i ∧ i < endIndex ∧ entries[i]?.any isCutPoint := by
  rw [findValidCutPoints, mem_filter, mem_range'_1]
  constructor
  · rintro ⟨⟨hstart, hend⟩, hcut⟩
    exact ⟨hstart, by omega, hcut⟩
  · rintro ⟨hstart, hend, hcut⟩
    exact ⟨⟨hstart, by omega⟩, hcut⟩

theorem walkBack_le : walkBack entries startIndex cutIndex ≤ cutIndex := by
  induction cutIndex with
  | zero => exact Nat.le_refl _
  | succ cutIndex ih =>
    rw [walkBack]
    split
    · exact ih.trans (Nat.le_succ _)
    · exact Nat.le_refl _

theorem le_walkBack (h : startIndex ≤ cutIndex) : startIndex ≤ walkBack entries startIndex cutIndex := by
  induction cutIndex with
  | zero => exact h
  | succ cutIndex ih =>
    rw [walkBack]
    split
    · rename_i hback
      exact ih (Nat.lt_succ_iff.mp hback.1)
    · exact h

theorem walkBack_passes (h : walkBack entries startIndex cutIndex ≤ i) (hi : i < cutIndex) :
    entries[i]?.any (fun entry => decide (entry.isCompaction ∨ entry.message?.isSome)) = false := by
  induction cutIndex with
  | zero => exact absurd hi (Nat.not_lt_zero _)
  | succ cutIndex ih =>
    rw [walkBack] at h
    split at h
    · rename_i hback
      rcases Nat.lt_succ_iff_lt_or_eq.mp hi with hlt | rfl
      · exact ih h hlt
      · exact Bool.not_eq_true _ ▸ hback.2
    · omega

theorem findTurnStartIndex_bounds (h : findTurnStartIndex entries cutIndex startIndex = some i) :
    startIndex ≤ i ∧ i ≤ cutIndex := by
  have hmem := mem_range'_1.mp (mem_reverse.mp (mem_of_find?_eq_some h))
  exact ⟨hmem.1, by omega⟩

def chosenCutPoint (entries : List SessionTreeEntry) (startIndex : Nat) (keepRecentTokens : ν) (first : Nat)
    (rest : List Nat) : Nat :=
  match findBudgetIndex entries startIndex keepRecentTokens (entries.length - startIndex) 0 with
  | none => first
  | some i => ((first :: rest).find? (i ≤ ·)).getD ((first :: rest).getLastD first)

theorem chosenCutPoint_mem {first : Nat} {rest : List Nat} :
    chosenCutPoint entries startIndex keepRecentTokens first rest ∈ first :: rest := by
  rw [chosenCutPoint]
  split
  · exact mem_cons_self
  rename_i i _
  cases hfind : (first :: rest).find? (i ≤ ·) with
  | some cutPoint => exact mem_of_find?_eq_some hfind
  | none =>
    rw [getD_none, getLastD_cons]
    exact getLastD_mem_cons

theorem findCutPoint_bounds (hstart : startIndex < entries.length) (keepRecentTokens : ν) :
    startIndex ≤ (findCutPoint entries startIndex entries.length keepRecentTokens).firstKeptEntryIndex ∧
      (findCutPoint entries startIndex entries.length keepRecentTokens).firstKeptEntryIndex < entries.length ∧
      ((findCutPoint entries startIndex entries.length keepRecentTokens).isSplitTurn →
        ∃ turnStart, (findCutPoint entries startIndex entries.length keepRecentTokens).turnStartIndex =
            some turnStart ∧ startIndex ≤ turnStart ∧
          turnStart ≤ (findCutPoint entries startIndex entries.length keepRecentTokens).firstKeptEntryIndex) := by
  rw [findCutPoint]
  split
  · exact ⟨Nat.le_refl _, hstart, fun h => (nomatch h)⟩
  rename_i first rest hpoints
  have hmem : chosenCutPoint entries startIndex keepRecentTokens first rest ∈
      findValidCutPoints entries startIndex entries.length := hpoints ▸ chosenCutPoint_mem
  obtain ⟨hle, hlt, -⟩ := mem_findValidCutPoints.mp hmem
  refine ⟨le_walkBack hle, walkBack_le.trans_lt hlt, fun hsplit => ?_⟩
  obtain ⟨hmessage, hturn⟩ := Bool.and_eq_true_iff.mp hsplit
  obtain ⟨turnStart, hturnStart⟩ := isSome_iff_exists.mp hturn
  refine ⟨turnStart, hturnStart, ?_⟩
  rw [if_neg (Bool.not_eq_true _ ▸ Bool.not_eq_true' _ ▸ hmessage)] at hturnStart
  exact findTurnStartIndex_bounds hturnStart

end Cut

def historyEnd (cutPoint : CutPointResult) : Nat :=
  if cutPoint.isSplitTurn then cutPoint.turnStartIndex.getD 0 else cutPoint.firstKeptEntryIndex

def preparedCut {ν : Type} [JsArithmetic ν] (pathEntries : List SessionTreeEntry) (keepRecentTokens : ν) :
    CutPointResult :=
  findCutPoint pathEntries (boundaryStart pathEntries) pathEntries.length keepRecentTokens

section Prepare

variable [DateParse] {ν : Type} [JsArithmetic ν] {pathEntries : List SessionTreeEntry}
  {settings : CompactionSettings ν} {preparation : CompactionPreparation ν}

abbrev summaryInputs (entries : List SessionTreeEntry) : Except SessionError (List AgentMessage) :=
  collect getMessageFromEntryForCompaction entries

structure Prepared (pathEntries : List SessionTreeEntry) (settings : CompactionSettings ν)
    (preparation : CompactionPreparation ν) : Prop where
  nonempty : pathEntries ≠ []
  context : ∃ context, buildSessionContext pathEntries = .ok context
  firstKept : pathEntries[(preparedCut pathEntries settings.keepRecentTokens).firstKeptEntryIndex]?.map
    SessionTreeEntry.id = some preparation.firstKeptEntryId
  split : preparation.isSplitTurn = (preparedCut pathEntries settings.keepRecentTokens).isSplitTurn
  history : summaryInputs (rowsBetween pathEntries (boundaryStart pathEntries)
    (historyEnd (preparedCut pathEntries settings.keepRecentTokens))) = .ok preparation.messagesToSummarize
  turnPrefix : preparation.isSplitTurn = true → summaryInputs (rowsBetween pathEntries
    (historyEnd (preparedCut pathEntries settings.keepRecentTokens))
    (preparedCut pathEntries settings.keepRecentTokens).firstKeptEntryIndex) = .ok preparation.turnPrefixMessages
  noPrefix : preparation.isSplitTurn = false → preparation.turnPrefixMessages = []
  previousSummary : preparation.previousSummary = (latestCompaction pathEntries).bind summary?

theorem prepareCompaction_eq_ok (h : prepareCompaction pathEntries settings = .ok (.ok (some preparation))) :
    Prepared pathEntries settings preparation := by
  rw [prepareCompaction] at h
  split at h
  · cases h
  rename_i hlast
  obtain ⟨context, hcontext, h⟩ := bind_eq_ok.mp h
  dsimp only at h
  split at h
  · cases h
  rename_i firstKeptEntryId hfirst
  obtain ⟨history, hhistory, h⟩ := bind_eq_ok.mp h
  have hnonempty : pathEntries ≠ [] := by
    rintro rfl
    exact hlast rfl
  have hfirstKept := truthy?_eq_some hfirst
  split at h
  · rename_i hsplit
    obtain ⟨turnPrefix, hfirstPart, h⟩ := bind_eq_ok.mp h
    obtain rfl := some.inj (ok.inj (ok.inj h))
    have hend : historyEnd (preparedCut pathEntries settings.keepRecentTokens) =
        (preparedCut pathEntries settings.keepRecentTokens).turnStartIndex.getD 0 := if_pos hsplit
    exact ⟨hnonempty, ⟨context, hcontext⟩, hfirstKept, rfl, hhistory, fun _ => by rw [hend]; exact hfirstPart,
      fun hwhole => absurd (hsplit.symm.trans hwhole) (by decide), rfl⟩
  · rename_i hwhole
    obtain ⟨_, hnone, h⟩ := bind_eq_ok.mp h
    obtain rfl := ok.inj hnone
    obtain rfl := some.inj (ok.inj (ok.inj h))
    exact ⟨hnonempty, ⟨context, hcontext⟩, hfirstKept, rfl, hhistory, fun hsplit => absurd hsplit hwhole,
      fun _ => rfl, rfl⟩

end Prepare

section Messages

variable [DateParse] {entries : List SessionTreeEntry}

/-- A row that gives a summary something to sum up. -/
def givesMessage (entry : SessionTreeEntry) : Bool :=
  match entry.body with
  | .message _ => true
  | .customMessage .. => true
  | .branchSummary .. => true
  | _ => false

theorem contextMessage_sublist {entry : SessionTreeEntry} {shown input : Option AgentMessage}
    (hshown : contextMessage entry = .ok shown) (hinput : getMessageFromEntryForCompaction entry = .ok input) :
    shown.toList.Sublist input.toList := by
  rw [contextMessage] at hshown
  rw [getMessageFromEntryForCompaction] at hinput
  cases hbody : entry.body with
  | branchSummary fromId summary =>
    rw [hbody] at hshown hinput
    dsimp only at hshown hinput
    split at hshown
    · rw [hshown] at hinput
      obtain rfl := ok.inj hinput
      exact List.Sublist.refl _
    · obtain rfl := ok.inj hshown
      exact nil_sublist _
  | message message | customMessage customType content display =>
    rw [hbody] at hshown hinput
    rw [ok.inj (hshown.symm.trans hinput)]
  | _ =>
    rw [hbody] at hshown
    obtain rfl := ok.inj hshown
    exact nil_sublist _

theorem contextMessages_sublist {shown inputs : List AgentMessage} (hshown : contextMessages entries = .ok shown)
    (hinputs : summaryInputs entries = .ok inputs) : shown.Sublist inputs := by
  induction entries generalizing shown inputs with
  | nil =>
    obtain rfl := ok.inj hshown
    exact nil_sublist _
  | cons entry entries ih =>
    obtain ⟨one, rest, hone, hrest, rfl⟩ := collect_cons_eq_ok.mp hshown
    obtain ⟨input, inputs, hinput, hmore, rfl⟩ := collect_cons_eq_ok.mp hinputs
    exact (contextMessage_sublist hone hinput).append (ih hrest hmore)

theorem getMessageFromEntryForCompaction_eq_none_iff {entry : SessionTreeEntry} {input : Option AgentMessage}
    (h : getMessageFromEntryForCompaction entry = .ok input) : input = none ↔ givesMessage entry = false := by
  have hsome : ∀ message : Except SessionError AgentMessage, some <$> message = .ok input → input ≠ none := by
    intro message hmap
    cases message with
    | error error => cases hmap
    | ok message => exact ok.inj hmap ▸ some_ne_none message
  rw [getMessageFromEntryForCompaction] at h
  rw [givesMessage]
  cases hbody : entry.body with
  | message message =>
    rw [hbody] at h
    exact iff_of_false (ok.inj h ▸ some_ne_none message) fun h => (nomatch h)
  | customMessage customType content display | branchSummary fromId summary =>
    rw [hbody] at h
    exact iff_of_false (hsome _ h) fun h => (nomatch h)
  | _ =>
    rw [hbody] at h
    exact iff_of_true (ok.inj h).symm rfl

theorem summaryInputs_eq_nil_iff {inputs : List AgentMessage} (h : summaryInputs entries = .ok inputs) :
    inputs = [] ↔ ∀ entry ∈ entries, givesMessage entry = false := by
  induction entries generalizing inputs with
  | nil => exact iff_of_true (ok.inj h).symm (forall_mem_nil _)
  | cons entry entries ih =>
    obtain ⟨input, rest, hinput, hrest, rfl⟩ := collect_cons_eq_ok.mp h
    rw [append_eq_nil_iff, toList_eq_nil_iff, ih hrest,
      getMessageFromEntryForCompaction_eq_none_iff hinput, forall_mem_cons]

end Messages

def SummarizationRequest.messages : SummarizationRequest → List AgentMessage
  | .summary messages _ _ => messages
  | .turnPrefix messages => messages

def SummarizationRequest.previousSummary? : SummarizationRequest → Option JsString
  | .summary _ previousSummary _ => previousSummary
  | .turnPrefix _ => none

section Requests

variable {ν : Type} {preparation : CompactionPreparation ν} {customInstructions : Option JsString}

theorem summarizationRequests_messages (h : preparation.isSplitTurn = false → preparation.turnPrefixMessages = []) :
    (summarizationRequests preparation customInstructions).flatMap SummarizationRequest.messages =
      preparation.messagesToSummarize ++ preparation.turnPrefixMessages := by
  rw [summarizationRequests]
  split
  · by_cases hhistory : preparation.messagesToSummarize = []
    · rw [if_neg (not_not.mpr hhistory), hhistory]
      exact append_nil _
    · rw [if_pos hhistory]
      exact congrArg (_ ++ ·) (append_nil _)
  · rename_i hwhole
    have hfirstPart : preparation.turnPrefixMessages = [] := by
      by_contra hne
      rcases Bool.eq_false_or_eq_true preparation.isSplitTurn with hsplit | hwhole'
      · exact hwhole ⟨hsplit, hne⟩
      · exact hne (h hwhole')
    rw [hfirstPart]
    rfl

theorem previousSummary_given_iff {text : JsString} (h : preparation.previousSummary = some text) :
    (∃ request ∈ summarizationRequests preparation customInstructions, request.previousSummary? = some text) ↔
      ¬ (preparation.isSplitTurn ∧ preparation.turnPrefixMessages ≠ [] ∧ preparation.messagesToSummarize = []) := by
  rw [summarizationRequests]
  split
  · rename_i hsplit
    by_cases hhistory : preparation.messagesToSummarize = []
    · rw [if_neg (not_not.mpr hhistory)]
      refine iff_of_false ?_ (not_not.mpr ⟨hsplit.1, hsplit.2, hhistory⟩)
      rintro ⟨request, hmem, hgiven⟩
      obtain rfl := mem_singleton.mp hmem
      cases hgiven
    · rw [if_pos hhistory]
      exact iff_of_true ⟨_, mem_cons_self, h⟩ fun hlost => hhistory hlost.2.2
  · rename_i hwhole
    exact iff_of_true ⟨_, mem_cons_self, h⟩ fun hlost => hwhole ⟨hlost.1, hlost.2.1⟩

end Requests

theorem compact_eq_ok {ν : Type} {preparation : CompactionPreparation ν} {customInstructions : Option JsString}
    {generate : SummarizationRequest → Except CompactionError JsString} {requests : List SummarizationRequest}
    {result : CompactionResult} (h : compact generate preparation customInstructions = (requests, .ok result)) :
    requests = summarizationRequests preparation customInstructions ∧
      result.firstKeptEntryId = preparation.firstKeptEntryId := by
  rw [compact] at h
  split at h
  · cases (Prod.mk.inj h).2
  · obtain ⟨hrequests, hresult⟩ := Prod.mk.inj h
    obtain ⟨summary, -, hresult⟩ := bind_eq_ok.mp hresult
    obtain rfl := ok.inj hresult
    exact ⟨hrequests.symm, rfl⟩

/-! ## What is kept -/

section Kept

variable [DateParse] {ν : Type} [JsArithmetic ν] {pathEntries : List SessionTreeEntry}
  {settings : CompactionSettings ν} {preparation : CompactionPreparation ν}

/-- The parts of a context: the rows that requests are given, and those that the context after a compaction shows. The
context before shows the earlier summary and both, the one after the new summary and the rows kept. -/
structure ContextParts (pathEntries : List SessionTreeEntry) (requests : List SummarizationRequest)
    (entry : SessionTreeEntry) (given kept : List SessionTreeEntry) (shown shownKept : List AgentMessage) : Prop where
  rows : pathEntries.drop (boundaryStart pathEntries) = given ++ kept
  disjoint : given.Disjoint kept
  messages : contextMessages given = .ok shown
  messagesKept : contextMessages kept = .ok shownKept
  before : ∃ context summary, buildSessionContext pathEntries = .ok context ∧
    earlierSummary pathEntries = .ok summary ∧ context.messages = summary.toList ++ (shown ++ shownKept)
  after : ∃ context summary, buildSessionContext (pathEntries ++ [entry]) = .ok context ∧
    compactionMessage entry = .ok (some summary) ∧ context.messages = summary :: shownKept
  inputs : summaryInputs given = .ok (requests.flatMap SummarizationRequest.messages)
  ordered : shown.Sublist (requests.flatMap SummarizationRequest.messages)

/-- Every message of the context goes to a request, or is in the context after the compaction, in the order it was in,
and none does both; the summary of the latest earlier compaction goes to a request. -/
def ContextKept (pathEntries : List SessionTreeEntry) (requests : List SummarizationRequest)
    (entry : SessionTreeEntry) : Prop :=
  (∃ given kept shown shownKept, ContextParts pathEntries requests entry given kept shown shownKept) ∧
    ∀ compaction summary, latestCompaction pathEntries = some compaction → compaction.summary? = some summary →
      ∃ request ∈ requests, request.previousSummary? = some summary

/-- There is an earlier compaction, the cut splits a turn of which some row gives a message, and no row between the
boundary and that turn does. -/
def DropsEarlierSummary (pathEntries : List SessionTreeEntry) (keepRecentTokens : ν) : Prop :=
  latestCompaction pathEntries ≠ none ∧ (preparedCut pathEntries keepRecentTokens).isSplitTurn = true ∧
    (∃ entry ∈ rowsBetween pathEntries (historyEnd (preparedCut pathEntries keepRecentTokens))
      (preparedCut pathEntries keepRecentTokens).firstKeptEntryIndex, givesMessage entry = true) ∧
    ∀ entry ∈ rowsBetween pathEntries (boundaryStart pathEntries)
      (historyEnd (preparedCut pathEntries keepRecentTokens)), givesMessage entry = false

omit [DateParse] in
theorem SessionPath.boundaryStart_lt (h : SessionPath pathEntries) (hnonempty : pathEntries ≠ []) :
    boundaryStart pathEntries < pathEntries.length := by
  cases hindex : prevCompactionIndex pathEntries with
  | none =>
    rw [boundaryStart, hindex]
    exact length_pos_of_ne_nil hnonempty
  | some index =>
    obtain ⟨_, _, -, -, -, -, hlt, -⟩ := h.boundary hindex
    exact hlt.trans (prevCompactionIndex_lt hindex)

omit [DateParse] in
theorem preparedCut_bounds (h : SessionPath pathEntries) (hnonempty : pathEntries ≠ []) (keepRecentTokens : ν) :
    boundaryStart pathEntries ≤ historyEnd (preparedCut pathEntries keepRecentTokens) ∧
      historyEnd (preparedCut pathEntries keepRecentTokens) ≤
        (preparedCut pathEntries keepRecentTokens).firstKeptEntryIndex ∧
      (preparedCut pathEntries keepRecentTokens).firstKeptEntryIndex < pathEntries.length := by
  obtain ⟨hle, hlt, hturn⟩ := findCutPoint_bounds (h.boundaryStart_lt hnonempty) keepRecentTokens
  refine ⟨?_, ?_, hlt⟩ <;> rw [historyEnd] <;> split
  · rename_i hsplit
    obtain ⟨turnStart, hturnStart, hfrom, -⟩ := hturn hsplit
    rw [preparedCut, hturnStart]
    exact hfrom
  · exact hle
  · rename_i hsplit
    obtain ⟨turnStart, hturnStart, -, hto⟩ := hturn hsplit
    rw [preparedCut, hturnStart]
    exact hto
  · exact Nat.le_refl _

section

variable (h : Prepared pathEntries settings preparation)

include h

theorem Prepared.inputs (hpath : SessionPath pathEntries) (customInstructions : Option JsString) :
    summaryInputs (rowsBetween pathEntries (boundaryStart pathEntries)
        (preparedCut pathEntries settings.keepRecentTokens).firstKeptEntryIndex) =
      .ok ((summarizationRequests preparation customInstructions).flatMap SummarizationRequest.messages) := by
  obtain ⟨hstart, hend, hlt⟩ := preparedCut_bounds hpath h.nonempty settings.keepRecentTokens
  rw [summarizationRequests_messages h.noPrefix, ← rowsBetween_append hstart hend (hend.trans hlt.le),
    collect_append_eq_ok]
  refine ⟨_, _, h.history, ?_, rfl⟩
  rcases Bool.eq_false_or_eq_true preparation.isSplitTurn with hsplit | hwhole
  · exact h.turnPrefix hsplit
  have hempty : historyEnd (preparedCut pathEntries settings.keepRecentTokens) =
      (preparedCut pathEntries settings.keepRecentTokens).firstKeptEntryIndex := by
    rw [historyEnd, ← h.split, hwhole]
    rfl
  have hnone : rowsBetween pathEntries (preparedCut pathEntries settings.keepRecentTokens).firstKeptEntryIndex
      (preparedCut pathEntries settings.keepRecentTokens).firstKeptEntryIndex = [] :=
    drop_eq_nil_of_le (length_take_le ..)
  rw [hempty, h.noPrefix hwhole, hnone]
  rfl

theorem Prepared.contextParts (hpath : SessionPath pathEntries)
    (customInstructions : Option JsString) {entry : SessionTreeEntry} (hentry : StoresCompaction pathEntries
      (preparedCut pathEntries settings.keepRecentTokens).firstKeptEntryIndex entry) :
    ∃ given kept shown shownKept, ContextParts pathEntries (summarizationRequests preparation customInstructions) entry
      given kept shown shownKept := by
  obtain ⟨hstart, hend, hlt⟩ := preparedCut_bounds hpath h.nonempty settings.keepRecentTokens
  obtain ⟨context, hcontext⟩ := h.context
  obtain ⟨summary, all, hsummary, hall, hmessages⟩ := hpath.buildSessionContext_messages.mp ⟨context, hcontext, rfl⟩
  have hrows := rowsBetween_append_drop (hstart.trans hend) hlt.le
  rw [← hrows, contextMessages, collect_append_eq_ok] at hall
  obtain ⟨shown, shownKept, hshown, hshownKept, rfl⟩ := hall
  obtain ⟨message, hmessage⟩ := hentry.compactionMessage_eq
  obtain ⟨after, hafter, hafterMessages⟩ := (hentry.buildSessionContext_messages hpath).mpr
    ⟨_, shownKept, hmessage, hshownKept, rfl⟩
  have hnodup : (rowsBetween pathEntries (boundaryStart pathEntries)
      (preparedCut pathEntries settings.keepRecentTokens).firstKeptEntryIndex ++
      pathEntries.drop (preparedCut pathEntries settings.keepRecentTokens).firstKeptEntryIndex).Nodup := by
    rw [hrows]
    exact hpath.nodup.of_map.sublist (drop_sublist ..)
  exact ⟨_, _, shown, shownKept, hrows.symm, disjoint_of_nodup_append hnodup, hshown, hshownKept,
    ⟨context, summary, hcontext, hsummary, hmessages⟩, ⟨after, message, hafter, hmessage, hafterMessages⟩,
    h.inputs hpath customInstructions, contextMessages_sublist hshown (h.inputs hpath customInstructions)⟩

theorem Prepared.dropsEarlierSummary_iff : DropsEarlierSummary pathEntries settings.keepRecentTokens ↔
      latestCompaction pathEntries ≠ none ∧ preparation.isSplitTurn ∧ preparation.turnPrefixMessages ≠ [] ∧
        preparation.messagesToSummarize = [] := by
  rw [DropsEarlierSummary, ← h.split]
  refine and_congr_right fun _ => and_congr_right fun hsplit => and_congr ?_ (summaryInputs_eq_nil_iff h.history).symm
  rw [Ne, summaryInputs_eq_nil_iff (h.turnPrefix hsplit), not_forall]
  simp only [Classical.not_imp, Bool.not_eq_false]

end

omit [DateParse] in
theorem SessionPath.exists_summary (h : SessionPath pathEntries) {compaction : SessionTreeEntry}
    (hlatest : latestCompaction pathEntries = some compaction) : ∃ summary, compaction.summary? = some summary := by
  obtain ⟨index, hindex, -⟩ := bind_eq_some_iff.mp hlatest
  obtain ⟨found, firstKeptEntryId, -, hlatest', -, hfirst, -⟩ := h.boundary hindex
  obtain rfl : compaction = found := mem_unique hlatest hlatest'
  rw [firstKeptEntryId?] at hfirst
  rw [summary?]
  cases hbody : compaction.body with
  | compaction summary => exact ⟨summary, rfl⟩
  | _ =>
    rw [hbody] at hfirst
    cases hfirst

/-- **A compaction loses no context, except where it drops the earlier summary.** Whatever the branch, the settings and
the answers of the model: when the preparation and the compaction succeed, every message of the context before goes to
a request or is in the context after, and the earlier summary goes to a request unless the cut splits the first turn
after the boundary. -/
theorem compact_keeps_context_iff (hpath : SessionPath pathEntries)
    (hprepare : prepareCompaction pathEntries settings = .ok (.ok (some preparation)))
    {generate : SummarizationRequest → Except CompactionError JsString} {customInstructions : Option JsString}
    {requests : List SummarizationRequest} {result : CompactionResult}
    (hcompact : compact generate preparation customInstructions = (requests, .ok result))
    {entry : SessionTreeEntry} {fromHook : Bool} (hfresh : entry.id ∉ pathEntries.map SessionTreeEntry.id)
    (hbody : entry.body = .compaction result.summary result.firstKeptEntryId result.tokensBefore (some result.details)
      fromHook) (htimestamp : parseSessionTimestampMs entry.timestamp ≠ none) :
    ContextKept pathEntries requests entry ↔ ¬ DropsEarlierSummary pathEntries settings.keepRecentTokens := by
  have hprepared := prepareCompaction_eq_ok hprepare
  obtain ⟨hrequests, hfirst⟩ := compact_eq_ok hcompact
  subst hrequests
  have hentry : StoresCompaction pathEntries (preparedCut pathEntries settings.keepRecentTokens).firstKeptEntryIndex
      entry := by
    refine ⟨hfresh, ⟨preparation.firstKeptEntryId, ?_, hprepared.firstKept⟩, htimestamp⟩
    rw [firstKeptEntryId?, hbody, ← hfirst]
  have hparts := hprepared.contextParts hpath customInstructions hentry
  have hprevious := hprepared.previousSummary
  rw [ContextKept, and_iff_right hparts, hprepared.dropsEarlierSummary_iff]
  cases hlatest : latestCompaction pathEntries with
  | none =>
    exact iff_of_true (fun compaction _ hcompaction _ => by cases hcompaction) fun hdrops => hdrops.1 rfl
  | some compaction =>
    obtain ⟨summary, hsummary⟩ := hpath.exists_summary hlatest
    rw [hlatest, bind_some, hsummary] at hprevious
    rw [and_iff_right (some_ne_none _), ← previousSummary_given_iff hprevious]
    constructor
    · exact fun hgiven => hgiven compaction summary rfl hsummary
    · rintro hgiven _ _ hsame hsummary'
      obtain rfl := some.inj hsame
      obtain rfl := mem_unique hsummary hsummary'
      exact hgiven

end Kept

/-! ## A turn split right after a compaction -/

section SplitTurn

attribute [local instance] newYear

/-- A row at the start of the year. -/
def rowAt (id : JsString) (body : EntryBody) : SessionTreeEntry where
  body := body
  id := id
  parentId := none
  timestamp := js "2026-01-01T00:00:00.000Z"

def answeredAfterCompaction : List SessionTreeEntry :=
  [rowAt (js "u") (.message (.user (.string (js "go on")))),
    rowAt (js "c") (.compaction (js "the plan") (js "u") 9 none false),
    rowAt (js "a") (.message (.assistant ⟨[.text (js "done")], js "p", js "m", none, js "stop"⟩))]

/-- A budget that the answer uses up. -/
def oneToken : CompactionSettings ℚ :=
  ⟨true, 0, 1⟩

/-- What is prepared: the question is the first part of a split turn, and there is no history. -/
def answeredPreparation : CompactionPreparation ℚ where
  firstKeptEntryId := js "a"
  messagesToSummarize := []
  turnPrefixMessages := [.user (.string (js "go on"))]
  isSplitTurn := true
  tokensBefore := 5
  previousSummary := some (js "the plan")
  fileOps := {}
  settings := oneToken

theorem answered_prepared : prepareCompaction answeredAfterCompaction oneToken = .ok (.ok (some answeredPreparation)) :=
  rfl

theorem answered_sessionPath : SessionPath answeredAfterCompaction := by
  refine ⟨by decide, fun index compaction firstKeptEntryId hget hfirst => ?_⟩
  match index with
  | 0 =>
    obtain rfl := some.inj hget
    cases hfirst
  | 1 =>
    obtain rfl := some.inj hget
    obtain rfl := some.inj hfirst
    exact ⟨0, Nat.zero_lt_one, rfl⟩
  | 2 =>
    obtain rfl := some.inj hget
    cases hfirst
  | _ + 3 => cases hget

def alike (_ : SummarizationRequest) : Except CompactionError JsString :=
  .ok (js "so far")

def answeredResult : CompactionResult where
  summary := js "No prior history." ++ js "\n\n---\n\n**Turn Context (split turn):**\n\n" ++ js "so far" ++
    formatFileOperations (computeFileLists {})
  firstKeptEntryId := js "a"
  tokensBefore := 5
  details := computeFileLists {}

theorem answered_compacted : compact alike answeredPreparation none =
    ([.turnPrefix [.user (.string (js "go on"))]], .ok answeredResult) :=
  rfl

/-- The row that stores it. -/
def answeredCompaction : SessionTreeEntry :=
  rowAt (js "d") (.compaction answeredResult.summary (js "a") 5 (some answeredResult.details) false)

theorem answered_keeps_context_iff :
    ContextKept answeredAfterCompaction [.turnPrefix [.user (.string (js "go on"))]] answeredCompaction ↔
      ¬ DropsEarlierSummary answeredAfterCompaction (1 : ℚ) :=
  compact_keeps_context_iff answered_sessionPath answered_prepared answered_compacted (by decide) rfl (by decide)

/-- The compaction succeeds, and the only request it issues is not given the summary of the one before. -/
theorem earlier_summary_lost :
    ¬ ∀ (pathEntries : List SessionTreeEntry) (settings : CompactionSettings ℚ)
      (preparation : CompactionPreparation ℚ) (generate : SummarizationRequest → Except CompactionError JsString)
      (requests : List SummarizationRequest) (result : CompactionResult) (entry : SessionTreeEntry),
      SessionPath pathEntries → prepareCompaction pathEntries settings = .ok (.ok (some preparation)) →
      compact generate preparation none = (requests, .ok result) →
      entry.id ∉ pathEntries.map SessionTreeEntry.id →
      entry.body = .compaction result.summary result.firstKeptEntryId result.tokensBefore (some result.details) false →
      parseSessionTimestampMs entry.timestamp ≠ none → ContextKept pathEntries requests entry := by
  intro h
  obtain ⟨-, hgiven⟩ := h _ _ _ _ _ _ answeredCompaction answered_sessionPath answered_prepared answered_compacted
    (by decide) rfl (by decide)
  obtain ⟨request, hmem, hprevious⟩ := hgiven _ (js "the plan") rfl rfl
  obtain rfl := mem_singleton.mp hmem
  cases hprevious

end SplitTurn

end ClawWorks
