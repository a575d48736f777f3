import ClawWorks.Harness.ToolResults

/-!
# Split turns

A cut in the middle of a turn has the first part of the turn summarized on its own. The cut is moved back over rows that
are no messages before the row at it is asked whether it begins a turn.
-/

namespace ClawWorks

open List

/-! ## Turns -/

section Turns

variable {entries : List SessionTreeEntry} {startIndex index first turnStart : Nat}

structure FirstMessageAt (entries : List SessionTreeEntry) (index first : Nat) : Prop where
  le : index ≤ first
  gives : entries[first]?.any givesMessage = true
  before : ∀ i, index ≤ i → i < first → entries[i]?.any givesMessage = false

structure TurnStartAt (entries : List SessionTreeEntry) (startIndex index turnStart : Nat) : Prop where
  start_le : startIndex ≤ turnStart
  le : turnStart ≤ index
  starts : entries[turnStart]?.any startsTurn = true
  after : ∀ i, turnStart < i → i ≤ index → entries[i]?.any startsTurn = false

theorem FirstMessageAt.unique {first' : Nat} (h : FirstMessageAt entries index first)
    (h' : FirstMessageAt entries index first') : first = first' := by
  rcases Nat.lt_trichotomy first first' with hlt | heq | hlt
  · exact absurd (h'.before first h.le hlt) (by rw [h.gives]; decide)
  · exact heq
  · exact absurd (h.before first' h'.le hlt) (by rw [h'.gives]; decide)

theorem exists_firstMessageAt {i : Nat} (hle : index ≤ i) (hgives : entries[i]?.any givesMessage) :
    ∃ first ≤ i, FirstMessageAt entries index first := by
  have hsome : ∃ k, index ≤ k ∧ entries[k]?.any givesMessage := ⟨i, hle, hgives⟩
  refine ⟨Nat.find hsome, Nat.find_min' hsome ⟨hle, hgives⟩, (Nat.find_spec hsome).1, (Nat.find_spec hsome).2,
    fun k hk hlt => ?_⟩
  have hnot := Nat.find_min hsome hlt
  rw [not_and] at hnot
  exact Bool.not_eq_true _ ▸ hnot hk

theorem givesMessage_of_startsTurn {entry : SessionTreeEntry} (h : startsTurn entry) : givesMessage entry := by
  rw [startsTurn] at h
  rw [givesMessage]
  cases hbody : entry.body <;> simp_all

theorem startsTurn_none (h : entries[index]?.any givesMessage = false) : entries[index]?.any startsTurn = false := by
  cases hentry : entries[index]? with
  | none => rfl
  | some entry =>
    rw [hentry, Option.any_some] at h
    rw [Option.any_some]
    by_contra hstarts
    rw [givesMessage_of_startsTurn (Bool.not_eq_false _ ▸ hstarts)] at h
    cases h

theorem findTurnStartIndex_eq_some_iff :
    findTurnStartIndex entries index startIndex = some turnStart ↔ TurnStartAt entries startIndex index turnStart := by
  have hmem : ∀ i, i ∈ (range' startIndex (index + 1 - startIndex)).reverse ↔ startIndex ≤ i ∧ i ≤ index := by
    intro i
    rw [mem_reverse, mem_range'_1]
    omega
  have hsorted : (range' startIndex (index + 1 - startIndex)).reverse.Pairwise (· > ·) :=
    pairwise_reverse.mpr pairwise_lt_range'
  rw [findTurnStartIndex, find?_eq_some_iff_append]
  constructor
  · rintro ⟨hstarts, before, after, hsplit, hbefore⟩
    obtain ⟨hstart, hle⟩ := (hmem turnStart).mp (hsplit ▸ mem_append_right _ mem_cons_self)
    refine ⟨hstart, hle, hstarts, fun i hlt hi => ?_⟩
    have hi' : i ∈ before ++ turnStart :: after := hsplit ▸ (hmem i).mpr ⟨hstart.trans hlt.le, hi⟩
    rcases mem_append.mp hi' with hi' | hi'
    · exact Bool.not_eq_true' _ ▸ hbefore i hi'
    · rw [hsplit] at hsorted
      rcases mem_cons.mp hi' with rfl | hi'
      · exact absurd hlt (lt_irrefl _)
      · exact absurd (rel_of_pairwise_cons (pairwise_append.mp hsorted).2.1 hi') (by omega)
  · intro h
    obtain ⟨before, after, hsplit⟩ := append_of_mem ((hmem turnStart).mpr ⟨h.start_le, h.le⟩)
    refine ⟨h.starts, before, after, hsplit, fun i hi => ?_⟩
    have hle := ((hmem i).mp (hsplit ▸ mem_append_left _ hi)).2
    rw [hsplit] at hsorted
    have hlt := (pairwise_append.mp hsorted).2.2 i hi turnStart mem_cons_self
    rw [h.after i hlt hle]
    rfl

theorem exists_turnStartAt {i : Nat} (hstart : startIndex ≤ i) (hle : i ≤ index)
    (hstarts : entries[i]?.any startsTurn) : ∃ turnStart, TurnStartAt entries startIndex index turnStart := by
  cases hfind : findTurnStartIndex entries index startIndex with
  | some turnStart => exact ⟨turnStart, findTurnStartIndex_eq_some_iff.mp hfind⟩
  | none =>
    have hmem : i ∈ (range' startIndex (index + 1 - startIndex)).reverse := by
      rw [mem_reverse, mem_range'_1]
      omega
    exact absurd hstarts (find?_eq_none.mp hfind i hmem)

end Turns

/-! ## Exact splits -/

/-- The first part of a turn goes from its start up to the cut, and the first message that is kept is in the same turn
and does not begin it. -/
def SplitsExactly (entries : List SessionTreeEntry) (startIndex cutIndex turnStart : Nat) : Prop :=
  ∃ first, FirstMessageAt entries cutIndex first ∧ entries[first]?.any startsTurn = false ∧
    TurnStartAt entries startIndex first turnStart

/-- A cut that leaves rows of a turn before it splits that turn. -/
def CutPointResult.Exact (entries : List SessionTreeEntry) (startIndex : Nat) (cutPoint : CutPointResult) : Prop :=
  cutPoint.isSplitTurn = true → ∀ turnStart, cutPoint.turnStartIndex = some turnStart →
    turnStart < cutPoint.firstKeptEntryIndex → SplitsExactly entries startIndex cutPoint.firstKeptEntryIndex turnStart

/-- The walk back from a cut ends at a row that gives no message, the first message from there on begins a turn, and
another turn began before. -/
def HidesTurnStart (entries : List SessionTreeEntry) (startIndex cut : Nat) : Prop :=
  entries[walkBack entries startIndex cut]?.any givesMessage = false ∧
    (∃ first, FirstMessageAt entries (walkBack entries startIndex cut) first ∧
      entries[first]?.any startsTurn = true) ∧
    ∃ earlier, startIndex ≤ earlier ∧ earlier < walkBack entries startIndex cut ∧
      entries[earlier]?.any startsTurn = true

section Exact

variable {ν : Type} [JsArithmetic ν] {entries : List SessionTreeEntry} {startIndex : Nat} {keepRecentTokens : ν}

theorem givesMessage_of_isCutPoint {entry : SessionTreeEntry} (h : isCutPoint entry) : givesMessage entry := by
  rw [isCutPoint] at h
  rw [givesMessage]
  cases hbody : entry.body <;> simp_all

theorem splitsExactly_of_not_hidden {cut turnStart : Nat} (hcut : entries[cut]?.any isCutPoint)
    (hhidden : ¬ HidesTurnStart entries startIndex cut)
    (hturn : TurnStartAt entries startIndex (walkBack entries startIndex cut) turnStart)
    (hlt : turnStart < walkBack entries startIndex cut) :
    SplitsExactly entries startIndex (walkBack entries startIndex cut) turnStart := by
  have hgives : entries[cut]?.any givesMessage := by
    obtain ⟨entry, hentry, hpoint⟩ := (Option.any_eq_true _ _).mp hcut
    rw [hentry]
    exact givesMessage_of_isCutPoint hpoint
  obtain ⟨first, -, hfirst⟩ := exists_firstMessageAt walkBack_le hgives
  have hstarts : entries[first]?.any startsTurn = false := by
    by_contra hstarts
    rw [Bool.not_eq_false] at hstarts
    rcases hfirst.le.eq_or_lt with heq | hbefore
    · rw [hturn.after first (heq ▸ hlt) heq.ge] at hstarts
      cases hstarts
    · exact hhidden ⟨hfirst.before _ le_rfl hbefore, ⟨first, hfirst, hstarts⟩, turnStart, hturn.start_le, hlt,
        hturn.starts⟩
  refine ⟨first, hfirst, hstarts, hturn.start_le, hturn.le.trans hfirst.le, hturn.starts, fun i hi hle => ?_⟩
  rcases le_or_gt i (walkBack entries startIndex cut) with hback | hback
  · exact hturn.after i hi hback
  · rcases hle.eq_or_lt with rfl | hbefore
    · exact hstarts
    · exact startsTurn_none (hfirst.before i hback.le hbefore)

theorem exact_walkBack_iff {cut : Nat} {isUserMessage : Bool} (hcut : entries[cut]?.any isCutPoint)
    (huser : isUserMessage → entries[walkBack entries startIndex cut]?.any givesMessage)
    {turnStartIndex : Option Nat} (hturn : turnStartIndex =
      if isUserMessage then none else findTurnStartIndex entries (walkBack entries startIndex cut) startIndex) :
    CutPointResult.Exact entries startIndex
        ⟨walkBack entries startIndex cut, turnStartIndex, !isUserMessage && turnStartIndex.isSome⟩ ↔
      ¬ HidesTurnStart entries startIndex cut := by
  constructor
  · rintro hexact ⟨hsilent, ⟨first, hfirst, hstarts⟩, earlier, hle, hlt, hearlier⟩
    have hnotUser : isUserMessage = false := by
      by_contra h
      rw [huser (Bool.not_eq_false _ ▸ h)] at hsilent
      cases hsilent
    obtain ⟨turnStart, hturnStart⟩ := exists_turnStartAt hle hlt.le hearlier
    rw [hnotUser, if_neg Bool.false_ne_true, findTurnStartIndex_eq_some_iff.mpr hturnStart] at hturn
    have hbefore : turnStart < walkBack entries startIndex cut := by
      refine hturnStart.le.lt_of_ne fun heq => ?_
      have hnone := startsTurn_none hsilent
      rw [← heq, hturnStart.starts] at hnone
      cases hnone
    obtain ⟨first', hfirst', hnone, -⟩ := hexact (by rw [hnotUser, hturn]; rfl) turnStart hturn hbefore
    rw [hfirst'.unique hfirst, hstarts] at hnone
    cases hnone
  · intro hhidden hsplit turnStart hsome hlt
    rw [(Bool.not_eq_true' _).mp (Bool.and_eq_true_iff.mp hsplit).1, if_neg Bool.false_ne_true] at hturn
    exact splitsExactly_of_not_hidden hcut hhidden (findTurnStartIndex_eq_some_iff.mp (hturn.symm.trans hsome)) hlt

theorem findCutPoint_exact_iff (hstart : startIndex ≤ entries.length) :
    (findCutPoint entries startIndex entries.length keepRecentTokens).Exact entries startIndex ↔
      ∀ cut, CutAt entries startIndex keepRecentTokens cut → ¬ HidesTurnStart entries startIndex cut := by
  rw [findCutPoint]
  split
  · rename_i hpoints
    refine iff_of_true (fun h => by cases h) fun cut hcut => ?_
    have hnone : CutAt entries startIndex keepRecentTokens startIndex := .none (fun i hi => by
      have hmem := eligibleAt_iff_mem.mp hi
      rw [hpoints] at hmem
      cases hmem) rfl
    rintro ⟨-, -, earlier, hle, hlt, -⟩
    exact absurd (hlt.trans_le (hcut.unique hnone ▸ walkBack_le)) hle.not_gt
  · rename_i first rest hpoints
    have hcut : CutAt entries startIndex keepRecentTokens
      (chosenCutPoint entries startIndex keepRecentTokens first rest) := cutAt_chosen hstart hpoints
    have hmem : chosenCutPoint entries startIndex keepRecentTokens first rest ∈
      findValidCutPoints entries startIndex entries.length := hpoints ▸ chosenCutPoint_mem
    refine (exact_walkBack_iff (mem_findValidCutPoints.mp hmem).2.2 (fun huser => ?_) rfl).trans
      ⟨fun h cut hcut' => hcut.unique hcut' ▸ h, fun h => h _ hcut⟩
    obtain ⟨entry, hentry, hmessage⟩ := (Option.any_eq_true _ _).mp huser
    refine (Option.any_eq_true _ _).mpr ⟨entry, hentry, ?_⟩
    rw [givesMessage]
    split at hmessage
    · rename_i hbody
      rw [hbody]
    · cases hmessage

end Exact

theorem boundaryStart_le (pathEntries : List SessionTreeEntry) : boundaryStart pathEntries ≤ pathEntries.length := by
  rw [boundaryStart]
  split
  · exact Nat.zero_le _
  · rename_i index hindex
    have hlt := mem_range.mp (mem_reverse.mp (mem_of_find?_eq_some hindex))
    dsimp only
    split
    · exact Nat.le_of_lt ‹_›
    · exact hlt

section Prepare

variable [DateParse] {ν : Type} [JsArithmetic ν]

/-- What is summarized as the first part of a turn are the messages from its start up to the cut, and the first message
that is kept is in the same turn and does not begin it. -/
def CompactionPreparation.Exact (pathEntries : List SessionTreeEntry) (cutIndex : Nat)
    (preparation : CompactionPreparation ν) : Prop :=
  preparation.turnPrefixMessages ≠ [] → ∃ turnStart,
    SplitsExactly pathEntries (boundaryStart pathEntries) cutIndex turnStart ∧
      summaryInputs (rowsBetween pathEntries turnStart cutIndex) = .ok preparation.turnPrefixMessages

theorem Prepared.exact {pathEntries : List SessionTreeEntry} {settings : CompactionSettings ν}
    {preparation : CompactionPreparation ν} (h : Prepared pathEntries settings preparation)
    (hexact : (preparedCut pathEntries settings.keepRecentTokens).Exact pathEntries (boundaryStart pathEntries)) :
    preparation.Exact pathEntries (preparedCut pathEntries settings.keepRecentTokens).firstKeptEntryIndex := by
  intro hprefix
  have hsplit : preparation.isSplitTurn := by
    by_contra hwhole
    exact hprefix (h.noPrefix (Bool.not_eq_true _ ▸ hwhole))
  have hinputs := h.turnPrefix hsplit
  have hcut := h.split.symm.trans hsplit
  obtain ⟨turnStart, hturn⟩ : ∃ turnStart,
      (preparedCut pathEntries settings.keepRecentTokens).turnStartIndex = some turnStart := by
    revert hcut
    rw [preparedCut, findCutPoint]
    split
    · exact fun h => by cases h
    · exact fun h => Option.isSome_iff_exists.mp (Bool.and_eq_true_iff.mp h).2
  rw [historyEnd, if_pos hcut, hturn, Option.getD_some] at hinputs
  refine ⟨turnStart, hexact hcut turnStart hturn ?_, hinputs⟩
  by_contra hge
  have hnil : rowsBetween pathEntries turnStart
      (preparedCut pathEntries settings.keepRecentTokens).firstKeptEntryIndex = [] :=
    drop_eq_nil_of_le ((length_take_le _ _).trans (Nat.le_of_not_lt hge))
  rw [hnil] at hinputs
  exact hprefix (Except.ok.inj hinputs).symm

/-- **Split turns are told exactly, unless the start of a turn is hidden.** The cut and what is prepared of it hold the
first part of a turn only where the first message that is kept is in the middle of that turn, and then all of it: exactly
when the rows right before the one where the budget cuts do not hide the start of a turn. -/
theorem turnSplits_exact_iff (pathEntries : List SessionTreeEntry) (settings : CompactionSettings ν) :
    ((preparedCut pathEntries settings.keepRecentTokens).Exact pathEntries (boundaryStart pathEntries) ∧
      ∀ preparation, prepareCompaction pathEntries settings = .ok (.ok (some preparation)) →
        preparation.Exact pathEntries (preparedCut pathEntries settings.keepRecentTokens).firstKeptEntryIndex) ↔
      ∀ cut, CutAt pathEntries (boundaryStart pathEntries) settings.keepRecentTokens cut →
        ¬ HidesTurnStart pathEntries (boundaryStart pathEntries) cut := by
  rw [← findCutPoint_exact_iff (boundaryStart_le pathEntries), ← preparedCut]
  exact and_iff_left_of_imp fun hexact preparation hprepare => (prepareCompaction_eq_ok hprepare).exact hexact

end Prepare

section Labelled

attribute [local instance] newYear

def labelledQuestion : List SessionTreeEntry :=
  [rowAt (js "u") (.message (.user (.string (js "go on")))),
    rowAt (js "a") (.message (.assistant ⟨[.text (js "done")], js "p", js "m", none, js "stop"⟩)),
    rowAt (js "l") (.label (js "a") (some (js "good"))),
    rowAt (js "v") (.message (.user (.string (js "and then"))))]

/-- The first turn is summarized as a split one, though all that is kept is the next. -/
theorem labelled_question_split : ¬ ∀ (pathEntries : List SessionTreeEntry) (settings : CompactionSettings ℚ),
    (preparedCut pathEntries settings.keepRecentTokens).Exact pathEntries (boundaryStart pathEntries) ∧
      ∀ preparation, prepareCompaction pathEntries settings = .ok (.ok (some preparation)) →
        preparation.Exact pathEntries (preparedCut pathEntries settings.keepRecentTokens).firstKeptEntryIndex := by
  intro h
  have hsplit : ∃ preparation, prepareCompaction labelledQuestion oneToken = .ok (.ok (some preparation)) ∧
    preparation.turnPrefixMessages ≠ [] := ⟨_, rfl, cons_ne_nil _ _⟩
  obtain ⟨preparation, hprepare, hprefix⟩ := hsplit
  obtain ⟨turnStart, ⟨first, hfirst, hnone, -⟩, -⟩ := (h labelledQuestion oneToken).2 preparation hprepare hprefix
  have hquestion : FirstMessageAt labelledQuestion
      (preparedCut labelledQuestion oneToken.keepRecentTokens).firstKeptEntryIndex 3 := by
    have hcut : (preparedCut labelledQuestion oneToken.keepRecentTokens).firstKeptEntryIndex = 2 := by rfl
    rw [hcut]
    refine ⟨by decide, by decide, fun i hle hlt => ?_⟩
    obtain rfl : i = 2 := by omega
    decide
  rw [hfirst.unique hquestion] at hnone
  exact absurd hnone (by decide)

end Labelled

end ClawWorks
