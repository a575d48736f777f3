import ClawWorks.Exec.EnvCarrier
import ClawWorks.Markdown.ChunkText
import Mathlib.Algebra.GroupWithZero.Nat

/-!
# Code fences

The spans of fenced code in a text, scanned line by line; a scan of one part of a text can go on where that of the part
before it ended.
-/

namespace ClawWorks.Markdown

open Option List

/-! ## Fence lines -/

def BACKTICK : UInt16 := 96
def TILDE : UInt16 := 126
def SPACE : UInt16 := 32
def TABULATOR : UInt16 := 9

/-- `/^( {0,3})(`{3,}|~{3,})/`: the indent and the marker. -/
def fenceMarker? (line : JsString) : Option (JsString × JsString) :=
  let indent := (line.take 3).takeWhile (· == SPACE)
  match line.drop indent.length with
  | [] => none
  | char :: rest =>
    let marker := (char :: rest).takeWhile (· == char)
    if (char = BACKTICK ∨ char = TILDE) ∧ 3 ≤ marker.length then some (indent, marker) else none

/-- `line.match(/^( {0,3})(`{3,}|~{3,})(.*)$/)`: the indent, the marker and what is behind it. -/
structure FenceLine where
  indent : JsString
  marker : JsString
  trailing : JsString

def fenceLine? (line : JsString) : Option FenceLine :=
  (fenceMarker? line).bind fun (indent, marker) =>
    let trailing := line.drop (indent.length + marker.length)
    if trailing.any isLineTerminator then none else some ⟨indent, marker, trailing⟩

/-- `line.replace(/\r$/, "")`. -/
def dropCarriageReturn (line : JsString) : JsString :=
  if line.getLast? = some 13 then line.dropLast else line

/-! ## The scan -/

structure OpenFence where
  markerChar : UInt16
  markerLen : Nat
  openLine : JsString
  marker : JsString
  indent : JsString

structure FenceSpan where
  start : Nat
  stop : Nat
  openLine : JsString
  marker : JsString
  indent : JsString
  deriving DecidableEq

/-- The scanner state carried across parts of a text. -/
structure FenceScanState where
  atLineStart : Option Bool := none
  opened : Option OpenFence := none

def OpenFence.span (fence : OpenFence) (start stop : Nat) : FenceSpan :=
  ⟨start, stop, fence.openLine, fence.marker, fence.indent⟩

def FenceLine.fence (fenceLine : FenceLine) (line : JsString) : OpenFence :=
  ⟨fenceLine.marker.headD 0, fenceLine.marker.length, line, fenceLine.marker, fenceLine.indent⟩

def OpenFence.closedBy (fence : OpenFence) (fenceLine : FenceLine) : Bool :=
  fence.markerChar == fenceLine.marker.headD 0 && fence.markerLen ≤ fenceLine.marker.length &&
    fenceLine.trailing.all fun u => u == SPACE || u == TABULATOR

/-- The variables of the loop; an open fence is with its start. -/
structure FenceScan where
  offset : Nat
  spans : List FenceSpan
  opened : Option (Nat × OpenFence)

def scanLine (startsAtLineStart : Bool) (scan : FenceScan) (rawLine : JsString) : FenceScan :=
  let lineEnd := scan.offset + rawLine.length
  let line := dropCarriageReturn rawLine
  match fenceLine? line with
  | none => { scan with offset := lineEnd + 1 }
  | some fenceLine =>
    if 0 < scan.offset ∨ startsAtLineStart = true then
      match scan.opened with
      | none => { scan with offset := lineEnd + 1, opened := some (scan.offset, fenceLine.fence line) }
      | some (start, fence) =>
        if fence.closedBy fenceLine then
          { offset := lineEnd + 1, spans := scan.spans ++ [fence.span start lineEnd], opened := none }
        else { scan with offset := lineEnd + 1 }
    else { scan with offset := lineEnd + 1 }

/-- The spans at the end of the text; an open fence's goes up to there. -/
def FenceScan.spansTo (scan : FenceScan) (stop : Nat) : List FenceSpan :=
  scan.spans ++ (scan.opened.map fun entry => entry.2.span entry.1 stop).toList

/-- Scans fenced-code spans incrementally so chunking can carry an open fence forward. -/
def scanFenceSpans (buffer : JsString) (state : FenceScanState) : List FenceSpan × FenceScanState :=
  let startsAtLineStart := state.atLineStart.getD true
  let scan := (buffer.splitOn NEWLINE).foldl (scanLine startsAtLineStart) ⟨0, [], state.opened.map (0, ·)⟩
  (scan.spansTo buffer.length,
    { atLineStart := some (if buffer = [] then startsAtLineStart else buffer.getLast? = some NEWLINE)
      opened := scan.opened.map (·.2) })

/-! ## Two parts of a text -/

def FenceSpan.shift (n : Nat) (span : FenceSpan) : FenceSpan :=
  { span with start := span.start + n, stop := span.stop + n }

/-- The spans of the two parts of a text: those of the back part are moved, and where a fence is open at the boundary,
the last span of the front part and the first one of the back part are one. -/
def joinSpans (boundary : Nat) (carried : Bool) (front back : List FenceSpan) : List FenceSpan :=
  match carried, front.getLast?, back.map (FenceSpan.shift boundary) with
  | true, some last, first :: rest => front.dropLast ++ { first with start := last.start } :: rest
  | _, _, shifted => front ++ shifted

section Parts

variable {n : Nat} {fresh : Bool} {done doneBack : List FenceSpan} {whole back : FenceScan} {line : JsString}

structure Shifted (n : Nat) (done doneBack : List FenceSpan) (whole back : FenceScan) : Prop where
  offset : whole.offset = back.offset + n
  spans : ∃ rest, back.spans = doneBack ++ rest ∧ whole.spans = done ++ rest.map (FenceSpan.shift n)
  opened : whole.opened = back.opened.map fun entry => (entry.1 + n, entry.2)

theorem scanLine_offset (scan : FenceScan) : (scanLine fresh scan line).offset = scan.offset + (line.length + 1) := by
  rw [scanLine]
  repeat' split
  all_goals rfl

theorem foldl_scanLine_offset (lines : List JsString) (scan : FenceScan) :
    (lines.foldl (scanLine fresh) scan).offset = scan.offset + (lines.map (·.length + 1)).sum := by
  induction lines generalizing scan with
  | nil => rfl
  | cons line lines ih => rw [foldl_cons, ih, scanLine_offset, map_cons, sum_cons, Nat.add_assoc]

theorem sum_length_splitOn (text : JsString) : ((text.splitOn NEWLINE).map (·.length + 1)).sum = text.length + 1 := by
  induction text with
  | nil => rfl
  | cons u text ih =>
    rw [splitOn_eq_splitOnP] at ih ⊢
    rw [splitOnP_cons_eq_if_modifyHead]
    split
    · rw [map_cons, sum_cons, ih, length_nil, length_cons]
      omega
    · obtain ⟨line, lines, hlines⟩ := exists_cons_of_ne_nil (splitOnP_ne_nil (· == NEWLINE) text)
      rw [hlines] at ih ⊢
      simp only [modifyHead_cons, map_cons, sum_cons, length_cons] at ih ⊢
      omega

theorem scanLine_closes {offset start : Nat} {fence : OpenFence} (hfresh : 0 < offset ∨ fresh)
    (hcloses : (fenceLine? (dropCarriageReturn line)).any fence.closedBy) :
    scanLine fresh ⟨offset, done, some (start, fence)⟩ line =
      ⟨offset + (line.length + 1), done ++ [fence.span start (offset + line.length)], none⟩ := by
  obtain ⟨fenceLine, hline, hclosed⟩ := (any_eq_true _ _).mp hcloses
  simp only [scanLine, hline]
  rw [if_pos hfresh, if_pos hclosed]
  rfl

theorem scanLine_stays {offset start : Nat} {fence : OpenFence}
    (hcloses : ¬(fenceLine? (dropCarriageReturn line)).any fence.closedBy) :
    scanLine fresh ⟨offset, done, some (start, fence)⟩ line =
      ⟨offset + (line.length + 1), done, some (start, fence)⟩ := by
  cases hline : fenceLine? (dropCarriageReturn line) with
  | none => rw [scanLine, hline]; rfl
  | some fenceLine =>
    rw [hline, any_some] at hcloses
    simp only [scanLine, hline, if_neg hcloses, ite_self]
    rfl

section

variable (h : Shifted n done doneBack whole back)

include h

theorem Shifted.scanLine (hn : 0 < n) :
    Shifted n done doneBack (scanLine fresh whole line) (scanLine true back line) := by
  obtain ⟨_, _, _⟩ := whole
  obtain ⟨offset, _, opened⟩ := back
  obtain ⟨rfl, ⟨rest, rfl, rfl⟩, rfl⟩ := h
  have hfresh : 0 < offset + n ∨ fresh := .inl (by omega)
  rcases opened with - | ⟨start, fence⟩
  · simp only [Markdown.scanLine, map_none, if_pos hfresh, or_true, if_true]
    cases fenceLine? (dropCarriageReturn line) with
    | none | some fenceLine => exact ⟨by dsimp only; omega, ⟨rest, rfl, rfl⟩, rfl⟩
  · by_cases hcloses : (fenceLine? (dropCarriageReturn line)).any fence.closedBy
    · rw [map_some, scanLine_closes hfresh hcloses, scanLine_closes (.inr rfl) hcloses]
      refine ⟨Nat.add_right_comm .., ⟨rest ++ [fence.span start (offset + line.length)], ?_, ?_⟩, rfl⟩
      · exact append_assoc ..
      · dsimp only
        rw [map_append, append_assoc, Nat.add_right_comm offset n]
        rfl
    · rw [map_some, scanLine_stays hcloses, scanLine_stays hcloses]
      exact ⟨Nat.add_right_comm .., ⟨rest, rfl, rfl⟩, rfl⟩

theorem Shifted.spansTo (stop : Nat) : ∃ rest, back.spansTo stop = doneBack ++ rest ∧
      whole.spansTo (stop + n) = done ++ rest.map (FenceSpan.shift n) := by
  obtain ⟨-, ⟨rest, hback, hwhole⟩, hopened⟩ := h
  refine ⟨rest ++ (back.opened.map fun entry => entry.2.span entry.1 stop).toList, ?_, ?_⟩
  · rw [FenceScan.spansTo, hback, append_assoc]
  · rw [FenceScan.spansTo, hwhole, hopened, map_append, append_assoc]
    cases back.opened <;> rfl

theorem Shifted.foldl (hn : 0 < n) (lines : List JsString) :
    Shifted n done doneBack (lines.foldl (Markdown.scanLine fresh) whole)
      (lines.foldl (Markdown.scanLine true) back) := by
  induction lines generalizing whole back with
  | nil => exact h
  | cons line lines ih => exact ih (h.scanLine hn)

end

theorem foldl_carried {start offset : Nat} {fence : OpenFence} (hn : 0 < n) (lines : List JsString) :
    (∃ offset', lines.foldl (scanLine fresh) ⟨offset + n, done, some (start, fence)⟩ =
          ⟨offset' + n, done, some (start, fence)⟩ ∧
        lines.foldl (scanLine true) ⟨offset, [], some (0, fence)⟩ = ⟨offset', [], some (0, fence)⟩) ∨
      ∃ stop, Shifted n (done ++ [fence.span start (stop + n)]) [fence.span 0 stop]
        (lines.foldl (scanLine fresh) ⟨offset + n, done, some (start, fence)⟩)
        (lines.foldl (scanLine true) ⟨offset, [], some (0, fence)⟩) := by
  induction lines generalizing offset with
  | nil => exact .inl ⟨offset, rfl, rfl⟩
  | cons line lines ih =>
    rw [foldl_cons, foldl_cons]
    by_cases hcloses : (fenceLine? (dropCarriageReturn line)).any fence.closedBy
    · rw [scanLine_closes (.inl (by omega)) hcloses, scanLine_closes (.inr rfl) hcloses]
      refine .inr ⟨offset + line.length, Shifted.foldl ⟨?_, ⟨[], rfl, ?_⟩, rfl⟩ hn lines⟩
      · exact Nat.add_right_comm ..
      · dsimp only
        rw [map_nil, append_nil, Nat.add_right_comm offset n]
    · rw [scanLine_stays hcloses, scanLine_stays hcloses, Nat.add_right_comm]
      exact ih

theorem scanLine_nil (scan : FenceScan) : scanLine fresh scan [] = { scan with offset := scan.offset + 1 } := rfl

theorem joinSpans_carried (done back : List FenceSpan) (fence : OpenFence) (start stop : Nat) :
    joinSpans n true (done ++ [fence.span start n]) (fence.span 0 stop :: back) =
      done ++ fence.span start (stop + n) :: back.map (FenceSpan.shift n) := by
  unfold joinSpans
  rw [getLast?_concat, dropLast_concat]
  rfl

theorem spansTo_foldl (hn : 0 < n) (opened : Option (Nat × OpenFence)) (lines : List JsString) (stop : Nat) :
    let whole := lines.foldl (scanLine fresh) ⟨n, done, opened⟩
    let back := lines.foldl (scanLine true) ⟨0, [], (opened.map (·.2)).map (0, ·)⟩
    whole.opened.map (·.2) = back.opened.map (·.2) ∧ whole.spansTo (stop + n) =
        joinSpans n opened.isSome (FenceScan.spansTo ⟨n, done, opened⟩ n) (back.spansTo stop) := by
  intro whole back
  cases opened with
  | none =>
    have h : Shifted n done [] whole back :=
      Shifted.foldl ⟨(Nat.zero_add n).symm, ⟨[], rfl, (append_nil done).symm⟩, rfl⟩ hn lines
    obtain ⟨rest, hback, hwhole⟩ := h.spansTo stop
    refine ⟨by rw [h.opened, Option.map_map]; rfl, ?_⟩
    rw [hwhole, hback]
    simp [joinSpans, FenceScan.spansTo]
  | some entry =>
    obtain ⟨start, fence⟩ := entry
    have hcarried := @foldl_carried n fresh done start 0 fence hn lines
    rw [Nat.zero_add] at hcarried
    rcases hcarried with ⟨offset, hwhole, hback⟩ | ⟨closing, h⟩
    · rw [show whole = _ from hwhole, show back = _ from hback]
      exact ⟨rfl, (joinSpans_carried done [] fence start stop).symm⟩
    · obtain ⟨rest, hback, hwhole⟩ := h.spansTo stop
      rw [show whole.spansTo _ = _ from hwhole, show back.spansTo _ = _ from hback, append_assoc]
      exact ⟨(congrArg _ h.opened).trans (map_map ..), (joinSpans_carried done rest fence start closing).symm⟩

end Parts

/-! ## Lookup -/

/-- The loop of the bisection, on the spans from `low` to `high`. -/
def findFrom (spans : List FenceSpan) (index low high : ℤ) : Option FenceSpan :=
  if low ≤ high then
    match spans[((low + high) / 2).toNat]? with
    | none => none
    | some span =>
      if index ≤ span.start then findFrom spans index low ((low + high) / 2 - 1)
      else if span.stop ≤ index then findFrom spans index ((low + high) / 2 + 1) high
      else some span
  else none
termination_by (high + 1 - low).toNat
decreasing_by all_goals omega

/-- Looks up the fence containing an offset. -/
def findFenceSpanAt (spans : List FenceSpan) (index : ℤ) : Option FenceSpan :=
  findFrom spans index 0 (spans.length - 1)

/-- The position is inside the span. -/
def FenceSpan.contains (span : FenceSpan) (index : ℤ) : Bool :=
  span.start < index && index < span.stop

/-- Spans one behind the other. -/
def FencesInOrder (spans : List FenceSpan) : Prop :=
  (∀ span ∈ spans, span.start ≤ span.stop) ∧ spans.Pairwise fun a b => a.stop ≤ b.start

section Lookup

variable {spans : List FenceSpan} {index low high : ℤ} {span : FenceSpan}

theorem FencesInOrder.place (h : FencesInOrder spans) {i j : Nat} {other : FenceSpan} (hi : spans[i]? = some span)
    (hj : spans[j]? = some other) (hcontains : span.start < index ∧ index < span.stop) :
    (index ≤ other.start → i < j) ∧ (other.stop ≤ index → j < i) ∧
      (other.start < index → index < other.stop → other = span) := by
  obtain ⟨hi', rfl⟩ := List.getElem?_eq_some_iff.mp hi
  obtain ⟨hj', rfl⟩ := List.getElem?_eq_some_iff.mp hj
  have hother := h.1 _ (List.getElem_mem hj')
  rcases Nat.lt_trichotomy i j with hlt | rfl | hlt
  · have hbefore := pairwise_iff_getElem.mp h.2 i j hi' hj' hlt
    exact ⟨fun _ => hlt, fun _ => by omega, fun _ _ => by omega⟩
  · exact ⟨fun _ => by omega, fun _ => by omega, fun _ _ => rfl⟩
  · have hbefore := pairwise_iff_getElem.mp h.2 j i hj' hi' hlt
    exact ⟨fun _ => by omega, fun _ => hlt, fun _ _ => by omega⟩

theorem findFrom_eq (h : FencesInOrder spans) {i : Nat} (hspan : spans[i]? = some span)
    (hcontains : span.start < index ∧ index < span.stop) (hlow : 0 ≤ low) (hi : low ≤ i ∧ i ≤ high)
    (hhigh : high < spans.length) : findFrom spans index low high = some span := by
  fun_induction findFrom spans index low high with
  | case1 low high hle hnone =>
    rw [getElem?_eq_none_iff] at hnone
    omega
  | case2 low high hle middle hmiddle hbefore ih =>
    have hplace := (h.place hspan hmiddle hcontains).1 hbefore
    exact ih hlow ⟨hi.1, by omega⟩ (by omega)
  | case3 low high hle middle hmiddle hbefore hbehind ih =>
    have hplace := (h.place hspan hmiddle hcontains).2.1 hbehind
    exact ih (by omega) ⟨by omega, hi.2⟩ hhigh
  | case4 low high hle middle hmiddle hbefore hbehind =>
    exact congrArg some ((h.place hspan hmiddle hcontains).2.2 (Int.not_le.mp hbefore) (Int.not_le.mp hbehind))
  | case5 low high hgt => omega

theorem findFrom_sound (hfind : findFrom spans index low high = some span) : span ∈ spans ∧ span.contains index := by
  fun_induction findFrom spans index low high with
  | case1 low high hle hnone => cases hfind
  | case2 low high hle middle hmiddle hbefore ih | case3 low high hle middle hmiddle hbefore hbehind ih =>
    exact ih hfind
  | case4 low high hle middle hmiddle hbefore hbehind =>
    obtain rfl := some.inj hfind
    refine ⟨mem_of_getElem? hmiddle, ?_⟩
    rw [FenceSpan.contains, Bool.and_eq_true, decide_eq_true_eq, decide_eq_true_eq]
    omega
  | case5 low high hgt => cases hfind

theorem findFenceSpanAt_eq (h : FencesInOrder spans) (index : ℤ) :
    findFenceSpanAt spans index = spans.find? (·.contains index) := by
  cases hfind : spans.find? (·.contains index) with
  | some span =>
    obtain ⟨i, hi⟩ := List.getElem?_of_mem (List.mem_of_find?_eq_some hfind)
    have hlt := (List.getElem?_eq_some_iff.mp hi).1
    have hcontains : span.contains index := List.find?_some (p := (FenceSpan.contains · index)) hfind
    simp only [FenceSpan.contains, Bool.and_eq_true, decide_eq_true_eq] at hcontains
    exact findFrom_eq h hi hcontains (Int.le_refl 0) (by omega) (by omega)
  | none =>
    cases hfound : findFenceSpanAt spans index with
    | none => rfl
    | some span =>
      obtain ⟨hmem, hcontains⟩ := findFrom_sound hfound
      exact absurd hcontains (find?_eq_none.mp hfind span hmem)

/-- The spans so far, with the open fence's as far as the scan is, are in order, and the next one starts behind them. -/
structure FenceScan.Ordered (scan : FenceScan) : Prop where
  inOrder : FencesInOrder (scan.spansTo (scan.offset - 1))
  behind : ∀ span ∈ scan.spans, span.stop ≤ scan.offset

theorem inOrder_concat : FencesInOrder (spans ++ [span]) ↔
    FencesInOrder spans ∧ span.start ≤ span.stop ∧ ∀ before ∈ spans, before.stop ≤ span.start := by
  simp only [FencesInOrder, forall_mem_append, forall_mem_singleton, pairwise_append, pairwise_singleton, true_and]
  tauto

theorem FenceScan.Ordered.scanLine {fresh : Bool} {scan : FenceScan} (h : scan.Ordered) (line : JsString) :
    (Markdown.scanLine fresh scan line).Ordered := by
  obtain ⟨offset, spans, opened⟩ := scan
  obtain ⟨hinOrder, hbehind⟩ := h
  have hlater : ∀ span ∈ spans, span.stop ≤ offset + (line.length + 1) := fun span hspan =>
    (hbehind span hspan).trans (Nat.le_add_right ..)
  rcases opened with - | ⟨start, fence⟩
  · have hspans : FencesInOrder spans := by simpa [spansTo] using hinOrder
    have hstays : FenceScan.Ordered ⟨offset + (line.length + 1), spans, none⟩ := ⟨by simpa [spansTo], hlater⟩
    rw [Markdown.scanLine]
    split
    · exact hstays
    · split
      · exact ⟨inOrder_concat.mpr ⟨hspans, Nat.le_add_right .., hbehind⟩, hlater⟩
      · exact hstays
  · obtain ⟨hspans, hstart, hbefore⟩ := inOrder_concat.mp hinOrder
    have hend : start ≤ offset + line.length := by
      have : start ≤ offset - 1 := hstart
      omega
    have hextended : FencesInOrder (spans ++ [fence.span start (offset + line.length)]) :=
      inOrder_concat.mpr ⟨hspans, hend, hbefore⟩
    have hstays : FenceScan.Ordered ⟨offset + (line.length + 1), spans, some (start, fence)⟩ := ⟨hextended, hlater⟩
    rw [Markdown.scanLine]
    split
    · exact hstays
    · split
      · dsimp only
        split
        · refine ⟨by simpa [spansTo] using hextended, ?_⟩
          rw [forall_mem_append, forall_mem_singleton]
          exact ⟨hlater, Nat.le_succ _⟩
        · exact hstays
      · exact hstays

theorem scanFenceSpans_inOrder (text : JsString) (state : FenceScanState) :
    FencesInOrder (scanFenceSpans text state).1 := by
  have hfold : ∀ (fresh : Bool) (lines : List JsString) {scan : FenceScan}, scan.Ordered →
      (lines.foldl (scanLine fresh) scan).Ordered := by
    intro fresh lines
    induction lines with
    | nil => exact id
    | cons line lines ih => exact fun h => ih (h.scanLine line)
  have hstart : FenceScan.Ordered ⟨0, [], state.opened.map (0, ·)⟩ := by
    refine ⟨?_, fun _ hspan => absurd hspan not_mem_nil⟩
    cases state.opened <;> simp [FencesInOrder, FenceScan.spansTo, OpenFence.span]
  have h := (hfold (state.atLineStart.getD true) (text.splitOn NEWLINE) hstart).inOrder
  rwa [foldl_scanLine_offset, sum_length_splitOn, Nat.zero_add] at h

end Lookup

/-- **A text can be scanned in parts, and looking a position up in the spans is a linear search.** -/
theorem scanFenceSpans_compositional (state : FenceScanState) :
    (∀ text back : JsString,
      let front := text ++ [NEWLINE]
      let first := scanFenceSpans front state
      let second := scanFenceSpans back first.2
      scanFenceSpans (front ++ back) state =
        (joinSpans front.length first.2.opened.isSome first.1 second.1, second.2)) ∧
    ∀ (text : JsString) (index : ℤ), findFenceSpanAt (scanFenceSpans text state).1 index =
      (scanFenceSpans text state).1.find? (·.contains index) := by
  refine ⟨fun text back => ?_, fun text index => findFenceSpanAt_eq (scanFenceSpans_inOrder text state) index⟩
  intro front first second
  let scan := (text.splitOn NEWLINE).foldl (scanLine (state.atLineStart.getD true)) ⟨0, [], state.opened.map (0, ·)⟩
  have hoffset : scan.offset = front.length := by
    rw [foldl_scanLine_offset, sum_length_splitOn, Nat.zero_add, length_append, length_singleton]
  have hfirst : first = (scan.spansTo front.length, ⟨some true, scan.opened.map (·.2)⟩) := by
    have hlines := splitOn_append_cons_self (a := NEWLINE) text []
    simp only [first, front, scanFenceSpans, hlines, splitOn_nil, foldl_append, foldl_cons,
      foldl_nil, scanLine_nil]
    simp [FenceScan.spansTo, scan]
  have hlines : (front ++ back).splitOn NEWLINE = text.splitOn NEWLINE ++ back.splitOn NEWLINE := by
    rw [append_assoc]
    exact splitOn_append_cons_self text back
  obtain ⟨hopened, hspans⟩ := @spansTo_foldl front.length (state.atLineStart.getD true) scan.spans
    (by simp [front]) scan.opened (back.splitOn NEWLINE) back.length
  have hscan : (⟨front.length, scan.spans, scan.opened⟩ : FenceScan) = scan := by rw [← hoffset]
  rw [hscan] at hopened hspans
  have hlength : (front ++ back).length = back.length + front.length := by rw [length_append, Nat.add_comm]
  simp only [second, hfirst, isSome_map]
  rw [scanFenceSpans, hlines, foldl_append, hlength, scanFenceSpans]
  refine Prod.ext hspans ?_
  dsimp only
  rw [hopened]
  cases back with
  | nil => simp [front]
  | cons u back => simp [front]

end ClawWorks.Markdown
