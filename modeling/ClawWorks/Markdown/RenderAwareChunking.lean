import ClawWorks.Markdown.Ir
import Mathlib.Data.Rat.Floor

/-!
# Chunks by rendered size

A text with spans is cut until every chunk renders within a limit, and chunks of white space are put back where they
fit.
-/

namespace ClawWorks.Markdown

open Option List Spans

inductive JsNumber
  | nan | negInfinity | posInfinity
  | finite (value : ℚ)
  deriving DecidableEq

/-- `number <= limit`. -/
def JsNumber.atMost : JsNumber → ℚ → Bool
  | .nan, _ => false
  | .negInfinity, _ => true
  | .posInfinity, _ => false
  | .finite value, limit => value ≤ limit

/-- `Math.max(min, Math.trunc(value))`; below zero the minimum counts. -/
def resolveIntegerOption (value : JsNumber) (fallback min : Nat) : Nat :=
  match value with
  | .finite value => max min ⌊value⌋.toNat
  | _ => fallback

structure RenderedMarkdownChunk (ρ : Type) where
  rendered : ρ
  source : MarkdownIR
  deriving DecidableEq

structure RenderResolver (ρ : Type) where
  renderChunk : MarkdownIR → ρ
  measureRendered : ρ → JsNumber

def RenderResolver.fits {ρ : Type} (options : RenderResolver ρ) (limit : ℚ) (ir : MarkdownIR) : Bool :=
  (options.measureRendered (options.renderChunk ir)).atMost limit

/-! ## Splits that keep white space -/

/-- Breaks that are not there are none. -/
structure SplitScan where
  lastOutsideParenNewlineBreak : Option Nat
  lastOutsideParenWhitespaceBreak : Option Nat
  lastOutsideParenWhitespaceRunStart : Option Nat
  lastAnyNewlineBreak : Option Nat
  lastAnyWhitespaceBreak : Option Nat
  lastAnyWhitespaceRunStart : Option Nat
  parenDepth : Nat
  sawNonWhitespace : Bool

def splitScanUnit (text : JsString) (start : Nat) (state : SplitScan) (index : Nat) : SplitScan :=
  let char := text.getD index 0
  if char == OPEN_PAREN then { state with sawNonWhitespace := true, parenDepth := state.parenDepth + 1 }
  else if char == CLOSE_PAREN && 0 < state.parenDepth then
    { state with sawNonWhitespace := true, parenDepth := state.parenDepth - 1 }
  else if !isWhiteSpace char then { state with sawNonWhitespace := true }
  else if !state.sawNonWhitespace then state
  else if char == NEWLINE then
    { state with
      lastAnyNewlineBreak := some (index + 1)
      lastOutsideParenNewlineBreak :=
        if state.parenDepth = 0 then some (index + 1) else state.lastOutsideParenNewlineBreak }
  else
    let whitespaceRunStart :=
      if index == start || !text[index - 1]?.any isWhiteSpace then some index else state.lastAnyWhitespaceRunStart
    { state with
      lastAnyWhitespaceBreak := some (index + 1)
      lastAnyWhitespaceRunStart := whitespaceRunStart
      lastOutsideParenWhitespaceBreak :=
        if state.parenDepth = 0 then some (index + 1) else state.lastOutsideParenWhitespaceBreak
      lastOutsideParenWhitespaceRunStart :=
        if state.parenDepth = 0 then whitespaceRunStart else state.lastOutsideParenWhitespaceRunStart }

def resolveWhitespaceBreak (text : JsString) (start breakIndex : Nat) (runStart : Option Nat) : Nat :=
  if breakIndex ≤ start then breakIndex
  else
    match runStart with
    | none => breakIndex
    | some runStart =>
      if runStart ≤ start then breakIndex
      else if text[breakIndex]?.any isWhiteSpace then runStart
      else breakIndex

def scanSplits (text : JsString) (start maxEnd : Nat) : SplitScan :=
  (range' start (maxEnd - start)).foldl (splitScanUnit text start) ⟨none, none, none, none, none, none, 0, false⟩

def findMarkdownIRPreservedSplitIndex (text : JsString) (start limit : Nat) : Nat :=
  let maxEnd := min text.length (start + limit)
  if text.length ≤ maxEnd then text.length
  else
    let scan := scanSplits text start maxEnd
    match scan.lastOutsideParenNewlineBreak.filter (start < ·) with
    | some newlineBreak => newlineBreak
    | none =>
      match scan.lastOutsideParenWhitespaceBreak.filter (start < ·) with
      | some whitespaceBreak =>
        resolveWhitespaceBreak text start whitespaceBreak scan.lastOutsideParenWhitespaceRunStart
      | none =>
        match scan.lastAnyNewlineBreak.filter (start < ·) with
        | some newlineBreak => newlineBreak
        | none =>
          match scan.lastAnyWhitespaceBreak.filter (start < ·) with
          | some whitespaceBreak => resolveWhitespaceBreak text start whitespaceBreak scan.lastAnyWhitespaceRunStart
          | none => avoidTrailingHighSurrogateBreak text start maxEnd

/-- The pieces from a position; every round of the loop moves on, so `fuel` is the length of the text. -/
def preservedPieces (ir : MarkdownIR) (limit : Nat) : Nat → Nat → List MarkdownIR
  | 0, _ => []
  | fuel + 1, cursor =>
    if ir.text.length ≤ cursor then []
    else
      let stop := findMarkdownIRPreservedSplitIndex ir.text cursor limit
      sliceMarkdownIR ir cursor stop :: preservedPieces ir limit fuel stop

def splitMarkdownIRPreserveWhitespace (ir : MarkdownIR) (limit : Nat) : List MarkdownIR :=
  if ir.text.isEmpty then []
  else
    let normalizedLimit := max 1 limit
    if ir.text.length ≤ normalizedLimit then [ir] else preservedPieces ir normalizedLimit ir.text.length 0

section

variable {ρ : Type} (options : RenderResolver ρ) (renderedLimit : Nat)

/-- The longest start that fits, tested from longest to shortest; none is zero. -/
def findLargestChunkTextLengthWithinRenderedLimit (chunk : MarkdownIR) : Nat :=
  if chunk.text.length ≤ 1 then chunk.text.length
  else
    (((range' 1 (chunk.text.length - 1)).reverse.map (avoidTrailingHighSurrogateBreak chunk.text 0)).find?
      fun safeCandidateLength => options.fits renderedLimit (sliceMarkdownIR chunk 0 safeCandidateLength)).getD 0

def splitMarkdownIRByRenderedLimit (chunk : MarkdownIR) : List MarkdownIR :=
  if chunk.text.length ≤ 1 then [chunk]
  else
    let splitLimit := findLargestChunkTextLengthWithinRenderedLimit options renderedLimit chunk
    if splitLimit = 0 then [chunk]
    else
      let split := splitMarkdownIRPreserveWhitespace chunk splitLimit
      if split.head?.any (options.fits renderedLimit) then split
      else [sliceMarkdownIR chunk 0 splitLimit, sliceMarkdownIR chunk splitLimit chunk.text.length]

/-- The loop over the pending chunks, the next one first; without fuel the chunks are none. -/
def resolvePending : Nat → List MarkdownIR → Option (List MarkdownIR)
  | _, [] => some []
  | 0, _ :: _ => none
  | fuel + 1, chunk :: pending =>
    if options.fits renderedLimit chunk || chunk.text.length ≤ 1 then
      (resolvePending fuel pending).map (chunk :: ·)
    else
      let split := splitMarkdownIRByRenderedLimit options renderedLimit chunk
      if split.length ≤ 1 then (resolvePending fuel pending).map (chunk :: ·)
      else resolvePending fuel (split ++ pending)

/-! ## White space between chunks -/

def joinsAdjacentStyle (last span : MarkdownStyleSpan) : Bool :=
  last.label == span.label && span.start ≤ last.stop

def mergeAdjacentStyleSpans (styles : List MarkdownStyleSpan) : List MarkdownStyleSpan :=
  mergeRuns joinsAdjacentStyle styles

def joinsAdjacentLink (last link : MarkdownLinkSpan) : Bool :=
  last.label == link.label && link.start ≤ last.stop

def mergeAdjacentLinkSpans (links : List MarkdownLinkSpan) : List MarkdownLinkSpan :=
  mergeRuns joinsAdjacentLink links

def mergeMarkdownIRChunks (left right : MarkdownIR) : MarkdownIR :=
  let offset := left.text.length
  ⟨left.text ++ right.text, mergeAdjacentStyleSpans (left.styles ++ shift offset right.styles),
    mergeAdjacentLinkSpans (left.links ++ shift offset right.links)⟩

/-- White space split between its neighbours, as far as both still fit. -/
def splitBetween (prev chunk next : MarkdownIR) : Option (MarkdownIR × MarkdownIR) :=
  ((range' 1 (chunk.text.length - 1)).reverse.map fun prefixLength =>
    (mergeMarkdownIRChunks prev (sliceMarkdownIR chunk 0 prefixLength),
      mergeMarkdownIRChunks (sliceMarkdownIR chunk prefixLength chunk.text.length) next)).find? fun merged =>
        options.fits renderedLimit merged.1 && options.fits renderedLimit merged.2

def coalesceChunk (coalesced : List MarkdownIR) (chunk : MarkdownIR) (next : Option MarkdownIR) :
    List MarkdownIR × Option MarkdownIR :=
  if 0 < (trim chunk.text).length then (coalesced ++ [chunk], next)
  else
    let prev := coalesced.getLast?
    match (prev.map (mergeMarkdownIRChunks · chunk)).filter (options.fits renderedLimit) with
    | some mergedPrev => (coalesced.dropLast ++ [mergedPrev], next)
    | none =>
      match (next.map (mergeMarkdownIRChunks chunk ·)).filter (options.fits renderedLimit) with
      | some mergedNext => (coalesced, some mergedNext)
      | none =>
        match prev, next with
        | some prev, some next =>
          match splitBetween options renderedLimit prev chunk next with
          | some (mergedPrev, mergedNext) => (coalesced.dropLast ++ [mergedPrev], some mergedNext)
          | none => (coalesced, some next)
        | _, _ => (coalesced, next)

def coalesceFrom (coalesced : List MarkdownIR) (chunk : MarkdownIR) : List MarkdownIR → List MarkdownIR
  | [] => (coalesceChunk options renderedLimit coalesced chunk none).1
  | next :: rest =>
    let round := coalesceChunk options renderedLimit coalesced chunk (some next)
    coalesceFrom round.1 (round.2.getD next) rest

def coalesceWhitespaceOnlyMarkdownIRChunks : List MarkdownIR → List MarkdownIR
  | [] => []
  | chunk :: rest => coalesceFrom options renderedLimit [] chunk rest

end

/-- **The chunks of a text within a limit.** Without enough rounds of the loop over pending chunks there are none. -/
def renderMarkdownIRChunksWithinLimit {ρ : Type} (fuel : Nat) (options : RenderResolver ρ) (ir : MarkdownIR)
    (limit : JsNumber) : Option (List (RenderedMarkdownChunk ρ)) :=
  if ir.text.isEmpty then some []
  else if limit = .posInfinity then some [⟨options.renderChunk ir, ir⟩]
  else
    let normalizedLimit := resolveIntegerOption limit 1 1
    (resolvePending options normalizedLimit fuel (chunkMarkdownIR ir normalizedLimit)).map fun finalized =>
      (coalesceWhitespaceOnlyMarkdownIRChunks options normalizedLimit finalized).map fun source =>
        ⟨options.renderChunk source, source⟩

/-! ## Breaks between pieces -/

section

variable {text : JsString} {start stop index limit : Nat} {scan : SplitScan}

theorem isWhiteSpace_getD (h : isWhiteSpace (text.getD index 0)) :
    ∃ unit, text[index]? = some unit ∧ isWhiteSpace unit := by
  rw [getD_eq_getElem?_getD] at h
  cases hunit : text[index]? with
  | none =>
    rw [hunit] at h
    cases h
  | some unit =>
    rw [hunit] at h
    exact ⟨unit, rfl, h⟩

/-- What is remembered of a scan are breaks in the window that are not inside a pair. -/
structure SplitScan.Safe (text : JsString) (start stop : Nat) (scan : SplitScan) : Prop where
  breaks : ∀ b, scan.lastOutsideParenNewlineBreak = some b ∨ scan.lastOutsideParenWhitespaceBreak = some b ∨
    scan.lastAnyNewlineBreak = some b ∨ scan.lastAnyWhitespaceBreak = some b →
      start < b ∧ b ≤ stop ∧ splitsPair text b = false
  runs : ∀ r, scan.lastOutsideParenWhitespaceRunStart = some r ∨ scan.lastAnyWhitespaceRunStart = some r →
    r ≤ stop ∧ splitsPair text r = false

theorem splitScanUnit_safe (h : scan.Safe text start stop) (hstart : start ≤ index) (hstop : index < stop) :
    (splitScanUnit text start scan index).Safe text start stop := by
  unfold splitScanUnit
  dsimp only
  split
  · exact ⟨h.breaks, h.runs⟩
  split
  · exact ⟨h.breaks, h.runs⟩
  split
  · exact ⟨h.breaks, h.runs⟩
  rename_i hwhite
  rw [Bool.not_eq_true', Bool.not_eq_false] at hwhite
  obtain ⟨unit, hunit, hwhite⟩ := isWhiteSpace_getD hwhite
  have hbreak : start < index + 1 ∧ index + 1 ≤ stop ∧ splitsPair text (index + 1) = false :=
    ⟨by omega, by omega, splitsPair_behind_whiteSpace hunit hwhite⟩
  have hrun : index ≤ stop ∧ splitsPair text index = false := ⟨by omega, splitsPair_of_whiteSpace hunit hwhite⟩
  split
  · exact h
  split
  · refine ⟨fun b hb => ?_, h.runs⟩
    rcases hb with hb | hb | hb | hb
    · split at hb
      · exact some.inj hb ▸ hbreak
      · exact h.breaks b (.inl hb)
    · exact h.breaks b (.inr (.inl hb))
    · exact some.inj hb ▸ hbreak
    · exact h.breaks b (.inr (.inr (.inr hb)))
  · have hrunStart : ∀ r, (if index == start || !text[index - 1]?.any isWhiteSpace then some index
        else scan.lastAnyWhitespaceRunStart) = some r → r ≤ stop ∧ splitsPair text r = false := by
      intro r hr
      split at hr
      · exact some.inj hr ▸ hrun
      · exact h.runs r (.inr hr)
    refine ⟨fun b hb => ?_, fun r hr => ?_⟩
    · rcases hb with hb | hb | hb | hb
      · exact h.breaks b (.inl hb)
      · dsimp only at hb
        split at hb
        · exact some.inj hb ▸ hbreak
        · exact h.breaks b (.inr (.inl hb))
      · exact h.breaks b (.inr (.inr (.inl hb)))
      · exact some.inj hb ▸ hbreak
    · rcases hr with hr | hr
      · dsimp only at hr
        split at hr
        · exact hrunStart r hr
        · exact h.runs r (.inl hr)
      · exact hrunStart r hr

theorem foldl_splitScanUnit_safe (indices : List Nat) (hindices : ∀ index ∈ indices, start ≤ index ∧ index < stop)
    (scan : SplitScan) (h : scan.Safe text start stop) :
    (indices.foldl (splitScanUnit text start) scan).Safe text start stop := by
  induction indices generalizing scan with
  | nil => exact h
  | cons index indices ih =>
    obtain ⟨⟨hstart, hstop⟩, hrest⟩ := forall_mem_cons.mp hindices
    exact ih hrest _ (splitScanUnit_safe h hstart hstop)

theorem scanSplits_safe (text : JsString) (start stop : Nat) : (scanSplits text start stop).Safe text start stop := by
  refine foldl_splitScanUnit_safe _ (fun index hindex => ?_) _ ⟨fun b hb => ?_, fun r hr => ?_⟩
  · have := mem_range'_1.mp hindex
    omega
  · rcases hb with hb | hb | hb | hb <;> cases hb
  · rcases hr with hr | hr <;> cases hr

theorem resolveWhitespaceBreak_safe {breakIndex : Nat} {runStart : Option Nat}
    (hbreak : start < breakIndex ∧ breakIndex ≤ stop ∧ splitsPair text breakIndex = false)
    (hrun : ∀ r, runStart = some r → r ≤ stop ∧ splitsPair text r = false) :
    start < resolveWhitespaceBreak text start breakIndex runStart ∧
      resolveWhitespaceBreak text start breakIndex runStart ≤ stop ∧
      splitsPair text (resolveWhitespaceBreak text start breakIndex runStart) = false := by
  unfold resolveWhitespaceBreak
  split
  · exact hbreak
  split
  · exact hbreak
  rename_i r
  split
  · exact hbreak
  · split
    · exact ⟨by omega, hrun r rfl⟩
    · exact hbreak

/-- **A piece is not empty and ends at a break that is not inside a pair**, in its window or where a pair makes room. -/
theorem findMarkdownIRPreservedSplitIndex_spec (hlimit : 0 < limit) (hstart : start < text.length) :
    start < findMarkdownIRPreservedSplitIndex text start limit ∧
      findMarkdownIRPreservedSplitIndex text start limit ≤ text.length ∧
      splitsPair text (findMarkdownIRPreservedSplitIndex text start limit) = false ∧
      (start + limit < text.length → splitsPair text (start + limit) = false →
        findMarkdownIRPreservedSplitIndex text start limit ≤ start + limit) := by
  unfold findMarkdownIRPreservedSplitIndex
  dsimp only
  split
  · rename_i hend
    exact ⟨hstart, le_rfl, splitsPair_of_length_le le_rfl, fun _ _ => by omega⟩
  · rename_i hend
    have hmax : min text.length (start + limit) = start + limit := by omega
    rw [hmax]
    obtain ⟨hbreaks, hruns⟩ := scanSplits_safe text start (start + limit)
    -- a break of the window has all that is asked of a break
    have hwindow : ∀ b, start < b ∧ b ≤ start + limit ∧ splitsPair text b = false →
        start < b ∧ b ≤ text.length ∧ splitsPair text b = false ∧
          (start + limit < text.length → splitsPair text (start + limit) = false → b ≤ start + limit) :=
      fun b hb => ⟨hb.1, by omega, hb.2.2, fun _ _ => hb.2.1⟩
    split
    · rename_i hfound
      exact hwindow _ (hbreaks _ (.inl (filter_eq_some_iff.mp hfound).1))
    · split
      · rename_i hfound
        have hbreak := hbreaks _ (.inr (.inl (filter_eq_some_iff.mp hfound).1))
        exact hwindow _ (resolveWhitespaceBreak_safe hbreak fun r hr => hruns r (.inl hr))
      · split
        · rename_i hfound
          exact hwindow _ (hbreaks _ (.inr (.inr (.inl (filter_eq_some_iff.mp hfound).1))))
        · split
          · rename_i hfound
            have hbreak := hbreaks _ (.inr (.inr (.inr (filter_eq_some_iff.mp hfound).1)))
            exact hwindow _ (resolveWhitespaceBreak_safe hbreak fun r hr => hruns r (.inr hr))
          · obtain ⟨hlow, hhigh⟩ := avoidTrailingHighSurrogateBreak_bounds (by omega : start < start + limit)
              (by omega : start + limit ≤ text.length)
            refine ⟨hlow, hhigh, safe_avoidTrailingHighSurrogateBreak text start _, fun _ hsafe => ?_⟩
            rw [avoidTrailingHighSurrogateBreak_of_safe (by omega) hsafe]

end

/-! ## Splits -/

section

variable {ρ : Type} {options : RenderResolver ρ} {renderedLimit : Nat} {chunk : MarkdownIR}

/-- No start of a text that ends at a break fits, but perhaps the whole text. -/
def NoStartFits (options : RenderResolver ρ) (limit : ℚ) (ir : MarkdownIR) : Prop :=
  ∀ stop, 0 < stop → stop < ir.text.length → splitsPair ir.text stop = false →
    options.fits limit (sliceMarkdownIR ir 0 stop) = false

/-- What is left to do for a chunk: nothing more when it fits. -/
def weight (options : RenderResolver ρ) (renderedLimit : Nat) (ir : MarkdownIR) : Nat :=
  if options.fits renderedLimit ir then 1 else max 1 (4 * ir.text.length - 2)

def totalWeight (options : RenderResolver ρ) (renderedLimit : Nat) (pieces : List MarkdownIR) : Nat :=
  (pieces.map (weight options renderedLimit)).sum

theorem weight_pos (options : RenderResolver ρ) (renderedLimit : Nat) (ir : MarkdownIR) :
    0 < weight options renderedLimit ir := by
  unfold weight
  split <;> omega

variable {ir : MarkdownIR}

theorem weight_le (options : RenderResolver ρ) (renderedLimit : Nat) (h : 0 < ir.text.length) :
    weight options renderedLimit ir + 2 ≤ 4 * ir.text.length := by
  unfold weight
  split <;> omega

theorem length_sliceMarkdownIR {start stop : Nat} (hstop : stop ≤ ir.text.length) :
    (sliceMarkdownIR ir start stop).text.length = stop - start := by
  rw [sliceMarkdownIR, length_slice, min_eq_left hstop]

theorem showFrom_preservedPieces {limit : Nat} (hlimit : 0 < limit) (fuel cursor : Nat)
    (hfuel : ir.text.length - cursor ≤ fuel) : ShowFrom ir cursor (preservedPieces ir limit fuel cursor) := by
  induction fuel generalizing cursor with
  | zero => exact ShowFrom.nil (by omega)
  | succ fuel ih =>
    unfold preservedPieces
    split
    · rename_i hend
      exact ShowFrom.nil hend
    · obtain ⟨hlow, hhigh, hsafe, -⟩ :=
        findMarkdownIRPreservedSplitIndex_spec hlimit (by omega : cursor < ir.text.length)
      exact ShowFrom.cons hlow hhigh hsafe (ih _ (by omega))

theorem totalWeight_preservedPieces (options : RenderResolver ρ) (renderedLimit : Nat) (ir : MarkdownIR) {limit : Nat}
    (hlimit : 0 < limit) (fuel cursor : Nat) :
    totalWeight options renderedLimit (preservedPieces ir limit fuel cursor) +
      2 * (preservedPieces ir limit fuel cursor).length ≤ 4 * (ir.text.length - cursor) := by
  induction fuel generalizing cursor with
  | zero => exact Nat.zero_le _
  | succ fuel ih =>
    unfold preservedPieces
    split
    · exact Nat.zero_le _
    obtain ⟨hlow, hhigh, -, -⟩ := findMarkdownIRPreservedSplitIndex_spec hlimit (by omega : cursor < ir.text.length)
    have hrest := ih (findMarkdownIRPreservedSplitIndex ir.text cursor limit)
    have hpiece := weight_le options renderedLimit (by rw [length_sliceMarkdownIR hhigh]; omega :
        0 < (sliceMarkdownIR ir cursor (findMarkdownIRPreservedSplitIndex ir.text cursor limit)).text.length)
    rw [length_sliceMarkdownIR hhigh] at hpiece
    simp only [totalWeight, map_cons, sum_cons, length_cons] at hrest ⊢
    omega

theorem two_le_length_preservedPieces {limit : Nat} (hlimit : 0 < limit)
    (hinside : limit < ir.text.length) (hsafe : splitsPair ir.text limit = false) :
    2 ≤ (preservedPieces ir limit ir.text.length 0).length := by
  obtain ⟨-, -, -, hfirst⟩ := findMarkdownIRPreservedSplitIndex_spec hlimit (by omega : 0 < ir.text.length)
  rw [Nat.zero_add] at hfirst
  have hstop := hfirst hinside hsafe
  obtain ⟨fuel, hfuel⟩ : ∃ fuel, ir.text.length = fuel + 2 := ⟨ir.text.length - 2, by omega⟩
  rw [hfuel, preservedPieces, if_neg (by omega)]
  dsimp only
  rw [preservedPieces, if_neg (by omega)]
  simp only [length_cons]
  omega

theorem findLargest_cases (options : RenderResolver ρ) (renderedLimit : Nat) (hlength : 1 < chunk.text.length) :
    (findLargestChunkTextLengthWithinRenderedLimit options renderedLimit chunk = 0 ∧
      NoStartFits options renderedLimit chunk) ∨
    ∃ splitLimit, findLargestChunkTextLengthWithinRenderedLimit options renderedLimit chunk = splitLimit ∧
      0 < splitLimit ∧ splitLimit ≤ chunk.text.length ∧ splitsPair chunk.text splitLimit = false ∧
      options.fits renderedLimit (sliceMarkdownIR chunk 0 splitLimit) := by
  unfold findLargestChunkTextLengthWithinRenderedLimit
  rw [if_neg (by omega)]
  cases hfound : ((range' 1 (chunk.text.length - 1)).reverse.map (avoidTrailingHighSurrogateBreak chunk.text 0)).find?
        fun safeCandidateLength => options.fits renderedLimit (sliceMarkdownIR chunk 0 safeCandidateLength) with
  | none =>
    refine .inl ⟨rfl, fun stop hpos hstop hsafe => ?_⟩
    have hcandidate : avoidTrailingHighSurrogateBreak chunk.text 0 stop ∈
        (range' 1 (chunk.text.length - 1)).reverse.map (avoidTrailingHighSurrogateBreak chunk.text 0) :=
      mem_map_of_mem (mem_reverse.mpr (mem_range'_1.mpr ⟨hpos, by omega⟩))
    have hnone := find?_eq_none.mp hfound _ hcandidate
    rw [avoidTrailingHighSurrogateBreak_of_safe hpos hsafe] at hnone
    exact Bool.eq_false_iff.mpr hnone
  | some splitLimit =>
    refine .inr ⟨splitLimit, rfl, ?_⟩
    obtain ⟨stop, hstop, rfl⟩ := mem_map.mp (mem_of_find?_eq_some hfound)
    have hrange := mem_range'_1.mp (mem_reverse.mp hstop)
    obtain ⟨hlow, hhigh⟩ := avoidTrailingHighSurrogateBreak_bounds (by omega : 0 < stop)
      (by omega : stop ≤ chunk.text.length)
    have hfits := find?_some hfound
    exact ⟨hlow, hhigh, safe_avoidTrailingHighSurrogateBreak _ _ _, hfits⟩

/-- Pieces of a chunk that are less work than the chunk. -/
structure SplitInto (options : RenderResolver ρ) (renderedLimit : Nat) (chunk : MarkdownIR) (split : List MarkdownIR) :
    Prop where
  two_le : 2 ≤ split.length
  ink : split.flatMap ink = ink chunk
  tidy : InOrder chunk.links → ∀ piece ∈ split, Tidy piece
  lighter : totalWeight options renderedLimit split < weight options renderedLimit chunk

theorem splitInto_preservedPieces {limit : Nat} (hlimit : 0 < limit) (hinside : limit < chunk.text.length)
    (hsafe : splitsPair chunk.text limit = false) (hfits : options.fits renderedLimit chunk = false) :
    SplitInto options renderedLimit chunk (preservedPieces chunk limit chunk.text.length 0) := by
  have hshow := showFrom_preservedPieces hlimit chunk.text.length 0 (Nat.sub_le _ _)
  have htwo := two_le_length_preservedPieces hlimit hinside hsafe
  refine ⟨htwo, hshow.ink, fun hlinks piece hpiece => ?_, ?_⟩
  · obtain ⟨start, stop, -, hstop, rfl⟩ := hshow.slices piece hpiece
    exact tidy_sliceMarkdownIR hlinks hstop
  · have hweight := totalWeight_preservedPieces options renderedLimit chunk hlimit chunk.text.length 0
    rw [weight, hfits]
    simp only [Bool.false_eq_true, if_false]
    omega

theorem splitInto_halves {splitLimit : Nat} (hlength : 1 < chunk.text.length) (hpos : 0 < splitLimit)
    (hstop : splitLimit ≤ chunk.text.length) (hsafe : splitsPair chunk.text splitLimit = false)
    (hstart : options.fits renderedLimit (sliceMarkdownIR chunk 0 splitLimit))
    (hfits : options.fits renderedLimit chunk = false) :
    SplitInto options renderedLimit chunk
      [sliceMarkdownIR chunk 0 splitLimit, sliceMarkdownIR chunk splitLimit chunk.text.length] := by
  refine ⟨le_rfl, ?_, fun hlinks => ?_, ?_⟩
  · have hrest := ink_slice_append chunk hstop (splitsPair_of_length_le le_rfl)
    rw [inkFrom_of_length_le le_rfl, append_nil] at hrest
    rw [flatMap_cons, flatMap_singleton, hrest, ink_slice_append chunk hpos.le hsafe]
    rfl
  · simp only [forall_mem_cons, not_mem_nil, false_imp_iff, implies_true, and_true]
    exact ⟨tidy_sliceMarkdownIR hlinks hstop, tidy_sliceMarkdownIR hlinks le_rfl⟩
  · have hrest : weight options renderedLimit (sliceMarkdownIR chunk splitLimit chunk.text.length) ≤
        max 1 (4 * (chunk.text.length - splitLimit) - 2) := by
      unfold weight
      rw [length_sliceMarkdownIR le_rfl]
      split <;> omega
    have hfirst : weight options renderedLimit (sliceMarkdownIR chunk 0 splitLimit) = 1 := if_pos hstart
    have hchunk : weight options renderedLimit chunk = max 1 (4 * chunk.text.length - 2) :=
      if_neg (Bool.eq_false_iff.mp hfits)
    simp only [totalWeight, map_cons, map_nil, sum_cons, sum_nil]
    omega

/-- **A chunk that does not fit is split into lighter pieces, or no start of it fits.** -/
theorem splitMarkdownIRByRenderedLimit_cases (hlength : 1 < chunk.text.length)
    (hfits : options.fits renderedLimit chunk = false) :
    (splitMarkdownIRByRenderedLimit options renderedLimit chunk = [chunk] ∧ NoStartFits options renderedLimit chunk) ∨
      SplitInto options renderedLimit chunk (splitMarkdownIRByRenderedLimit options renderedLimit chunk) := by
  unfold splitMarkdownIRByRenderedLimit
  rw [if_neg (by omega)]
  dsimp only
  rcases findLargest_cases options renderedLimit hlength with
    ⟨hzero, hnone⟩ | ⟨splitLimit, heq, hpos, hstop, hsafe, hstart⟩
  · rw [if_pos hzero]
    exact .inl ⟨rfl, hnone⟩
  · rw [heq, if_neg hpos.ne']
    right
    split
    · rename_i hfirst
      have hmax : max 1 splitLimit = splitLimit := by omega
      have hempty : ¬ chunk.text.isEmpty := by
        rw [List.isEmpty_iff, ← List.length_eq_zero_iff]
        omega
      unfold splitMarkdownIRPreserveWhitespace at hfirst ⊢
      rw [if_neg hempty] at hfirst ⊢
      dsimp only at hfirst ⊢
      rw [hmax] at hfirst ⊢
      split at hfirst
      · -- the whole chunk is the only piece, and it does not fit
        rw [head?_cons, any_some, hfits] at hfirst
        cases hfirst
      · rename_i hlong
        rw [if_neg hlong]
        exact splitInto_preservedPieces hpos (by omega) hsafe hfits
    · exact splitInto_halves hlength hpos hstop hsafe hstart hfits

end

end ClawWorks.Markdown
