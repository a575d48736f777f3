import ClawWorks.Lib.Spans
import ClawWorks.Markdown.ChunkText
import Mathlib.Data.List.Sort

/-!
# Markdown as text with spans

Parsed Markdown is a text with spans of styles and of links.
-/

namespace ClawWorks.Markdown

open List Spans

/-! ## Texts with spans -/

inductive MarkdownStyle
  | bold | italic | strikethrough | code | codeBlock | spoiler | blockquote
  | heading1 | heading2 | heading3 | heading4 | heading5 | heading6
  deriving DecidableEq

/-- The place of a name in `localeCompare`. -/
def MarkdownStyle.rank : MarkdownStyle → Nat
  | .blockquote => 0
  | .bold => 1
  | .code => 2
  | .codeBlock => 3
  | .heading1 => 4
  | .heading2 => 5
  | .heading3 => 6
  | .heading4 => 7
  | .heading5 => 8
  | .heading6 => 9
  | .italic => 10
  | .spoiler => 11
  | .strikethrough => 12

/-- A style with the language of its code. -/
structure StyleLabel where
  style : MarkdownStyle
  language : Option JsString
  deriving DecidableEq

open StyleLabel

abbrev MarkdownStyleSpan := Span StyleLabel

/-- The label is the `href`. -/
abbrev MarkdownLinkSpan := Span JsString

structure MarkdownIR where
  text : JsString
  styles : List MarkdownStyleSpan
  links : List MarkdownLinkSpan
  deriving DecidableEq

/-- A language that is empty is none. -/
def StyleLabel.normal (label : StyleLabel) : StyleLabel :=
  { label with language := truthy? label.language }

def createStyleSpan (params : MarkdownStyleSpan) : MarkdownStyleSpan :=
  relabel StyleLabel.normal params

/-! ## Slices -/

/-- The comparison of `mergeStyleSpans` is not positive. -/
def sortsBefore (a b : MarkdownStyleSpan) : Prop :=
  a.start < b.start ∨
    a.start = b.start ∧ (a.stop < b.stop ∨ a.stop = b.stop ∧ a.label.style.rank ≤ b.label.style.rank)

instance : DecidableRel sortsBefore :=
  fun _ _ => inferInstanceAs (Decidable (_ ∨ _ ∧ (_ ∨ _ ∧ _)))

instance : Std.Total sortsBefore where
  total a b := by
    unfold sortsBefore
    omega

instance : IsTrans MarkdownStyleSpan sortsBefore where
  trans a b c hab hbc := by
    unfold sortsBefore at *
    omega

/-- Blockquotes that touch do not join. -/
def joinsStyle (prev span : MarkdownStyleSpan) : Bool :=
  prev.label == span.label && (span.start < prev.stop || (span.start == prev.stop && span.label.style != .blockquote))

variable (spans : List MarkdownStyleSpan)

def mergeStyleSpans : List MarkdownStyleSpan :=
  mergeRuns joinsStyle (spans.insertionSort sortsBefore)

def sliceStyleSpans (start stop : Nat) : List MarkdownStyleSpan :=
  mergeStyleSpans ((clip start stop spans).map createStyleSpan)

def sliceLinkSpans (spans : List MarkdownLinkSpan) (start stop : Nat) : List MarkdownLinkSpan :=
  clip start stop spans

variable (ir : MarkdownIR)

def sliceMarkdownIR (start stop : Nat) : MarkdownIR :=
  ⟨slice ir.text start stop, sliceStyleSpans ir.styles start stop, sliceLinkSpans ir.links start stop⟩

def placeChunks (ir : MarkdownIR) : Bool → Nat → List JsString → List MarkdownIR
  | _, _, [] => []
  | isFirst, cursor, chunk :: chunks =>
    if chunk.isEmpty then placeChunks ir false cursor chunks
    else
      let start := if isFirst then cursor else skipWhiteSpace ir.text cursor
      let stop := min ir.text.length (start + chunk.length)
      ⟨chunk, sliceStyleSpans ir.styles start stop, sliceLinkSpans ir.links start stop⟩ ::
        placeChunks ir false stop chunks

def chunkMarkdownIR (limit : Nat) : List MarkdownIR :=
  if ir.text.isEmpty then []
  else if limit = 0 || ir.text.length ≤ limit then [ir]
  else placeChunks ir true 0 (chunkText ir.text limit)

/-! ## Cells -/

/-- A unit of a text with what is said of it. -/
structure Cell where
  unit : UInt16
  styles : Set StyleLabel
  links : Set JsString
  /-- The unit is the first half of a surrogate pair, and the second half follows. -/
  paired : Prop

def cellAt (index : Nat) (unit : UInt16) : Cell where
  unit
  styles := StyleLabel.normal '' labelsAt ir.styles index
  links := labelsAt ir.links index
  paired := isHighSurrogate unit = true ∧ ir.text[index + 1]?.any isLowSurrogate = true

def cells : List Cell :=
  ir.text.mapIdx (cellAt ir)

/-- The cells that are not white space. -/
def ink : List Cell :=
  (cells ir).filter fun cell => !isWhiteSpace cell.unit

/-- Spans in the text, those of one label in order. -/
structure Tidy (ir : MarkdownIR) : Prop where
  styles : InOrder ir.styles
  links : InOrder ir.links
  stylesWithin : Within ir.text.length ir.styles
  linksWithin : Within ir.text.length ir.links

variable {ir : MarkdownIR} {start stop : Nat}

theorem StyleLabel.normal_normal (label : StyleLabel) : label.normal.normal = label.normal := by
  obtain ⟨style, language⟩ := label
  cases language with
  | none => rfl
  | some language =>
    by_cases h : Truthy language
    · simp [normal, truthy?_some h]
    · simp [normal, truthy?, h]

theorem joinsStyle_touch (a b : MarkdownStyleSpan) (h : joinsStyle a b) : a.label = b.label ∧ b.start ≤ a.stop := by
  simp only [joinsStyle, Bool.and_eq_true, beq_iff_eq, Bool.or_eq_true, decide_eq_true_eq] at h
  obtain ⟨hlabel, hbefore | ⟨htouch, -⟩⟩ := h
  · exact ⟨hlabel, by omega⟩
  · exact ⟨hlabel, by omega⟩

theorem inOrder_sorted : InOrder (spans.insertionSort sortsBefore) := by
  refine (pairwise_insertionSort sortsBefore spans).imp fun hab _ => ?_
  unfold sortsBefore at hab
  omega

theorem labelsAt_mergeStyleSpans (k : Nat) : labelsAt (mergeStyleSpans spans) k = labelsAt spans k :=
  (labelsAt_mergeRuns joinsStyle_touch (inOrder_sorted spans) k).trans
    (labelsAt_perm (perm_insertionSort sortsBefore spans) k)

theorem styles_slice {k : Nat} (h : start + k < stop) (spans : List MarkdownStyleSpan) :
    normal '' labelsAt (sliceStyleSpans spans start stop) k =
      normal '' labelsAt spans (start + k) := by
  have hcreate : (clip start stop spans).map createStyleSpan =
      (clip start stop spans).map (relabel normal) := rfl
  rw [sliceStyleSpans, labelsAt_mergeStyleSpans, hcreate, labelsAt_relabel, Set.image_image, labelsAt_clip h]
  exact Set.image_congr fun label _ => label.normal_normal

theorem tidy_sliceMarkdownIR (hlinks : InOrder ir.links) (hstop : stop ≤ ir.text.length) :
    Tidy (sliceMarkdownIR ir start stop) := by
  have hlength : (sliceMarkdownIR ir start stop).text.length = stop - start := by
    rw [sliceMarkdownIR, length_slice, min_eq_left hstop]
  refine ⟨(inOrder_sorted _).mergeRuns, hlinks.clip, ?_, ?_⟩
  · rw [hlength]
    have hwithin : Within (stop - start) ((clip start stop ir.styles).map createStyleSpan) :=
      (within_clip start stop ir.styles).relabel _
    exact (hwithin.perm (perm_insertionSort sortsBefore _).symm).mergeRuns
  · rw [hlength]
    exact within_clip start stop ir.links

theorem length_cells (ir : MarkdownIR) : (cells ir).length = ir.text.length := length_mapIdx

theorem cellAt_sliceMarkdownIR {k : Nat} {unit : UInt16} (h : start + k < stop)
    (hunit : ir.text[start + k]? = some unit) (hsafe : splitsPair ir.text stop = false) :
    cellAt (sliceMarkdownIR ir start stop) k unit = cellAt ir (start + k) unit := by
  rw [cellAt, cellAt, Cell.mk.injEq]
  refine ⟨rfl, styles_slice h ir.styles, labelsAt_clip h, propext (and_congr_right fun hhigh => ?_)⟩
  have hnext : (sliceMarkdownIR ir start stop).text[k + 1]? =
      if start + k + 1 < stop then ir.text[start + k + 1]? else none := by
    simp only [sliceMarkdownIR, slice, getElem?_drop, getElem?_take]
    rfl
  rw [hnext]
  split
  · exact Iff.rfl
  · -- the unit is the last one of the part, and the break behind it is not inside a pair
    have hlast : start + k + 1 = stop := by omega
    subst hlast
    rw [splitsPair, Nat.add_sub_cancel, hunit, Option.any_some, hhigh] at hsafe
    simp only [Nat.succ_pos, decide_true, Bool.true_and] at hsafe
    rw [hsafe]
    rfl

theorem cells_sliceMarkdownIR (ir : MarkdownIR) (start : Nat) (hsafe : splitsPair ir.text stop = false) :
    cells (sliceMarkdownIR ir start stop) = ((cells ir).take stop).drop start := by
  refine ext_getElem? fun k => ?_
  simp only [cells, getElem?_mapIdx, getElem?_drop, getElem?_take]
  have hunit : (sliceMarkdownIR ir start stop).text[k]? = if start + k < stop then ir.text[start + k]? else none := by
    simp only [sliceMarkdownIR, slice, getElem?_drop, getElem?_take]
  rw [hunit]
  split
  · rename_i hk
    cases hunit : ir.text[start + k]? with
    | none => rfl
    | some unit => exact congrArg some (cellAt_sliceMarkdownIR hk hunit hsafe)
  · rfl

/-! ## Chunks of a text with spans -/

theorem ink_sliceMarkdownIR (ir : MarkdownIR) (start : Nat) (hsafe : splitsPair ir.text stop = false) :
    ink (sliceMarkdownIR ir start stop) =
      (((cells ir).take stop).drop start).filter fun cell => !isWhiteSpace cell.unit := by
  rw [ink, cells_sliceMarkdownIR ir start hsafe]

def inkFrom (ir : MarkdownIR) (start : Nat) : List Cell :=
  ((cells ir).drop start).filter fun cell => !isWhiteSpace cell.unit

theorem inkFrom_of_length_le (h : ir.text.length ≤ start) : inkFrom ir start = [] := by
  rw [inkFrom, drop_eq_nil_of_le (by rwa [length_cells]), filter_nil]

theorem ink_slice_append (ir : MarkdownIR) (hstart : start ≤ stop) (hsafe : splitsPair ir.text stop = false) :
    ink (sliceMarkdownIR ir start stop) ++ inkFrom ir stop = inkFrom ir start := by
  rw [ink_sliceMarkdownIR ir start hsafe, inkFrom, inkFrom, ← filter_append]
  congr 1
  have hsplit : (cells ir).drop start = (((cells ir).take stop) ++ (cells ir).drop stop).drop start := by
    rw [take_append_drop]
  rw [hsplit, drop_append]
  by_cases hstop : stop ≤ (cells ir).length
  · rw [length_take, min_eq_left hstop, Nat.sub_eq_zero_of_le hstart, drop_zero]
  · rw [drop_eq_nil_of_le (by omega : (cells ir).length ≤ stop), drop_nil]

theorem units_cells (ir : MarkdownIR) : (cells ir).map (·.unit) = ir.text := by
  refine ext_getElem? fun k => ?_
  rw [cells, getElem?_map, getElem?_mapIdx, Option.map_map]
  exact congrFun Option.map_id _

theorem inkFrom_skipWhiteSpace (ir : MarkdownIR) (start : Nat) :
    inkFrom ir (skipWhiteSpace ir.text start) = inkFrom ir start := by
  have hunits : (ir.text.drop start).takeWhile isWhiteSpace =
      (((cells ir).drop start).takeWhile fun cell => isWhiteSpace cell.unit).map (·.unit) := by
    rw [← units_cells ir, ← map_drop, takeWhile_map]
    rfl
  rw [inkFrom, inkFrom, skipWhiteSpace, hunits, length_map, ← drop_drop]
  generalize (cells ir).drop start = rest
  induction rest with
  | nil => rfl
  | cons cell rest ih =>
    by_cases hcell : isWhiteSpace cell.unit
    · simp only [takeWhile_cons, hcell, if_true, length_cons, drop_succ_cons, filter_cons,
        Bool.not_true, Bool.false_eq_true, if_false]
      exact ih
    · simp only [takeWhile_cons, hcell, Bool.false_eq_true, if_false, length_nil, drop_zero]

structure ShowFrom (ir : MarkdownIR) (start : Nat) (pieces : List MarkdownIR) : Prop where
  ink : pieces.flatMap ink = inkFrom ir start
  slices : ∀ piece ∈ pieces, ∃ start stop, start < stop ∧ stop ≤ ir.text.length ∧
    piece = sliceMarkdownIR ir start stop

theorem ShowFrom.nil (h : ir.text.length ≤ start) : ShowFrom ir start [] where
  ink := (inkFrom_of_length_le h).symm
  slices := nofun

theorem ShowFrom.cons {pieces : List MarkdownIR} (hstart : start < stop) (hstop : stop ≤ ir.text.length)
    (hsafe : splitsPair ir.text stop = false) (h : ShowFrom ir stop pieces) :
    ShowFrom ir start (sliceMarkdownIR ir start stop :: pieces) where
  ink := by rw [flatMap_cons, h.ink, ink_slice_append ir hstart.le hsafe]
  slices := forall_mem_cons.mpr ⟨⟨start, stop, hstart, hstop, rfl⟩, h.slices⟩

theorem ShowFrom.of_skip {pieces : List MarkdownIR} (h : ShowFrom ir (skipWhiteSpace ir.text start) pieces) :
    ShowFrom ir start pieces where
  ink := h.ink.trans (inkFrom_skipWhiteSpace ir start)
  slices := h.slices

theorem placeChunks_slice {isFirst : Bool} {cursor : Nat} {chunks : List JsString}
    (hcursor : (if isFirst then cursor else skipWhiteSpace ir.text cursor) = start) (hstart : start < stop)
    (hstop : stop ≤ ir.text.length) :
    placeChunks ir isFirst cursor (slice ir.text start stop :: chunks) =
      sliceMarkdownIR ir start stop :: placeChunks ir false stop chunks := by
  have hlength : (slice ir.text start stop).length = stop - start := by
    rw [length_slice, min_eq_left hstop]
  have hne : ¬ (slice ir.text start stop).isEmpty := by
    rw [List.isEmpty_iff, ← List.length_eq_zero_iff, hlength]
    omega
  have hplace : min ir.text.length (start + (stop - start)) = stop := by omega
  rw [placeChunks, if_neg hne]
  dsimp only
  rw [hcursor, hlength, hplace]
  rfl

theorem showFrom_chunksFrom {limit : Nat} (hlimit : 0 < limit) (fuel : Nat) (isFirst : Bool) (cursor start : Nat)
    (hcursor : (if isFirst then cursor else skipWhiteSpace ir.text cursor) = start)
    (hfuel : ir.text.length - start ≤ fuel) :
    ShowFrom ir start (placeChunks ir isFirst cursor (chunksFrom ir.text limit fuel start)) := by
  induction fuel generalizing isFirst cursor start with
  | zero => exact ShowFrom.nil (by omega)
  | succ fuel ih =>
    unfold chunksFrom
    split
    · rename_i hend
      exact ShowFrom.nil hend
    · split
      · have hrest : ir.text.drop start = slice ir.text start ir.text.length := by
          rw [slice, take_length]
        rw [hrest, placeChunks_slice hcursor (by omega) le_rfl]
        exact ShowFrom.cons (by omega) le_rfl (splitsPair_of_length_le le_rfl) (ShowFrom.nil le_rfl)
      · obtain ⟨hlow, hhigh, hsafe⟩ := chunkEnd_spec hlimit (by omega : start < ir.text.length)
        rw [placeChunks_slice hcursor hlow hhigh]
        have hskip := le_skipWhiteSpace ir.text (chunkEnd ir.text limit start)
        have hrest := ih false (chunkEnd ir.text limit start)
          (skipWhiteSpace ir.text (chunkEnd ir.text limit start)) rfl (by omega)
        exact ShowFrom.cons hlow hhigh hsafe hrest.of_skip

theorem chunkMarkdownIR_cases {limit : Nat} (hlimit : 0 < limit) (htext : ir.text ≠ []) :
    chunkMarkdownIR ir limit = [ir] ∨ ShowFrom ir 0 (chunkMarkdownIR ir limit) := by
  unfold chunkMarkdownIR
  rw [if_neg (mt List.isEmpty_iff.mp htext)]
  split
  · exact Or.inl rfl
  · rename_i hlong
    simp only [Bool.or_eq_true, decide_eq_true_eq, not_or] at hlong
    right
    rw [chunkText, if_neg (mt List.isEmpty_iff.mp htext), if_neg hlong.1, if_neg hlong.2]
    exact showFrom_chunksFrom hlimit _ true 0 0 rfl (by omega)

end ClawWorks.Markdown
