import ClawWorks.Js.Text

/-!
# Chunks of plain text

A text is cut at readable places: before the last newline of a window, else before its last white space, else where the
window ends.
-/

namespace ClawWorks.Markdown

open Option

/-! ## Breaks -/

/-- `text.slice(start, stop)`. -/
def slice (text : JsString) (start stop : Nat) : JsString :=
  (text.take stop).drop start

def isHighSurrogate (u : UInt16) : Bool :=
  0xD800 ≤ u && u ≤ 0xDBFF

def isLowSurrogate (u : UInt16) : Bool :=
  0xDC00 ≤ u && u ≤ 0xDFFF

/-- Whether a break is between the halves of a surrogate pair. -/
def splitsPair (text : JsString) (index : Nat) : Bool :=
  0 < index && text[index - 1]?.any isHighSurrogate && text[index]?.any isLowSurrogate

def avoidTrailingHighSurrogateBreak (text : JsString) (start stop : Nat) : Nat :=
  if text.length ≤ stop || !text[stop - 1]?.any isHighSurrogate || !text[stop]?.any isLowSurrogate then stop
  else if start < stop - 1 then stop - 1
  else stop + 1

variable {text : JsString} {start stop index : Nat}

theorem not_low_of_high {u : UInt16} (h : isHighSurrogate u) : isLowSurrogate u = false := by
  simp only [isHighSurrogate, isLowSurrogate, Bool.and_eq_true, decide_eq_true_eq, Bool.and_eq_false_imp,
    decide_eq_false_iff_not] at h ⊢
  have hle := UInt16.le_iff_toNat_le.mp h.2
  intro hlow
  have := UInt16.le_iff_toNat_le.mp hlow
  simp at hle this
  omega

theorem not_surrogate_of_whiteSpace {u : UInt16} (h : isWhiteSpace u) :
    isHighSurrogate u = false ∧ isLowSurrogate u = false := by
  constructor
  · by_contra hhigh
    simp only [isHighSurrogate, isWhiteSpace, Bool.not_eq_false, Bool.and_eq_true, Bool.or_eq_true, decide_eq_true_eq,
      beq_iff_eq, UInt16.le_iff_toNat_le, ← UInt16.toNat_inj] at h hhigh
    simp at h hhigh
    omega
  · by_contra hlow
    simp only [isLowSurrogate, isWhiteSpace, Bool.not_eq_false, Bool.and_eq_true, Bool.or_eq_true, decide_eq_true_eq,
      beq_iff_eq, UInt16.le_iff_toNat_le, ← UInt16.toNat_inj] at h hlow
    simp at h hlow
    omega

theorem splitsPair_of_length_le (h : text.length ≤ index) : splitsPair text index = false := by
  rw [splitsPair, List.getElem?_eq_none h]
  simp

theorem splitsPair_of_whiteSpace {u : UInt16} (h : text[index]? = some u) (hu : isWhiteSpace u) :
    splitsPair text index = false := by
  rw [splitsPair, h, any_some, (not_surrogate_of_whiteSpace hu).2, Bool.and_false]

theorem splitsPair_behind_whiteSpace {u : UInt16} (h : text[index]? = some u) (hu : isWhiteSpace u) :
    splitsPair text (index + 1) = false := by
  rw [splitsPair, Nat.add_sub_cancel, h, any_some, (not_surrogate_of_whiteSpace hu).1, Bool.and_false, Bool.false_and]

theorem safe_avoidTrailingHighSurrogateBreak (text : JsString) (start stop : Nat) :
    splitsPair text (avoidTrailingHighSurrogateBreak text start stop) = false := by
  unfold avoidTrailingHighSurrogateBreak
  split
  · rename_i hopen
    simp only [Bool.or_eq_true, decide_eq_true_eq, Bool.not_eq_true'] at hopen
    rcases hopen with (hlength | hhigh) | hlow
    · exact splitsPair_of_length_le hlength
    · simp [splitsPair, hhigh]
    · simp [splitsPair, hlow]
  · rename_i hpair
    simp only [Bool.or_eq_true, decide_eq_true_eq, Bool.not_eq_true', not_or, Bool.not_eq_false] at hpair
    obtain ⟨⟨-, hhigh⟩, hlow⟩ := hpair
    obtain ⟨u, hu, hhigh⟩ := any_eq_true _ _ |>.mp hhigh
    obtain ⟨v, hv, hlow⟩ := any_eq_true _ _ |>.mp hlow
    split
    · rw [splitsPair, hu, any_some, not_low_of_high hhigh, Bool.and_false]
    · have hv' : isHighSurrogate v = false := by
        by_contra hhigh'
        rw [not_low_of_high (Bool.not_eq_false _ ▸ hhigh')] at hlow
        cases hlow
      rw [splitsPair, Nat.add_sub_cancel, hv, any_some, hv', Bool.and_false, Bool.false_and]

theorem avoidTrailingHighSurrogateBreak_bounds (hstart : start < stop) (hstop : stop ≤ text.length) :
    start < avoidTrailingHighSurrogateBreak text start stop ∧
      avoidTrailingHighSurrogateBreak text start stop ≤ text.length := by
  unfold avoidTrailingHighSurrogateBreak
  split
  · exact ⟨hstart, hstop⟩
  · rename_i hpair
    simp only [Bool.or_eq_true, decide_eq_true_eq, not_or] at hpair
    split
    · omega
    · omega

theorem avoidTrailingHighSurrogateBreak_of_safe (hstop : 0 < stop) (h : splitsPair text stop = false) :
    avoidTrailingHighSurrogateBreak text start stop = stop := by
  refine if_pos ?_
  simp only [splitsPair, hstop, decide_true, Bool.true_and, Bool.and_eq_false_iff] at h
  rcases h with h | h
  · simp [h]
  · simp [h]

/-! ## Chunks -/

structure Breakpoints where
  lastNewline : Option Nat
  lastWhitespace : Option Nat
  depth : Nat

/-- `(`, `)` and the newline. -/
def OPEN_PAREN : UInt16 := 40
def CLOSE_PAREN : UInt16 := 41
def NEWLINE : UInt16 := 10

def scanUnit (state : Breakpoints) (entry : UInt16 × Nat) : Breakpoints :=
  if entry.1 == OPEN_PAREN then { state with depth := state.depth + 1 }
  else if entry.1 == CLOSE_PAREN && 0 < state.depth then { state with depth := state.depth - 1 }
  else if state.depth != 0 then state
  else if entry.1 == NEWLINE then { state with lastNewline := some entry.2 }
  else if isWhiteSpace entry.1 then { state with lastWhitespace := some entry.2 }
  else state

def scanParenAwareBreakpoints (text : JsString) : Breakpoints :=
  text.zipIdx.foldl scanUnit ⟨none, none, 0⟩

def chunkEnd (text : JsString) (limit cursor : Nat) : Nat :=
  let windowEnd := min text.length (cursor + limit)
  let breakpoints := scanParenAwareBreakpoints (slice text cursor windowEnd)
  let breakOffset :=
    if breakpoints.lastNewline.any (0 < ·) then breakpoints.lastNewline else breakpoints.lastWhitespace
  avoidTrailingHighSurrogateBreak text cursor
    ((breakOffset.filter (0 < ·)).elim windowEnd fun offset => cursor + offset)

def skipWhiteSpace (text : JsString) (cursor : Nat) : Nat :=
  cursor + ((text.drop cursor).takeWhile isWhiteSpace).length

/-- The chunks from a position; every round of the loop moves on, so `fuel` is the length of the text. -/
def chunksFrom (text : JsString) (limit : Nat) : Nat → Nat → List JsString
  | 0, _ => []
  | fuel + 1, cursor =>
    if text.length ≤ cursor then []
    else if text.length - cursor ≤ limit then [text.drop cursor]
    else
      slice text cursor (chunkEnd text limit cursor) ::
        chunksFrom text limit fuel (skipWhiteSpace text (chunkEnd text limit cursor))

def chunkText (text : JsString) (limit : Nat) : List JsString :=
  if text.isEmpty then []
  else if limit = 0 then [text]
  else if text.length ≤ limit then [text]
  else chunksFrom text limit text.length 0

example : chunkText (js "one two (a b)") 9 = [js "one two", js "(a b)"] := by decide

def Breakpoints.InText (state : Breakpoints) (n : Nat) : Prop :=
  (∀ i, state.lastNewline = some i → i < n) ∧ ∀ i, state.lastWhitespace = some i → i < n

theorem scanUnit_inText {state : Breakpoints} {entry : UInt16 × Nat} {n : Nat} (h : state.InText n)
    (hentry : entry.2 < n) : (scanUnit state entry).InText n := by
  unfold scanUnit
  split_ifs
  · exact h
  · exact h
  · exact h
  · exact ⟨fun i hi => some.inj hi ▸ hentry, h.2⟩
  · exact ⟨h.1, fun i hi => some.inj hi ▸ hentry⟩
  · exact h

theorem foldl_scanUnit_inText {n : Nat} (entries : List (UInt16 × Nat)) (hentries : ∀ entry ∈ entries, entry.2 < n)
    (state : Breakpoints) (h : state.InText n) : (entries.foldl scanUnit state).InText n := by
  induction entries generalizing state with
  | nil => exact h
  | cons entry entries ih =>
    obtain ⟨hentry, hrest⟩ := List.forall_mem_cons.mp hentries
    exact ih hrest _ (scanUnit_inText h hentry)

theorem scanParenAwareBreakpoints_inText (text : JsString) : (scanParenAwareBreakpoints text).InText text.length := by
  refine foldl_scanUnit_inText _ (fun entry hentry => ?_) _ ⟨nofun, nofun⟩
  have := List.snd_lt_of_mem_zipIdx hentry
  omega

theorem length_slice (text : JsString) (start stop : Nat) :
    (slice text start stop).length = min stop text.length - start := by
  rw [slice, List.length_drop, List.length_take]

theorem exists_stop {limit cursor : Nat} (hlimit : 0 < limit) (hcursor : cursor < text.length) :
    ∃ stop, chunkEnd text limit cursor = avoidTrailingHighSurrogateBreak text cursor stop ∧
      cursor < stop ∧ stop ≤ text.length ∧ stop ≤ cursor + limit := by
  unfold chunkEnd
  dsimp only
  obtain ⟨hnewline, hwhitespace⟩ := scanParenAwareBreakpoints_inText
    (slice text cursor (min text.length (cursor + limit)))
  rw [length_slice] at hnewline hwhitespace
  generalize scanParenAwareBreakpoints _ = breakpoints at hnewline hwhitespace ⊢
  generalize hoffset : (if breakpoints.lastNewline.any (0 < ·) then breakpoints.lastNewline
    else breakpoints.lastWhitespace) = breakOffset
  have hbreak : ∀ i, breakOffset = some i → cursor + i < min text.length (cursor + limit) := by
    intro i hi
    rw [hi] at hoffset
    split at hoffset
    · have := hnewline i hoffset
      omega
    · have := hwhitespace i hoffset
      omega
  refine ⟨_, rfl, ?_⟩
  cases hfilter : breakOffset.filter (0 < ·) with
  | none =>
    rw [elim_none]
    omega
  | some offset =>
    rw [elim_some]
    obtain ⟨hsome, hpos⟩ := filter_eq_some_iff.mp hfilter
    have := hbreak offset hsome
    have := of_decide_eq_true hpos
    omega

theorem chunkEnd_spec {limit cursor : Nat} (hlimit : 0 < limit) (hcursor : cursor < text.length) :
    cursor < chunkEnd text limit cursor ∧ chunkEnd text limit cursor ≤ text.length ∧
      splitsPair text (chunkEnd text limit cursor) = false := by
  obtain ⟨stop, hstop, hlow, hhigh, -⟩ := exists_stop hlimit hcursor
  obtain ⟨hstart, hlength⟩ := avoidTrailingHighSurrogateBreak_bounds hlow hhigh
  rw [hstop]
  exact ⟨hstart, hlength, safe_avoidTrailingHighSurrogateBreak text cursor _⟩

theorem le_skipWhiteSpace (text : JsString) (cursor : Nat) : cursor ≤ skipWhiteSpace text cursor := Nat.le_add_right _ _

end ClawWorks.Markdown
