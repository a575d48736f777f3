import ClawWorks.Markdown.ChunkText

/-!
# What the chunks of a text keep
-/

namespace ClawWorks.Markdown

open List

variable {text : JsString} {limit cursor fuel : Nat}

/-- Where a chunk of a text is, and where the next one begins. -/
structure Piece where
  start : Nat
  stop : Nat
  next : Nat

/-- The text of a chunk. -/
def Piece.chunk (text : JsString) (piece : Piece) : JsString :=
  slice text piece.start piece.stop

/-- What is left out behind a chunk. -/
def Piece.gap (text : JsString) (piece : Piece) : JsString :=
  slice text piece.stop piece.next

/-- A chunk of a text: it is not empty, its ends are not inside surrogate pairs, only white space is left out behind it,
and it is within the limit, or one surrogate pair where the limit is one unit. -/
structure Piece.Sound (text : JsString) (limit : Nat) (piece : Piece) : Prop where
  nonempty : piece.start < piece.stop
  inText : piece.stop ≤ piece.next ∧ piece.next ≤ text.length
  safe : splitsPair text piece.start = false ∧ splitsPair text piece.stop = false
  gap : ∀ u ∈ piece.gap text, isWhiteSpace u = true
  length : piece.stop - piece.start ≤ limit ∨
    limit = 1 ∧ piece.stop = piece.start + 2 ∧ text[piece.start]?.any isHighSurrogate = true ∧
      text[piece.start + 1]?.any isLowSurrogate = true

def Covering (text : JsString) (limit : Nat) : Nat → List Piece → Prop
  | cursor, [] => cursor = text.length
  | cursor, piece :: pieces => piece.start = cursor ∧ piece.Sound text limit ∧ Covering text limit piece.next pieces

theorem skipWhiteSpace_le (h : cursor ≤ text.length) : skipWhiteSpace text cursor ≤ text.length := by
  have hprefix := ( takeWhile_prefix isWhiteSpace (l := text.drop cursor)).length_le
  rw [length_drop] at hprefix
  rw [skipWhiteSpace]
  omega

theorem slice_skipWhiteSpace (text : JsString) (cursor : Nat) :
    slice text cursor (skipWhiteSpace text cursor) = (text.drop cursor).takeWhile isWhiteSpace := by
  rw [slice, skipWhiteSpace, ← take_drop]
  exact (prefix_iff_eq_take.mp ( takeWhile_prefix _)).symm

theorem safe_skipWhiteSpace (h : splitsPair text cursor = false) :
    splitsPair text (skipWhiteSpace text cursor) = false := by
  by_contra hsplit
  rw [Bool.not_eq_false] at hsplit
  have hpos : 0 < ((text.drop cursor).takeWhile isWhiteSpace).length := by
    by_contra hzero
    rw [skipWhiteSpace, Nat.eq_zero_of_not_pos hzero, Nat.add_zero, h] at hsplit
    cases hsplit
  obtain ⟨n, hn⟩ := Nat.exists_eq_succ_of_ne_zero hpos.ne'
  have hlast : ((text.drop cursor).takeWhile isWhiteSpace)[n]? = text[cursor + n]? := by
    rw [prefix_iff_eq_take.mp ( takeWhile_prefix isWhiteSpace (l := text.drop cursor)), hn,
      getElem?_take_of_lt (Nat.lt_succ_self n), getElem?_drop]
  have hlt : n < ((text.drop cursor).takeWhile isWhiteSpace).length := hn ▸ Nat.lt_succ_self n
  rw [getElem?_eq_getElem hlt] at hlast
  have hspace := mem_takeWhile_imp (getElem_mem hlt)
  have hsafe := splitsPair_behind_whiteSpace hlast.symm hspace
  rw [skipWhiteSpace, hn, Nat.succ_eq_add_one, ← Nat.add_assoc, hsafe] at hsplit
  cases hsplit

theorem chunkEnd_within (hlimit : 0 < limit) (hcursor : cursor < text.length) :
    chunkEnd text limit cursor - cursor ≤ limit ∨
      limit = 1 ∧ chunkEnd text limit cursor = cursor + 2 ∧ text[cursor]?.any isHighSurrogate ∧
        text[cursor + 1]?.any isLowSurrogate := by
  obtain ⟨stop, hstop, hlow, -, hwithin⟩ := exists_stop hlimit hcursor
  rw [hstop, avoidTrailingHighSurrogateBreak]
  split
  · omega
  rename_i hpair
  simp only [Bool.or_eq_true, decide_eq_true_eq, Bool.not_eq_true', not_or, Bool.not_eq_false] at hpair
  obtain ⟨⟨-, hhigh⟩, hlowUnit⟩ := hpair
  split
  · omega
  · obtain rfl : stop = cursor + 1 := by omega
    rw [Nat.add_sub_cancel] at hhigh
    rcases Nat.lt_or_ge 1 limit with hmore | hone
    · omega
    · exact Or.inr ⟨by omega, rfl, hhigh, hlowUnit⟩

theorem chunksFrom_fuel (hlimit : 0 < limit) {fuel' : Nat} (hfuel : text.length - cursor ≤ fuel)
    (hfuel' : text.length - cursor ≤ fuel') :
    chunksFrom text limit fuel cursor = chunksFrom text limit fuel' cursor := by
  induction fuel generalizing cursor fuel' with
  | zero =>
    cases fuel' with
    | zero => rfl
    | succ fuel' => rw [chunksFrom, chunksFrom, if_pos (by omega)]
  | succ fuel ih =>
    cases fuel' with
    | zero => rw [chunksFrom, chunksFrom, if_pos (by omega)]
    | succ fuel' =>
      rw [chunksFrom, chunksFrom]
      split
      · rfl
      rename_i hopen
      have hnext := (chunkEnd_spec hlimit (Nat.lt_of_not_le hopen)).1.trans_le
        (le_skipWhiteSpace text (chunkEnd text limit cursor))
      have hrest : chunksFrom text limit fuel (skipWhiteSpace text (chunkEnd text limit cursor)) =
          chunksFrom text limit fuel' (skipWhiteSpace text (chunkEnd text limit cursor)) :=
        ih (by omega) (by omega)
      rw [hrest]

theorem chunksFrom_covering (hlimit : 0 < limit) (hcursor : cursor ≤ text.length)
    (hsafe : splitsPair text cursor = false) (hfuel : text.length - cursor ≤ fuel) :
    ∃ pieces : List Piece, chunksFrom text limit fuel cursor = pieces.map (Piece.chunk text) ∧
      Covering text limit cursor pieces := by
  induction fuel generalizing cursor with
  | zero => exact ⟨[], rfl, by rw [Covering]; omega⟩
  | succ fuel ih =>
    rw [chunksFrom]
    split
    · exact ⟨[], rfl, by rw [Covering]; omega⟩
    rename_i hopen
    split
    · rename_i hlast
      refine ⟨[⟨cursor, text.length, text.length⟩], ?_, rfl, ⟨Nat.lt_of_not_le hopen, ⟨le_rfl, le_rfl⟩,
        ⟨hsafe, splitsPair_of_length_le le_rfl⟩, ?_, Or.inl hlast⟩, rfl⟩
      · rw [map_singleton, Piece.chunk, slice, take_length]
      · rw [Piece.gap, slice, take_length, drop_length]
        exact forall_mem_nil _
    · obtain ⟨hstart, hstop, hsafeStop⟩ := chunkEnd_spec hlimit (Nat.lt_of_not_le hopen)
      have hnext := le_skipWhiteSpace text (chunkEnd text limit cursor)
      have hnextLength := skipWhiteSpace_le hstop
      obtain ⟨pieces, hchunks, hcovering⟩ := ih hnextLength (safe_skipWhiteSpace hsafeStop) (by omega)
      refine ⟨⟨cursor, chunkEnd text limit cursor, skipWhiteSpace text (chunkEnd text limit cursor)⟩ :: pieces,
        by rw [hchunks]; rfl, rfl, ⟨hstart, ⟨hnext, hnextLength⟩, ⟨hsafe, hsafeStop⟩, fun u hu => ?_,
          chunkEnd_within hlimit (Nat.lt_of_not_le hopen)⟩, hcovering⟩
      rw [Piece.gap, slice_skipWhiteSpace] at hu
      exact mem_takeWhile_imp hu

theorem slice_append_drop {start stop : Nat} (h : start ≤ stop) (hstop : stop ≤ text.length) :
    slice text start stop ++ text.drop stop = text.drop start := by
  rw [slice, ← drop_append_of_le_length (by rw [length_take]; omega), take_append_drop]

theorem Covering.drop_eq {pieces : List Piece} (h : Covering text limit cursor pieces) :
    text.drop cursor = pieces.flatMap fun piece => piece.chunk text ++ piece.gap text := by
  induction pieces generalizing cursor with
  | nil =>
    rw [Covering] at h
    rw [h, drop_length]
    rfl
  | cons piece pieces ih =>
    obtain ⟨rfl, hsound, hrest⟩ := h
    rw [flatMap_cons, ← ih hrest, Piece.chunk, Piece.gap, append_assoc,
      slice_append_drop hsound.inText.1 hsound.inText.2,
      slice_append_drop hsound.nonempty.le (hsound.inText.1.trans hsound.inText.2)]

/-- **What the chunks of a text keep.** The loop ends; its chunks are within the limit, but for a surrogate pair under a
limit of one, and no end of one is inside a pair; and put together again with white space between them they are the
text. -/
theorem chunkText_lossless (text : JsString) (hlimit : 0 < limit) :
    (∀ fuel, text.length ≤ fuel → chunksFrom text limit fuel 0 = chunksFrom text limit text.length 0) ∧
      ∃ pieces : List Piece, chunkText text limit = pieces.map (Piece.chunk text) ∧ Covering text limit 0 pieces ∧
        text = pieces.flatMap fun piece => piece.chunk text ++ piece.gap text := by
  refine ⟨fun fuel hfuel => chunksFrom_fuel hlimit (Nat.sub_le_of_le_add (hfuel.trans (Nat.le_add_right _ _)))
    (Nat.sub_le _ _), ?_⟩
  have hcovered : ∃ pieces : List Piece, chunkText text limit = pieces.map (Piece.chunk text) ∧
      Covering text limit 0 pieces := by
    obtain ⟨pieces, hchunks, hcovering⟩ := chunksFrom_covering hlimit (Nat.zero_le text.length) rfl
      (Nat.sub_le text.length 0)
    refine ⟨pieces, ?_, hcovering⟩
    rw [← hchunks, chunkText, if_neg hlimit.ne']
    cases text with
    | nil => rfl
    | cons u rest =>
      rw [if_neg (by simp)]
      split
      · rename_i hshort
        rw [length_cons, chunksFrom, if_neg (by simp), if_pos (by simpa using hshort), drop_zero]
      · rfl
  obtain ⟨pieces, hchunks, hcovering⟩ := hcovered
  exact ⟨pieces, hchunks, hcovering, drop_zero.symm.trans hcovering.drop_eq⟩

theorem chunkText_lossless_words :
    (∀ fuel, (js "one two (a b)").length ≤ fuel →
      chunksFrom (js "one two (a b)") 9 fuel 0 = chunksFrom (js "one two (a b)") 9 (js "one two (a b)").length 0) ∧
      ∃ pieces : List Piece, chunkText (js "one two (a b)") 9 = pieces.map (Piece.chunk (js "one two (a b)")) ∧
        Covering (js "one two (a b)") 9 0 pieces ∧
        js "one two (a b)" = pieces.flatMap fun piece =>
          piece.chunk (js "one two (a b)") ++ piece.gap (js "one two (a b)") :=
  chunkText_lossless _ (by decide)

end ClawWorks.Markdown
