import ClawWorks.Markdown.RenderAwareChunking

/-!
# What the chunks keep
-/

namespace ClawWorks.Markdown

open List Spans

open Option (map_eq_some_iff map_some)

variable {ρ : Type}

/-- Every chunk fits, or no start of it does, and the chunks have the ink of the text. -/
structure KeepsWithin (options : RenderResolver ρ) (limit : ℚ) (ir : MarkdownIR)
    (chunks : List (RenderedMarkdownChunk ρ)) : Prop where
  bounded : ∀ chunk ∈ chunks, options.fits limit chunk.source = true ∨ NoStartFits options limit chunk.source
  rendered : ∀ chunk ∈ chunks, chunk.rendered = options.renderChunk chunk.source
  ink : (chunks.flatMap fun chunk => ink chunk.source) = ink ir

/-- With enough rounds there are chunks, the same for any number of rounds, and they keep the text within `bound`. -/
def RendersWithin (options : RenderResolver ρ) (ir : MarkdownIR) (limit bound : ℚ) : Prop :=
  ∃ chunks, (∃ rounds, ∀ fuel, rounds ≤ fuel →
      renderMarkdownIRChunksWithinLimit fuel options ir (.finite limit) = some chunks) ∧
    KeepsWithin options bound ir chunks

section

variable {options : RenderResolver ρ} {renderedLimit : Nat}

/-! ## The loop over pending chunks -/

theorem resolvePending_nil (fuel : Nat) : resolvePending options renderedLimit fuel [] = some [] := by
  cases fuel <;> rfl

theorem resolvePending_mono {fuel more : Nat} {pending finalized : List MarkdownIR}
    (h : resolvePending options renderedLimit fuel pending = some finalized) (hle : fuel ≤ more) :
    resolvePending options renderedLimit more pending = some finalized := by
  induction fuel generalizing more pending finalized with
  | zero =>
    cases pending with
    | nil => rwa [resolvePending_nil] at h ⊢
    | cons chunk pending => cases h
  | succ fuel ih =>
    obtain ⟨more, rfl⟩ : ∃ m, more = m + 1 := ⟨more - 1, by omega⟩
    cases pending with
    | nil => rwa [resolvePending_nil] at h ⊢
    | cons chunk pending =>
      rw [resolvePending] at h ⊢
      dsimp only at h ⊢
      split at h
      · rename_i hfinal
        obtain ⟨rest, hrest, rfl⟩ := map_eq_some_iff.mp h
        rw [if_pos hfinal, ih hrest (by omega), map_some]
      · rename_i hlong
        rw [if_neg hlong]
        split at h
        · rename_i hone
          obtain ⟨rest, hrest, rfl⟩ := map_eq_some_iff.mp h
          rw [if_pos hone, ih hrest (by omega), map_some]
        · rename_i hmany
          rw [if_neg hmany]
          exact ih h (by omega)

/-- A chunk that fits, or of which no start does. -/
def Bounded (options : RenderResolver ρ) (limit : ℚ) (ir : MarkdownIR) : Prop :=
  options.fits limit ir = true ∨ NoStartFits options limit ir

theorem resolvePending_cons (options : RenderResolver ρ) (renderedLimit fuel : Nat) (chunk : MarkdownIR)
    (pending : List MarkdownIR) :
    (Bounded options renderedLimit chunk ∧ resolvePending options renderedLimit (fuel + 1) (chunk :: pending) =
        (resolvePending options renderedLimit fuel pending).map (chunk :: ·)) ∨
      ∃ split, SplitInto options renderedLimit chunk split ∧
        resolvePending options renderedLimit (fuel + 1) (chunk :: pending) =
          resolvePending options renderedLimit fuel (split ++ pending) := by
  rw [resolvePending]
  dsimp only
  by_cases hfinal : (options.fits renderedLimit chunk || decide (chunk.text.length ≤ 1))
  · rw [if_pos hfinal]
    refine .inl ⟨?_, rfl⟩
    simp only [Bool.or_eq_true, decide_eq_true_eq] at hfinal
    exact hfinal.imp_right fun hshort stop hpos hstop => by omega
  · rw [if_neg hfinal]
    simp only [Bool.or_eq_true, decide_eq_true_eq, not_or, Bool.not_eq_true] at hfinal
    rcases splitMarkdownIRByRenderedLimit_cases (by omega) hfinal.1 with ⟨hsplit, hnone⟩ | hsplit
    · have hone : [chunk].length ≤ 1 := le_rfl
      rw [hsplit, if_pos hone]
      exact .inl ⟨.inr hnone, rfl⟩
    · rw [if_neg (by have := hsplit.two_le; omega)]
      exact .inr ⟨_, hsplit, rfl⟩

theorem totalWeight_append (left right : List MarkdownIR) : totalWeight options renderedLimit (left ++ right) =
    totalWeight options renderedLimit left + totalWeight options renderedLimit right := by
  rw [totalWeight, map_append, sum_append]
  rfl

/-- **The loop ends after as many rounds as there is work, and it keeps the ink.** -/
theorem resolvePending_spec (fuel : Nat) (pending : List MarkdownIR)
    (hfuel : totalWeight options renderedLimit pending ≤ fuel) :
    ∃ finalized, resolvePending options renderedLimit fuel pending = some finalized ∧
      finalized.flatMap ink = pending.flatMap ink ∧ (∀ chunk ∈ finalized, Bounded options renderedLimit chunk) ∧
      ((∀ chunk ∈ pending, Tidy chunk) → ∀ chunk ∈ finalized, Tidy chunk) := by
  induction fuel generalizing pending with
  | zero =>
    cases pending with
    | nil => exact ⟨[], rfl, rfl, nofun, fun _ => nofun⟩
    | cons chunk pending =>
      have := weight_pos options renderedLimit chunk
      rw [totalWeight, map_cons, sum_cons] at hfuel
      omega
  | succ fuel ih =>
    cases pending with
    | nil => exact ⟨[], rfl, rfl, nofun, fun _ => nofun⟩
    | cons chunk pending =>
      have hpos := weight_pos options renderedLimit chunk
      have htotal : totalWeight options renderedLimit (chunk :: pending) =
          weight options renderedLimit chunk + totalWeight options renderedLimit pending := by
        rw [totalWeight, map_cons, sum_cons]
        rfl
      rcases resolvePending_cons options renderedLimit fuel chunk pending with
        ⟨hbounded, hround⟩ | ⟨split, hsplit, hround⟩
      · obtain ⟨finalized, hresolved, hink, hall, htidy⟩ := ih pending (by omega)
        refine ⟨chunk :: finalized, ?_, ?_, forall_mem_cons.mpr ⟨hbounded, hall⟩, fun hpending => ?_⟩
        · rw [hround, hresolved, map_some]
        · rw [flatMap_cons, flatMap_cons, hink]
        · obtain ⟨hchunk, hrest⟩ := forall_mem_cons.mp hpending
          exact forall_mem_cons.mpr ⟨hchunk, htidy hrest⟩
      · have hlighter := hsplit.lighter
        obtain ⟨finalized, hresolved, hink, hall, htidy⟩ := ih (split ++ pending) (by rw [totalWeight_append]; omega)
        refine ⟨finalized, hround.trans hresolved, ?_, hall, fun hpending => htidy ?_⟩
        · rw [hink, flatMap_append, hsplit.ink, flatMap_cons]
        · obtain ⟨hchunk, hrest⟩ := forall_mem_cons.mp hpending
          exact forall_mem_append.mpr ⟨hsplit.tidy hchunk.links, hrest⟩

variable {chunk : MarkdownIR}

theorem resolvePending_single (hlinks : InOrder chunk.links) (fuel : Nat)
    (hfuel : totalWeight options renderedLimit [chunk] ≤ fuel) :
    ∃ finalized, resolvePending options renderedLimit fuel [chunk] = some finalized ∧
      finalized.flatMap ink = ink chunk ∧ (∀ piece ∈ finalized, Bounded options renderedLimit piece) ∧
      (finalized = [chunk] ∨ ∀ piece ∈ finalized, Tidy piece) := by
  have hpos := weight_pos options renderedLimit chunk
  have htotal : totalWeight options renderedLimit [chunk] = weight options renderedLimit chunk := Nat.add_zero _
  obtain ⟨fuel, rfl⟩ : ∃ n, fuel = n + 1 := ⟨fuel - 1, by omega⟩
  rcases resolvePending_cons options renderedLimit fuel chunk [] with ⟨hbounded, hround⟩ | ⟨split, hsplit, hround⟩
  · refine ⟨[chunk], ?_, flatMap_singleton _ _, forall_mem_singleton.mpr hbounded, .inl rfl⟩
    rw [hround, resolvePending_nil, map_some]
  · have hlighter : totalWeight options renderedLimit split ≤ fuel := by
      have := hsplit.lighter
      omega
    rw [append_nil] at hround
    obtain ⟨finalized, hresolved, hink, hall, htidy⟩ := resolvePending_spec fuel split hlighter
    exact ⟨finalized, hround.trans hresolved, hink.trans hsplit.ink, hall, .inr (htidy (hsplit.tidy hlinks))⟩

/-! ## Joined chunks -/

variable {left right : MarkdownIR}

theorem joinsAdjacentStyle_touch (a b : MarkdownStyleSpan) (h : joinsAdjacentStyle a b) :
    a.label = b.label ∧ b.start ≤ a.stop := by
  simpa only [joinsAdjacentStyle, Bool.and_eq_true, beq_iff_eq, decide_eq_true_eq] using h

theorem joinsAdjacentLink_touch (a b : MarkdownLinkSpan) (h : joinsAdjacentLink a b) :
    a.label = b.label ∧ b.start ≤ a.stop := by
  simpa only [joinsAdjacentLink, Bool.and_eq_true, beq_iff_eq, decide_eq_true_eq] using h

theorem tidy_mergeMarkdownIRChunks (hleft : Tidy left) (hright : Tidy right) :
    Tidy (mergeMarkdownIRChunks left right) := by
  have hlength : (mergeMarkdownIRChunks left right).text.length = left.text.length + right.text.length := length_append
  refine ⟨?_, ?_, ?_, ?_⟩
  · exact (hleft.styles.append_shift hright.styles hleft.stylesWithin).mergeRuns
  · exact (hleft.links.append_shift hright.links hleft.linksWithin).mergeRuns
  · rw [hlength]
    exact (hleft.stylesWithin.append_shift hright.stylesWithin).mergeRuns
  · rw [hlength]
    exact (hleft.linksWithin.append_shift hright.linksWithin).mergeRuns

theorem labels_mergeMarkdownIRChunks (hleft : Tidy left) (hright : Tidy right) (k : Nat) :
    labelsAt (mergeMarkdownIRChunks left right).styles k =
        (if k < left.text.length then labelsAt left.styles k else labelsAt right.styles (k - left.text.length)) ∧
      labelsAt (mergeMarkdownIRChunks left right).links k =
        if k < left.text.length then labelsAt left.links k else labelsAt right.links (k - left.text.length) := by
  constructor
  · exact (labelsAt_mergeRuns joinsAdjacentStyle_touch
      (hleft.styles.append_shift hright.styles hleft.stylesWithin) k).trans
        (labelsAt_append_shift hleft.stylesWithin k)
  · exact (labelsAt_mergeRuns joinsAdjacentLink_touch
      (hleft.links.append_shift hright.links hleft.linksWithin) k).trans (labelsAt_append_shift hleft.linksWithin k)

/-- **The cells of a joined text are those of its parts**, unless a pair is joined at the seam. -/
theorem cells_mergeMarkdownIRChunks (hleft : Tidy left) (hright : Tidy right)
    (hseam : splitsPair (left.text ++ right.text) left.text.length = false) :
    cells (mergeMarkdownIRChunks left right) = cells left ++ cells right := by
  have htext : (mergeMarkdownIRChunks left right).text = left.text ++ right.text := rfl
  refine ext_getElem? fun k => ?_
  obtain ⟨hstyles, hlinks⟩ := labels_mergeMarkdownIRChunks hleft hright k
  rw [getElem?_append, length_cells]
  simp only [cells, getElem?_mapIdx, htext]
  by_cases hk : k < left.text.length
  · rw [if_pos hk, getElem?_append_left hk]
    cases hunit : left.text[k]? with
    | none => rfl
    | some unit =>
      refine congrArg some ?_
      rw [cellAt, cellAt, hstyles, hlinks, if_pos hk, if_pos hk, Cell.mk.injEq]
      refine ⟨rfl, rfl, rfl, propext (and_congr_right fun hhigh => ?_)⟩
      rw [htext]
      by_cases hnext : k + 1 < left.text.length
      · rw [getElem?_append_left hnext]
      · -- the last unit of the left part
        have hlast : k + 1 = left.text.length := by omega
        rw [splitsPair, ← hlast, Nat.add_sub_cancel, getElem?_append_left hk, hunit, Option.any_some, hhigh] at hseam
        simp only [Nat.succ_pos, decide_true, Bool.true_and] at hseam
        rw [hseam, getElem?_eq_none (by omega : left.text.length ≤ k + 1)]
        rfl
  · rw [if_neg hk, getElem?_append_right (by omega)]
    cases hunit : right.text[k - left.text.length]? with
    | none => rfl
    | some unit =>
      refine congrArg some ?_
      rw [cellAt, cellAt, hstyles, hlinks, if_neg hk, if_neg hk, Cell.mk.injEq]
      refine ⟨rfl, rfl, rfl, propext (and_congr_right fun _ => ?_)⟩
      rw [htext, getElem?_append_right (by omega : left.text.length ≤ k + 1),
        Nat.sub_add_comm (by omega : left.text.length ≤ k)]

theorem ink_mergeMarkdownIRChunks (hleft : Tidy left) (hright : Tidy right)
    (hseam : splitsPair (left.text ++ right.text) left.text.length = false) :
    ink (mergeMarkdownIRChunks left right) = ink left ++ ink right := by
  rw [ink, cells_mergeMarkdownIRChunks hleft hright hseam, filter_append]
  rfl

/-- A text of white space. -/
def Blank (ir : MarkdownIR) : Prop :=
  ∀ unit ∈ ir.text, isWhiteSpace unit = true

variable {ir : MarkdownIR}

theorem ink_of_blank (h : Blank ir) : ink ir = [] := by
  refine filter_eq_nil_iff.mpr fun cell hcell => ?_
  have hunit : cell.unit ∈ ir.text := units_cells ir ▸ mem_map_of_mem hcell
  rw [h _ hunit]
  exact Bool.false_ne_true

theorem blank_of_trim (h : ¬ 0 < (trim ir.text).length) : Blank ir := by
  have htrim : trim ir.text = [] := length_eq_zero_iff.mp (by omega)
  intro unit hunit
  by_contra hwhite
  rw [trim, rdropWhile_eq_nil_iff] at htrim
  rw [← takeWhile_append_dropWhile (p := isWhiteSpace) (l := ir.text)] at hunit
  rcases mem_append.mp hunit with hmem | hmem
  · exact hwhite (mem_takeWhile_imp hmem)
  · exact hwhite (htrim unit hmem)

theorem Blank.slice (h : Blank ir) (start stop : Nat) : Blank (sliceMarkdownIR ir start stop) :=
  fun unit hunit => h unit (mem_of_mem_take (mem_of_mem_drop hunit))

theorem seam_of_blank_left (h : Blank left) (right : MarkdownIR) :
    splitsPair (left.text ++ right.text) left.text.length = false := by
  cases hlength : left.text.length with
  | zero => rfl
  | succ n =>
    obtain ⟨unit, hunit⟩ : ∃ unit, left.text[n]? = some unit := ⟨_, getElem?_eq_getElem (by omega)⟩
    refine splitsPair_behind_whiteSpace (u := unit) ?_ (h unit (mem_of_getElem? hunit))
    rw [getElem?_append_left (by omega), hunit]

theorem seam_of_blank_right (left : MarkdownIR) (h : Blank right) :
    splitsPair (left.text ++ right.text) left.text.length = false := by
  cases hright : right.text with
  | nil => exact splitsPair_of_length_le (by rw [append_nil])
  | cons unit rest =>
    refine splitsPair_of_whiteSpace (u := unit) ?_ (h unit (hright ▸ mem_cons_self))
    rw [getElem?_append_right le_rfl, Nat.sub_self, getElem?_cons_zero]

/-! ## Coalescing -/

def AllGood (options : RenderResolver ρ) (limit : ℚ) (chunks : List MarkdownIR) : Prop :=
  ∀ chunk ∈ chunks, Tidy chunk ∧ Bounded options limit chunk

/-- The same ink in chunks that are as good. -/
structure Rearranges (options : RenderResolver ρ) (limit : ℚ) (before after : List MarkdownIR) : Prop where
  good : AllGood options limit before → AllGood options limit after
  ink : (∀ chunk ∈ before, Tidy chunk) → after.flatMap ink = before.flatMap ink

theorem allGood_append {limit : ℚ} {left right : List MarkdownIR} :
    AllGood options limit (left ++ right) ↔ AllGood options limit left ∧ AllGood options limit right :=
  forall_mem_append

theorem rearranges_merge (before rest : List MarkdownIR)
    (hfits : options.fits renderedLimit (mergeMarkdownIRChunks left right))
    (hseam : splitsPair (left.text ++ right.text) left.text.length = false) :
    Rearranges options renderedLimit (before ++ left :: right :: rest)
      (before ++ mergeMarkdownIRChunks left right :: rest) where
  good h := by
    obtain ⟨hbefore, hafter⟩ := allGood_append.mp h
    obtain ⟨hleft, hright, hrest⟩ : _ ∧ _ ∧ AllGood options renderedLimit rest :=
      ⟨hafter left (by simp), hafter right (by simp), fun chunk hchunk => hafter chunk (by simp [hchunk])⟩
    refine allGood_append.mpr ⟨hbefore, forall_mem_cons.mpr ⟨?_, hrest⟩⟩
    exact ⟨tidy_mergeMarkdownIRChunks hleft.1 hright.1, .inl hfits⟩
  ink h := by
    have hmerge := ink_mergeMarkdownIRChunks (h left (by simp)) (h right (by simp)) hseam
    simp only [flatMap_append, flatMap_cons, hmerge, append_assoc]

theorem rearranges_drop (before rest : List MarkdownIR) (hblank : Blank chunk) :
    Rearranges options renderedLimit (before ++ chunk :: rest) (before ++ rest) where
  good h := by
    obtain ⟨hbefore, hafter⟩ := allGood_append.mp h
    exact allGood_append.mpr ⟨hbefore, fun chunk hchunk => hafter chunk (mem_cons_of_mem _ hchunk)⟩
  ink _ := by simp only [flatMap_append, flatMap_cons, ink_of_blank hblank, nil_append]

theorem rearranges_part (before rest : List MarkdownIR) {prev chunk next : MarkdownIR} (hblank : Blank chunk)
    {k : Nat} (hk : k ≤ chunk.text.length)
    (hprev : options.fits renderedLimit (mergeMarkdownIRChunks prev (sliceMarkdownIR chunk 0 k)))
    (hnext : options.fits renderedLimit (mergeMarkdownIRChunks (sliceMarkdownIR chunk k chunk.text.length) next)) :
    Rearranges options renderedLimit (before ++ prev :: chunk :: next :: rest)
      (before ++ mergeMarkdownIRChunks prev (sliceMarkdownIR chunk 0 k) ::
        mergeMarkdownIRChunks (sliceMarkdownIR chunk k chunk.text.length) next :: rest) where
  good h := by
    obtain ⟨hbefore, hafter⟩ := allGood_append.mp h
    have hchunk := (hafter chunk (by simp)).1.links
    refine allGood_append.mpr ⟨hbefore, forall_mem_cons.mpr ⟨⟨?_, .inl hprev⟩,
      forall_mem_cons.mpr ⟨⟨?_, .inl hnext⟩, ?_⟩⟩⟩
    · exact tidy_mergeMarkdownIRChunks (hafter prev (by simp)).1 (tidy_sliceMarkdownIR hchunk hk)
    · exact tidy_mergeMarkdownIRChunks (tidy_sliceMarkdownIR hchunk le_rfl) (hafter next (by simp)).1
    · exact fun chunk hchunk => hafter chunk (by simp [hchunk])
  ink h := by
    have hchunk := (h chunk (by simp)).links
    have hfirst := ink_mergeMarkdownIRChunks (h prev (by simp)) (tidy_sliceMarkdownIR hchunk hk)
      (seam_of_blank_right prev (hblank.slice 0 k))
    have hsecond := ink_mergeMarkdownIRChunks (tidy_sliceMarkdownIR hchunk le_rfl) (h next (by simp))
      (seam_of_blank_left (hblank.slice k chunk.text.length) next)
    rw [ink_of_blank (hblank.slice 0 k), append_nil] at hfirst
    rw [ink_of_blank (hblank.slice k chunk.text.length), nil_append] at hsecond
    simp only [flatMap_append, flatMap_cons, hfirst, hsecond, ink_of_blank hblank, nil_append]

theorem Rearranges.refl (limit : ℚ) (chunks : List MarkdownIR) : Rearranges options limit chunks chunks :=
  ⟨id, fun _ => rfl⟩

theorem eq_dropLast_append {coalesced : List MarkdownIR} {prev : MarkdownIR} (h : coalesced.getLast? = some prev) :
    coalesced = coalesced.dropLast ++ [prev] :=
  (dropLast_append_getLast? prev h).symm

theorem coalesceChunk_spec (options : RenderResolver ρ) (renderedLimit : Nat) (coalesced : List MarkdownIR)
    (chunk : MarkdownIR) (next : Option MarkdownIR) (rest : List MarkdownIR) :
    Rearranges options renderedLimit (coalesced ++ chunk :: (next.toList ++ rest))
        ((coalesceChunk options renderedLimit coalesced chunk next).1 ++
          ((coalesceChunk options renderedLimit coalesced chunk next).2.toList ++ rest)) ∧
      (coalesceChunk options renderedLimit coalesced chunk next).2.isSome = next.isSome := by
  unfold coalesceChunk
  dsimp only
  split
  · rw [append_assoc]
    exact ⟨Rearranges.refl _ _, rfl⟩
  · rename_i htrim
    have hblank := blank_of_trim htrim
    split
    · rename_i mergedPrev hfound
      obtain ⟨hmap, hfits⟩ := Option.filter_eq_some_iff.mp hfound
      obtain ⟨prev, hprev, rfl⟩ := map_eq_some_iff.mp hmap
      refine ⟨?_, rfl⟩
      conv => arg 3; rw [eq_dropLast_append hprev]
      rw [append_assoc, append_assoc]
      exact rearranges_merge _ _ hfits (seam_of_blank_right prev hblank)
    · split
      · rename_i mergedNext hfound
        obtain ⟨hmap, hfits⟩ := Option.filter_eq_some_iff.mp hfound
        obtain ⟨next, rfl, rfl⟩ := map_eq_some_iff.mp hmap
        exact ⟨rearranges_merge _ _ hfits (seam_of_blank_left hblank next), rfl⟩
      · split
        · rename_i prev next hprev _
          split
          · rename_i mergedPrev mergedNext hfound
            unfold splitBetween at hfound
            obtain ⟨k, hk, heq⟩ := mem_map.mp (mem_of_find?_eq_some hfound)
            have hrange := mem_range'_1.mp (mem_reverse.mp hk)
            have hfits := find?_some hfound
            obtain ⟨hfirst, hsecond⟩ := Bool.and_eq_true_iff.mp hfits
            cases heq
            refine ⟨?_, rfl⟩
            conv => arg 3; rw [eq_dropLast_append hprev]
            rw [append_assoc, append_assoc]
            exact rearranges_part _ _ hblank (by omega) hfirst hsecond
          · exact ⟨rearranges_drop _ _ hblank, rfl⟩
        · exact ⟨rearranges_drop _ _ hblank, rfl⟩

theorem coalesceFrom_spec (rest coalesced : List MarkdownIR) (chunk : MarkdownIR)
    (h : AllGood options renderedLimit (coalesced ++ chunk :: rest)) :
    AllGood options renderedLimit (coalesceFrom options renderedLimit coalesced chunk rest) ∧
      (coalesceFrom options renderedLimit coalesced chunk rest).flatMap ink =
        (coalesced ++ chunk :: rest).flatMap ink := by
  induction rest generalizing coalesced chunk with
  | nil =>
    obtain ⟨hround, hnext⟩ := coalesceChunk_spec options renderedLimit coalesced chunk none []
    rw [Option.isSome_none, Option.isSome_eq_false_iff, Option.isNone_iff_eq_none] at hnext
    rw [hnext, Option.toList_none, append_nil, append_nil] at hround
    rw [coalesceFrom]
    exact ⟨hround.good h, hround.ink fun chunk hchunk => (h chunk hchunk).1⟩
  | cons next rest ih =>
    obtain ⟨hround, hnext⟩ := coalesceChunk_spec options renderedLimit coalesced chunk (some next) rest
    obtain ⟨following, hfollowing⟩ := Option.isSome_iff_exists.mp hnext
    rw [hfollowing] at hround
    rw [coalesceFrom, hfollowing, Option.getD_some]
    obtain ⟨hgood, hink⟩ := ih _ following (hround.good h)
    exact ⟨hgood, hink.trans (hround.ink fun chunk hchunk => (h chunk hchunk).1)⟩

theorem coalesceFrom_single (h : Bounded options renderedLimit chunk) :
    (∀ piece ∈ coalesceFrom options renderedLimit [] chunk [], Bounded options renderedLimit piece) ∧
      (coalesceFrom options renderedLimit [] chunk []).flatMap ink = ink chunk := by
  rw [coalesceFrom, coalesceChunk]
  split
  · exact ⟨forall_mem_singleton.mpr h, flatMap_singleton _ _⟩
  · rename_i htrim
    exact ⟨nofun, (ink_of_blank (blank_of_trim htrim)).symm⟩

theorem coalesce_spec {finalized : List MarkdownIR}
    (hbounded : ∀ chunk ∈ finalized, Bounded options renderedLimit chunk)
    (htidy : finalized = [ir] ∨ ∀ chunk ∈ finalized, Tidy chunk) :
    (∀ chunk ∈ coalesceWhitespaceOnlyMarkdownIRChunks options renderedLimit finalized,
        Bounded options renderedLimit chunk) ∧
      (coalesceWhitespaceOnlyMarkdownIRChunks options renderedLimit finalized).flatMap ink =
        finalized.flatMap ink := by
  rcases htidy with rfl | htidy
  · rw [flatMap_singleton]
    exact coalesceFrom_single (hbounded ir mem_cons_self)
  · cases finalized with
    | nil => exact ⟨nofun, rfl⟩
    | cons chunk rest =>
      have hall : AllGood options renderedLimit ([] ++ chunk :: rest) :=
        fun piece hpiece => ⟨htidy piece hpiece, hbounded piece hpiece⟩
      obtain ⟨hgood, hink⟩ := coalesceFrom_spec rest [] chunk hall
      exact ⟨fun piece hpiece => (hgood piece hpiece).2, hink⟩

theorem resolvePending_chunkMarkdownIR (options : RenderResolver ρ) (hlinks : InOrder ir.links)
    (htext : ir.text ≠ []) (hlimit : 0 < renderedLimit) :
    ∃ fuel finalized, resolvePending options renderedLimit fuel (chunkMarkdownIR ir renderedLimit) = some finalized ∧
      finalized.flatMap ink = ink ir ∧ (∀ chunk ∈ finalized, Bounded options renderedLimit chunk) ∧
      (finalized = [ir] ∨ ∀ chunk ∈ finalized, Tidy chunk) := by
  rcases chunkMarkdownIR_cases hlimit htext with hwhole | hshow
  · rw [hwhole]
    exact ⟨_, resolvePending_single hlinks _ le_rfl⟩
  · obtain ⟨finalized, hresolved, hink, hbounded, htidy⟩ :=
      resolvePending_spec _ (chunkMarkdownIR ir renderedLimit) (le_refl (totalWeight options renderedLimit _))
    refine ⟨_, finalized, hresolved, hink.trans hshow.ink, hbounded, .inr (htidy fun chunk hchunk => ?_)⟩
    obtain ⟨start, stop, -, hstop, rfl⟩ := hshow.slices chunk hchunk
    exact tidy_sliceMarkdownIR hlinks hstop

theorem resolveIntegerOption_finite {limit : ℚ} (h : 1 ≤ limit) :
    ((resolveIntegerOption (.finite limit) 1 1 : ℕ) : ℚ) = ⌊limit⌋ ∧ 0 < resolveIntegerOption (.finite limit) 1 1 := by
  have hfloor : 1 ≤ ⌊limit⌋ := Int.le_floor.mpr (by exact_mod_cast h)
  have hmax : resolveIntegerOption (.finite limit) 1 1 = ⌊limit⌋.toNat := max_eq_right (by omega)
  have hcast : ((⌊limit⌋.toNat : ℤ) : ℚ) = ⌊limit⌋ := by rw [Int.toNat_of_nonneg (by omega)]
  rw [hmax]
  exact ⟨by exact_mod_cast hcast, by omega⟩

theorem renderMarkdownIRChunksWithinLimit_mono {fuel more : Nat} {limit : JsNumber}
    {chunks : List (RenderedMarkdownChunk ρ)}
    (h : renderMarkdownIRChunksWithinLimit fuel options ir limit = some chunks) (hle : fuel ≤ more) :
    renderMarkdownIRChunksWithinLimit more options ir limit = some chunks := by
  unfold renderMarkdownIRChunksWithinLimit at h ⊢
  split
  · rename_i hempty
    rwa [if_pos hempty] at h
  · rename_i hempty
    rw [if_neg hempty] at h
    split
    · rename_i hlimit
      rwa [if_pos hlimit] at h
    · rename_i hlimit
      rw [if_neg hlimit] at h
      obtain ⟨finalized, hresolved, rfl⟩ := map_eq_some_iff.mp h
      exact map_eq_some_iff.mpr ⟨finalized, resolvePending_mono hresolved hle, rfl⟩

/-- **The chunks of a text whose links are in order are within the whole part of a limit, and they keep the text.** -/
theorem rendersWithin_of_inOrder (options : RenderResolver ρ) {ir : MarkdownIR} (hlinks : InOrder ir.links) {limit : ℚ}
    (hlimit : 1 ≤ limit) : RendersWithin options ir limit ⌊limit⌋ := by
  by_cases htext : ir.text = []
  · refine ⟨[], ⟨0, fun fuel _ => if_pos (isEmpty_iff.mpr htext)⟩, by simp, by simp, ?_⟩
    rw [ink, cells, htext]
    rfl
  · obtain ⟨hfloor, hpos⟩ := resolveIntegerOption_finite hlimit
    obtain ⟨fuel, finalized, hresolved, hink, hbounded, htidy⟩ :=
      resolvePending_chunkMarkdownIR options hlinks htext hpos
    obtain ⟨hfinal, hcoalesced⟩ := coalesce_spec hbounded htidy
    have hchunks : renderMarkdownIRChunksWithinLimit fuel options ir (.finite limit) =
        some ((coalesceWhitespaceOnlyMarkdownIRChunks options (resolveIntegerOption (.finite limit) 1 1) finalized).map
          fun source => ⟨options.renderChunk source, source⟩) := by
      unfold renderMarkdownIRChunksWithinLimit
      rw [if_neg (mt List.isEmpty_iff.mp htext), if_neg (by simp)]
      dsimp only
      rw [hresolved, Option.map_some]
    refine ⟨_, ⟨fuel, fun more hle => renderMarkdownIRChunksWithinLimit_mono hchunks hle⟩, ?_, ?_, ?_⟩
    · rw [forall_mem_map, ← hfloor]
      exact hfinal
    · rw [forall_mem_map]
      exact fun _ _ => rfl
    · rw [flatMap_map]
      exact hcoalesced.trans hink

end

def plainText : RenderResolver MarkdownIR where
  renderChunk ir := ir
  measureRendered ir := .finite ir.text.length

/-- A single unit has the size 2.2, any other text the size 3. -/
def wideText : RenderResolver MarkdownIR where
  renderChunk ir := ir
  measureRendered ir := if ir.text.length = 1 then .finite (11 / 5) else .finite 3

/-- `  ab cd` with links on `b` and `a`, the later one first. -/
def linksOutOfOrder : MarkdownIR where
  text := js "  ab cd"
  styles := []
  links := [⟨3, 4, js "https://a"⟩, ⟨2, 3, js "https://a"⟩]

/-- `  ab cd` with the links in order. -/
def linksInOrder : MarkdownIR where
  text := js "  ab cd"
  styles := [⟨2, 7, ⟨.bold, none⟩⟩]
  links := [⟨2, 3, js "https://a"⟩, ⟨3, 4, js "https://a"⟩]

theorem rendersWithin_linksInOrder : RendersWithin plainText linksInOrder 4 ⌊(4 : ℚ)⌋ :=
  rendersWithin_of_inOrder plainText (by simp [InOrder, linksInOrder]) (by norm_num)

/-- A unit loses its link when links are out of order, and a start of a text may fit within a limit that the text does
not fit in when the limit is not whole. -/
theorem link_lost_and_start_fits :
    ¬ RendersWithin plainText linksOutOfOrder 4 4 ∧ ¬ RendersWithin wideText ⟨js "ab", [], []⟩ (5 / 2) (5 / 2) := by
  constructor
  · rintro ⟨chunks, ⟨rounds, hchunks⟩, -, -, hink⟩
    have hrun : renderMarkdownIRChunksWithinLimit 3 plainText linksOutOfOrder (.finite 4) =
        some [⟨⟨js " ab", [], [⟨2, 3, js "https://a"⟩]⟩, ⟨js " ab", [], [⟨2, 3, js "https://a"⟩]⟩⟩,
          ⟨⟨js "cd", [], []⟩, ⟨js "cd", [], []⟩⟩] := by
      decide +kernel
    have hmore := hchunks (max rounds 3) (le_max_left rounds 3)
    obtain rfl := Option.some.inj
      ((renderMarkdownIRChunksWithinLimit_mono hrun (le_max_right rounds 3)).symm.trans hmore)
    -- the first cell that is not white space is that of `a`
    have hfirst := congrArg (fun ink => ink.head?.map Cell.links) hink
    have hlost : labelsAt [(⟨2, 3, js "https://a"⟩ : MarkdownLinkSpan)] 1 = labelsAt linksOutOfOrder.links 2 :=
      Option.some.inj hfirst
    have hmem : js "https://a" ∈ labelsAt linksOutOfOrder.links 2 :=
      ⟨⟨2, 3, js "https://a"⟩, by simp [linksOutOfOrder], by simp⟩
    rw [← hlost, mem_labelsAt] at hmem
    simp at hmem
  · rintro ⟨chunks, ⟨rounds, hchunks⟩, hbounded, -, -⟩
    have hrun : renderMarkdownIRChunksWithinLimit 1 wideText ⟨js "ab", [], []⟩ (.finite (5 / 2)) =
        some [⟨⟨js "ab", [], []⟩, ⟨js "ab", [], []⟩⟩] := by
      decide +kernel
    have hmore := hchunks (max rounds 1) (le_max_left rounds 1)
    obtain rfl := Option.some.inj
      ((renderMarkdownIRChunksWithinLimit_mono hrun (le_max_right rounds 1)).symm.trans hmore)
    rcases hbounded _ mem_cons_self with hfits | hnone
    · exact absurd hfits (by decide +kernel)
    · exact absurd (hnone 1 (by decide) (by decide +kernel) (by decide +kernel)) (by decide +kernel)

end ClawWorks.Markdown
