import ClawWorks.Markdown.Fences

/-!
# Skill bodies

A skill's instructions are cut to what the prompt has room for, and a fence that is open at their end is closed.
-/

namespace ClawWorks

open Option List Markdown

def openFenceMarker (text : JsString) : Option JsString :=
  (scanFenceSpans text {}).2.opened.map (·.marker)

/-- The longest marker that `/^ {0,3}(?:`{3,}|~{3,})/gm` finds. -/
def longestMarkerFrom : Bool → JsString → Nat
  | _, [] => 0
  | atLineStart, u :: text =>
    max (if atLineStart then (fenceMarker? (u :: text)).elim 0 (·.2.length) else 0)
      (longestMarkerFrom (isLineTerminator u) text)

def longestFenceMarker (text : JsString) : Nat :=
  longestMarkerFrom true text

def closeFence (text : JsString) : Option JsString → JsString
  | none => text
  | some marker => text ++ NEWLINE :: marker

/-- Bound one body to `max` and leave it structurally closed. -/
def boundBody (text : JsString) (max : Nat) : JsString :=
  let opened := openFenceMarker text
  let closerCost := opened.elim 0 (·.length + 1)
  if text.length + closerCost ≤ max then closeFence text opened
  else
    let reserve := longestFenceMarker text
    let room := max - 1 - (if 0 < reserve then reserve + 1 else 0)
    let cut := (text.take room).rdropWhile isWhiteSpace ++ js "…"
    closeFence cut (openFenceMarker cut)

/-! ## Markers -/

section Markers

variable {line indent marker text : JsString}

theorem fenceMarker?_replicate {n k : Nat} {c : UInt16} (hn : n ≤ 3) (hk : 3 ≤ k) (hc : c = BACKTICK ∨ c = TILDE)
    (rest : JsString) : fenceMarker? (replicate n SPACE ++ (replicate k c ++ rest)) =
      some (replicate n SPACE, replicate k c ++ rest.takeWhile (· == c)) := by
  obtain ⟨k, rfl⟩ := Nat.exists_eq_add_of_le' hk
  have hindent : ((replicate n SPACE ++ (replicate (k + 3) c ++ rest)).take 3).takeWhile (· == SPACE) =
      replicate n SPACE := by
    have hne : (c == SPACE) = false := by rcases hc with rfl | rfl <;> rfl
    rcases n with _ | _ | _ | _ | n
    · simp [replicate_succ, hne]
    · simp [replicate_succ, hne]
    · simp [replicate_succ, hne]
    · simp [replicate_succ]
    · omega
  have hmarker : (replicate (k + 3) c ++ rest).takeWhile (· == c) = replicate (k + 3) c ++ rest.takeWhile (· == c) :=
    takeWhile_append_of_pos fun u hu => beq_iff_eq.mpr (eq_of_mem_replicate hu)
  rw [fenceMarker?, hindent, length_replicate, drop_left' length_replicate]
  dsimp only
  rw [replicate_succ, cons_append] at hmarker ⊢
  dsimp only
  rw [hmarker, if_pos ⟨hc, by simp only [length_append, length_cons, length_replicate]; omega⟩]

theorem fenceMarker?_spec (h : fenceMarker? line = some (indent, marker)) :
    ∃ n k c, n ≤ 3 ∧ 3 ≤ k ∧ (c = BACKTICK ∨ c = TILDE) ∧ indent = replicate n SPACE ∧
      marker = replicate k c ∧ indent ++ marker <+: line := by
  rw [fenceMarker?] at h
  dsimp only at h
  split at h
  · cases h
  rename_i char rest hdrop
  split at h
  swap
  · cases h
  rename_i hmarker
  obtain ⟨rfl, rfl⟩ := Prod.mk.inj (some.inj h)
  have hindent := ( takeWhile_prefix (· == SPACE) (l := line.take 3)).trans ( take_prefix 3 line)
  refine ⟨_, _, char, ?_, hmarker.2, hmarker.1, eq_replicate_of_mem fun u hu => ?_,
    eq_replicate_of_mem fun u hu => ?_, ?_⟩
  · exact ( takeWhile_prefix _).length_le.trans (length_take_le 3 line)
  · exact eq_of_beq (mem_takeWhile_imp (p := (· == SPACE)) hu)
  · exact eq_of_beq (mem_takeWhile_imp (p := (· == char)) hu)
  · obtain ⟨trailing, htrailing⟩ := takeWhile_prefix (· == char) (l := char :: rest)
    refine ⟨trailing, ?_⟩
    rw [append_assoc, htrailing, ← hdrop]
    exact prefix_iff_eq_append.mp hindent

theorem opened_foldl {fresh : Bool} {lines : List JsString} {scan : FenceScan} {entry : Nat × OpenFence}
    (h : (lines.foldl (scanLine fresh) scan).opened = some entry) :
    scan.opened = some entry ∨ ∃ line ∈ lines, ∃ fenceLine,
      fenceLine? (dropCarriageReturn line) = some fenceLine ∧ entry.2 = fenceLine.fence (dropCarriageReturn line) := by
  induction lines generalizing scan with
  | nil => exact .inl h
  | cons line lines ih =>
    rcases ih h with hopened | ⟨line', hline', hfence⟩
    · rw [scanLine] at hopened
      split at hopened
      · exact .inl hopened
      rename_i fenceLine hline
      split at hopened
      · split at hopened
        · exact .inr ⟨line, mem_cons_self, fenceLine, hline, by rw [← some.inj hopened]⟩
        · split at hopened
          · cases hopened
          · exact .inl hopened
      · exact .inl hopened
    · exact .inr ⟨line', mem_cons_of_mem _ hline', hfence⟩

theorem exists_before_line (front back : List JsString) : ∃ before : JsString,
    before.getLast?.elim true isLineTerminator ∧
      before ++ line <+: [NEWLINE].intercalate (front ++ line :: back) := by
  induction front with
  | nil =>
    refine ⟨[], rfl, ?_⟩
    cases back with
    | nil => simp
    | cons next back => simp
  | cons first front ih =>
    obtain ⟨before, hbefore, hstarts⟩ := ih
    refine ⟨first ++ NEWLINE :: before, ?_, ?_⟩
    · rw [getLast?_append_of_ne_nil _ (cons_ne_nil _ _), getLast?_cons]
      cases hlast : before.getLast? with
      | none => rfl
      | some u => rwa [hlast] at hbefore
    · obtain ⟨next, others, hothers⟩ := exists_cons_of_ne_nil (append_ne_nil_of_right_ne_nil front
        (cons_ne_nil line back))
      rw [cons_append, hothers, intercalate_cons_cons, ← hothers]
      simpa using hstarts

theorem opened_spec {fence : OpenFence} (h : (scanFenceSpans text {}).2.opened = some fence) :
    ∃ n k c before, n ≤ 3 ∧ 3 ≤ k ∧ (c = BACKTICK ∨ c = TILDE) ∧
      (fence.markerChar = c ∧ fence.markerLen = k ∧ fence.marker = replicate k c) ∧
      before.getLast?.elim true isLineTerminator ∧
      before ++ (replicate n SPACE ++ replicate k c) <+: text := by
  obtain ⟨entry, hentry, rfl⟩ := map_eq_some_iff.mp h
  rcases opened_foldl hentry with hnone | ⟨line, hline, fenceLine, hfenceLine, hfence⟩
  · cases hnone
  obtain ⟨⟨indent, marker⟩, hmarker, hsome⟩ := bind_eq_some_iff.mp hfenceLine
  dsimp only at hsome
  split at hsome
  · cases hsome
  obtain rfl := some.inj hsome
  obtain ⟨n, k, c, hn, hk, hc, rfl, rfl, hstarts⟩ := fenceMarker?_spec hmarker
  obtain ⟨front, back, hlines⟩ := append_of_mem hline
  obtain ⟨before, hbefore, hwhole⟩ := @exists_before_line line front back
  rw [← hlines, intercalate_splitOn] at hwhole
  have hdropped : dropCarriageReturn line <+: line := by
    rw [dropCarriageReturn]
    split
    · exact dropLast_prefix line
    · exact prefix_rfl
  refine ⟨n, k, c, before, hn, hk, hc, ?_, hbefore, ?_⟩
  · rw [hfence]
    obtain ⟨k, rfl⟩ := Nat.exists_eq_add_of_le' hk
    exact ⟨rfl, length_replicate, rfl⟩
  · exact ((prefix_append_right_inj before).mpr (hstarts.trans hdropped)).trans hwhole

theorem openFenceMarker_closeFence (text : JsString) :
    openFenceMarker (closeFence text (openFenceMarker text)) = none := by
  cases hopened : (scanFenceSpans text {}).2.opened with
  | none =>
    have hnone : openFenceMarker text = none := by rw [openFenceMarker, hopened, map_none]
    rw [hnone]
    exact hnone
  | some fence =>
    obtain ⟨n, k, c, -, -, hk, hc, ⟨hchar, hlen, hmarker⟩, -⟩ := opened_spec hopened
    have hnewline : NEWLINE ∉ replicate k c := fun hmem => by
      have heq := eq_of_mem_replicate hmem
      rcases hc with rfl | rfl <;> cases heq
    have hmarker' := fenceMarker?_replicate (Nat.zero_le 3) hk hc []
    simp only [replicate_zero, nil_append, append_nil, takeWhile_nil] at hmarker'
    have hkept : dropCarriageReturn (replicate k c) = replicate k c := by
      rw [dropCarriageReturn, if_neg]
      rw [getLast?_replicate, if_neg (by omega)]
      rcases hc with rfl | rfl <;> decide
    have hcloses : (fenceLine? (dropCarriageReturn (replicate k c))).any fence.closedBy := by
      rw [hkept, fenceLine?, hmarker', bind_some]
      obtain ⟨k, rfl⟩ := Nat.exists_eq_add_of_le' hk
      simp [OpenFence.closedBy, hchar, hlen, replicate_succ]
    have hmarkerText : openFenceMarker text = some (replicate k c) := by
      rw [openFenceMarker, hopened, map_some, hmarker]
    obtain ⟨⟨start, fence⟩, hentry, rfl⟩ := map_eq_some_iff.mp hopened
    rw [hmarkerText, closeFence, openFenceMarker, scanFenceSpans, splitOn_append_cons_self,
      splitOn_eq_singleton hnewline, foldl_append]
    generalize (text.splitOn NEWLINE).foldl (scanLine _) _ = scan at hentry ⊢
    obtain ⟨offset, spans, opened⟩ := scan
    obtain rfl : opened = some (start, fence) := hentry
    have hclosed := @scanLine_closes true spans _ offset start fence (.inr rfl) hcloses
    exact congrArg (fun scan => (scan.opened.map (·.2)).map OpenFence.marker) hclosed

theorem le_longestMarkerFrom {before rest : JsString} {fresh : Bool} (h : fenceMarker? rest = some (indent, marker))
    (hstart : before.getLast?.elim fresh isLineTerminator = true) :
    marker.length ≤ longestMarkerFrom fresh (before ++ rest) := by
  induction before generalizing fresh with
  | nil =>
    obtain rfl : fresh = true := hstart
    cases rest with
    | nil => cases h
    | cons u rest =>
      rw [nil_append, longestMarkerFrom, if_pos rfl, h]
      exact le_max_left _ _
  | cons u before ih =>
    rw [cons_append, longestMarkerFrom]
    refine (ih ?_).trans (le_max_right _ _)
    rw [getLast?_cons] at hstart
    cases hlast : before.getLast? with
    | none | some v => rwa [hlast] at hstart

theorem length_le_longestFenceMarker {kept : JsString} (hkept : kept <+: text)
    (h : openFenceMarker (kept ++ js "…") = some marker) :
    0 < marker.length ∧ marker.length ≤ longestFenceMarker text := by
  obtain ⟨fence, hfence, rfl⟩ := map_eq_some_iff.mp h
  obtain ⟨n, k, c, before, hn, hk, hc, ⟨-, -, hmarker⟩, hbefore, hstarts⟩ := opened_spec hfence
  rw [hmarker]
  have hinText : before ++ (replicate n SPACE ++ replicate k c) <+: text := by
    rcases prefix_concat_iff.mp hstarts with heq | hstarts
    · obtain ⟨k, rfl⟩ := Nat.exists_eq_add_of_le' hk
      rw [replicate_succ', ← append_assoc, ← append_assoc] at heq
      obtain ⟨-, rfl⟩ := append_singleton_inj.mp heq
      rcases hc with hc | hc <;> exact absurd hc (by decide)
    · exact hstarts.trans hkept
  obtain ⟨rest, rfl⟩ := hinText
  rw [append_assoc, append_assoc, length_replicate]
  have hle := le_longestMarkerFrom (fenceMarker?_replicate hn hk hc rest) hbefore
  rw [length_append, length_replicate] at hle
  exact ⟨by omega, (Nat.le_add_right _ _).trans hle⟩

end Markers

theorem length_closeFence (text : JsString) (opened : Option JsString) :
    (closeFence text opened).length = text.length + opened.elim 0 (·.length + 1) := by
  cases opened with
  | none => rfl
  | some marker => rw [closeFence, length_append, length_cons, elim_some]

theorem length_boundBody (text : JsString) {max : Nat} (h : 1 ≤ max) : (boundBody text max).length ≤ max := by
  rw [boundBody]
  dsimp only
  split
  · rename_i hfits
    rwa [length_closeFence]
  · rw [length_closeFence]
    set room := max - 1 - if 0 < longestFenceMarker text then longestFenceMarker text + 1 else 0 with hroom
    have hkept := rdropWhile_prefix isWhiteSpace (text.take room)
    have hlength : ((text.take room).rdropWhile isWhiteSpace ++ js "…").length ≤ room + 1 :=
      (length_append ..).trans_le (Nat.add_le_add_right (hkept.length_le.trans (length_take_le room text)) 1)
    cases hopened : openFenceMarker ((text.take room).rdropWhile isWhiteSpace ++ js "…") with
    | none =>
      rw [elim_none]
      omega
    | some marker =>
      obtain ⟨hpos, hle⟩ := length_le_longestFenceMarker (hkept.trans ( take_prefix room text)) hopened
      rw [if_pos (hpos.trans_le hle)] at hroom
      rw [elim_some]
      by_cases hnone : room = 0
      · have hcut : openFenceMarker (([] : JsString).rdropWhile isWhiteSpace ++ js "…") = none := by decide
        rw [hnone, take_zero, hcut] at hopened
        cases hopened
      · omega

/-- **A bounded body keeps to its maximum and leaves no fence open.** -/
theorem boundBody_bounded (text : JsString) {max : Nat} (h : 1 ≤ max) :
    (boundBody text max).length ≤ max ∧ (scanFenceSpans (boundBody text max) {}).2.opened = none := by
  refine ⟨length_boundBody text h, map_eq_none_iff.mp (?_ : openFenceMarker (boundBody text max) = none)⟩
  rw [boundBody]
  dsimp only
  split
  · exact openFenceMarker_closeFence _
  · exact openFenceMarker_closeFence _

theorem boundBody_bounded_fenced :
    (boundBody (js "```\nlong code") 9).length ≤ 9 ∧
      (scanFenceSpans (boundBody (js "```\nlong code") 9) {}).2.opened = none :=
  boundBody_bounded _ (by decide)

end ClawWorks
