import ClawWorks.OcPath.OcPath

/-!
# Segments of `oc://` paths

What formatting writes for a sub-segment is one sub-segment for the parser.
-/

namespace ClawWorks.OcPath

open Except List Scanner

/-! ## What the scanner sees -/

/-- Neither a quote nor a bracket. -/
def isPlain (c : UInt16) : Bool :=
  c != QUOTE && c != LBRACKET && c != RBRACKET && c != LBRACE && c != RBRACE

variable {c : UInt16}

theorem isPlain_iff : isPlain c ↔ c ≠ QUOTE ∧ c ≠ LBRACKET ∧ c ≠ RBRACKET ∧ c ≠ LBRACE ∧ c ≠ RBRACE := by
  simp [isPlain, and_assoc]

theorem scanStep_plain (hc : isPlain c) {state : ScanState} (hquote : state.inQuote = false) : scanStep state c =
      if state.depthBracket < 0 ∨ state.depthBrace < 0 then none
      else some (⟨state.depthBracket, state.depthBrace, false⟩,
        decide (state.depthBracket = 0 ∧ state.depthBrace = 0)) := by
  obtain ⟨hq, hl, hr, hl', hr'⟩ := isPlain_iff.mp hc
  simp only [scanStep, hquote, Bool.false_eq_true, if_false, if_neg hq, if_neg hl, if_neg hr, if_neg hl', if_neg hr']

theorem isMark_of_plain (hc : isPlain c) : bracketScanner.IsMark c := by
  rintro ⟨depthBracket, depthBrace, inQuote⟩ state'
  cases inQuote with
  | true => simp [bracketScanner, scanStep]
  | false =>
    have hstep := scanStep_plain hc (rfl : (⟨depthBracket, depthBrace, false⟩ : ScanState).inQuote = false)
    simp only [bracketScanner, hstep]
    constructor
    · intro h
      split at h
      · cases h
      · obtain ⟨rfl, hdepth⟩ := Prod.mk.inj (Option.some.inj h)
        obtain ⟨rfl, rfl⟩ := of_decide_eq_true hdepth
        exact ⟨rfl, rfl⟩
    · rintro ⟨hstate, rfl⟩
      cases hstate
      rfl

theorem isMark_dot : bracketScanner.IsMark DOT := isMark_of_plain rfl

theorem isMark_slash : bracketScanner.IsMark SLASH := isMark_of_plain rfl

theorem isMark_question : bracketScanner.IsMark QUESTION := isMark_of_plain rfl

theorem walk_inQuote {marks v : List UInt16} (hv : QUOTE ∉ v) :
    bracketScanner.walk marks ⟨0, 0, true⟩ v = some ⟨0, 0, true⟩ := by
  induction v with
  | nil => rfl
  | cons c v ih =>
    have hc : c ≠ QUOTE := (ne_of_not_mem_cons hv).symm
    refine walk_cons_eq_some.mpr ⟨⟨0, 0, true⟩, false, ?_, nofun, ih (not_mem_of_not_mem_cons hv)⟩
    simp [bracketScanner, scanStep, hc]

theorem clear_quoted {marks v : List UInt16} (hv : QUOTE ∉ v) : bracketScanner.Clear marks (quoted v) := by
  have hopen : bracketScanner.walk marks bracketScanner.start [QUOTE] = some ⟨0, 0, true⟩ := rfl
  have hclose : bracketScanner.walk marks ⟨0, 0, true⟩ [QUOTE] = some bracketScanner.start := rfl
  have hquoted : quoted v = [QUOTE] ++ v ++ [QUOTE] := rfl
  rw [Scanner.Clear, hquoted, walk_append, walk_append, hopen, Option.bind_some, walk_inQuote hv,
    Option.bind_some, hclose]

theorem clear_plain_iff {marks s : List UInt16} (h : ∀ c ∈ s, isPlain c) :
    bracketScanner.Clear marks s ↔ ∀ c ∈ s, c ∉ marks :=
  clear_iff_forall fun c hc => isMark_of_plain (h c hc)

theorem splitRespectingBrackets_eq_ok_iff {s input : JsString} {delim : UInt16} {out : List JsString} :
    splitRespectingBrackets s delim input = .ok out ↔ bracketScanner.split delim s = some out := by
  unfold splitRespectingBrackets
  cases bracketScanner.split delim s <;> simp

variable {s : JsString}

theorem indexOfTopLevel_eq_ok_iff {ch : UInt16} {index : Option Nat} :
    indexOfTopLevel s ch = .ok index ↔ bracketScanner.indexOf ch s = some index := by
  unfold indexOfTopLevel
  cases bracketScanner.indexOf ch s <;> simp

/-! ## Quotes around a value -/

@[simp] theorem isQuotedSeg_quoted (v : JsString) : isQuotedSeg (quoted v) := by
  have hquoted : quoted v = QUOTE :: (v ++ [QUOTE]) := rfl
  simp [isQuotedSeg, startsWith, endsWith, hquoted, getLast?_cons]

@[simp] theorem inside_quoted (v : JsString) : inside (quoted v) = v := by
  have hquoted : quoted v = QUOTE :: (v ++ [QUOTE]) := rfl
  simp [inside, hquoted]

@[simp] theorem unquoteSeg_quoted (v : JsString) : unquoteSeg (quoted v) = v := by
  rw [unquoteSeg, if_pos (isQuotedSeg_quoted v), inside_quoted]

theorem isQuotedSeg_of_not_mem (hs : QUOTE ∉ s) : isQuotedSeg s = false := by
  have hstart : startsWith s QUOTE = false := by
    rw [startsWith, beq_eq_false_iff_ne]
    exact fun h => hs (mem_of_head? h)
  simp [isQuotedSeg, hstart]

theorem unquoteSeg_of_not_mem (hs : QUOTE ∉ s) : unquoteSeg s = s := by
  rw [unquoteSeg, isQuotedSeg_of_not_mem hs]
  rfl

theorem hasControlChar_append (s t : JsString) : hasControlChar (s ++ t) = (hasControlChar s || hasControlChar t) :=
  any_append

theorem hasControlChar_quoted (v : JsString) : hasControlChar (quoted v) = hasControlChar v := by
  have hquoted : quoted v = [QUOTE] ++ v ++ [QUOTE] := rfl
  have hquote : hasControlChar [QUOTE] = false := rfl
  rw [hquoted, hasControlChar_append, hasControlChar_append, hquote, Bool.or_false, Bool.false_or]

variable {pieces : List JsString}

theorem hasControlChar_intercalate (hc : isControl c = false)
    (hpieces : ∀ p ∈ pieces, hasControlChar p = false) : hasControlChar ([c].intercalate pieces) = false := by
  induction pieces with
  | nil => rfl
  | cons p pieces ih =>
    obtain ⟨hp, hrest⟩ := forall_mem_cons.mp hpieces
    cases pieces with
    | nil => rwa [intercalate_singleton]
    | cons q pieces =>
      have hone : hasControlChar [c] = false := by simp [hasControlChar, hc]
      rw [intercalate_cons_cons, hasControlChar_append, hasControlChar_append, hp, hone, ih hrest]
      rfl

theorem hasControlChar_of_subset {s t : JsString} (h : ∀ u ∈ t, u ∈ s) (hs : hasControlChar s = false) :
    hasControlChar t = false :=
  any_eq_false.mpr fun u hu => any_eq_false.mp hs u (h u hu)

/-! ## Sub-segments -/

/-- In structural form: quoted, or a predicate, sentinel or union in its brackets. -/
def isStructural (sub : JsString) : Bool :=
  isQuotedSeg sub || (startsWith sub LBRACKET && endsWith sub RBRACKET) ||
    (startsWith sub LBRACE && endsWith sub RBRACE)

/-- A sub-segment with quotes where it needs them. -/
def quotedSub (sub : JsString) : JsString :=
  if isStructural sub = true ∨ sub.any isStructure = false then sub else quoted sub

theorem quotedSub_ne_nil {sub : JsString} (hne : sub ≠ []) : quotedSub sub ≠ [] := by
  unfold quotedSub
  split
  · exact hne
  · simp [quoted, js, codeUnits]

/-- One sub-segment for the parser: it passes the checks and no separator in it splits the path. -/
structure Readable (sub : JsString) : Prop where
  clear : bracketScanner.Clear [QUESTION, SLASH, DOT] sub
  accepted : validateSubSegment sub sub = .ok ()

theorem validateSubSegment_eq_ok_iff {sub : JsString} (input : JsString) :
    validateSubSegment sub input = .ok () ↔ validateSubSegment sub sub = .ok () := by
  simp only [validateSubSegment, validatePlainSegment, validateBracketSegment, validateBraceSegment,
    bind_eq_ok, refuse_eq_ok_iff]
  split_ifs <;> simp only [bind_eq_ok, refuse_eq_ok_iff]

theorem formatSubSegment_eq (sub : JsString) :
    formatSubSegment sub = if isStructural sub then .ok sub else quoteSeg sub := by
  unfold formatSubSegment isStructural
  cases isQuotedSeg sub <;> cases startsWith sub LBRACKET <;> cases endsWith sub RBRACKET <;> simp

theorem quoteSeg_eq_ok_iff {value out : JsString} (hne : value ≠ []) : quoteSeg value = .ok out ↔
      QUOTE ∉ value ∧ BACKSLASH ∉ value ∧ out = if value.any isStructure then quoted value else value := by
  rw [quoteSeg, if_neg hne, Except.bind_eq_ok]
  simp only [refuse_eq_ok_iff, not_or, pure, Except.pure, Except.ok.injEq]
  constructor
  · rintro ⟨-, ⟨hquote, hbackslash⟩, rfl⟩
    exact ⟨hquote, hbackslash, rfl⟩
  · rintro ⟨hquote, hbackslash, rfl⟩
    exact ⟨(), ⟨hquote, hbackslash⟩, rfl⟩

theorem formatSubSegment_eq_ok_iff {sub out : JsString} (hne : sub ≠ []) : formatSubSegment sub = .ok out ↔
      (isStructural sub = false → QUOTE ∉ sub ∧ BACKSLASH ∉ sub) ∧ out = quotedSub sub := by
  rw [formatSubSegment_eq, quotedSub]
  cases hstructural : isStructural sub with
  | true =>
    rw [if_pos rfl, if_pos (.inl rfl), ok.injEq]
    exact ⟨fun h => ⟨nofun, h.symm⟩, fun h => h.2.symm⟩
  | false =>
    rw [if_neg (by simp), quoteSeg_eq_ok_iff hne, ← and_assoc]
    cases sub.any isStructure <;> simp

theorem startsWith_of_not_mem (hc : c ∉ s) : startsWith s c = false := by
  rw [startsWith, beq_eq_false_iff_ne]
  exact fun h => hc (mem_of_head? h)

theorem endsWith_of_not_mem (hc : c ∉ s) : endsWith s c = false := by
  rw [endsWith, beq_eq_false_iff_ne]
  exact fun h => hc (mem_of_getLast? h)

theorem isStructure_eq_false_iff :
    isStructure c = false ↔ c ∉ [SLASH, DOT, LBRACKET, RBRACKET, LBRACE, RBRACE] ∧ isReserved c = false ∧
      isWhiteSpace c = false := by
  simp only [isStructure, Bool.or_eq_false_iff, beq_eq_false_iff_ne, mem_cons, not_mem_nil, or_false,
    not_or, and_assoc]

section Plain

variable {sub : JsString} (hquote : QUOTE ∉ sub) (hplain : ∀ c ∈ sub, isStructure c = false)
include hplain

theorem not_mem_of_plain {c : UInt16} (hc : isStructure c) : c ∉ sub := fun hmem => by simp [hplain c hmem] at hc

include hquote in
theorem clear_of_no_structure : bracketScanner.Clear [QUESTION, SLASH, DOT] sub := by
  have hall : ∀ c ∈ sub, isPlain c := fun c hc => by
    have hother := (isStructure_eq_false_iff.mp (hplain c hc)).1
    simp only [mem_cons, not_mem_nil, or_false, not_or] at hother
    exact isPlain_iff.mpr ⟨fun h => hquote (h ▸ hc), hother.2.2⟩
  refine (clear_plain_iff hall).mpr fun c hc hmark => ?_
  · have hstructure : isStructure c := by
      simp only [mem_cons, not_mem_nil, or_false] at hmark
      rcases hmark with rfl | rfl | rfl <;> rfl
    exact not_mem_of_plain hplain hstructure hc

include hquote in
theorem readable_of_plain (hne : sub ≠ []) (hcontrol : hasControlChar sub = false) : Readable sub := by
  have hspace : ∀ c ∈ sub, isWhiteSpace c = false := fun c hc => (isStructure_eq_false_iff.mp (hplain c hc)).2.2
  have hspaces : sub.any isWhiteSpace = false := any_eq_false.mpr fun c hc => by simp [hspace c hc]
  have hreserved : sub.any isReserved = false :=
    any_eq_false.mpr fun c hc => by simp [(isStructure_eq_false_iff.mp (hplain c hc)).2.1]
  have hnone : ∀ {c}, isStructure c → c ∉ sub := not_mem_of_plain hplain
  have hl : startsWith sub LBRACKET = false := startsWith_of_not_mem (hnone rfl)
  have hr : endsWith sub RBRACKET = false := endsWith_of_not_mem (hnone rfl)
  have hl' : startsWith sub LBRACE = false := startsWith_of_not_mem (hnone rfl)
  have hr' : endsWith sub RBRACE = false := endsWith_of_not_mem (hnone rfl)
  refine ⟨clear_of_no_structure hquote hplain, ?_⟩
  simp [validateSubSegment, validatePlainSegment, validateBracketSegment, validateBraceSegment,
    isQuotedSeg_of_not_mem hquote, hl, hr, hl', hr', hne, hcontrol, hspaces, hreserved, trim_eq_self hspace,
    bind, Except.bind, pure, Except.pure]

end Plain

theorem readable_quoted {v : JsString} (hcontrol : hasControlChar v = false) (hquote : QUOTE ∉ v)
    (hbackslash : BACKSLASH ∉ v) : Readable (quoted v) := by
  refine ⟨clear_quoted hquote, ?_⟩
  have hne : quoted v ≠ [] := by simp [quoted, js, codeUnits]
  simp only [validateSubSegment, isQuotedSeg_quoted, inside_quoted, if_true, bind_eq_ok, refuse_eq_ok_iff]
  exact ⟨(), hne, (), by rw [hasControlChar_quoted, hcontrol]; simp, by simp [hquote, hbackslash]⟩

theorem quotedSub_readable {sub : JsString} (hne : sub ≠ []) (hcontrol : hasControlChar sub = false)
    (hraw : isStructural sub = false → QUOTE ∉ sub ∧ BACKSLASH ∉ sub)
    (hstructural : isStructural sub → Readable sub) : Readable (quotedSub sub) := by
  cases h : isStructural sub with
  | true =>
    rw [quotedSub, if_pos (.inl h)]
    exact hstructural h
  | false =>
    obtain ⟨hquote, hbackslash⟩ := hraw h
    cases hplain : sub.any isStructure with
    | false =>
      rw [quotedSub, if_pos (.inr hplain)]
      exact readable_of_plain hquote (fun c hc => by simpa using any_eq_false.mp hplain c hc) hne hcontrol
    | true =>
      rw [quotedSub, if_neg (by simp [h, hplain])]
      exact readable_quoted hcontrol hquote hbackslash

/-! ## Slots -/

structure Formattable (sub : JsString) : Prop where
  ne_nil : sub ≠ []
  control : hasControlChar sub = false
  raw : isStructural sub = false → QUOTE ∉ sub ∧ BACKSLASH ∉ sub

def subSegments (slot : JsString) : List JsString :=
  (bracketScanner.split DOT slot).getD []

/-- A slot with quotes where its sub-segments need them. -/
def quotedSlot (slot : JsString) : JsString :=
  [DOT].intercalate ((subSegments slot).map quotedSub)

/-- A slot whose structural sub-segments are ones the parser accepts. -/
structure SlotReadable (slot : JsString) : Prop where
  count : (subSegments slot).length ≤ MAX_SUB_SEGMENTS_PER_SLOT
  structural : ∀ sub ∈ subSegments slot, isStructural sub = true → Readable sub

theorem validateSubForFormat_eq_ok_iff {file slotName sub : JsString} :
    validateSubForFormat file slotName sub = .ok () ↔ sub ≠ [] ∧ hasControlChar sub = false := by
  simp [validateSubForFormat, bind_eq_ok]

theorem formatSlot_eq_ok_iff {file slot slotName out : JsString} : formatSlot file slot slotName = .ok out ↔
      bracketScanner.split DOT slot = some (subSegments slot) ∧ (∀ sub ∈ subSegments slot, Formattable sub) ∧
        out = quotedSlot slot := by
  rw [formatSlot, Except.bind_eq_ok]
  simp only [splitRespectingBrackets_eq_ok_iff, Except.bind_eq_ok, Except.forM_eq_ok_iff,
    validateSubForFormat_eq_ok_iff, pure, Except.pure, Except.ok.injEq]
  constructor
  · rintro ⟨subs, hsplit, -, hvalid, formatted, hformatted, rfl⟩
    have hsubs : subSegments slot = subs := by rw [subSegments, hsplit, Option.getD_some]
    obtain ⟨hraw, rfl⟩ :=
      (Except.mapM_eq_ok_iff fun sub hsub out => formatSubSegment_eq_ok_iff (hvalid sub hsub).1).mp hformatted
    rw [quotedSlot, hsubs]
    exact ⟨hsplit, fun sub hsub => ⟨(hvalid sub hsub).1, (hvalid sub hsub).2, hraw sub hsub⟩, rfl⟩
  · rintro ⟨hsplit, hvalid, rfl⟩
    refine ⟨_, hsplit, (), fun sub hsub => ⟨(hvalid sub hsub).ne_nil, (hvalid sub hsub).control⟩, _, ?_, rfl⟩
    refine (Except.mapM_eq_ok_iff fun sub hsub out => formatSubSegment_eq_ok_iff (hvalid sub hsub).ne_nil).mpr ?_
    exact ⟨fun sub hsub => (hvalid sub hsub).raw, rfl⟩

theorem validateSegment_eq_ok_iff {input seg : JsString} : validateSegment input seg = .ok () ↔
      bracketScanner.Clear [] seg ∧ ∃ subs, bracketScanner.split DOT seg = some subs ∧
        subs.length ≤ MAX_SUB_SEGMENTS_PER_SLOT ∧ ∀ sub ∈ subs, validateSubSegment sub sub = .ok () := by
  simp only [validateSegment, validateBrackets, bind_eq_ok, refuse_eq_ok_iff, not_not, not_lt,
    splitRespectingBrackets_eq_ok_iff, forM_eq_ok_iff, validateSubSegment_eq_ok_iff input]
  simp

/-- Readable sub-segments make a segment the parser accepts, and splits as it was joined. -/
structure SegmentReadable (seg : JsString) (subs : List JsString) : Prop where
  ne_nil : seg ≠ []
  clear : bracketScanner.Clear [QUESTION, SLASH] seg
  split : bracketScanner.split DOT seg = some subs
  accepted : ∀ input, validateSegment input seg = .ok ()

theorem infix_intercalate {s piece : JsString} (hpiece : piece ∈ pieces) : piece <:+: s.intercalate pieces := by
  induction pieces with
  | nil => cases hpiece
  | cons p pieces ih =>
    cases pieces with
    | nil =>
      obtain rfl := mem_singleton.mp hpiece
      exact ⟨[], [], by rw [intercalate_singleton, nil_append, append_nil]⟩
    | cons q pieces =>
      rw [intercalate_cons_cons, append_assoc]
      rcases mem_cons.mp hpiece with rfl | hpiece
      · exact (prefix_append _ _).isInfix
      · exact (ih hpiece).trans ((suffix_append _ _).trans (suffix_append _ _)).isInfix

theorem intercalate_ne_nil (hne : pieces ≠ []) (hpieces : ∀ p ∈ pieces, p ≠ []) : [c].intercalate pieces ≠ [] := by
  match pieces, hne with
  | [p], _ => simpa using hpieces
  | p :: q :: rest, _ => simp [intercalate_cons_cons]

theorem segmentReadable_intercalate {subs : List JsString} (hne : subs ≠ [])
    (hcount : subs.length ≤ MAX_SUB_SEGMENTS_PER_SLOT) (hsubs : ∀ sub ∈ subs, Readable sub)
    (hnonempty : ∀ sub ∈ subs, sub ≠ []) : SegmentReadable ([DOT].intercalate subs) subs := by
  have hclear : ∀ sub ∈ subs, bracketScanner.Clear [QUESTION, SLASH] sub ∧ bracketScanner.Clear [DOT] sub :=
    fun sub hsub => clear_append_marks_iff.mp (hsubs sub hsub).clear
  have hbalanced : ∀ sub ∈ subs, bracketScanner.Clear [] sub := fun sub hsub => (hclear sub hsub).1.balanced
  have hseg : bracketScanner.Clear [QUESTION, SLASH] ([DOT].intercalate subs) :=
    (clear_intercalate_iff isMark_dot (by decide) hbalanced).mpr fun sub hsub => (hclear sub hsub).1
  have hsplit : bracketScanner.split DOT ([DOT].intercalate subs) = some subs :=
    (split_eq_some_iff isMark_dot).mpr ⟨hne, fun sub hsub => (hclear sub hsub).2, rfl⟩
  refine ⟨intercalate_ne_nil hne hnonempty, hseg, hsplit, fun input => ?_⟩
  exact validateSegment_eq_ok_iff.mpr ⟨hseg.balanced, subs, hsplit, hcount, fun sub hsub => (hsubs sub hsub).accepted⟩

theorem quotedSlot_readable {slot : JsString} (hsplit : bracketScanner.split DOT slot = some (subSegments slot))
    (hsubs : ∀ sub ∈ subSegments slot, Formattable sub) (hslot : SlotReadable slot) :
    SegmentReadable (quotedSlot slot) ((subSegments slot).map quotedSub) := by
  have hne := ((split_eq_some_iff isMark_dot).mp hsplit).1
  refine segmentReadable_intercalate (by simpa using hne) (by simpa using hslot.count) ?_ ?_
  · intro sub' hsub'
    obtain ⟨sub, hsub, rfl⟩ := mem_map.mp hsub'
    have h := hsubs sub hsub
    exact quotedSub_readable h.ne_nil h.control h.raw (hslot.structural sub hsub)
  · intro sub' hsub'
    obtain ⟨sub, hsub, rfl⟩ := mem_map.mp hsub'
    exact quotedSub_ne_nil (hsubs sub hsub).ne_nil

theorem quotedSub_quotedSub (sub : JsString) : quotedSub (quotedSub sub) = quotedSub sub := by
  by_cases h : isStructural sub ∨ sub.any isStructure = false
  · have hsub : quotedSub sub = sub := if_pos h
    rw [hsub, hsub]
  · have hsub : quotedSub sub = quoted sub := if_neg h
    rw [hsub]
    exact if_pos (.inl (by simp [isStructural]))

theorem quotedSub_formattable {sub : JsString} (h : Formattable sub) : Formattable (quotedSub sub) := by
  refine ⟨quotedSub_ne_nil h.ne_nil, ?_, ?_⟩
  · unfold quotedSub
    split
    · exact h.control
    · rw [hasControlChar_quoted, h.control]
  · unfold quotedSub
    split
    · exact h.raw
    · exact fun hraw => by simp [isStructural] at hraw

theorem hasControlChar_quotedSlot {slot : JsString} (hsubs : ∀ sub ∈ subSegments slot, Formattable sub) :
    hasControlChar (quotedSlot slot) = false := by
  refine hasControlChar_intercalate rfl fun sub' hsub' => ?_
  obtain ⟨sub, hsub, rfl⟩ := mem_map.mp hsub'
  exact (quotedSub_formattable (hsubs sub hsub)).control

theorem formatSlot_quotedSlot {slot : JsString} (file slotName : JsString)
    (hsubs : ∀ sub ∈ subSegments slot, Formattable sub)
    (hread : SegmentReadable (quotedSlot slot) ((subSegments slot).map quotedSub)) :
    formatSlot file (quotedSlot slot) slotName = .ok (quotedSlot slot) := by
  have hsubSegments : subSegments (quotedSlot slot) = (subSegments slot).map quotedSub := by
    rw [subSegments, hread.split, Option.getD_some]
  refine formatSlot_eq_ok_iff.mpr ⟨by rw [hsubSegments, hread.split], ?_, ?_⟩
  · rw [hsubSegments]
    intro sub' hsub'
    obtain ⟨sub, hsub, rfl⟩ := mem_map.mp hsub'
    exact quotedSub_formattable (hsubs sub hsub)
  · have hsame : quotedSub ∘ quotedSub = quotedSub := funext quotedSub_quotedSub
    calc quotedSlot slot
        = [DOT].intercalate ((subSegments (quotedSlot slot)).map quotedSub) := by
          rw [hsubSegments, map_map, hsame]
          rfl
      _ = quotedSlot (quotedSlot slot) := rfl

/-- A file that is not quoted reads as dotted sub-segments. -/
def FileReadable (file : JsString) : Prop :=
  file.any isFileStructure = false → [] ∉ subSegments file ∧ (subSegments file).length ≤ MAX_SUB_SEGMENTS_PER_SLOT

theorem isFileStructure_eq_false_iff :
    isFileStructure c = false ↔ c ∉ [SLASH, LBRACKET, RBRACKET, LBRACE, RBRACE, QUOTE] ∧ isReserved c = false ∧
      isWhiteSpace c = false := by
  simp only [isFileStructure, Bool.or_eq_false_iff, beq_eq_false_iff_ne, mem_cons, not_mem_nil, or_false,
    not_or, and_assoc]
  tauto

theorem fileReadable_plain {file : JsString} (hplain : ∀ c ∈ file, isFileStructure c = false)
    (hcontrol : hasControlChar file = false) (hsubs : [] ∉ subSegments file)
    (hcount : (subSegments file).length ≤ MAX_SUB_SEGMENTS_PER_SLOT) : SegmentReadable file (subSegments file) := by
  have hplain := fun c hc => isFileStructure_eq_false_iff.mp (hplain c hc)
  simp only [mem_cons, not_mem_nil, or_false, not_or] at hplain
  have hall : ∀ c ∈ file, isPlain c := fun c hc =>
    have hc := (hplain c hc).1
    isPlain_iff.mpr ⟨hc.2.2.2.2.2, hc.2.1, hc.2.2.1, hc.2.2.2.1, hc.2.2.2.2.1⟩
  obtain ⟨subs, hsplit⟩ := ((clear_plain_iff hall).mpr fun c _ => not_mem_nil).exists_split DOT
  have hsubSegments : subSegments file = subs := by rw [subSegments, hsplit, Option.getD_some]
  rw [hsubSegments] at hsubs hcount ⊢
  obtain ⟨hne, hclear, hfile⟩ := (split_eq_some_iff isMark_dot).mp hsplit
  have hmem : ∀ sub ∈ subs, ∀ c ∈ sub, c ∈ file := fun sub hsub c hc => by
    rw [hfile]
    exact (infix_intercalate hsub).subset hc
  rw [hfile]
  refine segmentReadable_intercalate hne hcount (fun sub hsub => ?_) fun sub hsub hnil => hsubs (hnil ▸ hsub)
  have hdot := (clear_plain_iff fun c hc => hall c (hmem sub hsub c hc)).mp (hclear sub hsub)
  refine readable_of_plain (fun hquote => (hplain _ (hmem sub hsub _ hquote)).1.2.2.2.2.2 rfl) (fun c hc => ?_)
    (fun hnil => hsubs (hnil ▸ hsub)) (hasControlChar_of_subset (hmem sub hsub) hcontrol)
  obtain ⟨hother, hreserved, hspace⟩ := hplain c (hmem sub hsub c hc)
  refine isStructure_eq_false_iff.mpr ⟨?_, hreserved, hspace⟩
  simp only [mem_cons, not_mem_nil, or_false, not_or]
  exact ⟨hother.1, fun h => hdot c hc (mem_singleton.mpr h), hother.2.1, hother.2.2.1, hother.2.2.2.1,
    hother.2.2.2.2.1⟩

theorem formatFile_readable {file out : JsString} (h : formatFile file = .ok out) (hne : file ≠ [])
    (hcontrol : hasControlChar file = false) (hread : FileReadable file) :
    unquoteSeg out = file ∧ hasControlChar out = false ∧ ∃ subs, SegmentReadable out subs := by
  rw [formatFile] at h
  split at h
  · rename_i hstructure
    obtain ⟨hquote, hbackslash, rfl⟩ := (quoteSeg_eq_ok_iff hne).mp h
    have hany : file.any isStructure := by
      obtain ⟨c, hc, hstructure⟩ := any_eq_true.mp hstructure
      refine any_eq_true.mpr ⟨c, hc, ?_⟩
      by_contra hno
      obtain ⟨hother, hreserved, hspace⟩ := isStructure_eq_false_iff.mp (Bool.eq_false_iff.mpr hno)
      simp only [mem_cons, not_mem_nil, or_false, not_or] at hother
      have hplain : isFileStructure c = false := by
        refine isFileStructure_eq_false_iff.mpr ⟨?_, hreserved, hspace⟩
        simp only [mem_cons, not_mem_nil, or_false, not_or]
        exact ⟨hother.1, hother.2.2.1, hother.2.2.2.1, hother.2.2.2.2.1, hother.2.2.2.2.2,
          fun hc' => hquote (hc' ▸ hc)⟩
      rw [hplain] at hstructure
      cases hstructure
    rw [if_pos hany]
    refine ⟨unquoteSeg_quoted file, by rw [hasControlChar_quoted, hcontrol], [quoted file], ?_⟩
    have hone : SegmentReadable ([DOT].intercalate [quoted file]) [quoted file] :=
      segmentReadable_intercalate (by simp) (by simp [MAX_SUB_SEGMENTS_PER_SLOT])
        (by simpa using readable_quoted hcontrol hquote hbackslash) (by simp [quoted, js, codeUnits])
    rwa [intercalate_singleton] at hone
  · rename_i hstructure
    obtain rfl := ok.inj h
    have hplain : ∀ c ∈ file, isFileStructure c = false := by simpa using hstructure
    obtain ⟨hsubs, hcount⟩ := hread (by simpa using hstructure)
    have hquote : QUOTE ∉ file := fun hmem => absurd (hplain QUOTE hmem) (by decide)
    exact ⟨unquoteSeg_of_not_mem hquote, hcontrol, _, fileReadable_plain hplain hcontrol hsubs hcount⟩

end ClawWorks.OcPath
