import ClawWorks.OcPath.RoundTrip

/-!
# Canonical `oc://` paths

- `OcPath.Parsed`: what the parser promises of a path, `parsed_of_parse`;
- `Parsed.readsBack`, `Parsed.normal_format`: so a parsed path reads back when it is formatted.
-/

namespace ClawWorks.OcPath

open List Except.Yields Scanner

section Normal

variable [Nfc]

theorem nfc_part {s t : JsString} (hs : nfc s = s) (ht : t <:+: s) : nfc t = t := Nfc.part s t hs ht

theorem nfc_nil : nfc ([] : JsString) = [] := nfc_part (Nfc.idempotent []) nil_infix

theorem nfc_cons {u : UInt16} {s : JsString} (hu : isInert u) (hs : nfc s = s) : nfc (u :: s) = u :: s :=
  Nfc.join [] u s hu nfc_nil hs

theorem nfc_quoted {v : JsString} (hv : nfc v = v) : nfc (quoted v) = quoted v :=
  nfc_cons rfl (Nfc.join v QUOTE [] rfl hv nfc_nil)

theorem nfc_intercalate {u : UInt16} {pieces : List JsString} (hu : isInert u)
    (hpieces : ∀ p ∈ pieces, nfc p = p) : nfc ([u].intercalate pieces) = [u].intercalate pieces := by
  induction pieces with
  | nil => exact nfc_nil
  | cons p pieces ih =>
    obtain ⟨hp, hrest⟩ := forall_mem_cons.mp hpieces
    cases pieces with
    | nil => rwa [intercalate_singleton]
    | cons q pieces =>
      rw [intercalate_cons_cons, append_assoc, singleton_append]
      exact Nfc.join _ _ _ hu hp (ih hrest)

theorem nfc_quotedSlot {slot : JsString} (hsplit : bracketScanner.split DOT slot = some (subSegments slot))
    (hslot : nfc slot = slot) : nfc (quotedSlot slot) = quotedSlot slot := by
  have hjoin := ((split_eq_some_iff isMark_dot).mp hsplit).2.2
  refine nfc_intercalate rfl fun sub' hsub' => ?_
  obtain ⟨sub, hsub, rfl⟩ := mem_map.mp hsub'
  have hpart : nfc sub = sub := nfc_part hslot (by rw [hjoin]; exact infix_intercalate hsub)
  unfold quotedSub
  split
  · exact hpart
  · exact nfc_quoted hpart

end Normal

/-! ## What the parser promises -/

structure Parsed [Nfc] (path : OcPath) : Prop where
  file : validateFileSlot path.file path.file = .ok ()
  item : ¬(path.item ≠ none ∧ path.sectionSlot = none)
  field : ¬(path.field ≠ none ∧ path.item = none)
  split : ∀ slot ∈ path.slots, bracketScanner.split DOT slot = some (subSegments slot)
  count : ∀ slot ∈ path.slots, (subSegments slot).length ≤ MAX_SUB_SEGMENTS_PER_SLOT
  readable : ∀ slot ∈ path.slots, ∀ sub ∈ subSegments slot, Readable sub
  session : ∀ value ∈ path.session, value ≠ [] ∧ hasControlChar value = false ∧ value.any isReserved = false
  normalScheme : nfc (js "oc:/") = js "oc:/"
  normalFile : nfc path.file = path.file
  normalSlots : ∀ slot ∈ path.slots, nfc slot = slot
  normalSession : ∀ value ∈ path.session, nfc (js "session=" ++ value) = js "session=" ++ value

theorem dropWhile_ne_of_mem {u : UInt16} {s : JsString} (h : u ∈ s) :
    s.dropWhile (· ≠ u) = u :: (s.dropWhile (· ≠ u)).tail := by
  induction s with
  | nil => cases h
  | cons v s ih =>
    by_cases hv : v = u
    · simp [hv]
    · rw [dropWhile_cons_of_pos (by simp [hv])]
      exact ih ((mem_cons.mp h).resolve_left (Ne.symm hv))

theorem firstSession_eq_some {input value : JsString} {pairs : List JsString}
    (h : firstSession input pairs = .ok (some value)) :
    js "session=" ++ value ∈ pairs ∧ value ≠ [] ∧ hasControlChar value = false ∧ value.any isReserved = false := by
  induction pairs with
  | nil => cases h
  | cons pair pairs ih =>
    rw [firstSession] at h
    split at h
    · rename_i hpair
      obtain ⟨hmem, hkey, hne⟩ := hpair
      obtain ⟨_, hvalid, hvalue⟩ := Except.bind_eq_ok.mp h
      obtain rfl := Option.some.inj (Except.ok.inj hvalue)
      obtain ⟨hcontrol, hreserved⟩ := validateSessionSlot_eq_ok_iff.mp hvalid
      refine ⟨mem_cons.mpr (.inl ?_), hne, hcontrol, hreserved⟩
      have hdrop := dropWhile_ne_of_mem hmem
      calc js "session=" ++ (pair.dropWhile (· ≠ 61)).tail
          = js "session" ++ 61 :: (pair.dropWhile (· ≠ 61)).tail := rfl
        _ = pair.takeWhile (· ≠ 61) ++ pair.dropWhile (· ≠ 61) := by rw [hkey, ← hdrop]
        _ = pair := takeWhile_append_dropWhile
    · obtain ⟨hmem, hrest⟩ := ih h
      exact ⟨mem_cons_of_mem _ hmem, hrest⟩

theorem extractSession_eq_some {input queryPart value : JsString}
    (h : extractSession queryPart input = .ok (some value)) :
    js "session=" ++ value <:+: queryPart ∧ value ≠ [] ∧ hasControlChar value = false ∧
      value.any isReserved = false := by
  rw [extractSession] at h
  split at h
  · cases h
  · obtain ⟨hmem, hrest⟩ := firstSession_eq_some h
    refine ⟨?_, hrest⟩
    have hinfix := infix_intercalate (s := [38]) hmem
    rwa [intercalate_splitOn] at hinfix

section Parsing

variable [LowerCase] [Nfc]

theorem normalizeDeepJsonPathSegments_forall {raw segments : List JsString} {file input : JsString}
    (h : normalizeDeepJsonPathSegments raw file input = .ok segments)
    (hraw : ∀ seg ∈ raw, bracketScanner.Clear [QUESTION, SLASH] seg ∧ nfc seg = seg) :
    segments.headD [] = raw.headD [] ∧
      ∀ seg ∈ segments, bracketScanner.Clear [QUESTION, SLASH] seg ∧ nfc seg = seg := by
  rw [normalizeDeepJsonPathSegments] at h
  split at h
  · obtain rfl := Except.ok.inj h
    exact ⟨rfl, hraw⟩
  · rename_i hdeep
    obtain ⟨hlength, -⟩ := not_or.mp hdeep
    obtain ⟨_, -, hsegments⟩ := Except.bind_eq_ok.mp h
    obtain rfl := Except.ok.inj hsegments
    rcases raw with _ | ⟨first, _ | ⟨second, rest⟩⟩
    · exact absurd (by simp) hlength
    · exact absurd (by simp) hlength
    · have htail : ∀ seg ∈ second :: rest, bracketScanner.Clear [QUESTION, SLASH] seg ∧ nfc seg = seg :=
        fun seg hseg => hraw seg (mem_cons_of_mem _ hseg)
      have hget : ∀ i < (second :: rest).length, (second :: rest).getD i [] ∈ second :: rest := by
        intro i hi
        rw [getD_eq_getElem?_getD, getElem?_eq_getElem hi, Option.getD_some]
        exact getElem_mem hi
      have htake : ∀ seg ∈ (second :: rest).take ((second :: rest).length - 2), seg ∈ second :: rest :=
        fun seg hseg => mem_of_mem_take hseg
      refine ⟨rfl, ?_⟩
      simp only [tail_cons, forall_mem_cons]
      refine ⟨hraw _ mem_cons_self, ⟨?_, ?_⟩, htail _ (hget _ ?_), htail _ (hget _ ?_), by simp⟩
      · exact (clear_intercalate_iff isMark_dot (by decide) fun seg hseg =>
          (htail seg (htake seg hseg)).1.balanced).mpr fun seg hseg => (htail seg (htake seg hseg)).1
      · exact nfc_intercalate rfl fun seg hseg => (htail seg (htake seg hseg)).2
      · rw [length_cons]
        omega
      · rw [length_cons]
        omega

omit [LowerCase] [Nfc] in
theorem slots_of_segments {segments : List JsString} {file : JsString} {session : Option JsString}
    (hcount : segments.length ≤ 4) :
    (⟨file, segments[1]?, segments[2]?, segments[3]?, session⟩ : OcPath).slots = segments.tail := by
  match segments, hcount with
  | [], _ => rfl
  | [_], _ => rfl
  | [_, _], _ => rfl
  | [_, _, _], _ => rfl
  | [_, _, _, _], _ => rfl

omit [LowerCase] [Nfc] in
theorem getElem?_eq_none_succ {segments : List JsString} {i : Nat} :
    ¬(segments[i + 1]? ≠ none ∧ segments[i]? = none) := by
  rintro ⟨hnext, hnone⟩
  rw [getElem?_eq_none_iff] at hnone
  exact hnext (getElem?_eq_none_iff.mpr (by omega))

omit [LowerCase] [Nfc] in
theorem subSegments_of_validateSegment {input seg : JsString} (h : validateSegment input seg = .ok ())
    (hclear : bracketScanner.Clear [QUESTION, SLASH] seg) :
    bracketScanner.split DOT seg = some (subSegments seg) ∧
      (subSegments seg).length ≤ MAX_SUB_SEGMENTS_PER_SLOT ∧ ∀ sub ∈ subSegments seg, Readable sub := by
  obtain ⟨-, subs, hsplit, hcount, hvalid⟩ := validateSegment_eq_ok_iff.mp h
  have hsubs : subSegments seg = subs := by rw [subSegments, hsplit, Option.getD_some]
  rw [hsubs]
  obtain ⟨-, hdot, hjoin⟩ := (split_eq_some_iff isMark_dot).mp hsplit
  rw [hjoin, clear_intercalate_iff isMark_dot (by decide) fun sub hsub => (hdot sub hsub).balanced] at hclear
  refine ⟨hsplit, hcount, fun sub hsub => ⟨?_, hvalid sub hsub⟩⟩
  exact clear_append_marks_iff.mpr ⟨hclear sub hsub, hdot sub hsub⟩

omit [LowerCase] [Nfc] in
theorem unquoteSeg_part (seg : JsString) : unquoteSeg seg <:+: seg := by
  unfold unquoteSeg
  split
  · exact ( dropLast_prefix _).isInfix.trans (tail_suffix _).isInfix
  · exact infix_rfl

theorem parsed_of_parse {input : JsString} {path : OcPath} (h : parseOcPath input = .ok path) : Parsed path := by
  obtain ⟨text, htext, -, -, ⟨rest, hrest⟩, -, index, hindex, -, raw, hraw, -, hfile, segments, hsegments, hcount,
    hvalid, session, hsession, rfl⟩ := parseOcPath_eq_ok_iff.mp h
  have hnormal : nfc text = text := by rw [htext, Nfc.idempotent]
  have hdrop : text.drop OC_SCHEME.length = rest := by rw [← hrest, drop_left]
  rw [hdrop] at hindex hraw hsession
  have hnormalRest : nfc rest = rest := nfc_part hnormal ⟨OC_SCHEME, [], by rw [append_nil, hrest]⟩
  obtain ⟨pathPart, query, rfl, hclear, -, hcut⟩ := cutQuery_of_indexOf hindex
  rw [hcut] at hraw hsession
  have hnormalPath : nfc pathPart = pathPart := nfc_part hnormalRest (prefix_append _ _).isInfix
  obtain ⟨hrawNe, hslash, hjoin⟩ := (split_eq_some_iff isMark_slash).mp hraw
  replace hjoin : pathPart = [SLASH].intercalate raw := hjoin
  have hquestion := hclear
  rw [hjoin, clear_intercalate_iff isMark_slash (by decide) fun seg hseg => (hslash seg hseg).balanced]
    at hquestion
  have hrawGood : ∀ seg ∈ raw, bracketScanner.Clear [QUESTION, SLASH] seg ∧ nfc seg = seg := fun seg hseg =>
    ⟨clear_append_marks_iff.mpr ⟨hquestion seg hseg, hslash seg hseg⟩,
      nfc_part hnormalPath (by rw [hjoin]; exact infix_intercalate hseg)⟩
  obtain ⟨-, hgood⟩ := normalizeDeepJsonPathSegments_forall hsegments hrawGood
  have htail : ∀ seg ∈ segments.tail, _ ∧ _ := fun seg hseg => hgood seg (mem_of_mem_tail hseg)
  have hsubs : ∀ seg ∈ segments.tail, _ := fun seg hseg =>
    subSegments_of_validateSegment (hvalid seg (mem_of_mem_tail hseg)) (htail seg hseg).1
  have hsessionFacts : ∀ value ∈ session, _ := fun value hvalue =>
    extractSession_eq_some (by rw [hsession, Option.mem_def.mp hvalue])
  constructor
  · rw [validateFileSlot_eq_ok_iff] at hfile ⊢
    exact hfile
  · exact getElem?_eq_none_succ
  · exact getElem?_eq_none_succ
  · rw [slots_of_segments hcount]
    exact fun seg hseg => (hsubs seg hseg).1
  · rw [slots_of_segments hcount]
    exact fun seg hseg => (hsubs seg hseg).2.1
  · rw [slots_of_segments hcount]
    exact fun seg hseg => (hsubs seg hseg).2.2
  · exact fun value hvalue => (hsessionFacts value hvalue).2
  · exact nfc_part hnormal ⟨[], SLASH :: (pathPart ++ query), by rw [← hrest]; rfl⟩
  · obtain ⟨first, others, rfl⟩ := exists_cons_of_ne_nil hrawNe
    exact nfc_part (hrawGood first mem_cons_self).2 (unquoteSeg_part first)
  · rw [slots_of_segments hcount]
    exact fun seg hseg => (htail seg hseg).2
  · refine fun value hvalue => nfc_part hnormalRest ((hsessionFacts value hvalue).1.trans ?_)
    exact ((tail_suffix _).trans (suffix_append _ _)).isInfix

end Parsing

/-! ## What formatting makes of a parsed path -/

/-- Why formatting refuses a path the parser accepts: a sub-segment or file holds quotes or backslashes, the text is too
long, or it carries the redaction sentinel. -/
def Excused : Failure → Prop
  | .ocPath error => error.code = .unquotable ∨ error.code = .tooLong
  | .emitSentinel _ => True

theorem refuse_yields {refused : Prop} [Decidable refused] {message input : JsString} {code : OcPathErrorCode}
    (hcode : code = .unquotable ∨ code = .tooLong) :
    (refuse refused message input code).Yields (fun _ => True) Excused := by
  unfold refuse
  split
  · exact hcode
  · trivial

theorem quoteSeg_yields (value : JsString) : (quoteSeg value).Yields (fun _ => True) Excused := by
  unfold quoteSeg
  split
  · trivial
  · refine bind_any (refuse_yields (.inl rfl)) fun _ => trivial

theorem formatSubSegment_yields (sub : JsString) : (formatSubSegment sub).Yields (fun _ => True) Excused := by
  rw [formatSubSegment_eq]
  split
  · trivial
  · exact quoteSeg_yields sub

theorem formatFile_yields (file : JsString) : (formatFile file).Yields (fun _ => True) Excused := by
  unfold formatFile
  split
  · exact quoteSeg_yields file
  · trivial

section Formatting

variable [Nfc] {path : OcPath}

theorem Parsed.readsBack (h : Parsed path) (hfile : FileReadable path.file) : ReadsBack path where
  file := hfile
  slots slot hslot := ⟨h.count slot hslot, fun sub hsub _ => h.readable slot hslot sub hsub⟩
  session hsession := (h.session [] hsession).1 rfl

theorem Parsed.normal_format (h : Parsed path) {out : JsString} (hout : formatOcPath path = .ok out) :
    nfc out = out := by
  obtain ⟨hne, -, -, -, -, -, formattedFile, hformatted, rfl, -, -⟩ := formatOcPath_eq_ok_iff.mp hout
  have hfile : nfc formattedFile = formattedFile := by
    rw [formatFile] at hformatted
    split at hformatted
    · obtain ⟨-, -, rfl⟩ := (quoteSeg_eq_ok_iff hne).mp hformatted
      split
      · exact nfc_quoted h.normalFile
      · exact h.normalFile
    · obtain rfl := Except.ok.inj hformatted
      exact h.normalFile
  have hsegments : nfc ([SLASH].intercalate (writtenSegments formattedFile path)) =
      [SLASH].intercalate (writtenSegments formattedFile path) := by
    refine nfc_intercalate rfl (forall_mem_cons.mpr ⟨hfile, fun seg hseg => ?_⟩)
    obtain ⟨slot, hslot, rfl⟩ := mem_map.mp hseg
    exact nfc_quotedSlot (h.split slot hslot) (h.normalSlots slot hslot)
  have hscheme : OC_SCHEME = js "oc:/" ++ [SLASH] := by decide
  rw [hscheme, append_assoc, singleton_append]
  refine Nfc.join _ _ _ rfl h.normalScheme ?_
  cases hsession : path.session with
  | none =>
    rw [writtenQuery, Option.map_none, Option.getD_none, append_nil]
    exact hsegments
  | some value => exact Nfc.join _ QUESTION _ rfl hsegments (h.normalSession value hsession)

omit [Nfc] in
theorem Readable.ne_nil_and_control {sub : JsString} (h : Readable sub) : sub ≠ [] ∧ hasControlChar sub = false := by
  have haccepted := h.accepted
  rw [validateSubSegment, Except.bind_eq_ok] at haccepted
  obtain ⟨_, hne, haccepted⟩ := haccepted
  obtain ⟨_, hcontrol, -⟩ := Except.bind_eq_ok.mp haccepted
  rw [refuse_eq_ok_iff] at hne hcontrol
  exact ⟨hne, Bool.eq_false_iff.mpr hcontrol⟩

theorem Parsed.formatOptionalSlot_yields (h : Parsed path) (file slotName : JsString) {slot : Option JsString}
    (hslot : ∀ s ∈ slot, s ∈ path.slots) : (formatOptionalSlot file slotName slot).Yields (fun _ => True) Excused := by
  cases slot with
  | none => trivial
  | some slot =>
    have hmem := hslot slot rfl
    have hvalid : (subSegments slot).forM (validateSubForFormat file slotName) = .ok () :=
      Except.forM_eq_ok_iff.mpr fun sub hsub =>
        validateSubForFormat_eq_ok_iff.mpr (h.readable slot hmem sub hsub).ne_nil_and_control
    refine bind_any ?_ fun _ => trivial
    refine bind_ok (splitRespectingBrackets_eq_ok_iff.mpr (h.split slot hmem)) ?_
    refine bind_ok hvalid ?_
    exact (mapM fun sub _ => formatSubSegment_yields sub).bind_any fun _ => trivial

omit [Nfc] in
theorem FileReadable.ne_nil {file : JsString} (h : FileReadable file) : file ≠ [] := by
  rintro rfl
  exact (h rfl).1 (by decide)

theorem Parsed.format_excused (h : Parsed path) (hfile : FileReadable path.file) :
    (formatOcPath path).Yields (fun _ => True) Excused := by
  have hsession : ∃ query, formatSession path.file path.session = .ok query :=
    ⟨_, formatSession_eq_ok_iff.mpr ⟨fun value hvalue => (h.session value hvalue).2, rfl⟩⟩
  obtain ⟨query, hquery⟩ := hsession
  unfold formatOcPath
  refine bind_ok (refuse_of_not hfile.ne_nil) ?_
  refine bind_ok h.file ?_
  refine bind_ok (refuse_of_not h.item) ?_
  refine bind_ok (refuse_of_not h.field) ?_
  refine (formatFile_yields path.file).bind_any fun formattedFile => ?_
  refine (h.formatOptionalSlot_yields _ _ fun s hs => mem_slots_iff.mpr (.inl hs)).bind_any fun _ => ?_
  refine (h.formatOptionalSlot_yields _ _ fun s hs => mem_slots_iff.mpr (.inr (.inl hs))).bind_any fun _ => ?_
  refine (h.formatOptionalSlot_yields _ _ fun s hs => mem_slots_iff.mpr (.inr (.inr hs))).bind_any fun _ => ?_
  refine bind_ok hquery ?_
  refine (refuse_yields (.inr rfl)).bind_any fun _ => ?_
  split <;> trivial

end Formatting

/-! ## Both directions -/

def InQuotedForm (path : OcPath) : Prop :=
  ∀ slot ∈ path.slots, ∀ sub ∈ subSegments slot, isStructural sub = true ∨ sub.any isStructure = false

theorem quotedForm_eq_self {path : OcPath} {out : JsString} (h : formatOcPath path = .ok out)
    (hquoted : InQuotedForm path) : quotedForm path = path := by
  obtain ⟨-, -, -, -, hslots, -⟩ := formatOcPath_eq_ok_iff.mp h
  have hslot : ∀ slot ∈ path.slots, quotedSlot slot = slot := by
    intro slot hslot
    have hjoin := ((split_eq_some_iff isMark_dot).mp (hslots slot hslot).1).2.2
    have hsame : ∀ sub ∈ subSegments slot, quotedSub sub = id sub := fun sub hsub =>
      if_pos (hquoted slot hslot sub hsub)
    have hsubs : (subSegments slot).map quotedSub = subSegments slot := by
      rw [map_congr_left hsame, map_id]
    rw [quotedSlot, hsubs, ← hjoin]
  have hoption : ∀ slot : Option JsString, (∀ s ∈ slot, s ∈ path.slots) → slot.map quotedSlot = slot := by
    intro slot hmem
    cases slot with
    | none => rfl
    | some s => rw [Option.map_some, hslot s (hmem s rfl)]
  rw [quotedForm, hoption _ fun s hs => mem_slots_iff.mpr (.inl hs),
    hoption _ fun s hs => mem_slots_iff.mpr (.inr (.inl hs)),
    hoption _ fun s hs => mem_slots_iff.mpr (.inr (.inr hs))]

/-- **Parsing and formatting are inverse up to the quotes of raw sub-segments**: the text of a path is read as its
quoted form, which is the path itself where nothing needs quotes and has the same text; and a path that was parsed is
formatted to such a text unless it cannot be quoted, is too long or carries the redaction sentinel. -/
theorem parse_format_inverse [LowerCase] [Nfc] :
    (∀ (path : OcPath) (out : JsString), formatOcPath path = .ok out → nfc out = out → ReadsBack path →
      parseOcPath out = .ok (quotedForm path) ∧ formatOcPath (quotedForm path) = .ok out) ∧
    (∀ (path : OcPath) (out : JsString), formatOcPath path = .ok out → InQuotedForm path → quotedForm path = path) ∧
    ∀ (input : JsString) (path : OcPath), parseOcPath input = .ok path → FileReadable path.file →
      (∀ out, formatOcPath path = .ok out →
        parseOcPath out = .ok (quotedForm path) ∧ formatOcPath (quotedForm path) = .ok out) ∧
      ∀ failure, formatOcPath path = .error failure → Excused failure := by
  have hback : ∀ (path : OcPath) (out : JsString), formatOcPath path = .ok out → nfc out = out → ReadsBack path →
      parseOcPath out = .ok (quotedForm path) ∧ formatOcPath (quotedForm path) = .ok out :=
    fun path out h hnfc hread => ⟨format_reads_back h hnfc hread, format_quotedForm h hread⟩
  refine ⟨hback, fun path out => quotedForm_eq_self, fun input path h hfile => ?_⟩
  have hparsed := parsed_of_parse h
  refine ⟨fun out hout => ?_, (Except.yields_iff.mp (hparsed.format_excused hfile)).2⟩
  exact hback path out hout (hparsed.normal_format hout) (hparsed.readsBack hfile)

section Slashed

/-- Text that is in normal form already, as ASCII text is. -/
@[reducible] def plainNfc : Nfc where
  nfc s := s
  idempotent _ := rfl
  part _ _ _ _ := rfl
  join _ _ _ _ _ _ := rfl

attribute [local instance] asciiLowerCase plainNfc

theorem nfc_plain (s : JsString) : nfc s = s := rfl

def slashed : OcPath :=
  { file := js "f", sectionSlot := some (js "a/b"), session := some (js "s") }

def slashedText : JsString :=
  js "oc://f/\"a/b\"?session=s"

theorem slashed_format : formatOcPath slashed = .ok slashedText := by decide +kernel

theorem slashed_quotedForm_format : formatOcPath (quotedForm slashed) = .ok slashedText := by decide +kernel

theorem slashed_parse : parseOcPath slashedText = .ok (quotedForm slashed) := by decide +kernel

theorem slashed_inQuotedForm : InQuotedForm (quotedForm slashed) := by
  unfold InQuotedForm
  decide +kernel

theorem slashed_readsBack : ReadsBack slashed where
  file := fun _ => by decide
  slots := by
    intro slot hslot
    obtain rfl : slot = js "a/b" := by simpa [slots, slashed] using hslot
    have hraw : ∀ sub ∈ subSegments (js "a/b"), isStructural sub = false := by decide
    exact ⟨by decide, fun sub hsub h => absurd (h.symm.trans (hraw sub hsub)) (by decide)⟩
  session := by decide

theorem slashed_reads_back_quoted :
    (parseOcPath slashedText = .ok (quotedForm slashed) ∧ formatOcPath (quotedForm slashed) = .ok slashedText) ∧
      quotedForm (quotedForm slashed) = quotedForm slashed ∧
      parseOcPath slashedText = .ok (quotedForm (quotedForm slashed)) ∧
      formatOcPath (quotedForm (quotedForm slashed)) = .ok slashedText :=
  ⟨parse_format_inverse.1 slashed slashedText slashed_format (nfc_plain slashedText) slashed_readsBack,
    parse_format_inverse.2.1 (quotedForm slashed) slashedText slashed_quotedForm_format slashed_inQuotedForm,
    (parse_format_inverse.2.2 slashedText (quotedForm slashed) slashed_parse slashed_readsBack.file).1 slashedText
      slashed_quotedForm_format⟩

/-- A raw section with a slash is not read back as it was: its quotes stay. -/
theorem raw_section_not_read_back :
    formatOcPath { file := js "f", sectionSlot := some (js "a/b") } = .ok (js "oc://f/\"a/b\"") ∧
      parseOcPath (js "oc://f/\"a/b\"") ≠ .ok { file := js "f", sectionSlot := some (js "a/b") } := by
  decide

end Slashed

end ClawWorks.OcPath
