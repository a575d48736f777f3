import ClawWorks.OcPath.Segments

/-!
# Parsing and formatting `oc://` paths

- `parseOcPath_join`: the segments of a path, read back;
- `parse_readsBack`: a parsed path meets the conditions of that but for its file.
-/

namespace ClawWorks.OcPath

open Except List

/-- The slots behind the file. -/
def slots (path : OcPath) : List JsString :=
  path.sectionSlot.toList ++ path.item.toList ++ path.field.toList

theorem mem_slots_iff {path : OcPath} {slot : JsString} :
    slot ∈ path.slots ↔ slot ∈ path.sectionSlot ∨ slot ∈ path.item ∨ slot ∈ path.field := by
  simp only [slots, mem_append, Option.mem_toList, Option.mem_def, or_assoc]

/-- A path with quotes around the raw sub-segments that need them. -/
def quotedForm (path : OcPath) : OcPath :=
  { path with
    sectionSlot := path.sectionSlot.map quotedSlot
    item := path.item.map quotedSlot
    field := path.field.map quotedSlot }

theorem slots_quotedForm (path : OcPath) : (quotedForm path).slots = path.slots.map quotedSlot := by
  obtain ⟨file, sectionSlot, item, field, session⟩ := path
  cases sectionSlot <;> cases item <;> cases field <;> rfl

/-- The parser accepts the structure a path has: its file as it is written, its structural sub-segments, its session. -/
structure ReadsBack (path : OcPath) : Prop where
  file : FileReadable path.file
  slots : ∀ slot ∈ path.slots, SlotReadable slot
  session : path.session ≠ some []

theorem validateFileSlot_eq_ok_iff {file input : JsString} {u : Unit} : validateFileSlot file input = .ok u ↔
      (startsWith file SLASH = false ∧ startsWith file BACKSLASH = false ∧ hasDrive file = false) ∧
        js ".." ∉ file.splitOnP (fun u => u == BACKSLASH || u == SLASH) ∧ hasControlChar file = false := by
  simp [validateFileSlot, bind_eq_ok]

theorem validateSessionSlot_eq_ok_iff {session input : JsString} {u : Unit} :
    validateSessionSlot session input = .ok u ↔ hasControlChar session = false ∧ session.any isReserved = false := by
  simp only [validateSessionSlot, bind_eq_ok, refuse_eq_ok_iff, Bool.not_eq_true, exists_const]

theorem extractSession_format {value input : JsString} (hne : value ≠ []) (hcontrol : hasControlChar value = false)
    (hreserved : value.any isReserved = false) : extractSession (js "session=" ++ value) input = .ok (some value) := by
  have hamp : (38 : UInt16) ∉ js "session=" ++ value := by
    rw [mem_append, not_or]
    exact ⟨by decide, fun h => absurd (any_eq_false.mp hreserved _ h) (by decide)⟩
  have hkey : js "session=" = [115, 101, 115, 115, 105, 111, 110, 61] := by decide
  have hsession : js "session" = [115, 101, 115, 115, 105, 111, 110] := by decide
  have hvalid : validateSessionSlot value input = .ok () := validateSessionSlot_eq_ok_iff.mpr ⟨hcontrol, hreserved⟩
  rw [extractSession, if_neg (by simp [hkey]), splitOn_eq_singleton hamp]
  simp [firstSession, hkey, hsession, hne, hvalid, bind, Except.bind, pure, Except.pure]

theorem exists_cutQuery {pathPart query : JsString} (hpath : bracketScanner.Clear [QUESTION] pathPart)
    (hquery : query = [] ∨ ∃ queryPart, query = QUESTION :: queryPart) :
    ∃ index, bracketScanner.indexOf QUESTION (pathPart ++ query) = some index ∧
      cutQuery (pathPart ++ query) index = (pathPart, query.tail) := by
  rcases hquery with rfl | ⟨queryPart, rfl⟩
  · refine ⟨none, Scanner.indexOf_eq_some_none_iff.mpr (by rwa [append_nil]), ?_⟩
    rw [cutQuery, append_nil]
    rfl
  · refine ⟨some pathPart.length,
      (Scanner.indexOf_eq_some_some_iff isMark_question).mpr ⟨pathPart, queryPart, rfl, rfl, hpath⟩, ?_⟩
    simp [cutQuery, drop_append]

theorem cutQuery_of_indexOf {text : JsString} {index : Option Nat}
    (h : bracketScanner.indexOf QUESTION text = some index) :
    ∃ pathPart query, text = pathPart ++ query ∧ bracketScanner.Clear [QUESTION] pathPart ∧
      (query = [] ∨ ∃ queryPart, query = QUESTION :: queryPart) ∧
      cutQuery text index = (pathPart, query.tail) := by
  cases index with
  | none =>
    have hclear := Scanner.indexOf_eq_some_none_iff.mp h
    exact ⟨text, [], (append_nil text).symm, hclear, .inl rfl, rfl⟩
  | some index =>
    obtain ⟨pathPart, queryPart, rfl, rfl, hclear⟩ := (Scanner.indexOf_eq_some_some_iff isMark_question).mp h
    obtain ⟨_, hindex, hcut⟩ := exists_cutQuery hclear (.inr ⟨queryPart, rfl⟩)
    obtain rfl := Option.mem_unique hindex h
    exact ⟨pathPart, _, rfl, hclear, .inr ⟨queryPart, rfl⟩, hcut⟩

/-! ## What formatting writes -/

theorem formatOptionalSlot_eq_ok_iff {file slotName out : JsString} {slot : Option JsString} :
    formatOptionalSlot file slotName slot = .ok out ↔
      (∀ s ∈ slot, bracketScanner.split DOT s = some (subSegments s) ∧ ∀ sub ∈ subSegments s, Formattable sub) ∧
        out = ((slot.map fun s => SLASH :: quotedSlot s).getD []) := by
  cases slot with
  | none =>
    rw [formatOptionalSlot, Except.ok.injEq]
    exact ⟨fun h => ⟨nofun, h.symm⟩, fun h => h.2.symm⟩
  | some s =>
    simp only [formatOptionalSlot, Except.bind_eq_ok, formatSlot_eq_ok_iff, pure, Except.pure, Except.ok.injEq,
      Option.mem_some_iff, Option.map_some, Option.getD_some]
    constructor
    · rintro ⟨_, ⟨hsplit, hsubs, rfl⟩, rfl⟩
      exact ⟨by rintro _ rfl; exact ⟨hsplit, hsubs⟩, rfl⟩
    · rintro ⟨h, rfl⟩
      exact ⟨_, ⟨(h s rfl).1, (h s rfl).2, rfl⟩, rfl⟩

variable {session : Option JsString}

theorem formatSession_eq_ok_iff {file out : JsString} : formatSession file session = .ok out ↔
      (∀ value ∈ session, hasControlChar value = false ∧ value.any isReserved = false) ∧
        out = ((session.map fun value => js "?session=" ++ value).getD []) := by
  cases session with
  | none =>
    rw [formatSession, Except.ok.injEq]
    exact ⟨fun h => ⟨nofun, h.symm⟩, fun h => h.2.symm⟩
  | some value =>
    simp only [formatSession, Except.bind_eq_ok, validateSessionSlot_eq_ok_iff, pure, Except.pure, Except.ok.injEq,
      Option.mem_some_iff, Option.map_some, Option.getD_some, exists_const]
    constructor
    · rintro ⟨h, rfl⟩
      exact ⟨by rintro _ rfl; exact h, rfl⟩
    · rintro ⟨h, rfl⟩
      exact ⟨h value rfl, rfl⟩

def writtenSegments (formattedFile : JsString) (path : OcPath) : List JsString :=
  formattedFile :: path.slots.map quotedSlot

/-- The query of a formatted path. -/
def writtenQuery (session : Option JsString) : JsString :=
  (session.map fun value => js "?session=" ++ value).getD []

theorem writtenQuery_head (session : Option JsString) :
    writtenQuery session = [] ∨ ∃ queryPart, writtenQuery session = QUESTION :: queryPart := by
  cases session with
  | none => exact .inl rfl
  | some value => exact .inr ⟨js "session=" ++ value, rfl⟩

theorem hasControlChar_writtenQuery
    (h : ∀ value ∈ session, hasControlChar value = false) : hasControlChar (writtenQuery session) = false := by
  cases session with
  | none => rfl
  | some value =>
    have hkey : hasControlChar (js "?session=") = false := by decide
    rw [writtenQuery, Option.map_some, Option.getD_some, hasControlChar_append, hkey, h value rfl]
    rfl

theorem append_slots (formattedFile : JsString) (path : OcPath) :
    formattedFile ++ (path.sectionSlot.map fun s => SLASH :: quotedSlot s).getD [] ++
        (path.item.map fun s => SLASH :: quotedSlot s).getD [] ++
        (path.field.map fun s => SLASH :: quotedSlot s).getD [] =
      [SLASH].intercalate (writtenSegments formattedFile path) := by
  obtain ⟨file, sectionSlot, item, field, session⟩ := path
  cases sectionSlot <;> cases item <;> cases field <;>
    simp [writtenSegments, slots, intercalate_cons_cons]

theorem formatOcPath_eq_ok_iff {path : OcPath} {out : JsString} : formatOcPath path = .ok out ↔
      path.file ≠ [] ∧ validateFileSlot path.file path.file = .ok () ∧
        ¬(path.item ≠ none ∧ path.sectionSlot = none) ∧ ¬(path.field ≠ none ∧ path.item = none) ∧
        (∀ slot ∈ path.slots, bracketScanner.split DOT slot = some (subSegments slot) ∧
          ∀ sub ∈ subSegments slot, Formattable sub) ∧
        (∀ value ∈ path.session, hasControlChar value = false ∧ value.any isReserved = false) ∧
        ∃ formattedFile, formatFile path.file = .ok formattedFile ∧ out = OC_SCHEME ++
            ([SLASH].intercalate (writtenSegments formattedFile path) ++ writtenQuery path.session) ∧
          out.length ≤ MAX_PATH_LENGTH ∧ ¬REDACTED_SENTINEL <:+: out := by
  have hslots : ∀ p : JsString → Prop, (∀ slot ∈ path.slots, p slot) ↔
      (∀ slot ∈ path.sectionSlot, p slot) ∧ (∀ slot ∈ path.item, p slot) ∧ ∀ slot ∈ path.field, p slot := by
    intro p
    simp only [mem_slots_iff, or_imp, forall_and]
  rw [hslots]
  simp only [formatOcPath, bind_eq_ok, refuse_eq_ok_iff, validateFileSlot_eq_ok_iff,
    formatOptionalSlot_eq_ok_iff, formatSession_eq_ok_iff, exists_const]
  constructor
  · rintro ⟨hne, hfile, hitem, hfield, formattedFile, hformatted, _, ⟨hsection, rfl⟩, _, ⟨hitems, rfl⟩, _,
      ⟨hfields, rfl⟩, _, ⟨hsession, rfl⟩, hlength, hout⟩
    split at hout
    · cases hout
    · rename_i hsentinel
      obtain rfl := ok.inj hout
      refine ⟨hne, hfile, hitem, hfield, ⟨hsection, hitems, hfields⟩, hsession, formattedFile, hformatted, ?_,
        not_lt.mp hlength, hsentinel⟩
      rw [← append_slots, writtenQuery]
      simp only [append_assoc]
  · rintro ⟨hne, hfile, hitem, hfield, ⟨hsection, hitems, hfields⟩, hsession, formattedFile, hformatted, hout,
      hlength, hsentinel⟩
    have hsame : OC_SCHEME ++ formattedFile ++ (path.sectionSlot.map fun s => SLASH :: quotedSlot s).getD [] ++
        (path.item.map fun s => SLASH :: quotedSlot s).getD [] ++
        (path.field.map fun s => SLASH :: quotedSlot s).getD [] ++
        (path.session.map fun value => js "?session=" ++ value).getD [] = out := by
      rw [hout, ← append_slots, writtenQuery]
      simp only [append_assoc]
    refine ⟨hne, hfile, hitem, hfield, formattedFile, hformatted, _, ⟨hsection, rfl⟩, _, ⟨hitems, rfl⟩, _,
      ⟨hfields, rfl⟩, _, ⟨hsession, rfl⟩, ?_, ?_⟩
    · rw [hsame]
      exact not_lt.mpr hlength
    · rw [hsame, if_neg hsentinel]

section Parsing

variable [LowerCase] [Nfc] {path : OcPath}

theorem parseOcPath_eq_ok_iff {input : JsString} : parseOcPath input = .ok path ↔
      ∃ text, text = nfc (if startsWith input BOM = true then input.tail else input) ∧
        input.length ≤ MAX_PATH_LENGTH ∧ text.length ≤ MAX_PATH_LENGTH ∧ OC_SCHEME <+: text ∧
        hasControlChar text = false ∧
        ∃ index, bracketScanner.indexOf QUESTION (text.drop OC_SCHEME.length) = some index ∧
          (cutQuery (text.drop OC_SCHEME.length) index).1 ≠ [] ∧
        ∃ raw, bracketScanner.split SLASH (cutQuery (text.drop OC_SCHEME.length) index).1 = some raw ∧ [] ∉ raw ∧
          validateFileSlot (unquoteSeg (raw.headD [])) input = .ok () ∧
        ∃ segments, normalizeDeepJsonPathSegments raw (unquoteSeg (raw.headD [])) input = .ok segments ∧
          segments.length ≤ 4 ∧ (∀ seg ∈ segments, validateSegment input seg = .ok ()) ∧
        ∃ session, extractSession (cutQuery (text.drop OC_SCHEME.length) index).2 input = .ok session ∧
          path = ⟨unquoteSeg (raw.headD []), segments[1]?, segments[2]?, segments[3]?, session⟩ := by
  simp only [parseOcPath, Except.bind_eq_ok, refuse_eq_ok_iff, indexOfTopLevel_eq_ok_iff,
    splitRespectingBrackets_eq_ok_iff, Except.forM_eq_ok_iff, not_lt, not_not, Bool.not_eq_true, pure, Except.pure,
    Except.ok.injEq, validateFileSlot_eq_ok_iff, exists_const, exists_eq_left, ne_eq, @eq_comm _ _ path]

omit [Nfc] in
theorem normalizeDeepJsonPathSegments_of_le {segments : List JsString} {file input : JsString}
    (h : segments.length ≤ 4) : normalizeDeepJsonPathSegments segments file input = .ok segments :=
  if_pos (.inl h)

theorem parseOcPath_join {segments : List JsString} {text : JsString}
    (htext : text = OC_SCHEME ++ ([SLASH].intercalate segments ++ writtenQuery session))
    (hlength : text.length ≤ MAX_PATH_LENGTH) (hnfc : nfc text = text) (hcontrol : hasControlChar text = false)
    (hne : segments ≠ []) (hcount : segments.length ≤ 4)
    (hsegments : ∀ seg ∈ segments, ∃ subs, SegmentReadable seg subs)
    (hfile : validateFileSlot (unquoteSeg (segments.headD [])) text = .ok ())
    (hsession : ∀ value ∈ session, value ≠ [] ∧ hasControlChar value = false ∧ value.any isReserved = false) :
    parseOcPath text = .ok ⟨unquoteSeg (segments.headD []), segments[1]?, segments[2]?, segments[3]?, session⟩ := by
  have hsegClear : ∀ seg ∈ segments, bracketScanner.Clear [QUESTION] seg ∧ bracketScanner.Clear [SLASH] seg :=
    fun seg hseg => Scanner.clear_append_marks_iff.mp (hsegments seg hseg).choose_spec.clear
  have hpath : bracketScanner.Clear [QUESTION] ([SLASH].intercalate segments) :=
    (Scanner.clear_intercalate_iff isMark_slash (by decide) fun seg hseg => (hsegClear seg hseg).1.balanced).mpr
      fun seg hseg => (hsegClear seg hseg).1
  have hnonempty : ∀ seg ∈ segments, seg ≠ [] := fun seg hseg => (hsegments seg hseg).choose_spec.ne_nil
  have hbom : startsWith text BOM = false := by
    rw [htext]
    rfl
  have hdrop : text.drop OC_SCHEME.length = [SLASH].intercalate segments ++ writtenQuery session := by
    rw [htext, drop_left]
  obtain ⟨index, hindex, hcut⟩ := exists_cutQuery hpath (writtenQuery_head session)
  refine parseOcPath_eq_ok_iff.mpr ⟨text, ?_, hlength, hlength, ?_, hcontrol, index, ?_⟩
  · rw [hbom]
    exact hnfc.symm
  · rw [htext]
    exact prefix_append _ _
  · rw [hdrop, hcut]
    refine ⟨hindex, intercalate_ne_nil hne hnonempty, segments,
      (Scanner.split_eq_some_iff isMark_slash).mpr ⟨hne, fun seg hseg => (hsegClear seg hseg).2, rfl⟩,
      fun hnil => hnonempty [] hnil rfl, hfile, segments, normalizeDeepJsonPathSegments_of_le hcount, hcount,
      fun seg hseg => (hsegments seg hseg).choose_spec.accepted text, session, ?_, rfl⟩
    cases session with
    | none => rfl
    | some value =>
      obtain ⟨hvalue, hvalueControl, hreserved⟩ := hsession value rfl
      exact extractSession_format hvalue hvalueControl hreserved

omit [LowerCase] [Nfc] in
theorem slot_readable {slot : JsString} (hread : ReadsBack path) (hslot : slot ∈ path.slots)
    (h : bracketScanner.split DOT slot = some (subSegments slot) ∧ ∀ sub ∈ subSegments slot, Formattable sub) :
    SegmentReadable (quotedSlot slot) ((subSegments slot).map quotedSub) :=
  quotedSlot_readable h.1 h.2 (hread.slots slot hslot)

omit [LowerCase] [Nfc] in
theorem quotedForm_eq {formattedFile : JsString} (hfile : unquoteSeg formattedFile = path.file)
    (hitem : ¬(path.item ≠ none ∧ path.sectionSlot = none)) (hfield : ¬(path.field ≠ none ∧ path.item = none)) :
    (⟨unquoteSeg ((writtenSegments formattedFile path).headD []), (writtenSegments formattedFile path)[1]?,
      (writtenSegments formattedFile path)[2]?, (writtenSegments formattedFile path)[3]?, path.session⟩ : OcPath) =
      quotedForm path := by
  obtain ⟨file, sectionSlot, item, field, session⟩ := path
  cases sectionSlot <;> cases item <;> cases field <;> simp_all [writtenSegments, slots, quotedForm]

theorem format_reads_back {out : JsString} (h : formatOcPath path = .ok out) (hnfc : nfc out = out)
    (hread : ReadsBack path) : parseOcPath out = .ok (quotedForm path) := by
  obtain ⟨hne, hfile, hitem, hfield, hslots, hsession, formattedFile, hformatted, hout, hlength, -⟩ :=
    formatOcPath_eq_ok_iff.mp h
  have hfileControl := (validateFileSlot_eq_ok_iff.mp hfile).2.2
  obtain ⟨hunquote, hformattedControl, subs, hsubs⟩ := formatFile_readable hformatted hne hfileControl hread.file
  have hreadable : ∀ seg ∈ writtenSegments formattedFile path, ∃ subs, SegmentReadable seg subs := by
    refine forall_mem_cons.mpr ⟨⟨subs, hsubs⟩, fun seg hseg => ?_⟩
    obtain ⟨slot, hslot, rfl⟩ := mem_map.mp hseg
    exact ⟨_, slot_readable hread hslot (hslots slot hslot)⟩
  have hcontrol : hasControlChar out = false := by
    have hsegments : hasControlChar ([SLASH].intercalate (writtenSegments formattedFile path)) = false := by
      refine hasControlChar_intercalate rfl (forall_mem_cons.mpr ⟨hformattedControl, fun seg hseg => ?_⟩)
      obtain ⟨slot, hslot, rfl⟩ := mem_map.mp hseg
      exact hasControlChar_quotedSlot (hslots slot hslot).2
    have hscheme : hasControlChar OC_SCHEME = false := by decide
    rw [hout, hasControlChar_append, hasControlChar_append, hsegments,
      hasControlChar_writtenQuery fun value hvalue => (hsession value hvalue).1, hscheme]
    rfl
  have hcount : (writtenSegments formattedFile path).length ≤ 4 := by
    obtain ⟨file, sectionSlot, item, field, session⟩ := path
    cases sectionSlot <;> cases item <;> cases field <;> simp [writtenSegments, slots]
  rw [← quotedForm_eq hunquote hitem hfield]
  refine parseOcPath_join hout hlength hnfc hcontrol (by simp [writtenSegments]) hcount hreadable ?_ ?_
  · rw [validateFileSlot_eq_ok_iff]
    simpa [writtenSegments, hunquote] using validateFileSlot_eq_ok_iff.mp hfile
  · exact fun value hvalue => ⟨fun hnil => hread.session (by rw [← hnil]; exact hvalue), hsession value hvalue⟩

omit [LowerCase] [Nfc] in
theorem format_quotedForm {out : JsString} (h : formatOcPath path = .ok out)
    (hread : ReadsBack path) : formatOcPath (quotedForm path) = .ok out := by
  obtain ⟨hne, hfile, hitem, hfield, hslots, hsession, formattedFile, hformatted, hout, hlength, hsentinel⟩ :=
    formatOcPath_eq_ok_iff.mp h
  have hquoted : ∀ slot ∈ path.slots, _ := fun slot hslot =>
    formatSlot_eq_ok_iff.mp (formatSlot_quotedSlot path.file [] (hslots slot hslot).2
      (slot_readable hread hslot (hslots slot hslot)))
  have hformSlots := slots_quotedForm path
  refine formatOcPath_eq_ok_iff.mpr ⟨hne, hfile, ?_, ?_, ?_, hsession, formattedFile, hformatted, ?_, hlength,
    hsentinel⟩
  · simpa [quotedForm] using hitem
  · simpa [quotedForm] using hfield
  · rw [hformSlots]
    intro slot' hslot'
    obtain ⟨slot, hslot, rfl⟩ := mem_map.mp hslot'
    exact ⟨(hquoted slot hslot).1, (hquoted slot hslot).2.1⟩
  · have hsame : (quotedForm path).slots.map quotedSlot = path.slots.map quotedSlot := by
      rw [hformSlots, map_map]
      exact map_congr_left fun slot hslot => (hquoted slot hslot).2.2.symm
    rw [hout, writtenSegments, writtenSegments, hsame]
    rfl

end Parsing

end ClawWorks.OcPath
