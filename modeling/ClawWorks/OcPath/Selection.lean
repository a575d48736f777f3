import ClawWorks.OcPath.Find

/-!
# What a pattern matches

Keys and indices lead from the root of a document to its nodes. What a pattern matches is said of them, apart from how
the search goes about it.
-/

namespace ClawWorks.OcPath

open List

/-- The children of a node, under their keys or indices. -/
def children : JsoncValue → List (JsString × JsoncValue)
  | .object entries _ => entries.map fun entry => (entry.key, entry.value)
  | .array items _ => items.zipIdx.map fun item => (decimalText item.2, item.1)
  | _ => []

def keys : JsoncValue → List JsString
  | .object entries _ => entries.map (·.key)
  | _ => []

/-- Keys and indices lead from a node to another. -/
inductive NodeAt : JsoncValue → List JsString → JsoncValue → Prop
  | here (node : JsoncValue) : NodeAt node [] node
  | child {node child target : JsoncValue} {key : JsString} {access : List JsString} :
    (key, child) ∈ children node → NodeAt child access target → NodeAt node (key :: access) target

section Matching

variable [FiniteNumber]

/-- A sub-segment, neither a union nor `**`, holds of a child under its key or index. -/
def Holds (node : JsoncValue) (value : JsString) (step : JsString × JsoncValue) : Prop :=
  if isPredicateSeg value = true then
    ∃ pred, parsePredicateSeg value = some pred ∧ jsoncChildMatchesPredicate step.2 pred = true
  else if value = WILDCARD_SINGLE then True
  else if value = POS_FIRST then (children node).head? = some step
  else if value = POS_LAST then (children node).getLast? = some step
  else step.1 = unquoteSeg value

/-- **The ways from a node that the sub-segments of a pattern match**: `*` one level, `**` zero or more, a union any of
its alternatives, every other sub-segment a child it holds of. -/
inductive Matches : List JsString → JsoncValue → List JsString → Prop
  | done (node : JsoncValue) : Matches [] node []
  | step {value key : JsString} {values access : List JsString} {node child : JsoncValue} :
    isUnionSeg value = false → value ≠ WILDCARD_RECURSIVE → (key, child) ∈ children node →
      Holds node value (key, child) → Matches values child access → Matches (value :: values) node (key :: access)
  | alternative {value alt : JsString} {alts values access : List JsString} {node : JsoncValue} :
    parseUnionSeg value = some alts → alt ∈ alts → Matches (alt :: values) node access →
      Matches (value :: values) node access
  | zero {values access : List JsString} {node : JsoncValue} :
    Matches values node access → Matches (WILDCARD_RECURSIVE :: values) node access
  | deeper {key : JsString} {values access : List JsString} {node child : JsoncValue} :
    (key, child) ∈ children node → Matches (WILDCARD_RECURSIVE :: values) child access →
      Matches (WILDCARD_RECURSIVE :: values) node (key :: access)

end Matching

/-! ## Keys and segments -/

/-- A key whose segment in a path found names it again. -/
structure Addressable (key : JsString) : Prop where
  ne_nil : key ≠ []
  quote : QUOTE ∉ key
  backslash : BACKSLASH ∉ key
  single : key ≠ WILDCARD_SINGLE
  recursive : key ≠ WILDCARD_RECURSIVE
  positional : isPositionalSeg key = false
  insertion : startsWith key PLUS = false

/-- A sub-segment that stands for one key: no pattern and no insertion, and quotes hide neither an index nor a position.
-/
structure Literal (value : JsString) : Prop where
  clear : bracketScanner.Clear [DOT] value
  multi : isMultiMatch value = false
  positional : isPositionalSeg value = false
  insertion : startsWith value PLUS = false
  index : isQuotedSeg value = true → isDecimal (inside value) = false
  position : isPositionalSeg (unquoteSeg value) = false

/-- A segment in a path found reads as a key or index. -/
structure Reads (keySub key : JsString) : Prop where
  clear : bracketScanner.Clear [DOT] keySub
  multi : isMultiMatch keySub = false
  insertion : startsWith keySub PLUS = false
  unquoted : unquoteSeg keySub = key
  ne_nil : key ≠ []
  positional : isPositionalSeg key = false

theorem Reads.keySub_ne_nil {keySub key : JsString} (h : Reads keySub key) : keySub ≠ [] := by
  rintro rfl
  exact h.ne_nil h.unquoted.symm

theorem Literal.reads {value : JsString} (h : Literal value) (hne : unquoteSeg value ≠ []) :
    Reads value (unquoteSeg value) :=
  ⟨h.clear, h.multi, h.insertion, rfl, hne, h.position⟩

theorem isMultiMatch_eq_false_iff {value : JsString} :
    isMultiMatch value = false ↔ value ≠ WILDCARD_SINGLE ∧ value ≠ WILDCARD_RECURSIVE ∧ isUnionSeg value = false ∧
      isPredicateSeg value = false := by
  simp [isMultiMatch, and_assoc]

def written (key : JsString) : JsString :=
  if key.any isStructure = true then quoted key else key

variable {key : JsString}

theorem Addressable.quoteSeg (h : Addressable key) : quoteSeg key = .ok (written key) :=
  (quoteSeg_eq_ok_iff h.ne_nil).mpr ⟨h.quote, h.backslash, rfl⟩

theorem Addressable.reads (h : Addressable key) : Reads (written key) key := by
  unfold written
  split
  · refine ⟨clear_quoted h.quote, isMultiMatch_eq_false_iff.mpr ⟨?_, ?_, ?_, ?_⟩, rfl, unquoteSeg_quoted key, h.ne_nil,
      h.positional⟩
    · intro hsame
      have hhead : some QUOTE = some (42 : UInt16) := congrArg head? hsame
      exact absurd hhead (by decide)
    · intro hsame
      have hhead : some QUOTE = some (42 : UInt16) := congrArg head? hsame
      exact absurd hhead (by decide)
    · have hbrace : startsWith (quoted key) LBRACE = false := rfl
      rw [isUnionSeg, hbrace, Bool.and_false, Bool.false_and]
    · have hbracket : startsWith (quoted key) LBRACKET = false := rfl
      rw [isPredicateSeg, hbracket, Bool.and_false, Bool.false_and, Bool.false_and]
  · rename_i hplain
    have hall : ∀ c ∈ key, isStructure c = false := fun c hc => by
      simpa using any_eq_false.mp (Bool.eq_false_iff.mpr hplain) c hc
    have hdot : bracketScanner.Clear [QUESTION, SLASH] key ∧ bracketScanner.Clear [DOT] key :=
      Scanner.clear_append_marks_iff.mp (clear_of_no_structure h.quote hall)
    refine ⟨hdot.2,
      isMultiMatch_eq_false_iff.mpr ⟨h.single, h.recursive, ?_, ?_⟩, h.insertion, unquoteSeg_of_not_mem h.quote,
      h.ne_nil, h.positional⟩
    · rw [isUnionSeg, startsWith_of_not_mem (not_mem_of_plain hall rfl), Bool.and_false, Bool.false_and]
    · rw [isPredicateSeg, startsWith_of_not_mem (not_mem_of_plain hall rfl), Bool.and_false, Bool.false_and,
        Bool.false_and]

theorem not_mem_of_isDecimal (h : isDecimal key) {c : UInt16} (hc : isDigit c = false) : c ∉ key := by
  rw [isDecimal, Bool.or_eq_true, beq_iff_eq, Bool.and_eq_true] at h
  rcases h with rfl | ⟨-, hall⟩
  · rintro hmem
    obtain rfl := mem_singleton.mp hmem
    cases hc
  · exact fun hmem => absurd (all_eq_true.mp hall c hmem) (by simp [hc])

theorem ne_nil_of_isDecimal (h : isDecimal key) : key ≠ [] := by
  rintro rfl
  cases h

theorem addressable_of_isDecimal (h : isDecimal key) : Addressable key := by
  have hnone : ∀ {c : UInt16}, isDigit c = false → c ∉ key := not_mem_of_isDecimal h
  have hne : ∀ {c : UInt16} {other : JsString}, isDigit c = false → c ∈ other → key ≠ other :=
    fun hc hmem hsame => hnone hc (hsame ▸ hmem)
  have hfirst : key ≠ POS_FIRST := hne (c := 36) rfl (by decide)
  have hlast : key ≠ POS_LAST := hne (c := 36) rfl (by decide)
  exact ⟨ne_nil_of_isDecimal h, hnone rfl, hnone rfl, hne (c := 42) rfl (by decide), hne (c := 42) rfl (by decide),
    by simp [isPositionalSeg, hfirst, hlast], startsWith_of_not_mem (hnone rfl)⟩

theorem decimalText_injective : Function.Injective decimalText :=
  Function.LeftInverse.injective decimalValue_decimalText

theorem parseArrayIndexSegment_eq_some_iff {seg : JsString} {length index : Nat} :
    parseArrayIndexSegment seg length = some index ↔ seg = decimalText index ∧ index < length := by
  rw [parseArrayIndexSegment]
  constructor
  · intro h
    split at h
    · rename_i hindex
      rw [Bool.and_eq_true, decide_eq_true_eq] at hindex
      obtain rfl := Option.some.inj h
      exact ⟨(decimalText_decimalValue hindex.1).symm, hindex.2⟩
    · cases h
  · rintro ⟨rfl, hlt⟩
    rw [isDecimal_decimalText, decimalValue_decimalText, if_pos (by simpa using hlt)]

/-! ## Children -/

variable {child : JsoncValue}

variable {line : Option Nat}

theorem mem_children_array_iff {items : List JsoncValue} :
    (key, child) ∈ children (.array items line) ↔ ∃ index, key = decimalText index ∧ items[index]? = some child := by
  simp only [children, mem_map, Prod.exists, Prod.mk.injEq, mem_zipIdx_iff_getElem?]
  constructor
  · rintro ⟨item, index, hitem, rfl, rfl⟩
    exact ⟨index, rfl, hitem⟩
  · rintro ⟨index, rfl, hitem⟩
    exact ⟨child, index, hitem, rfl, rfl⟩

theorem nodup_children {node : JsoncValue} (h : (keys node).Nodup) : ((children node).map (·.1)).Nodup := by
  cases node with
  | object entries line =>
    rw [children, map_map]
    exact h
  | array items line =>
    have hindices : (items.zipIdx.map Prod.snd).Nodup := by
      rw [zipIdx_map_snd]
      exact nodup_range'
    have hkeys : (children (.array items line)).map (·.1) = (items.zipIdx.map Prod.snd).map decimalText := by
      rw [children, map_map, map_map]
      rfl
    rw [hkeys]
    exact hindices.map decimalText_injective
  | string | number | boolean | null => exact nodup_nil

theorem addressable_children {node : JsoncValue} (h : ∀ key ∈ keys node, Addressable key)
    {step : JsString × JsoncValue} (hstep : step ∈ children node) : Addressable step.1 := by
  cases node with
  | object entries line =>
    obtain ⟨entry, hentry, rfl⟩ := mem_map.mp hstep
    exact h entry.key (mem_map.mpr ⟨entry, hentry, rfl⟩)
  | array items line =>
    obtain ⟨item, -, rfl⟩ := mem_map.mp hstep
    exact addressable_of_isDecimal (isDecimal_decimalText _)
  | string | number | boolean | null => cases hstep

theorem child_unique {node : JsoncValue} (h : (keys node).Nodup) {child other : JsoncValue}
    (hchild : (key, child) ∈ children node) (hother : (key, other) ∈ children node) : child = other :=
  congrArg Prod.snd (inj_on_of_nodup_map (nodup_children h) hchild hother rfl)

theorem find_entry_iff {entries : List JsoncEntry} (hdistinct : (keys (.object entries line)).Nodup) :
    (∃ entry, entries.find? (fun entry => entry.key == key) = some entry ∧ entry.value = child) ↔
      (key, child) ∈ children (.object entries line) := by
  constructor
  · rintro ⟨entry, hfind, rfl⟩
    have hkey : entry.key = key := by simpa using find?_some hfind
    exact mem_map.mpr ⟨entry, mem_of_find?_eq_some hfind, by rw [hkey]⟩
  · intro hchild
    obtain ⟨entry, hentry, hsame⟩ := mem_map.mp hchild
    cases hfind : entries.find? fun entry => entry.key == key with
    | none => exact absurd (find?_eq_none.mp hfind entry hentry) (by simp [(Prod.mk.inj hsame).1])
    | some found =>
      have hkey : found.key = key := by simpa using find?_some hfind
      exact ⟨found, rfl, child_unique hdistinct
        (mem_map.mpr ⟨found, mem_of_find?_eq_some hfind, by rw [hkey]⟩) hchild⟩

theorem find_item_iff {items : List JsoncValue} :
    ((parseArrayIndexSegment key items.length).bind fun index => items[index]?) = some child ↔
      (key, child) ∈ children (.array items line) := by
  simp only [Option.bind_eq_some_iff, parseArrayIndexSegment_eq_some_iff, mem_children_array_iff]
  constructor
  · rintro ⟨index, ⟨rfl, -⟩, hitem⟩
    exact ⟨index, rfl, hitem⟩
  · rintro ⟨index, rfl, hitem⟩
    exact ⟨index, ⟨rfl, (List.getElem?_eq_some_iff.mp hitem).1⟩, hitem⟩

theorem unquoteSeg_eq_decimalText_iff {value : JsString}
    (hindex : isQuotedSeg value → isDecimal (inside value) = false) (index : Nat) :
    unquoteSeg value = decimalText index ↔ value = decimalText index := by
  cases hquoted : isQuotedSeg value with
  | false => rw [unquoteSeg, hquoted]; rfl
  | true =>
    rw [unquoteSeg, if_pos hquoted]
    constructor
    · intro hsame
      have hdecimal := hindex hquoted
      rw [hsame, isDecimal_decimalText] at hdecimal
      cases hdecimal
    · intro hsame
      have hunquoted := isQuotedSeg_of_not_mem (not_mem_of_isDecimal (isDecimal_decimalText index) (c := QUOTE) rfl)
      rw [← hsame, hquoted] at hunquoted
      cases hunquoted

/-- **The child looked up is the one under the unquoted key**, unless an index is quoted. -/
theorem jsoncLookup_eq_some_iff {node : JsoncValue} {value : JsString} {visit : Visit JsoncValue}
    (hdistinct : (keys node).Nodup) (hindex : isQuotedSeg value → isDecimal (inside value) = false) :
    jsoncLookup node value = some visit ↔
      ∃ child, (unquoteSeg value, child) ∈ children node ∧ visit = (.ok value, child) := by
  cases node with
  | object entries line =>
    simp only [jsoncLookup, Option.map_eq_some_iff, ← find_entry_iff hdistinct]
    constructor
    · rintro ⟨entry, hfind, rfl⟩
      exact ⟨entry.value, ⟨entry, hfind, rfl⟩, rfl⟩
    · rintro ⟨_, ⟨entry, hfind, rfl⟩, rfl⟩
      exact ⟨entry, hfind, rfl⟩
  | array items line =>
    have hsame : ∀ child, (unquoteSeg value, child) ∈ children (.array items line) ↔
        (value, child) ∈ children (.array items line) := fun child => by
      simp only [mem_children_array_iff, unquoteSeg_eq_decimalText_iff hindex]
    simp only [jsoncLookup, Option.map_eq_some_iff, hsame, ← find_item_iff]
    exact exists_congr fun child => and_congr_right fun _ => eq_comm
  | string | number | boolean | null => simp [jsoncLookup, children]

/-! ## What a sub-segment selects -/

/-- A sub-segment the search finds exactly what it matches for: `*`, a predicate, a position, a literal, or a union of
literals that stand for different keys. -/
inductive Supported : JsString → Prop
  | wildcard : Supported WILDCARD_SINGLE
  | predicate {value : JsString} : isPredicateSeg value = true → Supported value
  | positional {value : JsString} : isPositionalSeg value = true → Supported value
  | literal {value : JsString} : Literal value → Supported value
  | union {value : JsString} {alts : List JsString} : parseUnionSeg value = some alts → (∀ alt ∈ alts, Literal alt) →
      (alts.map unquoteSeg).Nodup → Supported value

/-- A child selected, with its key or index and the segment for it. -/
structure Selection where
  keySub : JsString
  key : JsString
  child : JsoncValue

def Selection.visit (selection : Selection) : Visit JsoncValue :=
  (.ok selection.keySub, selection.child)

def Selection.step (selection : Selection) : JsString × JsoncValue :=
  (selection.key, selection.child)

/-- The children that meet a condition, each once and under a segment that reads as its key. -/
structure Selects (node : JsoncValue) (condition : JsString × JsoncValue → Prop) (selections : List Selection) :
    Prop where
  once : (selections.map (·.key)).Nodup
  complete : ∀ step, step ∈ selections.map Selection.step ↔ step ∈ children node ∧ condition step
  reads : ∀ selection ∈ selections, Reads selection.keySub selection.key

theorem isStructure_of_isDigit {c : UInt16} (h : isDigit c) : isStructure c = false := by
  obtain ⟨hlow, hhigh⟩ := isDigit_iff.mp h
  rw [Bool.eq_false_iff]
  intro hstructure
  simp only [isStructure, isReserved, isWhiteSpace, SLASH, DOT, LBRACKET, RBRACKET, LBRACE, RBRACE, QUESTION,
    Bool.or_eq_true, Bool.and_eq_true, decide_eq_true_eq, beq_iff_eq, UInt16.le_iff_toNat_le, ← UInt16.toNat_inj,
    UInt16.reduceToNat] at hstructure
  omega

theorem quoteSeg_decimalText (index : Nat) : quoteSeg (decimalText index) = .ok (decimalText index) := by
  have hdecimal := isDecimal_decimalText index
  have hplain : (decimalText index).any isStructure = false := by
    refine any_eq_false.mpr fun c hc => ?_
    have hdigit : isDigit c := by
      by_contra hno
      exact not_mem_of_isDecimal hdecimal (Bool.eq_false_iff.mpr hno) hc
    rw [isStructure_of_isDigit hdigit]
    exact Bool.false_ne_true
  rw [(addressable_of_isDecimal hdecimal).quoteSeg, written, hplain]
  rfl

theorem selects_option {node : JsoncValue} {condition : JsString × JsoncValue → Prop} {found : Option Selection}
    (hcomplete : ∀ step, found.map Selection.step = some step ↔ step ∈ children node ∧ condition step)
    (hreads : ∀ selection, found = some selection → Reads selection.keySub selection.key) :
    Selects node condition found.toList := by
  cases found with
  | none => exact ⟨nodup_nil, fun step => by simpa using hcomplete step, nofun⟩
  | some selection =>
    refine ⟨nodup_singleton _, fun step => ?_, fun s hs => ?_⟩
    · rw [← hcomplete step]
      simp [eq_comm]
    · obtain rfl := mem_singleton.mp hs
      exact hreads s rfl

theorem Selects.congr {node : JsoncValue} {condition other : JsString × JsoncValue → Prop}
    {selections : List Selection} (h : Selects node condition selections)
    (hsame : ∀ step, other step ↔ condition step) : Selects node other selections :=
  ⟨h.once, fun step => by rw [h.complete, hsame], h.reads⟩

theorem literal_decimalText (index : Nat) : Literal (decimalText index) := by
  have haddressable := addressable_of_isDecimal (isDecimal_decimalText index)
  have hwritten : written (decimalText index) = decimalText index :=
    Except.ok.inj (haddressable.quoteSeg.symm.trans (quoteSeg_decimalText index))
  have hreads := haddressable.reads
  rw [hwritten] at hreads
  refine ⟨hreads.clear, hreads.multi, hreads.positional, hreads.insertion, fun hquoted => ?_, ?_⟩
  · rw [isQuotedSeg_of_not_mem haddressable.quote] at hquoted
    cases hquoted
  · rw [hreads.unquoted]
    exact hreads.positional

theorem positionalForJsoncNode_first (node : JsoncValue) :
    positionalForJsoncNode node POS_FIRST = (children node).head?.map (·.1) := by
  cases node with
  | object entries line => cases entries <;> rfl
  | array items line =>
    cases items with
    | nil => rfl
    | cons item items =>
      have hzero : js "0" = decimalText 0 := by decide
      rw [positionalForJsoncNode, if_neg (by simp), if_pos rfl, hzero, children, zipIdx_cons, map_cons,
        head?_cons, Option.map_some]
  | string | number | boolean | null => rfl

theorem positionalForJsoncNode_last (node : JsoncValue) :
    positionalForJsoncNode node POS_LAST = (children node).getLast?.map (·.1) := by
  have hne : POS_LAST ≠ POS_FIRST := by decide
  cases node with
  | object entries line =>
    rw [positionalForJsoncNode, if_neg hne, if_pos rfl, children, getLast?_map, Option.map_map]
    rfl
  | array items line =>
    rcases eq_nil_or_concat' items with rfl | ⟨front, last, rfl⟩
    · rfl
    · rw [positionalForJsoncNode, if_neg (by simp), if_neg hne, if_pos rfl, children, zipIdx_append]
      simp
  | string | number | boolean | null => rfl

theorem Supported.union_of {value : JsString} (h : Supported value) (hunion : isUnionSeg value) :
    ∃ alts, parseUnionSeg value = some alts ∧ (∀ alt ∈ alts, Literal alt) ∧ (alts.map unquoteSeg).Nodup := by
  cases h with
  | wildcard => exact absurd hunion (by decide)
  | predicate hpredicate =>
    simp only [isUnionSeg, isPredicateSeg, startsWith, Bool.and_eq_true, beq_iff_eq] at hunion hpredicate
    rw [hunion.1.2] at hpredicate
    exact absurd hpredicate.1.1.2 (by decide)
  | positional hpositional =>
    rw [isPositionalSeg, Bool.or_eq_true, beq_iff_eq, beq_iff_eq] at hpositional
    rcases hpositional with rfl | rfl <;> exact absurd hunion (by decide)
  | literal hliteral =>
    rw [(isMultiMatch_eq_false_iff.mp hliteral.multi).2.2.1] at hunion
    cases hunion
  | union halts hliteral hapart => exact ⟨_, halts, hliteral, hapart⟩

theorem alternatives_of_literals {value : JsString} {alts : List JsString} (h : parseUnionSeg value = some alts)
    (halts : ∀ alt ∈ alts, Literal alt) : alternatives value = alts := by
  have hself : ∀ alt ∈ alts, alternatives alt = [alt] := fun alt halt =>
    alternatives_self (isMultiMatch_eq_false_iff.mp (halts alt halt).multi).2.2.1
  rw [alternatives_union h, flatMap_congr hself]
  simp

theorem holds_literal [FiniteNumber] {node : JsoncValue} {value : JsString} {step : JsString × JsoncValue}
    (h : Literal value) : Holds node value step ↔ step.1 = unquoteSeg value := by
  obtain ⟨hwild, -, -, hpredicate⟩ := isMultiMatch_eq_false_iff.mp h.multi
  have hpositional := h.positional
  rw [isPositionalSeg, Bool.or_eq_false_iff, beq_eq_false_iff_ne, beq_eq_false_iff_ne] at hpositional
  rw [Holds, hpredicate, if_neg Bool.false_ne_true, if_neg hwild, if_neg hpositional.1, if_neg hpositional.2]

section Selecting

variable [FiniteNumber] {node : JsoncValue} (hdistinct : (keys node).Nodup)
  (hkeys : ∀ key ∈ keys node, Addressable key)

omit [FiniteNumber] in
theorem jsoncEnumerate_eq (node : JsoncValue) :
    jsoncEnumerate node = (children node).map fun step => (quoteSeg step.1, step.2) := by
  cases node with
  | object entries line => simp [jsoncEnumerate, children]
  | array items line => simp [jsoncEnumerate, children, quoteSeg_decimalText]
  | string | number | boolean | null => rfl

theorem jsoncPredicate_eq (node : JsoncValue) (pred : PredicateSpec) : jsoncPredicate node pred =
      ((children node).filter fun step => jsoncChildMatchesPredicate step.2 pred).map fun step =>
        (quoteSeg step.1, step.2) := by
  cases node with
  | object entries line => simp [jsoncPredicate, children, filter_map, Function.comp_def]
  | array items line => simp [jsoncPredicate, children, filter_map, Function.comp_def, quoteSeg_decimalText]
  | string | number | boolean | null => rfl

include hdistinct hkeys

omit [FiniteNumber] in
theorem selects_filter (test : JsString × JsoncValue → Bool) :
    ∃ selections, (((children node).filter test).map fun step => (quoteSeg step.1, step.2)) =
      selections.map Selection.visit ∧ Selects node (test ·) selections := by
  refine ⟨((children node).filter test).map fun step => ⟨written step.1, step.1, step.2⟩, ?_, ?_, ?_, ?_⟩
  · rw [map_map]
    refine map_congr_left fun step hstep => ?_
    rw [(addressable_children hkeys (mem_filter.mp hstep).1).quoteSeg]
    rfl
  · rw [map_map]
    exact (filter_sublist.map _).nodup (nodup_children hdistinct)
  · intro step
    rw [map_map]
    have hsame : (Selection.step ∘ fun step : JsString × JsoncValue => ⟨written step.1, step.1, step.2⟩) = id := rfl
    rw [hsame, map_id, mem_filter]
  · intro selection hselection
    obtain ⟨step, hstep, rfl⟩ := mem_map.mp hselection
    exact (addressable_children hkeys (mem_filter.mp hstep).1).reads

omit [FiniteNumber] in
theorem selects_lookup {value : JsString} (hvalue : Literal value) :
    ∃ selections, (jsoncLookup node value).toList = selections.map Selection.visit ∧
      Selects node (·.1 = unquoteSeg value) selections := by
  have hlookup := fun visit => @jsoncLookup_eq_some_iff node value visit hdistinct hvalue.index
  cases hfound : jsoncLookup node value with
  | none =>
    refine ⟨(none : Option Selection).toList, rfl, selects_option (fun step => ⟨nofun, ?_⟩) nofun⟩
    rintro ⟨hstep, hkey⟩
    have hsome := (hlookup (.ok value, step.2)).mpr ⟨step.2, hkey ▸ hstep, rfl⟩
    rw [hfound] at hsome
    cases hsome
  | some visit =>
    obtain ⟨child, hchild, rfl⟩ := (hlookup visit).mp hfound
    refine ⟨(some ⟨value, unquoteSeg value, child⟩ : Option Selection).toList, rfl,
      selects_option (fun step => ?_) ?_⟩
    · constructor
      · rintro ⟨⟩
        exact ⟨hchild, rfl⟩
      · rintro ⟨hstep, hkey⟩
        obtain ⟨key, other⟩ := step
        obtain rfl : key = unquoteSeg value := hkey
        rw [Option.map_some, Selection.step, child_unique hdistinct hchild hstep]
    · rintro _ ⟨⟩
      exact hvalue.reads (addressable_children hkeys hchild).ne_nil

omit [FiniteNumber] hdistinct in
theorem literal_children (hliteral : ∀ key ∈ keys node, Literal key) {step : JsString × JsoncValue}
    (hstep : step ∈ children node) : Literal step.1 := by
  cases node with
  | object entries line =>
    obtain ⟨entry, hentry, rfl⟩ := mem_map.mp hstep
    exact hliteral entry.key (mem_map.mpr ⟨entry, hentry, rfl⟩)
  | array items line =>
    obtain ⟨item, -, rfl⟩ := mem_map.mp hstep
    exact literal_decimalText item.2
  | string | number | boolean | null => cases hstep

omit [FiniteNumber] in
theorem selects_position (hliteral : ∀ key ∈ keys node, Literal key) {position : Option (JsString × JsoncValue)}
    (hposition : ∀ step ∈ position, step ∈ children node) :
    ∃ selections, ((position.map (·.1)).bind (jsoncLookup node)).toList = selections.map Selection.visit ∧
      Selects node (position = some ·) selections := by
  cases position with
  | none =>
    exact ⟨(none : Option Selection).toList, rfl, selects_option (fun step => ⟨nofun, fun h => nomatch h.2⟩) nofun⟩
  | some step =>
    have hstep := hposition step rfl
    have hkey := literal_children hkeys hliteral hstep
    have hsame := unquoteSeg_of_not_mem (addressable_children hkeys hstep).quote
    have hlookup := (jsoncLookup_eq_some_iff hdistinct hkey.index).mpr ⟨step.2, by rwa [hsame], rfl⟩
    refine ⟨(some ⟨step.1, step.1, step.2⟩ : Option Selection).toList, ?_, selects_option (fun other => ?_) ?_⟩
    · rw [Option.map_some, Option.bind_some, hlookup]
      rfl
    · constructor
      · rintro ⟨⟩
        exact ⟨hstep, rfl⟩
      · rintro ⟨-, ⟨⟩⟩
        rfl
    · rintro _ ⟨⟩
      have hreads := hkey.reads (by rw [hsame]; exact (addressable_children hkeys hstep).ne_nil)
      rwa [hsame] at hreads

/-- **A sub-segment selects each child it holds of once**, under a segment that reads as its key. -/
theorem selectedBy_exact {value : JsString} (hvalue : Supported value) (hunion : isUnionSeg value = false)
    (hposition : isPositionalSeg value → ∀ key ∈ keys node, Literal key) :
    ∃ selections, selectedBy jsoncOps node value = selections.map Selection.visit ∧
      Selects node (Holds node value) selections := by
  have hwildPredicate : isPredicateSeg WILDCARD_SINGLE = false := by decide
  cases hvalue with
  | wildcard =>
    obtain ⟨selections, hselected, hselects⟩ := selects_filter hdistinct hkeys fun _ => true
    refine ⟨selections, ?_, hselects.congr fun step => ?_⟩
    · rw [selectedBy, hwildPredicate, if_neg Bool.false_ne_true, if_pos rfl, ← hselected, filter_true]
      exact jsoncEnumerate_eq node
    · rw [Holds, hwildPredicate, if_neg Bool.false_ne_true, if_pos rfl]
      simp
  | predicate hpredicate =>
    rw [selectedBy, if_pos hpredicate]
    cases hparsed : parsePredicateSeg value with
    | none =>
      refine ⟨(none : Option Selection).toList, rfl, selects_option (fun step => ⟨nofun, ?_⟩) nofun⟩
      rintro ⟨-, hholds⟩
      rw [Holds, if_pos hpredicate, hparsed] at hholds
      obtain ⟨pred, hnone, -⟩ := hholds
      cases hnone
    | some pred =>
      obtain ⟨selections, hselected, hselects⟩ :=
        selects_filter hdistinct hkeys fun step => jsoncChildMatchesPredicate step.2 pred
      refine ⟨selections, by rw [← hselected]; exact jsoncPredicate_eq node pred, hselects.congr fun step => ?_⟩
      rw [Holds, if_pos hpredicate, hparsed]
      simp
  | positional hpositional =>
    have hliteral := hposition hpositional
    have hfirst : isPredicateSeg POS_FIRST = false ∧ POS_FIRST ≠ WILDCARD_SINGLE := by decide
    have hlast : isPredicateSeg POS_LAST = false ∧ POS_LAST ≠ WILDCARD_SINGLE ∧ POS_LAST ≠ POS_FIRST := by decide
    rw [isPositionalSeg, Bool.or_eq_true, beq_iff_eq, beq_iff_eq] at hpositional
    rcases hpositional with rfl | rfl
    · obtain ⟨selections, hselected, hselects⟩ := selects_position hdistinct hkeys hliteral
        fun step (hstep : step ∈ (children node).head?) => mem_of_head? hstep
      refine ⟨selections, ?_, hselects.congr fun step => ?_⟩
      · rw [selectedBy, hfirst.1, if_neg Bool.false_ne_true, if_neg hfirst.2, if_pos (by decide), ← hselected, ←
          positionalForJsoncNode_first]
        rfl
      · rw [Holds, hfirst.1, if_neg Bool.false_ne_true, if_neg hfirst.2, if_pos rfl]
    · obtain ⟨selections, hselected, hselects⟩ := selects_position hdistinct hkeys hliteral
        fun step (hstep : step ∈ (children node).getLast?) => mem_of_getLast? hstep
      refine ⟨selections, ?_, hselects.congr fun step => ?_⟩
      · rw [selectedBy, hlast.1, if_neg Bool.false_ne_true, if_neg hlast.2.1, if_pos (by decide), ← hselected, ←
          positionalForJsoncNode_last]
        rfl
      · rw [Holds, hlast.1, if_neg Bool.false_ne_true, if_neg hlast.2.1, if_neg hlast.2.2, if_pos rfl]
  | literal hliteral =>
    obtain ⟨selections, hselected, hselects⟩ := selects_lookup hdistinct hkeys hliteral
    obtain ⟨hwild, -, -, hpredicate⟩ := isMultiMatch_eq_false_iff.mp hliteral.multi
    have hpositional := hliteral.positional
    refine ⟨selections, ?_, hselects.congr fun step => ?_⟩
    · rw [selectedBy, hpredicate, if_neg Bool.false_ne_true, if_neg hwild, hpositional, if_neg Bool.false_ne_true,
        ← hselected]
      rfl
    · exact holds_literal hliteral
  | union halts => rw [(parseUnionSeg_eq_some halts).1] at hunion; cases hunion

theorem selects_literals {alts : List JsString} (halts : ∀ alt ∈ alts, Literal alt)
    (hkeysApart : (alts.map unquoteSeg).Nodup) :
    ∃ selections, alts.flatMap (selectedBy jsoncOps node) = selections.map Selection.visit ∧
      Selects node (fun step => ∃ alt ∈ alts, Holds node alt step) selections := by
  induction alts with
  | nil => exact ⟨(none : Option Selection).toList, rfl, selects_option (fun step => by simp) nofun⟩
  | cons alt alts ih =>
    obtain ⟨halt, halts⟩ := forall_mem_cons.mp halts
    obtain ⟨hapart, hkeysApart⟩ := nodup_cons.mp hkeysApart
    obtain ⟨others, hothers, hselectsOthers⟩ := ih halts hkeysApart
    have hposition : isPositionalSeg alt → ∀ key ∈ keys node, Literal key := fun h => by
      rw [halt.positional] at h
      cases h
    obtain ⟨selections, hselected, hselects⟩ := selectedBy_exact hdistinct hkeys (.literal halt)
      (isMultiMatch_eq_false_iff.mp halt.multi).2.2.1 hposition
    refine ⟨selections ++ others, by rw [flatMap_cons, hselected, hothers, map_append], ?_, ?_, ?_⟩
    · rw [map_append]
      refine hselects.once.append hselectsOthers.once ?_
      intro key hkey hother
      obtain ⟨selection, hselection, rfl⟩ := mem_map.mp hkey
      obtain ⟨other, hmem, hsame⟩ := mem_map.mp hother
      have hhere := ((hselects.complete selection.step).mp (mem_map_of_mem hselection)).2
      obtain ⟨alt', halt', hthere⟩ := ((hselectsOthers.complete other.step).mp (mem_map_of_mem hmem)).2
      rw [holds_literal halt] at hhere
      rw [holds_literal (halts alt' halt')] at hthere
      refine hapart (mem_map.mpr ⟨alt', halt', ?_⟩)
      calc unquoteSeg alt' = other.key := hthere.symm
        _ = selection.key := hsame
        _ = unquoteSeg alt := hhere
    · intro step
      rw [map_append, mem_append, hselects.complete, hselectsOthers.complete]
      simp only [mem_cons, exists_eq_or_imp]
      tauto
    · exact forall_mem_append.mpr ⟨hselects.reads, hselectsOthers.reads⟩

theorem alternatives_exact {value : JsString} (hvalue : Supported value)
    (hposition : isPositionalSeg value → ∀ key ∈ keys node, Literal key) :
    ∃ selections, (alternatives value).flatMap (selectedBy jsoncOps node) = selections.map Selection.visit ∧
      Selects node (fun step => ∃ alt ∈ alternatives value, Holds node alt step) selections := by
  cases hunion : isUnionSeg value with
  | false =>
    obtain ⟨selections, hselected, hselects⟩ := selectedBy_exact hdistinct hkeys hvalue hunion hposition
    rw [alternatives_self hunion]
    refine ⟨selections, by rw [flatMap_singleton, hselected], hselects.congr fun step => ?_⟩
    simp
  | true =>
    obtain ⟨alts, hparsed, halts, hapart⟩ := hvalue.union_of hunion
    rw [alternatives_of_literals hparsed halts]
    exact selects_literals hdistinct hkeys halts hapart

end Selecting

end ClawWorks.OcPath
