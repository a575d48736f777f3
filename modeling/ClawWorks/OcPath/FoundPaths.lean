import ClawWorks.OcPath.FindExact

/-!
# Paths found resolve
-/

namespace ClawWorks.OcPath

open Except List

section Resolution

variable {current : JsoncValue} {seg : JsString}

theorem resolveFrom_child {child : JsoncValue} (hdistinct : (keys current).Nodup) (hne : seg ≠ [])
    (hpositional : isPositionalSeg seg = false) (hchild : (seg, child) ∈ children current) (last : Option JsoncEntry)
    (walked segments : List JsString) :
    ∃ next : Option JsoncEntry, (∀ entry ∈ next, entry.value = child) ∧
      resolveFrom current last walked (seg :: segments) = resolveFrom child next (walked ++ [seg]) segments := by
  rw [resolveFrom, isEmpty_eq_false_iff.mpr hne, if_neg Bool.false_ne_true, hpositional,
    if_neg Bool.false_ne_true]
  cases current with
  | object entries line =>
    obtain ⟨entry, hfind, rfl⟩ := (find_entry_iff hdistinct).mpr hchild
    exact ⟨some entry, by rintro _ ⟨⟩; rfl, by dsimp only; rw [hfind]⟩
  | array items line => exact ⟨none, nofun, by dsimp only; rw [find_item_iff.mpr hchild]⟩
  | string | number | boolean | null => cases hchild

theorem resolveFrom_no_child (hdistinct : (keys current).Nodup) (hpositional : isPositionalSeg seg = false)
    (hchild : ∀ child, (seg, child) ∉ children current) (last : Option JsoncEntry) (walked segments : List JsString) :
    resolveFrom current last walked (seg :: segments) = none := by
  rw [resolveFrom, hpositional, if_neg Bool.false_ne_true]
  split
  · rfl
  cases current with
  | object entries line =>
    cases hfind : entries.find? fun entry => entry.key == seg with
    | none => dsimp only; rw [hfind]
    | some entry => exact absurd ((find_entry_iff hdistinct).mp ⟨entry, hfind, rfl⟩) (hchild _)
  | array items line =>
    cases hfind : (parseArrayIndexSegment seg items.length).bind fun index => items[index]? with
    | none => dsimp only; rw [hfind]
    | some item => exact absurd (find_item_iff.mp hfind) (hchild _)
  | string | number | boolean | null => rfl

end Resolution

theorem resolveFrom_nodeAt {depth : Nat} {root current target : JsoncValue} {access : List JsString}
    (hsearchable : Searchable depth current) (hnode : NodeAt current access target) {last : Option JsoncEntry}
    (hlast : ∀ entry ∈ last, entry.value = current) (walked : List JsString) :
    ∃ found, resolveFrom current last walked access = some found ∧ found.node root = target ∧
      found.path = walked ++ access := by
  induction hnode generalizing depth last walked with
  | here node =>
    refine ⟨matchAt node last walked, rfl, ?_⟩
    cases last with
    | none => exact ⟨rfl, (append_nil _).symm⟩
    | some entry => exact ⟨hlast entry rfl, (append_nil _).symm⟩
  | @child node below target key access hchild _ ih =>
    have hkey := addressable_children (hsearchable.addressable [] node (.here node)) hchild
    obtain ⟨rest, rfl, hbelow⟩ := hsearchable.child hchild
    obtain ⟨next, hnext, hresolve⟩ := resolveFrom_child (hsearchable.distinct [] node (.here node)) hkey.ne_nil
      hkey.positional hchild last walked access
    obtain ⟨found, hfound, htarget, hpath⟩ := ih hbelow hnext (walked ++ [key])
    exact ⟨found, hresolve.trans hfound, htarget, by rw [hpath, append_assoc]; rfl⟩

theorem resolveFrom_eq_none {depth : Nat} {current : JsoncValue} {access : List JsString}
    (hsearchable : Searchable depth current) (hnode : ∀ target, ¬NodeAt current access target)
    (hpositional : ∀ seg ∈ access, isPositionalSeg seg = false) (last : Option JsoncEntry) (walked : List JsString) :
    resolveFrom current last walked access = none := by
  induction access generalizing depth current last walked with
  | nil => exact absurd (.here current) (hnode current)
  | cons seg access ih =>
    obtain ⟨hseg, hpositional⟩ := forall_mem_cons.mp hpositional
    have hdistinct := hsearchable.distinct [] current (.here current)
    by_cases hchild : ∃ child, (seg, child) ∈ children current
    · obtain ⟨child, hchild⟩ := hchild
      have hkey := addressable_children (hsearchable.addressable [] current (.here current)) hchild
      obtain ⟨rest, rfl, hbelow⟩ := hsearchable.child hchild
      obtain ⟨next, -, hresolve⟩ := resolveFrom_child hdistinct hkey.ne_nil hseg hchild last walked access
      exact hresolve.trans (ih hbelow (fun target htarget => hnode target (.child hchild htarget)) hpositional next _)
    · exact resolveFrom_no_child hdistinct hseg (fun child h => hchild ⟨child, h⟩) last walked access

/-! ## Paths of the segments written -/

theorem slotSegments_join {values : List JsString} (hne : values ≠ [])
    (hclear : ∀ value ∈ values, bracketScanner.Clear [DOT] value) :
    slotSegments (some ([DOT].intercalate values)) = .ok values :=
  splitRespectingBrackets_eq_ok_iff.mpr ((Scanner.split_eq_some_iff isMark_dot).mpr ⟨hne, hclear, rfl⟩)

variable {subs : List SlotSub}

theorem slotSegments_joinSlot (slot : Slot) (hclear : ∀ sub ∈ subs, bracketScanner.Clear [DOT] sub.value) :
    slotSegments (joinSlot slot subs) = .ok ((subs.filter fun sub => sub.slot = slot).map (·.value)) := by
  rw [joinSlot]
  cases hvalues : (subs.filter fun sub => sub.slot = slot).map (·.value) with
  | nil => rfl
  | cons value values =>
    refine slotSegments_join (cons_ne_nil value values) fun v hv => ?_
    rw [← hvalues] at hv
    obtain ⟨sub, hsub, rfl⟩ := mem_map.mp hv
    exact hclear sub (mem_of_mem_filter hsub)

theorem slotSubs_eq_ok_iff {slot : Slot} {text : Option JsString} :
    slotSubs slot text = .ok subs ↔ ∃ values, slotSegments text = .ok values ∧ subs = values.map (SlotSub.mk slot) := by
  simp only [slotSubs, Except.bind_eq_ok, pure, Except.pure, Except.ok.injEq]
  exact exists_congr fun values => and_congr_right fun _ => eq_comm

theorem patternSubs_eq_ok_iff {pattern : OcPath} : patternSubs pattern = .ok subs ↔
      ∃ sections items fields, slotSegments pattern.sectionSlot = .ok sections ∧ slotSegments pattern.item = .ok items ∧
        slotSegments pattern.field = .ok fields ∧
        subs = sections.map (SlotSub.mk .sectionSlot) ++ items.map (SlotSub.mk .item) ++
          fields.map (SlotSub.mk .field) := by
  simp only [patternSubs, Except.bind_eq_ok, slotSubs_eq_ok_iff, pure, Except.pure, Except.ok.injEq]
  constructor
  · rintro ⟨_, ⟨sections, hsections, rfl⟩, _, ⟨items, hitems, rfl⟩, _, ⟨fields, hfields, rfl⟩, rfl⟩
    exact ⟨sections, items, fields, hsections, hitems, hfields, rfl⟩
  · rintro ⟨sections, items, fields, hsections, hitems, hfields, rfl⟩
    exact ⟨_, ⟨sections, hsections, rfl⟩, _, ⟨items, hitems, rfl⟩, _, ⟨fields, hfields, rfl⟩, rfl⟩

theorem splitSlots_of_patternSubs {pattern : OcPath} (h : patternSubs pattern = .ok subs) :
    splitSlots pattern = .ok (subs.map (·.value)) := by
  obtain ⟨sections, items, fields, hsections, hitems, hfields, rfl⟩ := patternSubs_eq_ok_iff.mp h
  simp [splitSlots, hsections, hitems, hfields, bind, Except.bind, pure, Except.pure, Function.comp_def]

theorem filter_slots {sections items fields : List JsString}
    (h : subs.map (·.slot) = (sections.map (SlotSub.mk .sectionSlot) ++ items.map (SlotSub.mk .item) ++
      fields.map (SlotSub.mk .field)).map (·.slot)) :
    (subs.filter fun sub => sub.slot = .sectionSlot) ++ (subs.filter fun sub => sub.slot = .item) ++
      (subs.filter fun sub => sub.slot = .field) = subs := by
  rw [map_append, map_append, map_eq_append_iff] at h
  obtain ⟨front, fieldSubs, rfl, hfront, hfields⟩ := h
  obtain ⟨sectionSubs, itemSubs, rfl, hsections, hitems⟩ := map_eq_append_iff.mp hfront
  have hslot : ∀ {part : List SlotSub} {values : List JsString} {slot : Slot},
      part.map (·.slot) = (values.map (SlotSub.mk slot)).map (·.slot) → ∀ sub ∈ part, sub.slot = slot := by
    intro part values slot hsame sub hsub
    have hmem : sub.slot ∈ (values.map (SlotSub.mk slot)).map (·.slot) := hsame ▸ mem_map_of_mem hsub
    simp only [map_map, mem_map] at hmem
    obtain ⟨_, -, hvalue⟩ := hmem
    exact hvalue.symm
  have hsame : ∀ {part : List SlotSub} {slot other : Slot}, (∀ sub ∈ part, sub.slot = slot) →
      (part.filter fun sub => sub.slot = other) = if slot = other then part else [] := by
    intro part slot other hpart
    split
    · rename_i hslots
      exact filter_eq_self.mpr fun sub hsub => by simp [hpart sub hsub, hslots]
    · rename_i hslots
      exact filter_eq_nil_iff.mpr fun sub hsub => by simp [hpart sub hsub, hslots]
  simp only [filter_append, hsame (hslot hsections), hsame (hslot hitems), hsame (hslot hfields)]
  simp

theorem startsWith_intercalate {c : UInt16} {value : JsString} {values : List JsString} (hne : value ≠ []) :
    startsWith ([DOT].intercalate (value :: values)) c = startsWith value c := by
  cases values with
  | nil => rw [intercalate_singleton]
  | cons next values =>
    rw [intercalate_cons_cons, startsWith, startsWith, append_assoc, head?_append_of_ne_nil _ hne]

theorem joinSlot_no_insertion {slot : Slot} {text : JsString}
    (hsubs : ∀ sub ∈ subs, sub.value ≠ [] ∧ startsWith sub.value PLUS = false) (h : joinSlot slot subs = some text) :
    startsWith text PLUS = false := by
  rw [joinSlot] at h
  cases hvalues : (subs.filter fun sub => sub.slot = slot).map (·.value) with
  | nil => rw [hvalues] at h; cases h
  | cons value values =>
    rw [hvalues] at h
    obtain rfl := Option.some.inj h
    have hmem : value ∈ (subs.filter fun sub => sub.slot = slot).map (·.value) := hvalues ▸ mem_cons_self
    obtain ⟨sub, hsub, rfl⟩ := mem_map.mp hmem
    obtain ⟨hne, hplus⟩ := hsubs sub (mem_of_mem_filter hsub)
    rw [startsWith_intercalate hne, hplus]

theorem detectInsertion_eq_none {path : OcPath} (h : ∀ slot ∈ path.slots, startsWith slot PLUS = false) :
    detectInsertion path = none := by
  simp only [mem_slots_iff] at h
  obtain ⟨file, sectionSlot, item, field, session⟩ := path
  rw [detectInsertion]
  cases field with
  | some last => exact if_neg (Bool.eq_false_iff.mp (h last (.inr (.inr rfl))))
  | none =>
    cases item with
    | some last => exact if_neg (Bool.eq_false_iff.mp (h last (.inr (.inl rfl))))
    | none =>
      cases sectionSlot with
      | some last => exact if_neg (Bool.eq_false_iff.mp (h last (.inl rfl)))
      | none => rfl

def NamesNode (root : JsoncValue) (access : List JsString) (path : OcPath) (found : OcMatch) : Prop :=
  resolveOcPath (some root) path = .ok (some found) ∧
    ∃ named : JsoncMatch, resolveJsoncOcPath (some root) path = .ok (some named) ∧ named.path = access ∧
      NodeAt root access (named.node root) ∧ found = named.toUniversal

theorem resolve_written {depth : Nat} {root target : JsoncValue} {path : OcPath} {values access : List JsString}
    (hsearchable : Searchable depth root) (hsplit : splitSlots path = .ok values)
    (hreads : List.Forall₂ Reads values access) (hslots : ∀ slot ∈ path.slots, startsWith slot PLUS = false)
    (hnode : NodeAt root access target) : ∃ found, NamesNode root access path found := by
  have hunquoted : values.map unquoteSeg = access := by
    clear hsplit hnode
    induction hreads with
    | nil => rfl
    | cons hread _ ih => rw [map_cons, hread.unquoted, ih]
  have hmulti : values.any isMultiMatch = false := by
    clear hsplit hnode hunquoted
    induction hreads with
    | nil => rfl
    | cons hread _ ih => rw [any_cons, hread.multi, ih]; rfl
  have hnamed : ∃ named : JsoncMatch, resolveJsoncOcPath (some root) path = .ok (some named) ∧ named.path = access ∧
      named.node root = target := by
    simp only [resolveJsoncOcPath, hsplit, bind, Except.bind, pure, Except.pure]
    cases values with
    | nil =>
      obtain rfl : access = [] := hunquoted.symm
      cases hnode
      exact ⟨.root, rfl, rfl, rfl⟩
    | cons value values =>
      obtain ⟨named, hresolve, htarget, hpath⟩ :=
        @resolveFrom_nodeAt depth root root target access hsearchable hnode none nofun []
      refine ⟨named, ?_, hpath, htarget⟩
      rw [hunquoted, isEmpty_cons, if_neg Bool.false_ne_true, resolveJsoncValueOcPath, hresolve]
  obtain ⟨named, hresolve, hpath, htarget⟩ := hnamed
  refine ⟨named.toUniversal, ?_, named, hresolve, hpath, htarget ▸ hnode, rfl⟩
  simp [resolveOcPath, lift, isPattern_of_splitSlots hsplit, hmulti, detectInsertion_eq_none hslots, hresolve, bind,
    Except.bind, pure, Except.pure]

/-! ## The search -/

/-- The sub-segments of a pattern. -/
def tokens (pattern : OcPath) : List JsString :=
  pattern.slots.flatMap subSegments

/-- **The search is exact**: it throws nothing and finds one path for each way the pattern matches, which resolves to
the node there. -/
def FoundExactly [FiniteNumber] (root : JsoncValue) (pattern : OcPath) : Prop :=
  ∃ (found : List OcPathMatch) (accesses : List (List JsString)),
    findOcPaths (some root) pattern = .ok found ∧ accesses.Nodup ∧
      (∀ access, access ∈ accesses ↔ Matches (tokens pattern) root access) ∧
      List.Forall₂ (fun access result => NamesNode root access result.path result.found) accesses found

theorem exists_patternSubs {pattern : OcPath}
    (h : ∀ slot ∈ pattern.slots, bracketScanner.split DOT slot = some (subSegments slot)) :
    ∃ subs, patternSubs pattern = .ok subs ∧ subs.map (·.value) = tokens pattern := by
  have hslot : ∀ text : Option JsString, (∀ slot ∈ text, slot ∈ pattern.slots) →
      slotSegments text = .ok (text.toList.flatMap subSegments) := by
    intro text htext
    cases text with
    | none => rfl
    | some slot =>
      rw [slotSegments, splitRespectingBrackets_eq_ok_iff.mpr (h slot (htext slot rfl))]
      simp
  refine ⟨_, patternSubs_eq_ok_iff.mpr ⟨_, _, _, hslot _ fun slot hslot => mem_slots_iff.mpr (.inl hslot),
    hslot _ fun slot hslot => mem_slots_iff.mpr (.inr (.inl hslot)),
    hslot _ fun slot hslot => mem_slots_iff.mpr (.inr (.inr hslot)), rfl⟩, ?_⟩
  simp [tokens, slots, Function.comp_def]

theorem Searchable.addressable_access {depth : Nat} {root target : JsoncValue} {access : List JsString}
    (h : Searchable depth root) (hnode : NodeAt root access target) {key : JsString} (hkey : key ∈ access) :
    Addressable key := by
  induction hnode generalizing depth with
  | here => cases hkey
  | @child node below target first access hchild _ ih =>
    rcases mem_cons.mp hkey with rfl | hkey
    · exact addressable_children (h.addressable [] node (.here node)) hchild
    · obtain ⟨rest, -, hbelow⟩ := h.child hchild
      exact ih hbelow hkey

theorem Supported.literal_of_plain {sub : SlotSub} (h : Supported sub.value) (hexpand : needsExpansion sub = false) :
    Literal sub.value := by
  obtain ⟨slot, value⟩ := sub
  simp only [needsExpansion, Bool.or_eq_false_iff] at hexpand
  cases h with
  | wildcard => exact absurd hexpand.1.1.1.1 (by decide)
  | predicate hpredicate => rw [hpredicate] at hexpand; exact absurd hexpand.2 (by decide)
  | positional hpositional => rw [hpositional] at hexpand; exact absurd hexpand.1.1.2 (by decide)
  | literal hliteral => exact hliteral
  | union halts => rw [(parseUnionSeg_eq_some halts).1] at hexpand; exact absurd hexpand.1.2 (by decide)

section Search

variable [FiniteNumber] {depth : Nat} {root : JsoncValue} {pattern : OcPath}

omit [FiniteNumber] in
theorem repack_names {subs : List SlotSub} {found : Found} {target : JsoncValue}
    (hsearchable : Searchable depth root) (hpattern : patternSubs pattern = .ok subs) (hwritten : Written subs found)
    (hnode : NodeAt root found.access target) :
    ∃ result, NamesNode root found.access (repackSlotSubs pattern found.subs) result := by
  have hsubs : ∀ sub ∈ found.subs, ∃ key, Reads sub.value key := by
    have hreads := hwritten.reads
    intro sub hsub
    obtain ⟨i, hi, rfl⟩ := getElem_of_mem hsub
    exact ⟨_, hreads.get hi (by rwa [← hreads.length_eq])⟩
  have hclear : ∀ sub ∈ found.subs, bracketScanner.Clear [DOT] sub.value := fun sub hsub =>
    (hsubs sub hsub).choose_spec.clear
  have hplus : ∀ sub ∈ found.subs, sub.value ≠ [] ∧ startsWith sub.value PLUS = false := fun sub hsub =>
    have hread := (hsubs sub hsub).choose_spec
    ⟨hread.keySub_ne_nil, hread.insertion⟩
  obtain ⟨sections, items, fields, -, -, -, rfl⟩ := patternSubs_eq_ok_iff.mp hpattern
  have hreads : List.Forall₂ Reads (found.subs.map (·.value)) found.access := forall₂_map_left_iff.mpr hwritten.reads
  refine resolve_written hsearchable ?_ hreads ?_ hnode
  · have hsplit : splitSlots (repackSlotSubs pattern found.subs) =
        .ok (((found.subs.filter fun sub => sub.slot = .sectionSlot) ++
          (found.subs.filter fun sub => sub.slot = .item) ++
          (found.subs.filter fun sub => sub.slot = .field)).map (·.value)) := by
      simp [splitSlots, repackSlotSubs, slotSegments_joinSlot _ hclear, bind, Except.bind, pure, Except.pure]
    rw [hsplit, filter_slots hwritten.slots]
  · intro slot hslot
    rcases mem_slots_iff.mp hslot with h | h | h <;> exact joinSlot_no_insertion hplus h

omit [FiniteNumber] in
theorem resolveAll_names {subs : List SlotSub} {finds : List Found} (hsearchable : Searchable depth root)
    (hpattern : patternSubs pattern = .ok subs) (hwritten : ∀ found ∈ finds, Written subs found)
    (hnode : ∀ found ∈ finds, ∃ target, NodeAt root found.access target) :
    ∃ results, resolveAll (some root) ((finds.map (·.subs)).map (repackSlotSubs pattern)) = .ok results ∧
      List.Forall₂ (fun access (result : OcPathMatch) => NamesNode root access result.path result.found)
        (finds.map (·.access)) results := by
  induction finds with
  | nil => exact ⟨[], rfl, .nil⟩
  | cons found finds ih =>
    obtain ⟨hhere, hwritten⟩ := forall_mem_cons.mp hwritten
    obtain ⟨⟨target, htarget⟩, hnode⟩ := forall_mem_cons.mp hnode
    obtain ⟨results, hresults, hnames⟩ := ih hwritten hnode
    obtain ⟨result, hresult⟩ := repack_names hsearchable hpattern hhere htarget
    refine ⟨⟨_, result⟩ :: results, ?_, .cons hresult hnames⟩
    rw [map_cons, map_cons, resolveAll, hresult.1, hresults]
    rfl

theorem matches_literals_iff {values access : List JsString} {node : JsoncValue}
    (hvalues : ∀ value ∈ values, Literal value) :
    Matches values node access ↔ access = values.map unquoteSeg ∧ ∃ target, NodeAt node access target := by
  induction values generalizing node access with
  | nil =>
    rw [matches_nil_iff, map_nil]
    exact ⟨fun h => ⟨h, node, h ▸ .here node⟩, And.left⟩
  | cons value values ih =>
    obtain ⟨hvalue, hvalues⟩ := forall_mem_cons.mp hvalues
    have hmulti := isMultiMatch_eq_false_iff.mp hvalue.multi
    rw [matches_single_iff hmulti.2.2.1 hmulti.2.1, map_cons]
    constructor
    · rintro ⟨key, child, rest, rfl, hchild, hholds, hmatches⟩
      obtain ⟨hrest, target, htarget⟩ := (ih hvalues).mp hmatches
      exact ⟨by rw [← hrest, ← (holds_literal hvalue).mp hholds], target, .child hchild htarget⟩
    · rintro ⟨rfl, target, htarget⟩
      cases htarget with
      | child hchild htarget =>
        exact ⟨_, _, _, rfl, hchild, (holds_literal hvalue).mpr rfl, (ih hvalues).mpr ⟨rfl, target, htarget⟩⟩

/-- **A pattern of literals finds the node it spells the way to**, if there is one. -/
theorem literals_exact {subs : List SlotSub} (hsearchable : Searchable depth root)
    (hpattern : patternSubs pattern = .ok subs) (htokens : subs.map (·.value) = tokens pattern)
    (hliteral : ∀ token ∈ tokens pattern, Literal token)
    (hslots : ∀ slot ∈ pattern.slots, startsWith slot PLUS = false) (hexpand : subs.any needsExpansion = false) :
    FoundExactly root pattern := by
  have hfind : findOcPaths (some root) pattern = resolveAll (some root) [pattern] := by
    simp [findOcPaths, lift, hpattern, hexpand, bind, Except.bind]
  have hsplit : splitSlots pattern = .ok (tokens pattern) := by rw [splitSlots_of_patternSubs hpattern, htokens]
  by_cases hnode : ∃ target, NodeAt root ((tokens pattern).map unquoteSeg) target
  · obtain ⟨target, htarget⟩ := hnode
    have hreads : List.Forall₂ Reads (tokens pattern) ((tokens pattern).map unquoteSeg) :=
      forall₂_map_right_iff.mpr (forall₂_same.mpr fun token htoken =>
        (hliteral token htoken).reads (hsearchable.addressable_access htarget (mem_map_of_mem htoken)).ne_nil)
    obtain ⟨result, hresult⟩ := resolve_written hsearchable hsplit hreads hslots htarget
    refine ⟨[⟨pattern, result⟩], [(tokens pattern).map unquoteSeg], ?_, nodup_singleton _, fun access => ?_,
      .cons hresult .nil⟩
    · rw [hfind, resolveAll, hresult.1]
      rfl
    · rw [matches_literals_iff hliteral, mem_singleton]
      exact ⟨fun h => ⟨h, target, h ▸ htarget⟩, And.left⟩
  · refine ⟨[], [], ?_, nodup_nil, fun access => ?_, .nil⟩
    · have hmulti : (tokens pattern).any isMultiMatch = false :=
        any_eq_false.mpr fun token htoken => by simp [(hliteral token htoken).multi]
      have hempty : (tokens pattern).isEmpty = false := by
        refine isEmpty_eq_false_iff.mpr fun hnil => hnode ⟨root, ?_⟩
        rw [hnil]
        exact .here root
      have hnone : resolveJsoncValueOcPath root ((tokens pattern).map unquoteSeg) = none := by
        refine resolveFrom_eq_none hsearchable (fun target htarget => hnode ⟨target, htarget⟩) (fun seg hseg => ?_)
          none []
        obtain ⟨token, htoken, rfl⟩ := mem_map.mp hseg
        exact (hliteral token htoken).position
      have hresolve : resolveOcPath (some root) pattern = .ok none := by
        simp [resolveOcPath, resolveJsoncOcPath, lift, isPattern_of_splitSlots hsplit, hsplit, hmulti,
          detectInsertion_eq_none hslots, hempty, hnone, bind, Except.bind, pure, Except.pure]
      rw [hfind, resolveAll, hresolve]
      rfl
    · rw [matches_literals_iff hliteral]
      refine ⟨fun h => absurd h not_mem_nil, ?_⟩
      rintro ⟨rfl, htarget⟩
      exact absurd htarget hnode

/-- **The search finds a path for each node a supported pattern matches, once**, and that path resolves to the node:
where keys are distinct and addressable and no node is deeper than the limit, and where every key stands for itself if
the pattern has a position. -/
theorem findOcPaths_exact [LowerCase] [Nfc] {input : JsString} (hparse : parseOcPath input = .ok pattern)
    (hsearchable : Searchable MAX_TRAVERSAL_DEPTH root) (hsupported : ∀ token ∈ tokens pattern, Supported token)
    (hposition : (∃ token ∈ tokens pattern, isPositionalSeg token = true) → LiteralKeys root) :
    FoundExactly root pattern := by
  have hparsed := parsed_of_parse hparse
  obtain ⟨subs, hpattern, htokens⟩ := exists_patternSubs hparsed.split
  have hsubs : ∀ sub ∈ subs, Supported sub.value := fun sub hsub =>
    hsupported sub.value (htokens ▸ mem_map_of_mem hsub)
  cases hexpand : subs.any needsExpansion with
  | false =>
    have hliteral : ∀ token ∈ tokens pattern, Literal token := by
      rw [← htokens]
      intro token htoken
      obtain ⟨sub, hsub, rfl⟩ := mem_map.mp htoken
      exact (hsubs sub hsub).literal_of_plain (by simpa using any_eq_false.mp hexpand sub hsub)
    refine literals_exact hsearchable hpattern htokens hliteral (fun slot hslot => ?_) hexpand
    obtain ⟨hne, -, hjoin⟩ := (Scanner.split_eq_some_iff isMark_dot).mp (hparsed.split slot hslot)
    obtain ⟨first, others, hfirst⟩ := exists_cons_of_ne_nil hne
    have hmem : first ∈ subSegments slot := hfirst ▸ mem_cons_self
    rw [hjoin, hfirst, startsWith_intercalate (hparsed.readable slot hslot first hmem).ne_nil_and_control.1]
    exact (hliteral first (mem_flatMap.mpr ⟨slot, hslot, hmem⟩)).insertion
  | true =>
    have hpositionSubs : (∃ sub ∈ subs, isPositionalSeg sub.value = true) → LiteralKeys root := by
      rintro ⟨sub, hsub, hpositional⟩
      exact hposition ⟨sub.value, htokens ▸ mem_map_of_mem hsub, hpositional⟩
    obtain ⟨finds, hfinds, hexact⟩ := walk_exact [] hsearchable hsubs hpositionSubs
    obtain ⟨results, hresults, hnames⟩ := resolveAll_names hsearchable hpattern hexact.written fun found hfound =>
      ((hexact.complete found.access).mp (mem_map_of_mem hfound)).nodeAt
    refine ⟨results, finds.map (·.access), ?_, hexact.once, fun access => ?_, hnames⟩
    · have hwalk : walkJsonc root subs = .ok (finds.map (·.subs)) := hfinds
      simp only [findOcPaths, lift, hpattern, hexpand, hwalk, bind, Except.bind, if_true]
      exact hresults
    · rw [hexact.complete, htokens]

end Search

/-! ## Where the search is not exact -/

section Inexact

variable [FiniteNumber] {root : JsoncValue} {pattern : OcPath} {results : List OcPathMatch}

section

variable (h : FoundExactly root pattern)

include h

theorem FoundExactly.nodup_paths
    (hresults : findOcPaths (some root) pattern = .ok results) : (results.map (·.path)).Nodup := by
  obtain ⟨found, accesses, hfound, honce, -, hnames⟩ := h
  obtain rfl := ok.inj (hfound.symm.trans hresults)
  clear hfound hresults
  induction hnames with
  | nil => exact nodup_nil
  | @cons access result accesses results hname hnames ih =>
    obtain ⟨hnew, honce⟩ := nodup_cons.mp honce
    refine nodup_cons.mpr ⟨fun hmem => ?_, ih honce⟩
    obtain ⟨other, hother, hpath⟩ := mem_map.mp hmem
    obtain ⟨i, hi, rfl⟩ := getElem_of_mem hother
    have hbound : i < accesses.length := by rwa [hnames.length_eq]
    obtain ⟨-, named, hnamed, haccess, -⟩ := hname
    obtain ⟨-, named', hnamed', haccess', -⟩ := hnames.get hbound hi
    obtain rfl : named = named' := by
      rw [get_eq_getElem, hpath, hnamed] at hnamed'
      exact Option.some.inj (ok.inj hnamed')
    exact hnew (haccess ▸ haccess' ▸ getElem_mem hbound)

theorem FoundExactly.ne_nil (hresults : findOcPaths (some root) pattern = .ok results)
    {access : List JsString} (hmatches : Matches (tokens pattern) root access) : results ≠ [] := by
  rintro rfl
  obtain ⟨found, accesses, hfound, -, hcomplete, hnames⟩ := h
  obtain rfl := ok.inj (hfound.symm.trans hresults)
  cases hnames
  cases (hcomplete access).mpr hmatches

theorem FoundExactly.eq_nil (hresults : findOcPaths (some root) pattern = .ok results)
    (hnone : ∀ access, ¬Matches (tokens pattern) root access) : results = [] := by
  obtain ⟨found, accesses, hfound, -, hcomplete, hnames⟩ := h
  obtain rfl := ok.inj (hfound.symm.trans hresults)
  cases hnames with
  | nil => rfl
  | @cons access => exact absurd ((hcomplete access).mp mem_cons_self) (hnone access)

theorem FoundExactly.no_insertion
    (hresults : findOcPaths (some root) pattern = .ok results) {path : OcPath} {container : ContainerKind}
    {line : Nat} : ⟨path, .insertionPoint container line⟩ ∉ results := by
  obtain ⟨found, accesses, hfound, -, -, hnames⟩ := h
  obtain rfl := ok.inj (hfound.symm.trans hresults)
  intro hmem
  obtain ⟨i, hi, hsame⟩ := getElem_of_mem hmem
  obtain ⟨-, named, -, -, -, huniversal⟩ := hnames.get (by rwa [hnames.length_eq]) hi
  rw [get_eq_getElem, hsame] at huniversal
  cases named with
  | root => cases huniversal
  | value node access => cases node <;> cases huniversal
  | objectEntry entry access =>
    obtain ⟨key, value, entryLine⟩ := entry
    cases value <;> cases huniversal

end

theorem not_foundExactly_of_error (h : (findOcPaths (some root) pattern).isOk = false) :
    ¬FoundExactly root pattern := by
  rintro ⟨found, -, hfound, -⟩
  rw [hfound] at h
  cases h

end Inexact

/-- Keys are distinct, and no node is deeper than a limit. -/
def ShallowWithin (depth : Nat) (root : JsoncValue) : Prop :=
  ∀ access node, NodeAt root access node → (keys node).Nodup ∧ access.length ≤ depth

theorem shallowWithin_of_children {depth : Nat} {root : JsoncValue} (hkeys : (keys root).Nodup)
    (hchildren : ∀ step ∈ children root, ShallowWithin depth step.2) : ShallowWithin (depth + 1) root := by
  intro access node hnode
  cases hnode with
  | here => exact ⟨hkeys, Nat.zero_le _⟩
  | child hchild hbelow =>
    obtain ⟨hdistinct, hlength⟩ := hchildren _ hchild _ _ hbelow
    exact ⟨hdistinct, Nat.succ_le_succ hlength⟩

theorem shallowWithin_null (depth : Nat) : ShallowWithin depth (.null none) := by
  rintro access node ⟨⟩
  · exact ⟨nodup_nil, Nat.zero_le _⟩
  · contradiction

/-- An object with one entry. -/
def single (key : JsString) (value : JsoncValue) : JsoncValue :=
  .object [⟨key, value, 1⟩] none

theorem shallowWithin_single {depth : Nat} (key : JsString) {value : JsoncValue} (h : ShallowWithin depth value) :
    ShallowWithin (depth + 1) (single key value) := by
  refine shallowWithin_of_children (nodup_singleton key) fun step hstep => ?_
  obtain rfl := mem_singleton.mp hstep
  exact h

theorem searchable_single {key : JsString} (h : Addressable key) :
    Searchable MAX_TRAVERSAL_DEPTH (single key (.null none)) := by
  have hshallow : ShallowWithin MAX_TRAVERSAL_DEPTH (single key (.null none)) :=
    shallowWithin_single key (shallowWithin_null 255)
  refine ⟨fun access node hnode => (hshallow access node hnode).1,
    fun access node hnode => (hshallow access node hnode).2, fun access node hnode other hother => ?_⟩
  cases hnode with
  | here =>
    obtain rfl := mem_singleton.mp hother
    exact h
  | child hchild hbelow =>
    obtain ⟨rfl, rfl⟩ := Prod.mk.inj (mem_singleton.mp hchild)
    cases hbelow with
    | here => cases hother
    | child hnone => cases hnone

section Runs

@[reducible] def digitNumbers : FiniteNumber where
  finiteNumber text := if isDecimal text then some (decimalValue text) else none

attribute [local instance] asciiLowerCase plainNfc digitNumbers

def oneSlot (value : JsString) : OcPath :=
  { file := js "f.json", sectionSlot := some value }

theorem anyKey_parse : parseOcPath (js "oc://f.json/*") = .ok (oneSlot WILDCARD_SINGLE) := by decide

theorem tokens_anyKey : tokens (oneSlot WILDCARD_SINGLE) = [WILDCARD_SINGLE] := by decide

theorem dotted_addressable : Addressable (js "a.b") := by
  constructor <;> decide

/-- A dotted key is found, under quotes. -/
theorem findOcPaths_exact_dotted : FoundExactly (single (js "a.b") (.null none)) (oneSlot WILDCARD_SINGLE) :=
  findOcPaths_exact anyKey_parse (searchable_single dotted_addressable)
    (by
      intro token htoken
      rw [tokens_anyKey] at htoken
      obtain rfl := mem_singleton.mp htoken
      exact .wildcard)
    (by
      rintro ⟨token, htoken, hpositional⟩
      rw [tokens_anyKey] at htoken
      obtain rfl := mem_singleton.mp htoken
      exact absurd hpositional (by decide))

/-- What is found of an entry `null`. -/
def foundNull (key : JsString) : OcPathMatch :=
  ⟨oneSlot key, .leaf (js "null") .null 1⟩

/-- The pattern is parsed, the document has distinct keys and is not deep, and the search is not exact. -/
def Inexact (input : JsString) (pattern : OcPath) (root : JsoncValue) : Prop :=
  parseOcPath input = .ok pattern ∧ ShallowWithin MAX_TRAVERSAL_DEPTH root ∧ ¬FoundExactly root pattern

section OneEntry

variable {input value key : JsString} {results : List OcPathMatch} (hparse : parseOcPath input = .ok (oneSlot value))
include hparse

theorem inexact_of_error (h : (findOcPaths (some (single key (.null none))) (oneSlot value)).isOk = false) :
    Inexact input (oneSlot value) (single key (.null none)) :=
  ⟨hparse, shallowWithin_single key (shallowWithin_null 255), not_foundExactly_of_error h⟩

theorem inexact_of_missing (htokens : tokens (oneSlot value) = [value]) (hunion : isUnionSeg value = false)
    (hne : value ≠ WILDCARD_RECURSIVE) (hholds : Holds (single key (.null none)) value (key, .null none))
    (hfound : findOcPaths (some (single key (.null none))) (oneSlot value) = .ok []) :
    Inexact input (oneSlot value) (single key (.null none)) := by
  refine ⟨hparse, shallowWithin_single key (shallowWithin_null 255), fun h => ?_⟩
  have hchild : (key, JsoncValue.null none) ∈ children (single key (.null none)) := mem_singleton.mpr rfl
  have hmatches : Matches (tokens (oneSlot value)) (single key (.null none)) [key] := by
    rw [htokens]
    exact .step hunion hne hchild hholds (.done _)
  exact h.ne_nil hfound hmatches rfl

theorem inexact_of_repeated (hfound : findOcPaths (some (single key (.null none))) (oneSlot value) = .ok results)
    (hrepeated : ¬(results.map (·.path)).Nodup) : Inexact input (oneSlot value) (single key (.null none)) :=
  ⟨hparse, shallowWithin_single key (shallowWithin_null 255), fun h => hrepeated (h.nodup_paths hfound)⟩

end OneEntry

theorem empty_key_lost : Inexact (js "oc://f.json/*") (oneSlot WILDCARD_SINGLE) (single [] (.null none)) := by
  refine inexact_of_missing anyKey_parse tokens_anyKey (by decide) (by decide) ?_ (by decide)
  rw [Holds, if_neg (by decide), if_pos rfl]
  trivial

theorem insertion_found : Inexact (js "oc://f.json/*") (oneSlot WILDCARD_SINGLE) (single (js "+a") (.null none)) := by
  have hfound : findOcPaths (some (single (js "+a") (.null none))) (oneSlot WILDCARD_SINGLE) =
      .ok [⟨oneSlot (js "+a"), .insertionPoint .object 1⟩] := by decide
  refine ⟨anyKey_parse, shallowWithin_single _ (shallowWithin_null 255), fun h => ?_⟩
  exact h.no_insertion hfound (mem_singleton.mpr rfl)

theorem recursive_doubles :
    Inexact (js "oc://f.json/**") (oneSlot WILDCARD_RECURSIVE) (single (js "a") (.null none)) := by
  have hfound : findOcPaths (some (single (js "a") (.null none))) (oneSlot WILDCARD_RECURSIVE) =
      .ok [⟨{ file := js "f.json" }, .root⟩, foundNull (js "a"), foundNull (js "a")] := by decide
  exact inexact_of_repeated (by decide) hfound (by decide)

theorem union_doubles : Inexact (js "oc://f.json/{a,a}") (oneSlot (js "{a,a}")) (single (js "a") (.null none)) := by
  have hfound : findOcPaths (some (single (js "a") (.null none))) (oneSlot (js "{a,a}")) =
      .ok [foundNull (js "a"), foundNull (js "a")] := by decide
  exact inexact_of_repeated (by decide) hfound (by decide)

theorem position_loses_dotted :
    Inexact (js "oc://f.json/$first") (oneSlot POS_FIRST) (single (js "a.b") (.null none)) := by
  refine inexact_of_missing (by decide) (by decide) (by decide) (by decide) ?_ (by decide)
  rw [Holds, if_neg (by decide), if_neg (by decide), if_pos rfl]
  rfl

theorem quoted_position_found :
    Inexact (js "oc://f.json/\"$first\"") (oneSlot (js "\"$first\"")) (single (js "a") (.null none)) := by
  have hfound : findOcPaths (some (single (js "a") (.null none))) (oneSlot (js "\"$first\"")) =
      .ok [foundNull (js "\"$first\"")] := by decide
  refine ⟨by decide, shallowWithin_single _ (shallowWithin_null 255), fun h => ?_⟩
  have htokens : tokens (oneSlot (js "\"$first\"")) = [js "\"$first\""] := by decide
  refine absurd (h.eq_nil hfound fun access hmatches => ?_) (cons_ne_nil _ _)
  rw [htokens, matches_single_iff (by decide) (by decide)] at hmatches
  obtain ⟨key, child, -, -, hchild, hholds, -⟩ := hmatches
  obtain ⟨rfl, rfl⟩ := Prod.mk.inj (mem_singleton.mp hchild)
  rw [Holds, if_neg (by decide), if_neg (by decide), if_neg (by decide), if_neg (by decide)] at hholds
  exact absurd hholds (by decide)

/-- **The search is not exact for every document and pattern**: a key with a quote cannot be written, a key that is a
wildcard cannot be resolved, an empty key is lost, one that starts with `+` is an insertion, `**` and a union that
repeats an alternative find a child twice, a position loses a dotted key, and quotes do not hide one. -/
theorem search_inexact :
    Inexact (js "oc://f.json/*") (oneSlot WILDCARD_SINGLE) (single (js "a\"b") (.null none)) ∧
      Inexact (js "oc://f.json/*") (oneSlot WILDCARD_SINGLE) (single (js "*") (.null none)) ∧
      Inexact (js "oc://f.json/*") (oneSlot WILDCARD_SINGLE) (single [] (.null none)) ∧
      Inexact (js "oc://f.json/*") (oneSlot WILDCARD_SINGLE) (single (js "+a") (.null none)) ∧
      Inexact (js "oc://f.json/**") (oneSlot WILDCARD_RECURSIVE) (single (js "a") (.null none)) ∧
      Inexact (js "oc://f.json/{a,a}") (oneSlot (js "{a,a}")) (single (js "a") (.null none)) ∧
      Inexact (js "oc://f.json/$first") (oneSlot POS_FIRST) (single (js "a.b") (.null none)) ∧
      Inexact (js "oc://f.json/\"$first\"") (oneSlot (js "\"$first\"")) (single (js "a") (.null none)) :=
  ⟨inexact_of_error anyKey_parse (by decide), inexact_of_error anyKey_parse (by decide), empty_key_lost,
    insertion_found, recursive_doubles, union_doubles, position_loses_dotted, quoted_position_found⟩

end Runs

end ClawWorks.OcPath
