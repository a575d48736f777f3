import ClawWorks.OcPath.Selection

/-!
# The search finds what a pattern matches
-/

namespace ClawWorks.OcPath

open List

/-- A document the search can go through: keys of an object are distinct and addressable, no node is deeper than the
limit. -/
structure Searchable (depth : Nat) (root : JsoncValue) : Prop where
  distinct : ∀ access node, NodeAt root access node → (keys node).Nodup
  within : ∀ access node, NodeAt root access node → access.length ≤ depth
  addressable : ∀ access node, NodeAt root access node → ∀ key ∈ keys node, Addressable key

/-- Every key of a document stands for itself in a pattern. -/
def LiteralKeys (root : JsoncValue) : Prop :=
  ∀ access node, NodeAt root access node → ∀ key ∈ keys node, Literal key

section Document

variable {depth : Nat} {node below : JsoncValue} {key : JsString}

theorem Searchable.child (h : Searchable depth node) (hchild : (key, below) ∈ children node) :
    ∃ rest, depth = rest + 1 ∧ Searchable rest below := by
  have hone := h.within [key] below (.child hchild (.here below))
  obtain ⟨rest, rfl⟩ : ∃ rest, depth = rest + 1 := ⟨depth - 1, by simp at hone; omega⟩
  refine ⟨rest, rfl, fun access target htarget => h.distinct _ _ (.child hchild htarget),
    fun access target htarget => ?_, fun access target htarget => h.addressable _ _ (.child hchild htarget)⟩
  exact Nat.le_of_succ_le_succ (h.within _ _ (.child hchild htarget))

theorem LiteralKeys.child (h : LiteralKeys node) (hchild : (key, below) ∈ children node) : LiteralKeys below :=
  fun _ _ htarget => h _ _ (.child hchild htarget)

end Document

theorem Supported.ne_recursive {value : JsString} (h : Supported value) : value ≠ WILDCARD_RECURSIVE := by
  rintro rfl
  cases h with
  | predicate hpredicate => exact absurd hpredicate (by decide)
  | positional hpositional => exact absurd hpositional (by decide)
  | literal hliteral => exact absurd hliteral.multi (by decide)
  | union halts => exact absurd (parseUnionSeg_eq_some halts).1 (by decide)

theorem alternatives_ne_recursive {value : JsString} (h : Supported value) :
    ∀ alt ∈ alternatives value, alt ≠ WILDCARD_RECURSIVE := by
  intro alt halt
  cases hunion : isUnionSeg value with
  | false =>
    rw [alternatives_self hunion] at halt
    obtain rfl := mem_singleton.mp halt
    exact h.ne_recursive
  | true =>
    obtain ⟨alts, hparsed, halts, -⟩ := h.union_of hunion
    rw [alternatives_of_literals hparsed halts] at halt
    exact (isMultiMatch_eq_false_iff.mp (halts alt halt).multi).2.1

section Matching

variable [FiniteNumber] {value : JsString} {values access : List JsString} {node : JsoncValue}

theorem matches_nil_iff : Matches [] node access ↔ access = [] := by
  constructor
  · rintro ⟨⟩
    rfl
  · rintro rfl
    exact .done node

theorem matches_single_iff (hunion : isUnionSeg value = false) (hne : value ≠ WILDCARD_RECURSIVE) :
    Matches (value :: values) node access ↔
      ∃ key child rest, access = key :: rest ∧ (key, child) ∈ children node ∧ Holds node value (key, child) ∧
        Matches values child rest := by
  constructor
  · intro h
    cases h with
    | step _ _ hchild hholds hrest => exact ⟨_, _, _, rfl, hchild, hholds, hrest⟩
    | alternative halts => rw [(parseUnionSeg_eq_some halts).1] at hunion; cases hunion
    | zero | deeper => exact absurd rfl hne
  · rintro ⟨key, child, rest, rfl, hchild, hholds, hrest⟩
    exact .step hunion hne hchild hholds hrest

/-- **A supported sub-segment takes one step**, to a child one of its alternatives holds of. -/
theorem matches_cons_iff (h : Supported value) : Matches (value :: values) node access ↔
      ∃ key child rest, access = key :: rest ∧
        ((key, child) ∈ children node ∧ ∃ alt ∈ alternatives value, Holds node alt (key, child)) ∧
        Matches values child rest := by
  cases hunion : isUnionSeg value with
  | false =>
    rw [matches_single_iff hunion h.ne_recursive, alternatives_self hunion]
    simp [and_assoc]
  | true =>
    obtain ⟨alts, hparsed, halts, -⟩ := h.union_of hunion
    have hsingle : ∀ alt ∈ alts, isUnionSeg alt = false ∧ alt ≠ WILDCARD_RECURSIVE := fun alt halt =>
      have hmulti := isMultiMatch_eq_false_iff.mp (halts alt halt).multi
      ⟨hmulti.2.2.1, hmulti.2.1⟩
    rw [alternatives_of_literals hparsed halts]
    constructor
    · intro hmatches
      cases hmatches with
      | step hno => rw [hno] at hunion; cases hunion
      | alternative halts' halt hrest =>
        obtain rfl := Option.mem_unique hparsed halts'
        obtain ⟨key, child, rest, rfl, hchild, hholds, hmatches⟩ :=
          (matches_single_iff (hsingle _ halt).1 (hsingle _ halt).2).mp hrest
        exact ⟨key, child, rest, rfl, ⟨hchild, _, halt, hholds⟩, hmatches⟩
      | zero | deeper => exact absurd rfl h.ne_recursive
    · rintro ⟨key, child, rest, rfl, ⟨hchild, alt, halt, hholds⟩, hmatches⟩
      exact .alternative hparsed halt (.step (hsingle alt halt).1 (hsingle alt halt).2 hchild hholds hmatches)

theorem Matches.nodeAt (h : Matches values node access) : ∃ target, NodeAt node access target := by
  induction h with
  | done node => exact ⟨node, .here node⟩
  | step _ _ hchild _ _ ih | deeper hchild _ ih =>
    obtain ⟨target, htarget⟩ := ih
    exact ⟨target, .child hchild htarget⟩
  | alternative _ _ _ ih => exact ih
  | zero _ ih => exact ih

end Matching

/-! ## The walk -/

/-- A walk that ended: the segments written and the keys they stand for. -/
structure Found where
  subs : List SlotSub
  access : List JsString

/-- Segments in the slots of a pattern that read as keys. -/
structure Written (subs : List SlotSub) (found : Found) : Prop where
  slots : found.subs.map (·.slot) = subs.map (·.slot)
  reads : List.Forall₂ (fun sub key => Reads sub.value key) found.subs found.access

/-- A step before what was found. -/
def Found.behind (found : Found) (slot : Slot) (selection : Selection) : Found :=
  ⟨⟨slot, selection.keySub⟩ :: found.subs, selection.key :: found.access⟩

/-- What was found is what the pattern matches, each once and written in its slots. -/
structure Exactly (ways : List JsString → Prop) (subs : List SlotSub) (finds : List Found) : Prop where
  once : (finds.map (·.access)).Nodup
  complete : ∀ access, access ∈ finds.map (·.access) ↔ ways access
  written : ∀ found ∈ finds, Written subs found

theorem Exactly.congr {ways other : List JsString → Prop} {subs : List SlotSub} {finds : List Found}
    (h : Exactly ways subs finds) (hsame : ∀ access, other access ↔ ways access) : Exactly other subs finds :=
  ⟨h.once, fun access => by rw [h.complete, hsame], h.written⟩

theorem visitAll_exact {cur : SlotSub} {rest walked : List SlotSub} {ways : JsoncValue → List JsString → Prop}
    {walk : JsString → JsoncValue → Except OcFailure (List (List SlotSub))} {selections : List Selection}
    (honce : (selections.map (·.key)).Nodup) (hreads : ∀ selection ∈ selections, Reads selection.keySub selection.key)
    (hwalk : ∀ selection ∈ selections, ∃ finds : List Found, walk selection.keySub selection.child =
        .ok (finds.map fun found => (walked ++ [⟨cur.slot, selection.keySub⟩]) ++ found.subs) ∧
        Exactly (ways selection.child) rest finds) :
    ∃ finds : List Found,
      visitAll walk (selections.map Selection.visit) = .ok (finds.map fun found => walked ++ found.subs) ∧
        Exactly (fun access => ∃ selection ∈ selections, ∃ tail, access = selection.key :: tail ∧
          ways selection.child tail) (cur :: rest) finds := by
  induction selections with
  | nil => exact ⟨[], rfl, nodup_nil, fun access => by simp, nofun⟩
  | cons selection selections ih =>
    obtain ⟨hnew, honce⟩ := nodup_cons.mp honce
    obtain ⟨hread, hreads⟩ := forall_mem_cons.mp hreads
    obtain ⟨⟨finds, hfinds, hexact⟩, hwalk⟩ := forall_mem_cons.mp hwalk
    obtain ⟨others, hothers, hexactOthers⟩ := ih honce hreads hwalk
    refine ⟨finds.map (·.behind cur.slot selection) ++ others, ?_, ?_, fun access => ?_, ?_⟩
    · rw [map_cons, Selection.visit, visitAll, hothers]
      simp only [lift, hfinds, bind, Except.bind, pure, Except.pure, map_append, map_map, Except.ok.injEq,
        append_cancel_right_eq]
      refine map_congr_left fun found _ => ?_
      rw [Function.comp_apply, Found.behind, append_assoc]
      rfl
    · rw [map_append, map_map]
      refine List.Nodup.append ?_ hexactOthers.once ?_
      · have hbehind : (finds.map fun found => (found.behind cur.slot selection).access) =
            (finds.map (·.access)).map (selection.key :: ·) := by
          rw [map_map]
          rfl
        exact hbehind ▸ hexact.once.map fun _ _ h => (cons.inj h).2
      · intro access hhere hthere
        obtain ⟨found, -, rfl⟩ := mem_map.mp hhere
        obtain ⟨other, hother, tail, hsame, -⟩ := (hexactOthers.complete _).mp hthere
        exact hnew (mem_map.mpr ⟨other, hother, (cons.inj hsame).1.symm⟩)
    · rw [map_append, mem_append, hexactOthers.complete]
      simp only [mem_cons, exists_eq_or_imp]
      refine or_congr_left ?_
      constructor
      · intro hmem
        rw [map_map] at hmem
        obtain ⟨found, hfound, rfl⟩ := mem_map.mp hmem
        exact ⟨found.access, rfl, (hexact.complete _).mp (mem_map_of_mem hfound)⟩
      · rintro ⟨tail, rfl, htail⟩
        obtain ⟨found, hfound, rfl⟩ := mem_map.mp ((hexact.complete tail).mpr htail)
        exact mem_map.mpr ⟨_, mem_map_of_mem hfound, rfl⟩
    · intro found hmem
      rcases mem_append.mp hmem with hmem | hmem
      · obtain ⟨inner, hinner, rfl⟩ := mem_map.mp hmem
        have hwritten := hexact.written inner hinner
        exact ⟨by rw [Found.behind, map_cons, map_cons, hwritten.slots], .cons hread hwritten.reads⟩
      · exact hexactOthers.written found hmem

/-- **The walk ends once at each node a supported pattern matches**, with segments that read as the keys on the way. -/
theorem walk_exact [FiniteNumber] {depth : Nat} {node : JsoncValue} {subs : List SlotSub} (walked : List SlotSub)
    (hnode : Searchable depth node) (hsubs : ∀ sub ∈ subs, Supported sub.value)
    (hposition : (∃ sub ∈ subs, isPositionalSeg sub.value = true) → LiteralKeys node) :
    ∃ finds : List Found,
      walkSubs jsoncOps (depth + 1) node subs walked = .ok (finds.map fun found => walked ++ found.subs) ∧
        Exactly (Matches (subs.map (·.value)) node) subs finds := by
  induction subs generalizing depth node walked with
  | nil =>
    refine ⟨[⟨[], []⟩], by simp [walkSubs], nodup_singleton _, fun access => ?_, fun found hfound => ?_⟩
    · rw [map_nil, matches_nil_iff]
      simp
    · obtain rfl := mem_singleton.mp hfound
      exact ⟨rfl, .nil⟩
  | cons cur rest ih =>
    obtain ⟨hcur, hrest⟩ := forall_mem_cons.mp hsubs
    have hkeys := hnode.addressable [] node (.here node)
    have hpositionCur : isPositionalSeg cur.value = true → ∀ key ∈ keys node, Literal key := fun h =>
      hposition ⟨cur, mem_cons_self, h⟩ [] node (.here node)
    obtain ⟨selections, hselected, hselects⟩ :=
      alternatives_exact (hnode.distinct [] node (.here node)) hkeys hcur hpositionCur
    have hchild : ∀ selection ∈ selections, (selection.key, selection.child) ∈ children node := fun selection hmem =>
      ((hselects.complete selection.step).mp (mem_map_of_mem hmem)).1
    have hwalk : ∀ selection ∈ selections, ∃ finds : List Found,
        walkSubs jsoncOps depth selection.child rest (walked ++ [⟨cur.slot, selection.keySub⟩]) =
          .ok (finds.map fun found => (walked ++ [⟨cur.slot, selection.keySub⟩]) ++ found.subs) ∧
          Exactly (Matches (rest.map (·.value)) selection.child) rest finds := by
      intro selection hmem
      obtain ⟨less, rfl, hsearchable⟩ := hnode.child (hchild selection hmem)
      refine ih _ hsearchable hrest fun hexists => ?_
      obtain ⟨sub, hsub, hpositional⟩ := hexists
      exact (hposition ⟨sub, mem_cons_of_mem _ hsub, hpositional⟩).child (hchild selection hmem)
    obtain ⟨finds, hfinds, hexact⟩ := @visitAll_exact cur rest walked (Matches (rest.map (·.value)))
      (fun key child => walkSubs jsoncOps depth child rest (walked ++ [⟨cur.slot, key⟩])) selections hselects.once
      hselects.reads hwalk
    refine ⟨finds, ?_, hexact.congr fun access => ?_⟩
    · have hnone : ∀ value ∈ alternatives cur.value, value ≠ WILDCARD_RECURSIVE := alternatives_ne_recursive hcur
      rw [walk_eq_visitAll jsoncOps depth node cur rest walked hnone, hselected, hfinds]
    · rw [map_cons, matches_cons_iff hcur]
      constructor
      · rintro ⟨key, child, tail, rfl, hholds, hmatches⟩
        obtain ⟨selection, hmem, hstep⟩ := mem_map.mp ((hselects.complete (key, child)).mpr hholds)
        obtain ⟨rfl, rfl⟩ := Prod.mk.inj hstep
        exact ⟨selection, hmem, tail, rfl, hmatches⟩
      · rintro ⟨selection, hmem, tail, rfl, hmatches⟩
        exact ⟨_, _, tail, rfl, (hselects.complete selection.step).mp (mem_map_of_mem hmem), hmatches⟩

end ClawWorks.OcPath
