import Mathlib.Data.List.Pairwise
import Mathlib.Data.Set.Basic
import Mathlib.Order.MinMax

/-!
# Spans over a text

A span puts a label on the positions from its start up to its stop. What a list of spans says is the set of labels on
each position (`labelsAt`), whatever spans it is spelled with.

- `labelsAt_clip`: clipping spans to a part of the text keeps the labels of the part;
- `labelsAt_mergeRuns`: running spans of one label into one keeps the labels when the spans are in order.
-/

namespace Spans

open List

/-- A label on the positions from `start` up to `stop`. -/
structure Span (α : Type) where
  start : Nat
  stop : Nat
  label : α
  deriving DecidableEq

variable {α : Type} {spans left right : List (Span α)} {start stop offset n k : Nat}

def labelsAt (spans : List (Span α)) (k : Nat) : Set α :=
  {label | ∃ span ∈ spans, span.start ≤ k ∧ k < span.stop ∧ span.label = label}

theorem mem_labelsAt {label : α} :
    label ∈ labelsAt spans k ↔ ∃ span ∈ spans, span.start ≤ k ∧ k < span.stop ∧ span.label = label :=
  Iff.rfl

/-- Of two spans with one label the earlier one does not start later. -/
def InOrder (spans : List (Span α)) : Prop :=
  spans.Pairwise fun a b => a.label = b.label → a.start ≤ b.start

/-- Spans in a text of length `n`. -/
def Within (n : Nat) (spans : List (Span α)) : Prop :=
  ∀ span ∈ spans, span.start ≤ span.stop ∧ span.stop ≤ n

theorem labelsAt_append (left right : List (Span α)) (k : Nat) :
    labelsAt (left ++ right) k = labelsAt left k ∪ labelsAt right k := by
  ext label
  simp only [mem_labelsAt, Set.mem_union, mem_append]
  constructor
  · rintro ⟨span, hspan | hspan, hk⟩
    · exact .inl ⟨span, hspan, hk⟩
    · exact .inr ⟨span, hspan, hk⟩
  · rintro (⟨span, hspan, hk⟩ | ⟨span, hspan, hk⟩)
    · exact ⟨span, .inl hspan, hk⟩
    · exact ⟨span, .inr hspan, hk⟩

theorem labelsAt_perm (h : left.Perm right) (k : Nat) : labelsAt left k = labelsAt right k := by
  ext label
  simp only [mem_labelsAt, h.mem_iff]

theorem labelsAt_of_within (h : Within n spans) (hk : n ≤ k) : labelsAt spans k = ∅ := by
  ext label
  simp only [mem_labelsAt, Set.mem_empty_iff_false, iff_false]
  rintro ⟨span, hspan, hstart, hstop, -⟩
  have := (h span hspan).2
  omega

/-- A span that says something else of the same positions. -/
def relabel {β : Type} (f : α → β) (span : Span α) : Span β :=
  ⟨span.start, span.stop, f span.label⟩

theorem labelsAt_relabel {β : Type} (f : α → β) (spans : List (Span α)) (k : Nat) :
    labelsAt (spans.map (relabel f)) k = f '' labelsAt spans k := by
  ext label
  simp only [mem_labelsAt, Set.mem_image, mem_map]
  constructor
  · rintro ⟨_, ⟨span, hspan, rfl⟩, hstart, hstop, rfl⟩
    exact ⟨span.label, ⟨span, hspan, hstart, hstop, rfl⟩, rfl⟩
  · rintro ⟨_, ⟨span, hspan, hstart, hstop, rfl⟩, rfl⟩
    exact ⟨_, ⟨span, hspan, rfl⟩, hstart, hstop, rfl⟩

theorem Within.relabel {β : Type} (f : α → β) (h : Within n spans) : Within n (spans.map (relabel f)) :=
  forall_mem_map.mpr h

theorem Within.perm (h : Within n left) (hperm : left.Perm right) : Within n right :=
  fun span hspan => h span (hperm.mem_iff.mpr hspan)

/-- A span as far as it is in a part, counted from the start of the part. -/
def clipSpan (start stop : Nat) (span : Span α) : Option (Span α) :=
  if min span.stop stop ≤ max span.start start then none
  else some ⟨max span.start start - start, min span.stop stop - start, span.label⟩

def clip (start stop : Nat) (spans : List (Span α)) : List (Span α) :=
  spans.filterMap (clipSpan start stop)

theorem clipSpan_eq_some {span clipped : Span α} (h : clipSpan start stop span = some clipped) :
    max span.start start < min span.stop stop ∧
      clipped = ⟨max span.start start - start, min span.stop stop - start, span.label⟩ := by
  unfold clipSpan at h
  split at h
  · cases h
  · rename_i hmeets
    exact ⟨by omega, (Option.some.inj h).symm⟩

theorem labelsAt_clip (h : start + k < stop) : labelsAt (clip start stop spans) k = labelsAt spans (start + k) := by
  ext label
  simp only [mem_labelsAt, clip, mem_filterMap]
  constructor
  · rintro ⟨clipped, ⟨span, hspan, hclip⟩, hstart, hstop, rfl⟩
    obtain ⟨hmeets, rfl⟩ := clipSpan_eq_some hclip
    dsimp only at hstart hstop
    exact ⟨span, hspan, by omega, by omega, rfl⟩
  · rintro ⟨span, hspan, hstart, hstop, rfl⟩
    refine ⟨_, ⟨span, hspan, if_neg (by omega)⟩, ?_, ?_, rfl⟩
    · dsimp only
      omega
    · dsimp only
      omega

theorem InOrder.clip (h : InOrder spans) : InOrder (clip start stop spans) := by
  refine List.Pairwise.filterMap _ ?_ h
  intro a b hab a' ha b' hb hlabel
  obtain ⟨-, rfl⟩ := clipSpan_eq_some ha
  obtain ⟨-, rfl⟩ := clipSpan_eq_some hb
  have := hab hlabel
  dsimp only
  omega

theorem within_clip (start stop : Nat) (spans : List (Span α)) : Within (stop - start) (clip start stop spans) := by
  intro clipped hclipped
  obtain ⟨span, -, hclip⟩ := mem_filterMap.mp hclipped
  obtain ⟨hmeets, rfl⟩ := clipSpan_eq_some hclip
  dsimp only
  omega

/-! ## Joined texts -/

/-- Spans of a text that now follows a text of length `offset`. -/
def shift (offset : Nat) (spans : List (Span α)) : List (Span α) :=
  spans.map fun span => { span with start := span.start + offset, stop := span.stop + offset }

theorem labelsAt_shift (offset : Nat) (spans : List (Span α)) (k : Nat) :
    labelsAt (shift offset spans) (k + offset) = labelsAt spans k := by
  ext label
  simp only [mem_labelsAt, shift, mem_map]
  constructor
  · rintro ⟨_, ⟨span, hspan, rfl⟩, hstart, hstop, rfl⟩
    dsimp only at hstart hstop
    exact ⟨span, hspan, by omega, by omega, rfl⟩
  · rintro ⟨span, hspan, hstart, hstop, rfl⟩
    refine ⟨_, ⟨span, hspan, rfl⟩, ?_, ?_, rfl⟩
    · dsimp only
      omega
    · dsimp only
      omega

theorem labelsAt_shift_before (h : k < offset) : labelsAt (shift offset spans) k = ∅ := by
  ext label
  simp only [mem_labelsAt, Set.mem_empty_iff_false, iff_false, shift, mem_map]
  rintro ⟨_, ⟨span, -, rfl⟩, hstart, -, -⟩
  dsimp only at hstart
  omega

theorem labelsAt_append_shift (hleft : Within n left) (k : Nat) :
    labelsAt (left ++ shift n right) k = if k < n then labelsAt left k else labelsAt right (k - n) := by
  rw [labelsAt_append]
  split
  · rename_i hk
    rw [labelsAt_shift_before hk, Set.union_empty]
  · rename_i hk
    rw [labelsAt_of_within hleft (by omega), Set.empty_union]
    have hshift := labelsAt_shift n right (k - n)
    rwa [Nat.sub_add_cancel (by omega)] at hshift

theorem Within.shift (h : Within k right) : Within (n + k) (shift n right) := by
  intro shifted hshifted
  obtain ⟨span, hspan, rfl⟩ := mem_map.mp hshifted
  have := h span hspan
  dsimp only
  omega

theorem Within.append_shift (hleft : Within n left) (hright : Within k right) :
    Within (n + k) (left ++ Spans.shift n right) := by
  intro span hspan
  rcases mem_append.mp hspan with hmem | hmem
  · have := hleft span hmem
    omega
  · exact hright.shift span hmem

theorem InOrder.append_shift (hleft : InOrder left) (hright : InOrder right) (hwithin : Within n left) :
    InOrder (left ++ Spans.shift n right) := by
  refine pairwise_append.mpr ⟨hleft, ?_, ?_⟩
  · rw [Spans.shift, pairwise_map]
    exact hright.imp fun hab hlabel => Nat.add_le_add_right (hab hlabel) n
  · intro a ha b hb _
    obtain ⟨span, -, rfl⟩ := mem_map.mp hb
    have := hwithin a ha
    dsimp only
    omega

/-! ## Runs -/

/-- The spans behind `last`, each run into the one before it where it joins. -/
def mergeFrom (joins : Span α → Span α → Bool) (last : Span α) : List (Span α) → List (Span α)
  | [] => [last]
  | span :: rest =>
    if joins last span then mergeFrom joins { last with stop := max last.stop span.stop } rest
    else last :: mergeFrom joins span rest

def mergeRuns (joins : Span α → Span α → Bool) : List (Span α) → List (Span α)
  | [] => []
  | span :: rest => mergeFrom joins span rest

variable {joins : Span α → Span α → Bool}

theorem labelsAt_join {last span : Span α} {rest : List (Span α)} (hlabel : last.label = span.label)
    (horder : last.start ≤ span.start) (htouch : span.start ≤ last.stop) (k : Nat) :
    labelsAt ({ last with stop := max last.stop span.stop } :: rest) k = labelsAt (last :: span :: rest) k := by
  ext label
  simp only [mem_labelsAt, mem_cons, exists_eq_or_imp, ← hlabel]
  constructor
  · rintro (⟨hstart, hstop, hlast⟩ | hrest)
    · by_cases hk : k < last.stop
      · exact .inl ⟨hstart, hk, hlast⟩
      · exact .inr (.inl ⟨by omega, by omega, hlast⟩)
    · exact .inr (.inr hrest)
  · rintro (⟨hstart, hstop, hlast⟩ | ⟨hstart, hstop, hlast⟩ | hrest)
    · exact .inl ⟨hstart, by omega, hlast⟩
    · exact .inl ⟨by omega, by omega, hlast⟩
    · exact .inr hrest

theorem labelsAt_cons_congr (span : Span α) (h : labelsAt left k = labelsAt right k) :
    labelsAt (span :: left) k = labelsAt (span :: right) k := by
  have happend := labelsAt_append [span] left k
  rw [h, ← labelsAt_append] at happend
  exact happend

section

variable (hjoins : ∀ a b, joins a b = true → a.label = b.label ∧ b.start ≤ a.stop)

include hjoins

theorem labelsAt_mergeFrom (k : Nat) (rest : List (Span α)) (last : Span α) (h : InOrder (last :: rest)) :
    labelsAt (mergeFrom joins last rest) k = labelsAt (last :: rest) k := by
  induction rest generalizing last with
  | nil => rfl
  | cons span rest ih =>
    obtain ⟨hlast, hrest⟩ := pairwise_cons.mp h
    unfold mergeFrom
    split
    · rename_i hjoin
      obtain ⟨hlabel, htouch⟩ := hjoins last span hjoin
      have hrun : InOrder ({ last with stop := max last.stop span.stop } :: rest) :=
        pairwise_cons.mpr ⟨fun b hb => hlast b (mem_cons_of_mem span hb), hrest.of_cons⟩
      exact (ih _ hrun).trans (labelsAt_join hlabel (hlast span mem_cons_self hlabel) htouch k)
    · exact labelsAt_cons_congr last (ih span hrest)

theorem labelsAt_mergeRuns (h : InOrder spans) (k : Nat) : labelsAt (mergeRuns joins spans) k = labelsAt spans k := by
  cases spans with
  | nil => rfl
  | cons span rest => exact labelsAt_mergeFrom hjoins k rest span h

end

/-- Where spans start and what they say. -/
def key (span : Span α) : Nat × α :=
  (span.start, span.label)

theorem mergeFrom_keys (joins : Span α → Span α → Bool) (rest : List (Span α)) (last : Span α) :
    ((mergeFrom joins last rest).map key).Sublist ((last :: rest).map key) := by
  induction rest generalizing last with
  | nil => exact List.Sublist.refl _
  | cons span rest ih =>
    unfold mergeFrom
    split
    · exact (ih _).trans ((sublist_cons_self (key span) _).cons_cons (key last))
    · exact (ih span).cons_cons _

theorem InOrder.mergeRuns (h : InOrder spans) : InOrder (mergeRuns joins spans) := by
  have hkeys : (spans.map key).Pairwise fun a b => a.2 = b.2 → a.1 ≤ b.1 := pairwise_map.mpr h
  cases spans with
  | nil => exact List.Pairwise.nil
  | cons span rest => exact pairwise_map.mp (hkeys.sublist (mergeFrom_keys joins rest span))

theorem within_mergeFrom (rest : List (Span α)) (last : Span α) (h : Within n (last :: rest)) :
    Within n (mergeFrom joins last rest) := by
  induction rest generalizing last with
  | nil => exact h
  | cons span rest ih =>
    obtain ⟨hlast, hspan, hrest⟩ : (last.start ≤ last.stop ∧ last.stop ≤ n) ∧
        (span.start ≤ span.stop ∧ span.stop ≤ n) ∧ Within n rest :=
      ⟨h _ (by simp), h _ (by simp), fun s hs => h s (by simp [hs])⟩
    unfold mergeFrom
    split
    · refine ih _ (forall_mem_cons.mpr ⟨?_, hrest⟩)
      dsimp only
      omega
    · exact forall_mem_cons.mpr ⟨hlast, ih span (forall_mem_cons.mpr ⟨hspan, hrest⟩)⟩

theorem Within.mergeRuns (h : Within n spans) : Within n (mergeRuns joins spans) := by
  cases spans with
  | nil => exact h
  | cons span rest => exact within_mergeFrom rest span h

end Spans
