import ClawWorks.Enterprise.McpCeiling
import Mathlib.Data.List.Forall2

/-!
# Globs over a hash slot

The matcher keeps, for the part of the pattern that it has read, the positions at which a name of the shape can end
(`keepsEnds_consumeToken`). A name of the shape is the fixed parts with some hash between them (`fills_hashSlots`).
-/

namespace ClawWorks

open List Glob

/-- A character stands at every position. -/
def Fills (slots : List SlotCharacter) (word : List JsString) : Prop :=
  Forall₂ (fun slot character => slot.accepts character) slots word

theorem exists_fills : ∀ slots : List SlotCharacter, ∃ word, Fills slots word
  | [] => ⟨[], .nil⟩
  | slot :: slots => by
    obtain ⟨word, hword⟩ := exists_fills slots
    cases slot with
    | fixed expected => exact ⟨expected :: word, .cons (by simp [SlotCharacter.accepts]) hword⟩
    | hexDigit => exact ⟨js "0" :: word, .cons (by decide) hword⟩

variable {word : List JsString}

theorem fills_append {a b : List SlotCharacter} :
    Fills (a ++ b) word ↔ ∃ u v, word = u ++ v ∧ Fills a u ∧ Fills b v := by
  constructor
  · intro h
    have htake := forall₂_take a.length h
    have hdrop := forall₂_drop a.length h
    rw [take_left] at htake
    rw [drop_left] at hdrop
    exact ⟨_, _, (take_append_drop a.length word).symm, htake, hdrop⟩
  · rintro ⟨u, v, rfl, hu, hv⟩
    exact rel_append hu hv

theorem fills_fixed {characters word : List JsString} : Fills (characters.map .fixed) word ↔ word = characters := by
  rw [Fills, forall₂_map_left_iff]
  constructor
  · intro h
    induction h with
    | nil => rfl
    | cons hfirst _ ih => rw [ih, of_decide_eq_true hfirst]
  · rintro rfl
    exact forall₂_same.mpr fun character _ => decide_eq_true rfl

theorem fills_hexDigits {count : ℕ} : Fills (replicate count .hexDigit) word ↔
    ∃ hash : JsString, hash.length = count ∧ (∀ u ∈ hash, isHexDigit u) ∧ word = hash.map ([·]) := by
  induction count generalizing word with
  | zero =>
    rw [replicate_zero, Fills, forall₂_nil_left_iff]
    constructor
    · rintro rfl
      exact ⟨[], rfl, by simp, rfl⟩
    · rintro ⟨hash, hlength, -, rfl⟩
      rw [length_eq_zero_iff.mp hlength, map_nil]
  | succ count ih =>
    rw [replicate_succ, Fills, forall₂_cons_left_iff]
    constructor
    · rintro ⟨character, rest, haccepts, hrest, rfl⟩
      obtain ⟨hash, rfl, hhash, rfl⟩ := ih.mp hrest
      rw [SlotCharacter.accepts, Bool.and_eq_true, decide_eq_true_eq] at haccepts
      obtain ⟨u, rfl⟩ := length_eq_one_iff.mp haccepts.1
      exact ⟨u :: hash, rfl, forall_mem_cons.mpr ⟨by simpa using haccepts.2, hhash⟩, rfl⟩
    · rintro ⟨hash, hlength, hhash, rfl⟩
      obtain ⟨u, rest, rfl⟩ := exists_cons_of_length_eq_add_one hlength
      have hu := hhash u mem_cons_self
      exact ⟨[u], rest.map ([·]), by simpa [SlotCharacter.accepts] using hu,
        ih.mpr ⟨rest, by simpa using hlength, fun v hv => hhash v (mem_cons_of_mem u hv), rfl⟩, rfl⟩

theorem toNat_lt_of_isHexDigit {u : UInt16} (h : isHexDigit u) : u.toNat < 0xD800 := by
  simp only [isHexDigit, Bool.or_eq_true, Bool.and_eq_true, decide_eq_true_eq, UInt16.le_iff_toNat_le] at h
  have h57 : (57 : UInt16).toNat = 57 := rfl
  have h102 : (102 : UInt16).toNat = 102 := rfl
  omega

theorem codePoints_cons {u : UInt16} (h : u.toNat < 0xD800) (s : JsString) :
    codePoints (u :: s) = [u] :: codePoints s := by
  cases s with
  | nil => rfl
  | cons v s =>
    rw [codePoints, if_neg]
    have hlow : ¬ 0xD800 ≤ u := by
      rw [UInt16.le_iff_toNat_le]
      exact not_le.mpr h
    simp [hlow]

theorem codePoints_append_cons {v : UInt16} (h : v.toNat < 0xD800) (s t : JsString) :
    codePoints (s ++ v :: t) = codePoints s ++ codePoints (v :: t) := by
  fun_induction codePoints s with
  | case1 => rfl
  | case2 u =>
    have hlow : ¬ 0xDC00 ≤ v := by
      rw [UInt16.le_iff_toNat_le]
      exact not_le.mpr (h.trans (by decide))
    rw [singleton_append, codePoints, if_neg (by simp [hlow])]
    rfl
  | case3 u w s hpair ih => rw [cons_append, cons_append, codePoints, if_pos hpair, ih, cons_append]
  | case4 u w s hpair ih => rw [cons_append, cons_append, codePoints, if_neg hpair, ← cons_append, ih, cons_append]

theorem codePoints_hash {hash : JsString} (hhash : ∀ u ∈ hash, isHexDigit u) (s : JsString) :
    codePoints (hash ++ s) = hash.map ([·]) ++ codePoints s := by
  induction hash with
  | nil => rfl
  | cons u hash ih =>
    rw [cons_append, codePoints_cons (toNat_lt_of_isHexDigit (hhash u mem_cons_self)),
      ih fun v hv => hhash v (mem_cons_of_mem u hv), map_cons, cons_append]

theorem fills_hashSlots {before after : JsString} : Fills (hashSlots before after) word ↔
    ∃ hash : JsString, hash.length = COLLISION_HASH_LENGTH ∧ (∀ u ∈ hash, isHexDigit u) ∧
      word = codePoints (before ++ hash ++ after) := by
  have hwhole : ∀ hash : JsString, hash.length = COLLISION_HASH_LENGTH → (∀ u ∈ hash, isHexDigit u) →
      codePoints (before ++ hash ++ after) = codePoints before ++ hash.map ([·]) ++ codePoints after := by
    intro hash hlength hhash
    obtain ⟨u, rest, rfl⟩ := exists_cons_of_length_eq_add_one hlength
    rw [append_assoc, cons_append, codePoints_append_cons (toNat_lt_of_isHexDigit (hhash u mem_cons_self)),
      ← cons_append, codePoints_hash hhash, append_assoc]
  simp only [hashSlots, fills_append, fills_fixed, fills_hexDigits]
  constructor
  · rintro ⟨-, -, rfl, ⟨-, -, rfl, rfl, hash, hlength, hhash, rfl⟩, rfl⟩
    exact ⟨hash, hlength, hhash, (hwhole hash hlength hhash).symm⟩
  · rintro ⟨hash, hlength, hhash, rfl⟩
    exact ⟨_, _, hwhole hash hlength hhash, ⟨_, _, rfl, rfl, hash, hlength, hhash, rfl⟩, rfl⟩

/-! ## Positions a pattern reaches -/

variable {slots : List SlotCharacter} {pattern : Glob JsString} {i : ℕ}

/-- The pattern matches what can stand at the first `i` positions. -/
def EndsAt (slots : List SlotCharacter) (pattern : Glob JsString) (i : ℕ) : Prop :=
  ∃ word, Fills (slots.take i) word ∧ test (fun _ => true) pattern word

theorem endsAt_nil (hi : i ≤ slots.length) : EndsAt slots [] i ↔ i = 0 := by
  simp only [EndsAt, test_nil_iff, exists_eq_right, Fills, forall₂_nil_right_iff, take_eq_nil_iff]
  constructor
  · rintro (h | rfl)
    · exact h
    · exact Nat.le_zero.mp hi
  · exact Or.inl

theorem endsAt_star (hi : i ≤ slots.length) :
    EndsAt slots (pattern ++ [.star]) i ↔ ∃ j ≤ i, EndsAt slots pattern j := by
  constructor
  · rintro ⟨word, hfills, htest⟩
    obtain ⟨head, tail, rfl, hhead, -⟩ := test_append_iff.mp htest
    have htake := forall₂_take_append _ _ _ hfills
    have hlength := hfills.length_eq
    rw [length_take, length_append] at hlength
    rw [take_take, min_eq_left (by omega)] at htake
    exact ⟨head.length, by omega, head, htake, hhead⟩
  · rintro ⟨j, hj, head, hhead, htest⟩
    obtain ⟨tail, htail⟩ := exists_fills ((slots.take i).drop j)
    have hstar : test (fun _ => true) [.star] tail := test_star_iff.mpr ⟨tail, [], by simp, by simp, rfl⟩
    refine ⟨head ++ tail, ?_, test_append_iff.mpr ⟨head, tail, rfl, htest, hstar⟩⟩
    rw [← take_append_drop j (slots.take i), take_take, min_eq_left hj]
    exact fills_append.mpr ⟨head, tail, rfl, hhead, htail⟩

variable {token : JsString}

theorem endsAt_lit (hi : i < slots.length) :
    EndsAt slots (pattern ++ [.lit token]) (i + 1) ↔ EndsAt slots pattern i ∧ slots[i].accepts token := by
  have hlit : ∀ tail, test (fun _ => true) [.lit token] tail ↔ tail = [token] :=
    fun tail => (test_literals_iff : test _ (literals [token]) tail ↔ _)
  simp only [EndsAt, take_succ_eq_append_getElem hi, fills_append, test_append_iff, hlit]
  constructor
  · rintro ⟨-, ⟨u, v, rfl, hu, hv⟩, head, tail, hword, hhead, rfl⟩
    obtain ⟨character, rest, haccepts, hrest, rfl⟩ := forall₂_cons_left_iff.mp hv
    rw [forall₂_nil_left_iff.mp hrest] at hword
    obtain ⟨rfl, hlast⟩ := append_inj' hword rfl
    rw [(cons.inj hlast).1] at haccepts
    exact ⟨⟨u, hu, hhead⟩, haccepts⟩
  · rintro ⟨⟨u, hu, hhead⟩, haccepts⟩
    exact ⟨u ++ [token], ⟨u, [token], rfl, hu, .cons haccepts .nil⟩, u, [token], rfl, hhead, rfl⟩

theorem not_endsAt_lit_zero : ¬ EndsAt slots (pattern ++ [.lit token]) 0 := by
  rintro ⟨word, hfills, htest⟩
  obtain rfl := forall₂_nil_left_iff.mp hfills
  obtain ⟨head, tail, hword, -, htail⟩ := test_append_iff.mp htest
  obtain ⟨rest, rfl, -⟩ := test_lit_iff.mp htail
  exact absurd hword (by simp)

variable {reachable : List Bool}

theorem getD_extendReachable {seen : Bool} (hi : i ≤ reachable.length) :
    (seen :: extendReachable seen reachable).getD i false ↔ ∃ j ≤ i, (seen :: reachable).getD j false := by
  induction reachable generalizing seen i with
  | nil => simp [Nat.le_zero.mp hi]
  | cons first reachable ih =>
    cases i with
    | zero => simp
    | succ i =>
      rw [extendReachable, getD_cons_succ, ih (Nat.le_of_succ_le_succ hi)]
      constructor
      · rintro ⟨_ | j, hj, h⟩
        · rcases Bool.or_eq_true_iff.mp h with h | h
          · exact ⟨0, Nat.zero_le _, h⟩
          · exact ⟨1, Nat.succ_le_succ (Nat.zero_le i), h⟩
        · exact ⟨j + 2, Nat.succ_le_succ hj, h⟩
      · rintro ⟨_ | _ | j, hj, h⟩
        · exact ⟨0, Nat.zero_le i, Bool.or_eq_true_iff.mpr (Or.inl h)⟩
        · exact ⟨0, Nat.zero_le i, Bool.or_eq_true_iff.mpr (Or.inr h)⟩
        · exact ⟨j + 1, Nat.le_of_succ_le_succ hj, h⟩

theorem getD_advanceReachable {slots : List SlotCharacter}
    {previous : Bool} (hi : i < slots.length) (hlength : reachable.length = slots.length) :
    (advanceReachable token previous slots reachable).getD i false ↔
      (previous :: reachable).getD i false ∧ slots[i].accepts token := by
  induction slots generalizing reachable previous i with
  | nil => exact absurd hi (Nat.not_lt_zero i)
  | cons slot slots ih =>
    obtain ⟨first, rest, rfl⟩ := exists_cons_of_length_eq_add_one hlength
    cases i with
    | zero => simp [advanceReachable]
    | succ i =>
      rw [advanceReachable, getD_cons_succ, ih (Nat.lt_of_succ_lt_succ hi) (by simpa using hlength)]
      rfl

theorem length_extendReachable (seen : Bool) (reachable : List Bool) :
    (extendReachable seen reachable).length = reachable.length := by
  induction reachable generalizing seen with
  | nil => rfl
  | cons first reachable ih => rw [extendReachable, length_cons, ih, length_cons]

theorem length_advanceReachable {slots : List SlotCharacter}
    (previous : Bool) (hlength : reachable.length = slots.length) :
    (advanceReachable token previous slots reachable).length = slots.length := by
  induction slots generalizing reachable previous with
  | nil => rfl
  | cons slot slots ih =>
    obtain ⟨first, rest, rfl⟩ := exists_cons_of_length_eq_add_one hlength
    rw [advanceReachable, length_cons, ih first (by simpa using hlength), length_cons]

/-- The state knows where the pattern read so far can end. -/
structure KeepsEnds (slots : List SlotCharacter) (pattern : Glob JsString) (state : Bool × List Bool) : Prop where
  length : state.2.length = slots.length
  ends : ∀ i ≤ slots.length, (state.1 :: state.2).getD i false ↔ EndsAt slots pattern i

variable {state : Bool × List Bool}

/-- **What a token does**: a star extends the pattern, a literal moves it on. -/
theorem keepsEnds_consumeToken (h : KeepsEnds slots pattern state) (token : JsString) :
    KeepsEnds slots (pattern ++ ofList [STAR] [token]) (consumeToken slots state token) := by
  obtain ⟨atStart, reachable⟩ := state
  obtain ⟨hlength, hends⟩ := h
  rw [consumeToken, ofList, map_singleton]
  by_cases hstar : token = [STAR]
  · rw [if_pos hstar, if_pos hstar]
    refine ⟨(length_extendReachable _ _).trans hlength, fun i hi => ?_⟩
    have hsame : (∃ j ≤ i, (atStart :: reachable).getD j false) ↔ ∃ j ≤ i, EndsAt slots pattern j :=
      exists_congr fun j => and_congr_right fun hj => hends j (hj.trans hi)
    rw [endsAt_star hi, ← hsame, getD_extendReachable (hlength.symm ▸ hi)]
  · rw [if_neg hstar, if_neg hstar]
    refine ⟨length_advanceReachable _ hlength, fun i hi => ?_⟩
    cases i with
    | zero => exact iff_of_false Bool.false_ne_true not_endsAt_lit_zero
    | succ i => rw [getD_cons_succ, getD_advanceReachable hi hlength, hends i (Nat.le_of_succ_le hi), endsAt_lit hi]

theorem keepsEnds_foldl (h : KeepsEnds slots pattern state) (tokens : List JsString) :
    KeepsEnds slots (pattern ++ ofList [STAR] tokens) (tokens.foldl (consumeToken slots) state) := by
  induction tokens generalizing pattern state with
  | nil => exact (append_nil pattern).symm ▸ h
  | cons token tokens ih =>
    have hstep := ih (keepsEnds_consumeToken h token)
    rwa [append_assoc, ← ofList_append, singleton_append] at hstep

theorem keepsEnds_start (slots : List SlotCharacter) : KeepsEnds slots [] (true, slots.map fun _ => false) := by
  refine ⟨length_map _, fun i hi => ?_⟩
  rw [endsAt_nil hi]
  cases i with
  | zero => simp
  | succ i =>
    rw [getD_cons_succ, getD_eq_getElem?_getD, getElem?_map]
    cases slots[i]? <;> simp

/-- **The matchers of hash slots are exact**: a glob matches a hash between two fixed parts if and only if it matches
the name with one of the hashes, character by character; and two patterns that match one callable name, which has a
delimiter, are told to share a call. -/
theorem hashSlot_matchers_exact [LowerCase] :
    (∀ pattern before after : JsString, globMatchesHashSlot pattern before after ↔
      ∃ hash : JsString, hash.length = 12 ∧ (∀ u ∈ hash, isHexDigit u) ∧
        test (fun _ => true) (ofList [STAR] (codePoints pattern)) (codePoints (before ++ hash ++ after))) ∧
    ∀ a b name text : JsString, normalizeToolName name = .text text → js "__" <:+: text → deniedBy [a] name →
      deniedBy [b] name → patternsCanShareACall a b := by
  refine ⟨fun pattern before after => ?_, fun a b name text => patternsCanShareACall_of_denied⟩
  obtain ⟨hlength, hends⟩ := keepsEnds_foldl (keepsEnds_start (hashSlots before after)) (codePoints pattern)
  have hlast := hends _ le_rfl
  rw [getD_eq_getElem?_getD, ← hlength, ← Nat.add_sub_cancel (n := length _) (m := 1), ← length_cons,
    ← getLast?_eq_getElem?, getLast?_cons, Option.getD_some, length_cons, Nat.add_sub_cancel, hlength] at hlast
  rw [globMatchesHashSlot]
  refine hlast.trans ?_
  simp only [EndsAt, take_length, fills_hashSlots, nil_append]
  constructor
  · rintro ⟨-, ⟨hash, hcount, hhash, rfl⟩, htest⟩
    exact ⟨hash, hcount, hhash, htest⟩
  · rintro ⟨hash, hcount, hhash, htest⟩
    exact ⟨_, ⟨hash, hcount, hhash, rfl⟩, htest⟩

section

attribute [local instance] asciiLowerCase

theorem hashSlot_matchers_exact_github :
    globMatchesHashSlot (js "github_a1*__read") (js "github_") (js "__read") ∧
      patternsCanShareACall (js "github__*") (js "*read") :=
  ⟨(hashSlot_matchers_exact.1 _ _ _).mpr ⟨js "a1b2c3d4e5f6", by decide, by decide, by decide +kernel⟩,
    hashSlot_matchers_exact.2 _ _ (js "github__read") (js "github__read") (by decide +kernel)
      ⟨js "github", js "read", by decide⟩ (by decide +kernel) (by decide +kernel)⟩

end

end ClawWorks
