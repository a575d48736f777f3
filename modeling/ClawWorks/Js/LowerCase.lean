import ClawWorks.Js.Text

/-!
# Lower-casing

`toLowerCase` consults the Unicode tables of the engine, so it is a parameter (`LowerCase`) with what the sources rely
on: what it does to ASCII, alone and inside other text, that it leaves something of every text, that a second pass
changes nothing, that it makes no white space at the ends, and that the separators of tool names are lower-cased on
their own. `asciiLowerCase` is an instance.
-/

namespace ClawWorks

open List

@[simp] theorem trim_trim (s : JsString) : trim (trim s) = trim s := by
  have hhead : (trim s).dropWhile isWhiteSpace = trim s := by
    cases htrim : trim s with
    | nil => rfl
    | cons u rest =>
      obtain ⟨tail, htail⟩ : trim s <+: s.dropWhile isWhiteSpace := rdropWhile_prefix _ _
      have hfirst := head?_dropWhile_not isWhiteSpace s
      rw [← htail, htrim] at hfirst
      exact dropWhile_cons_of_neg (by simpa using hfirst)
  rw [trim, hhead]
  exact rdropWhile_idempotent _ _

theorem trim_map {f : UInt16 → UInt16} (h : ∀ u, isWhiteSpace (f u) = isWhiteSpace u) (s : JsString) :
    trim (s.map f) = (trim s).map f := by
  have hcomp : isWhiteSpace ∘ f = isWhiteSpace := funext h
  simp only [trim, rdropWhile, dropWhile_map, ← map_reverse, hcomp]

theorem infix_dropWhile {α : Type*} {p : α → Bool} {run s : List α} (hne : run ≠ []) (hrun : ∀ a ∈ run, p a = false)
    (h : run <:+: s) : run <:+: s.dropWhile p := by
  induction s with
  | nil => exact h
  | cons a s ih =>
    by_cases ha : p a
    · rw [dropWhile_cons_of_pos ha]
      rcases infix_cons_iff.mp h with hprefix | hinfix
      · rcases prefix_cons_iff.mp hprefix with rfl | ⟨rest, rfl, -⟩
        · exact absurd rfl hne
        · exact absurd ha (by simp [hrun a mem_cons_self])
      · exact ih hinfix
    · rwa [dropWhile_cons_of_neg ha]

theorem infix_trim {run s : JsString} (hne : run ≠ []) (hrun : ∀ u ∈ run, isWhiteSpace u = false) (h : run <:+: s) :
    run <:+: trim s := by
  have hleft := infix_dropWhile hne hrun h
  rw [trim, rdropWhile, ← reverse_infix, reverse_reverse]
  exact infix_dropWhile (by simpa using hne) (by simpa using hrun) ( reverse_infix.mpr hleft)

/-! ## Lower case -/

/-- `toLowerCase` of one ASCII unit. -/
def asciiLower (u : UInt16) : UInt16 :=
  if 65 ≤ u ∧ u ≤ 90 then u + 32 else u

/-- Separators that neither change nor influence how their surroundings are lower-cased. -/
def isNeutral (u : UInt16) : Bool :=
  u = 42 || u = 45 || (48 ≤ u && u ≤ 57) || u = 95

/-- `String.prototype.toLowerCase`. -/
class LowerCase where
  toLowerCase : JsString → JsString
  ascii : ∀ s, (∀ u ∈ s, u < 128) → toLowerCase s = s.map asciiLower
  run : ∀ before run after, (∀ u ∈ run, u < 128) → run.map asciiLower <:+: toLowerCase (before ++ run ++ after)
  eq_nil : ∀ s, toLowerCase s = [] → s = []
  idempotent : ∀ s, toLowerCase (toLowerCase s) = toLowerCase s
  trimmed : ∀ s, trim (toLowerCase (trim s)) = toLowerCase (trim s)
  neutral : ∀ before u after, isNeutral u = true →
    toLowerCase (before ++ u :: after) = toLowerCase before ++ u :: toLowerCase after

export LowerCase (toLowerCase)

theorem toNat_of_upper {u : UInt16} (h : 65 ≤ u ∧ u ≤ 90) :
    65 ≤ u.toNat ∧ u.toNat ≤ 90 ∧ (u + 32).toNat = u.toNat + 32 := by
  have hhigh : u.toNat ≤ 90 := UInt16.le_iff_toNat_le.mp h.2
  refine ⟨UInt16.le_iff_toNat_le.mp h.1, hhigh, ?_⟩
  rw [UInt16.toNat_add]
  exact Nat.mod_eq_of_lt (by simp; omega)

theorem isWhiteSpace_asciiLower (u : UInt16) : isWhiteSpace (asciiLower u) = isWhiteSpace u := by
  unfold asciiLower
  split
  · rename_i h
    obtain ⟨hlow, hhigh, hsum⟩ := toNat_of_upper h
    rw [@isWhiteSpace_of_printable u (by omega) (by omega), isWhiteSpace_of_printable (by omega) (by omega)]
  · rfl

theorem asciiLower_asciiLower (u : UInt16) : asciiLower (asciiLower u) = asciiLower u := by
  by_cases h : 65 ≤ u ∧ u ≤ 90
  · obtain ⟨hlow, hhigh, hsum⟩ := toNat_of_upper h
    have hout : ¬ (65 ≤ u + 32 ∧ u + 32 ≤ 90) := by
      rw [UInt16.le_iff_toNat_le, UInt16.le_iff_toNat_le, hsum]
      simp
      omega
    have hlower : asciiLower u = u + 32 := if_pos h
    rw [hlower, asciiLower, if_neg hout]
  · have hsame : asciiLower u = u := if_neg h
    rw [hsame, hsame]

theorem asciiLower_of_isNeutral {u : UInt16} (h : isNeutral u) : asciiLower u = u := by
  unfold asciiLower
  split
  · rename_i hupper
    have hlow : 65 ≤ u.toNat := UInt16.le_iff_toNat_le.mp hupper.1
    have hhigh : u.toNat ≤ 90 := UInt16.le_iff_toNat_le.mp hupper.2
    simp only [isNeutral, Bool.or_eq_true, Bool.and_eq_true, decide_eq_true_eq, UInt16.le_iff_toNat_le,
      ← UInt16.toNat_inj] at h
    simp at h
    omega
  · rfl

@[reducible] def asciiLowerCase : LowerCase where
  toLowerCase s := s.map asciiLower
  ascii _ _ := rfl
  run before run after _ := ⟨before.map asciiLower, after.map asciiLower, by simp⟩
  eq_nil s h := map_eq_nil_iff.mp h
  idempotent s := by
    rw [map_map]
    exact map_congr_left fun u _ => asciiLower_asciiLower u
  trimmed s := by rw [trim_map isWhiteSpace_asciiLower, trim_trim]
  neutral before u after h := by rw [map_append, map_cons, asciiLower_of_isNeutral h]

theorem toLowerCase_of_lower [LowerCase] {s : JsString} (h : ∀ u ∈ s, u < 128 ∧ asciiLower u = u) :
    toLowerCase s = s := by
  rw [LowerCase.ascii s fun u hu => (h u hu).1]
  exact (map_congr_left fun u hu => (h u hu).2).trans (map_id s)

end ClawWorks
