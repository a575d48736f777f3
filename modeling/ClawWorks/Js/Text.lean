import Mathlib.Data.List.DropRight
import Mathlib.Data.List.Nodup

/-!
# JavaScript text

Strings are sequences of UTF-16 code units, which is what `===`, `length`, `slice` and the regular
expressions of the sources see.
-/

namespace ClawWorks

abbrev JsString := List UInt16

instance : LawfulBEq JsString :=
  inferInstance

/-- A check on the code units of a text looks at those, not at every code unit there is. -/
instance decidableForallUnit (p : UInt16 → Prop) [DecidablePred p] (s : JsString) : Decidable (∀ u ∈ s, p u) :=
  List.decidableBAll p s

def codeUnits (c : Char) : List UInt16 :=
  if c.toNat < 0x10000 then [c.toNat.toUInt16]
  else [(0xD800 + (c.toNat - 0x10000) / 0x400).toUInt16, (0xDC00 + (c.toNat - 0x10000) % 0x400).toUInt16]

/-- A literal of the sources. -/
def js (s : String) : JsString :=
  s.toList.flatMap codeUnits

example : js "mcp__" = [109, 99, 112, 95, 95] := by decide

/-- `Array.from(s)`: the code points, a surrogate pair as one item. -/
def codePoints : JsString → List JsString
  | [] => []
  | [u] => [[u]]
  | u :: v :: s =>
    if 0xD800 ≤ u && u ≤ 0xDBFF && 0xDC00 ≤ v && v ≤ 0xDFFF then [u, v] :: codePoints s
    else [u] :: codePoints (v :: s)

/-- `-`. -/
def DASH : UInt16 := 45

/-- `[0-9]`. -/
def isDigit (u : UInt16) : Bool :=
  48 ≤ u && u ≤ 57

/-- `[a-zA-Z0-9]`. -/
def isAlphanumeric (u : UInt16) : Bool :=
  isDigit u || (97 ≤ u && u ≤ 122) || (65 ≤ u && u ≤ 90)

theorem isAlphanumeric_iff {u : UInt16} : isAlphanumeric u = true ↔
    48 ≤ u.toNat ∧ u.toNat ≤ 57 ∨ 97 ≤ u.toNat ∧ u.toNat ≤ 122 ∨ 65 ≤ u.toNat ∧ u.toNat ≤ 90 := by
  simp only [isAlphanumeric, isDigit, Bool.or_eq_true, Bool.and_eq_true, decide_eq_true_eq, UInt16.le_iff_toNat_le,
    or_assoc]
  simp

/-- `"…"` around a name. -/
def quoted (name : JsString) : JsString :=
  js "\"" ++ name ++ js "\""

/-- A string the sources test by itself: the empty one is falsy. -/
def Truthy (s : JsString) : Prop :=
  s ≠ []

instance (s : JsString) : Decidable (Truthy s) :=
  inferInstanceAs (Decidable (s ≠ []))

/-- `value ? value : undefined` for an optional string: absent and empty are one case. -/
def truthy? : Option JsString → Option JsString
  | some s => if Truthy s then some s else none
  | none => none

theorem truthy?_some {s : JsString} (h : Truthy s) : truthy? (some s) = some s := if_pos h

theorem truthy?_eq_some {value : Option JsString} {s : JsString} (h : truthy? value = some s) : value = some s := by
  cases value with
  | none => cases h
  | some v =>
    by_cases hv : Truthy v
    · rwa [truthy?_some hv] at h
    · simp [truthy?, hv] at h

/-- `WhiteSpace` and `LineTerminator` of the language: what `trim` strips and `\s` matches. -/
def isWhiteSpace (u : UInt16) : Bool :=
  (0x0009 ≤ u && u ≤ 0x000D) || u == 0x0020 || u == 0x00A0 || u == 0x1680 || (0x2000 ≤ u && u ≤ 0x200A) ||
    u == 0x2028 || u == 0x2029 || u == 0x202F || u == 0x205F || u == 0x3000 || u == 0xFEFF

theorem isWhiteSpace_of_printable {u : UInt16} (hlow : 33 ≤ u.toNat) (hhigh : u.toNat ≤ 126) :
    isWhiteSpace u = false := by
  simp only [isWhiteSpace, Bool.or_eq_false_iff, Bool.and_eq_false_iff, decide_eq_false_iff_not, beq_eq_false_iff_ne,
    ne_eq, UInt16.le_iff_toNat_le, ← UInt16.toNat_inj]
  simp
  omega

/-- `String.prototype.trim`. -/
def trim (s : JsString) : JsString :=
  (s.dropWhile isWhiteSpace).rdropWhile isWhiteSpace

theorem trim_eq_self {s : JsString} (h : ∀ u ∈ s, isWhiteSpace u = false) : trim s = s := by
  rw [trim, List.dropWhile_eq_self_iff.mpr, List.rdropWhile_eq_self_iff.mpr]
  · intro hl
    rw [h _ (List.getLast_mem hl)]
    simp
  · intro hl
    rw [h _ (List.getElem_mem hl)]
    simp

/-- `s.replace(/\s+/g, " ")`. -/
def collapseWhiteSpace : JsString → JsString
  | [] => []
  | u :: s =>
    if isWhiteSpace u then
      if s.head?.any isWhiteSpace then collapseWhiteSpace s else 0x0020 :: collapseWhiteSpace s
    else u :: collapseWhiteSpace s

example : trim (collapseWhiteSpace (js "  a \n\t b ")) = js "a b" := by decide

end ClawWorks
