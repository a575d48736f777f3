import ClawWorks.Js.Text
import Mathlib.Algebra.BigOperators.Group.List.Basic
import Mathlib.Data.Rat.Cast.Order
import Mathlib.Tactic.Linarith

/-!
# Sizing JSON without serializing it

`boundedJsonUtf8Bytes` walks a value and stops once a limit is passed. Every step of the walk adds what its part of the
text has, or stops past the limit (`Adds`); a string is only serialized where its units alone do not pass it.
-/

namespace ClawWorks.Infra

open List

/-- A finite number is its text, another one is none. A hole of an array reads as `undefined`. -/
inductive JsonInput
  | object (fields : List (JsString × JsonInput))
  | array (items : List JsonInput)
  | string (text : JsString)
  | number (text : Option (List Char))
  | boolean (value : Bool)
  | null
  | undefined

/-! ## The serializer -/

/-- `Buffer.byteLength(text, "utf8")`. -/
def utf8Length (text : List Char) : ℕ :=
  (text.map Char.utf8Size).sum

/-- `\uXXXX`. -/
def unicodeEscape (u : UInt16) : List Char :=
  let digit (i : ℕ) : Char := Nat.digitChar (u.toNat / 16 ^ i % 16)
  ['\\', 'u', digit 3, digit 2, digit 1, digit 0]

/-- A code point in a JSON string; a lone surrogate is escaped. -/
def quotedCodePoint : JsString → List Char
  | [u, v] => [Char.ofNat (0x10000 + (u.toNat - 0xD800) * 0x400 + (v.toNat - 0xDC00))]
  | [u] =>
    if u = 8 then ['\\', 'b']
    else if u = 9 then ['\\', 't']
    else if u = 10 then ['\\', 'n']
    else if u = 12 then ['\\', 'f']
    else if u = 13 then ['\\', 'r']
    else if u = 34 then ['\\', '"']
    else if u = 92 then ['\\', '\\']
    else if u < 32 || 0xD800 ≤ u && u ≤ 0xDFFF then unicodeEscape u
    else [Char.ofNat u.toNat]
  | _ => []

def stringifyString (text : JsString) : List Char :=
  '"' :: (codePoints text).flatMap quotedCodePoint ++ ['"']

mutual

/-- `JSON.stringify(value)`; `undefined` as an item of an array. -/
def stringify : JsonInput → List Char
  | .object fields => '{' :: [','].intercalate (fieldTexts fields) ++ ['}']
  | .array items => '[' :: [','].intercalate (itemTexts items) ++ [']']
  | .string text => stringifyString text
  | .number (some text) => text
  | .boolean true => "true".toList
  | .boolean false => "false".toList
  | .number none | .null | .undefined => "null".toList

def fieldTexts : List (JsString × JsonInput) → List (List Char)
  | [] => []
  | (_, .undefined) :: fields => fieldTexts fields
  | (key, field) :: fields => (stringifyString key ++ ':' :: stringify field) :: fieldTexts fields

def itemTexts : List JsonInput → List (List Char)
  | [] => []
  | item :: items => stringify item :: itemTexts items

end

/-! ## The walk -/

/-- The count so far, or the one with which the walk was left. -/
abbrev Count := Except ℚ ℚ

def add (maxBytes amount bytes : ℚ) : Count :=
  if maxBytes < bytes + amount then .error (bytes + amount) else .ok (bytes + amount)

def jsonStringByteLengthUpToLimit (value : JsString) (remainingBytes : ℚ) : ℚ :=
  if remainingBytes < value.length + 2 then remainingBytes + 1 else utf8Length (stringifyString value)

def addString (maxBytes : ℚ) (value : JsString) (bytes : ℚ) : Count :=
  add maxBytes (jsonStringByteLengthUpToLimit value (maxBytes - bytes)) bytes

mutual

def visit (maxBytes : ℚ) : JsonInput → (inArray : Bool) → ℚ → Count
  | .null, _, bytes | .number none, _, bytes => add maxBytes 4 bytes
  | .string text, _, bytes => addString maxBytes text bytes
  | .number (some text), _, bytes => add maxBytes (utf8Length text) bytes
  | .boolean value, _, bytes => add maxBytes (if value then 4 else 5) bytes
  | .undefined, inArray, bytes => if inArray then add maxBytes 4 bytes else .ok bytes
  | .array items, _, bytes =>
    add maxBytes 1 bytes >>= visitItems maxBytes items false >>= add maxBytes 1
  | .object fields, _, bytes =>
    add maxBytes 1 bytes >>= visitFields maxBytes fields false >>= add maxBytes 1

/-- The loop over the items; `behind` after the first one. -/
def visitItems (maxBytes : ℚ) : List JsonInput → (behind : Bool) → ℚ → Count
  | [], _, bytes => .ok bytes
  | item :: items, behind, bytes =>
    (if behind then add maxBytes 1 bytes else .ok bytes) >>= visit maxBytes item true >>=
      visitItems maxBytes items true

def visitFields (maxBytes : ℚ) : List (JsString × JsonInput) → (wroteField : Bool) → ℚ → Count
  | [], _, bytes => .ok bytes
  | (_, .undefined) :: fields, wroteField, bytes => visitFields maxBytes fields wroteField bytes
  | (key, field) :: fields, wroteField, bytes =>
    (if wroteField then add maxBytes 1 bytes else .ok bytes) >>= addString maxBytes key >>= add maxBytes 1 >>=
      visit maxBytes field false >>= visitFields maxBytes fields true

end

structure BoundedJsonUtf8Bytes where
  bytes : ℚ
  complete : Bool

def boundedJsonUtf8Bytes (value : JsonInput) (maxBytes : ℚ) : BoundedJsonUtf8Bytes :=
  match visit maxBytes value false 0 with
  | .ok bytes => ⟨bytes, true⟩
  | .error bytes => ⟨max bytes (maxBytes + 1), false⟩

/-! ## What the walk adds -/

theorem utf8Length_append (a b : List Char) : utf8Length (a ++ b) = utf8Length a + utf8Length b := by
  simp [utf8Length]

theorem length_le_utf8Length (text : List Char) : text.length ≤ utf8Length text := by
  induction text with
  | nil => exact Nat.le_refl 0
  | cons c text ih =>
    have hpos := c.utf8Size_pos
    simp only [utf8Length, map_cons, sum_cons, length_cons] at ih ⊢
    omega

theorem two_le_utf8Size {n : ℕ} (hlow : 0x10000 ≤ n) (hhigh : n < 0x110000) : 2 ≤ (Char.ofNat n).utf8Size := by
  have hval : (Char.ofNat n).val.toNat = n := by
    rw [Char.ofNat, dif_pos (.inr ⟨by omega, hhigh⟩)]
    rfl
  have hpos := (Char.ofNat n).utf8Size_pos
  by_contra hone
  have hascii := UInt32.le_iff_toNat_le.mp (Char.utf8Size_eq_one_iff.mp (show (Char.ofNat n).utf8Size = 1 by omega))
  rw [hval] at hascii
  exact absurd (hlow.trans hascii) (by decide)

theorem one_le_quoted (u : UInt16) : 1 ≤ utf8Length (quotedCodePoint [u]) := by
  refine le_trans ?_ (length_le_utf8Length _)
  simp only [quotedCodePoint, unicodeEscape]
  split_ifs <;> simp

theorem two_le_quoted {u v : UInt16} (h : 0xD800 ≤ u && u ≤ 0xDBFF && 0xDC00 ≤ v && v ≤ 0xDFFF) :
    2 ≤ utf8Length (quotedCodePoint [u, v]) := by
  simp only [Bool.and_eq_true, decide_eq_true_eq, UInt16.le_iff_toNat_le] at h
  have hhigh : u.toNat ≤ 0xDBFF := h.1.1.2
  have hlow : v.toNat ≤ 0xDFFF := h.2
  have hsize := @two_le_utf8Size (0x10000 + (u.toNat - 0xD800) * 0x400 + (v.toNat - 0xDC00)) (by omega) (by omega)
  rwa [quotedCodePoint, utf8Length, map_singleton, sum_singleton]

theorem length_le_quoted (text : JsString) : text.length ≤ utf8Length ((codePoints text).flatMap quotedCodePoint) := by
  fun_induction codePoints text with
  | case1 => exact Nat.zero_le _
  | case2 u => simpa using one_le_quoted u
  | case3 u v text hpair ih =>
    rw [flatMap_cons, utf8Length_append, length_cons, length_cons, Nat.add_assoc, Nat.add_comm]
    exact Nat.add_le_add (two_le_quoted hpair) ih
  | case4 u v text hpair ih =>
    rw [flatMap_cons, utf8Length_append, length_cons, Nat.add_comm]
    exact Nat.add_le_add (one_le_quoted u) ih

/-- A part of the walk adds `n` bytes, or leaves it past the limit. -/
def Adds (maxBytes : ℚ) (walk : ℚ → Count) (n : ℕ) : Prop :=
  ∀ bytes ≤ maxBytes, bytes + n ≤ maxBytes ∧ walk bytes = .ok (bytes + n) ∨
    maxBytes < bytes + n ∧ ∃ past, maxBytes < past ∧ walk bytes = .error past

variable {maxBytes : ℚ} {m n : ℕ} {walk next : ℚ → Count}

theorem Adds.bind (hwalk : Adds maxBytes walk m) (hnext : Adds maxBytes next n) :
    Adds maxBytes (fun bytes => walk bytes >>= next) (m + n) := by
  intro bytes hbytes
  have hn : (0 : ℚ) ≤ n := n.cast_nonneg
  rw [Nat.cast_add, ← add_assoc]
  rcases hwalk bytes hbytes with ⟨hle, hok⟩ | ⟨hlt, past, hpast, herror⟩
  · rcases hnext _ hle with ⟨hle', hok'⟩ | ⟨hlt', past, hpast, herror⟩
    · exact .inl ⟨hle', (congrArg (· >>= next) hok).trans hok'⟩
    · exact .inr ⟨hlt', past, hpast, (congrArg (· >>= next) hok).trans herror⟩
  · exact .inr ⟨by linarith, past, hpast, congrArg (· >>= next) herror⟩

theorem adds_nothing : Adds maxBytes .ok 0 := fun bytes hbytes => .inl ⟨by simpa using hbytes, by simp⟩

theorem adds_add (n : ℕ) : Adds maxBytes (add maxBytes n) n := by
  intro bytes _
  unfold add
  split
  · rename_i h
    exact .inr ⟨h, _, h, rfl⟩
  · rename_i h
    exact .inl ⟨not_lt.mp h, rfl⟩

theorem adds_addString (text : JsString) : Adds maxBytes (addString maxBytes text)
    (utf8Length (stringifyString text)) := by
  intro bytes hbytes
  unfold addString jsonStringByteLengthUpToLimit
  split
  · rename_i hlong
    have hquoted : text.length + 2 ≤ utf8Length (stringifyString text) := by
      have := length_le_quoted text
      rw [stringifyString, ← singleton_append, utf8Length_append, utf8Length_append]
      have hquote : utf8Length ['"'] = 1 := by decide
      omega
    have hcast : (text.length : ℚ) + 2 ≤ utf8Length (stringifyString text) := by exact_mod_cast hquoted
    refine .inr ⟨by linarith, maxBytes + 1, by linarith, ?_⟩
    rw [add, if_pos (by linarith)]
    congr 1
    linarith
  · exact adds_add _ bytes hbytes

theorem adds_separator (behind : Bool) :
    Adds maxBytes (fun bytes => if behind then add maxBytes 1 bytes else .ok bytes) (if behind then 1 else 0) := by
  cases behind with
  | true => simpa using adds_add 1
  | false => exact adds_nothing

/-- What the texts of a list have, each behind a comma but the first one unless something stands before it. -/
def listLength (behind : Bool) (texts : List (List Char)) : ℕ :=
  utf8Length ([','].intercalate texts) + if behind ∧ texts ≠ [] then 1 else 0

theorem listLength_cons (behind : Bool) (text : List Char) (texts : List (List Char)) :
    listLength behind (text :: texts) = (if behind then 1 else 0) + utf8Length text + listLength true texts := by
  have hcomma : utf8Length [','] = 1 := by decide
  cases texts with
  | nil => cases behind <;> simp [listLength, intercalate, utf8Length, Nat.add_comm]
  | cons first texts =>
    simp only [listLength, intercalate_cons_cons, utf8Length_append, hcomma]
    cases behind <;> simp <;> omega

theorem listLength_nil (behind : Bool) : listLength behind [] = 0 := by
  simp [listLength, intercalate, utf8Length]

variable {key : JsString} {field : JsonInput} {fields : List (JsString × JsonInput)}

theorem fieldTexts_cons (h : field ≠ .undefined) :
    fieldTexts ((key, field) :: fields) = (stringifyString key ++ ':' :: stringify field) :: fieldTexts fields := by
  cases field <;> first | rfl | exact absurd rfl h

theorem visitFields_cons {wroteField : Bool} (h : field ≠ .undefined) :
    visitFields maxBytes ((key, field) :: fields) wroteField = fun bytes =>
      (if wroteField then add maxBytes 1 bytes else .ok bytes) >>= addString maxBytes key >>= add maxBytes 1 >>=
        visit maxBytes field false >>= visitFields maxBytes fields true := by
  cases field <;> first | rfl | exact absurd rfl h

theorem utf8Length_enclosed {first last : Char} {texts : List (List Char)} (hfirst : first.utf8Size = 1)
    (hlast : last.utf8Size = 1) :
    utf8Length (first :: [','].intercalate texts ++ [last]) = 1 + listLength false texts + 1 := by
  simp [utf8Length, listLength, hfirst, hlast, Nat.add_assoc]

mutual

theorem visit_adds : ∀ (value : JsonInput) (inArray : Bool), (value = .undefined → inArray) →
    Adds maxBytes (visit maxBytes value inArray) (utf8Length (stringify value))
  | .null, _, _ | .number none, _, _ => adds_add 4
  | .string text, _, _ => adds_addString text
  | .number (some text), _, _ => adds_add (utf8Length text)
  | .boolean true, _, _ => adds_add 4
  | .boolean false, _, _ => adds_add 5
  | .undefined, inArray, h => by
    simp only [visit, h rfl]
    exact adds_add 4
  | .array items, _, _ => by
    rw [stringify, utf8Length_enclosed rfl rfl]
    exact ((adds_add 1).bind (visitItems_adds items false)).bind (adds_add 1)
  | .object fields, _, _ => by
    rw [stringify, utf8Length_enclosed rfl rfl]
    exact ((adds_add 1).bind (visitFields_adds fields false)).bind (adds_add 1)

theorem visitItems_adds : ∀ (items : List JsonInput) (behind : Bool),
    Adds maxBytes (visitItems maxBytes items behind) (listLength behind (itemTexts items))
  | [], behind => by
    rw [itemTexts, listLength_nil]
    exact adds_nothing
  | item :: items, behind => by
    rw [itemTexts, listLength_cons]
    exact ((adds_separator behind).bind (visit_adds item true fun _ => rfl)).bind (visitItems_adds items true)

theorem visitFields_adds : ∀ (fields : List (JsString × JsonInput)) (wroteField : Bool),
    Adds maxBytes (visitFields maxBytes fields wroteField) (listLength wroteField (fieldTexts fields))
  | [], wroteField => by
    rw [fieldTexts, listLength_nil]
    exact adds_nothing
  | (key, field) :: fields, wroteField => by
    by_cases hfield : field = .undefined
    · subst hfield
      exact visitFields_adds fields wroteField
    · have hcolon : utf8Length [':'] = 1 := by decide
      rw [fieldTexts_cons hfield, visitFields_cons hfield, listLength_cons, ← singleton_append, utf8Length_append,
        utf8Length_append, hcolon, ← Nat.add_assoc, ← Nat.add_assoc]
      exact ((((adds_separator wroteField).bind (adds_addString key)).bind (adds_add 1)).bind
        (visit_adds field false fun h => absurd h hfield)).bind (visitFields_adds fields true)

end

/-- **Bounded sizing agrees with the serializer**: the walk completes exactly if the text is within the limit, and then
its count is the length of the text; otherwise the count is past the limit. -/
theorem boundedJsonUtf8Bytes_agrees {value : JsonInput} (hroot : value ≠ .undefined) (hlimit : 0 ≤ maxBytes) :
    ((boundedJsonUtf8Bytes value maxBytes).complete ↔ (utf8Length (stringify value) : ℚ) ≤ maxBytes) ∧
      ((boundedJsonUtf8Bytes value maxBytes).complete →
        (boundedJsonUtf8Bytes value maxBytes).bytes = utf8Length (stringify value)) ∧
      (¬(boundedJsonUtf8Bytes value maxBytes).complete → maxBytes < (boundedJsonUtf8Bytes value maxBytes).bytes) := by
  unfold boundedJsonUtf8Bytes
  rcases visit_adds value false (fun h => absurd h hroot) 0 hlimit with ⟨hle, hok⟩ | ⟨hlt, past, hpast, herror⟩
  · rw [zero_add] at hle hok
    simpa [hok] using hle
  · rw [zero_add] at hlt
    simpa [herror, hpast] using hlt

theorem boundedJsonUtf8Bytes_agrees_pair :
    (boundedJsonUtf8Bytes (.array [.string (js "é"), .undefined]) 11).complete ↔
      (utf8Length (stringify (.array [.string (js "é"), .undefined])) : ℚ) ≤ 11 := by
  have hroot : JsonInput.array [.string (js "é"), .undefined] ≠ .undefined := nofun
  have hlimit : (0 : ℚ) ≤ 11 := by norm_num
  exact (boundedJsonUtf8Bytes_agrees hroot hlimit).1

end ClawWorks.Infra
