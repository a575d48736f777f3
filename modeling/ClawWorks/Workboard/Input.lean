import Mathlib.Data.Rat.Floor
import Mathlib.Algebra.Order.Floor.Ring
import ClawWorks.Js.LowerCase
import ClawWorks.Lib.Outcome

/-!
# Input of the workboard

Callers pass values of type `unknown`. A text that gets through is trimmed, not blank and, where the field has a limit,
no longer than that; its type says so (`NonBlank`, `Bounded`), and reading it again gives it back.

An enumerated value that names no member counts as absent in most fields, so a field that holds one is read as an
option of members; `Choice` is for the two fields that reject other names.
-/

namespace ClawWorks.Workboard

/-- A value of type `unknown`, as far as the store looks at it; of the entries of an array the strings. -/
inductive Unknown
  | undefined
  | null
  | boolean (b : Bool)
  | number (q : ℚ)
  | string (s : JsString)
  | array (entries : List (Option JsString))
  /-- Objects, functions and the numbers that are not finite. -/
  | other
  deriving DecidableEq

/-- A field that holds an object, or not. -/
inductive Field (ρ : Type)
  | undefined
  | notObject
  | object (record : ρ)
  deriving DecidableEq

/-- A field that names a member of an enumeration: blank or no string, a member, or another string. -/
inductive Choice (α : Type)
  | absent
  | member (a : α)
  | unknownName
  deriving DecidableEq

abbrev Positive := {n : ℕ // 0 < n}

/-- `n || undefined`. -/
def positive? (n : ℕ) : Option Positive :=
  if h : 0 < n then some ⟨n, h⟩ else none

@[simp] theorem positive?_val (n : Positive) : positive? n.val = some n := dif_pos n.property

/-! ## Texts -/

/-- A string that trimming leaves as it is and that is not empty. -/
structure NonBlank where
  text : JsString
  trimmed : trim text = text
  nonempty : text ≠ []
  deriving DecidableEq

/-- A text of at most so many code units. -/
abbrev Bounded (limit : ℕ) := {t : NonBlank // t.text.length ≤ limit}

def normalizeOptionalString : Unknown → Option NonBlank
  | .string s => if h : trim s = [] then none else some ⟨trim s, trim_trim s, h⟩
  | _ => none

def decimal (n : ℕ) : JsString :=
  js (toString n)

def tooLong (limit : ℕ) (fieldName : JsString) : JsString :=
  fieldName ++ js " must be " ++ decimal limit ++ js " characters or fewer."

variable (value : Unknown)

def normalizeBoundedString {limit : ℕ} (fallback : Option (Bounded limit)) (fieldName : JsString) :
    Except JsString (Option (Bounded limit)) :=
  match normalizeOptionalString value with
  | none => .ok fallback
  | some t => if h : t.text.length ≤ limit then .ok (some ⟨t, h⟩) else .error (tooLong limit fieldName)

/-- A text where a longer one may stand. -/
def Bounded.widen {limit wider : ℕ} (t : Bounded limit) (h : limit ≤ wider) : Bounded wider :=
  ⟨t.val, t.property.trans h⟩

/-- A text that is there, or `undefined`. -/
def NonBlank.raw (t : NonBlank) : Unknown :=
  .string t.text

def rawText (t : Option NonBlank) : Unknown :=
  t.elim .undefined NonBlank.raw

def rawBounded {limit : ℕ} (t : Option (Bounded limit)) : Unknown :=
  rawText (t.map (·.val))

@[simp] theorem normalizeOptionalString_raw (t : NonBlank) : normalizeOptionalString t.raw = some t := by
  have htrim := t.trimmed
  simp only [NonBlank.raw, normalizeOptionalString, htrim, dif_neg t.nonempty]

@[simp] theorem normalizeOptionalString_rawText (t : Option NonBlank) : normalizeOptionalString (rawText t) = t := by
  cases t with
  | none => rfl
  | some t => exact normalizeOptionalString_raw t

variable {limit : ℕ}

@[simp] theorem normalizeBoundedString_raw (t : Bounded limit) (fallback : Option (Bounded limit))
    (fieldName : JsString) : normalizeBoundedString t.val.raw fallback fieldName = .ok (some t) := by
  simp only [normalizeBoundedString, normalizeOptionalString_raw, dif_pos t.property]

@[simp] theorem normalizeBoundedString_rawBounded (t : Option (Bounded limit)) (fieldName : JsString) :
    normalizeBoundedString (rawBounded t) none fieldName = .ok t := by
  cases t with
  | none => rfl
  | some t => exact normalizeBoundedString_raw t none fieldName

theorem normalizeBoundedString_rawText {t : Option NonBlank} {fieldName : JsString}
    {read : Option (Bounded limit)} (h : normalizeBoundedString (rawText t) none fieldName = .ok read) :
    read.map (·.val) = t := by
  rw [normalizeBoundedString, normalizeOptionalString_rawText] at h
  cases t with
  | none => rw [← Except.ok.inj h]; rfl
  | some t =>
    dsimp only at h
    split at h
    · rw [← Except.ok.inj h]; rfl
    · cases h

@[simp] theorem normalizeBoundedString_fallback (t : Option (Bounded limit)) (fieldName : JsString) :
    normalizeBoundedString (rawBounded t) t fieldName = .ok t := by
  cases t with
  | none => rfl
  | some t => exact normalizeBoundedString_raw t _ fieldName

/-! ## Numbers -/

/-- `Math.max(0, Math.trunc(value))`. -/
def truncated (q : ℚ) : ℕ :=
  ⌊q⌋.toNat

@[simp] theorem truncated_natCast (n : ℕ) : truncated n = n := by
  simp [truncated]

def normalizeTimestamp (fallback : ℕ) : ℕ :=
  match value with
  | .number q => truncated q
  | _ => fallback

def rawNumber (n : ℕ) : Unknown :=
  .number n

variable (n : Option Positive)

def rawPositive : Unknown :=
  n.elim .undefined fun n => rawNumber n.val

@[simp] theorem normalizeTimestamp_rawNumber (n fallback : ℕ) : normalizeTimestamp (rawNumber n) fallback = n :=
  truncated_natCast n

@[simp] theorem positive?_rawPositive : positive? (normalizeTimestamp (rawPositive n) 0) = n := by
  cases n with
  | none => rfl
  | some n => simp [rawPositive]

def normalizePosition (fallback : ℕ) : ℕ :=
  normalizeTimestamp value fallback

variable (fieldName : JsString)

def normalizePositiveInteger : Except JsString (Option Positive) :=
  match value with
  | .undefined | .null | .string [] => .ok none
  | .number q => .ok (some ⟨max 1 (truncated q), lt_of_lt_of_le one_pos (le_max_left _ _)⟩)
  | _ => .error (fieldName ++ js " must be a number.")

@[simp] theorem normalizePositiveInteger_rawPositive (fieldName : JsString) :
    normalizePositiveInteger (rawPositive n) fieldName = .ok n := by
  cases n with
  | none => rfl
  | some n =>
    have hmax : max 1 n.val = n.val := max_eq_right n.property
    simp only [rawPositive, Option.elim_some, rawNumber, normalizePositiveInteger, truncated_natCast, hmax]

/-! ## Lists of strings -/

/-- At most twenty different texts. -/
abbrev StringList (limit : ℕ) := {l : List (Bounded limit) // l.Nodup ∧ l.length ≤ 20}

def StringList.empty {limit : ℕ} : StringList limit :=
  ⟨[], List.nodup_nil, Nat.zero_le _⟩

def splitCommas (s : JsString) : List JsString :=
  s.splitOn 44

def listEntries : Unknown → Option (List (Option JsString))
  | .string s => some ((splitCommas s).map some)
  | .array entries => some entries
  | _ => none

theorem nodup_concat {l : List (Bounded limit)} {t : Bounded limit} (h : l.Nodup) (hnew : t ∉ l) :
    (l ++ [t]).Nodup := by
  rw [List.nodup_append]
  refine ⟨h, List.nodup_singleton t, fun a ha b hb => ?_⟩
  rw [List.mem_singleton.mp hb]
  exact fun hat => hnew (hat ▸ ha)

def normalizeStringListFrom {limit : ℕ} (fieldName : JsString) (values : StringList limit) :
    List (Option JsString) → Except JsString (StringList limit)
  | [] => .ok values
  | none :: _ => .error (fieldName ++ js " entries must be strings.")
  | some entry :: entries => do
    let normalized : Option (Bounded limit) ← normalizeBoundedString (.string entry) none fieldName
    match normalized with
    | none => normalizeStringListFrom fieldName values entries
    | some value =>
      if hnew : value ∈ values.val then normalizeStringListFrom fieldName values entries
      else if hroom : values.val.length < 20 then
        normalizeStringListFrom fieldName
          ⟨values.val ++ [value], nodup_concat values.property.1 hnew, by rw [List.length_append]; exact hroom⟩ entries
      else .error (fieldName ++ js " supports at most 20 entries.")

def normalizeStringList {limit : ℕ} : Except JsString (StringList limit) :=
  match value with
  | .undefined | .null => .ok .empty
  | _ =>
    match listEntries value with
    | none => .error (fieldName ++ js " must be an array or comma-separated string.")
    | some entries => normalizeStringListFrom fieldName .empty entries

def rawList {limit : ℕ} (l : List (Bounded limit)) : Unknown :=
  .array (l.map fun t => some t.val.text)

theorem normalizeStringListFrom_raw (rest : List (Bounded limit))
    (values : StringList limit) (h : (values.val ++ rest).Nodup) (hlen : (values.val ++ rest).length ≤ 20) :
    normalizeStringListFrom fieldName values (rest.map fun t => some t.val.text) =
      .ok ⟨values.val ++ rest, h, hlen⟩ := by
  induction rest generalizing values with
  | nil => simp [normalizeStringListFrom]
  | cons t rest ih =>
    have hnew : t ∉ values.val := fun hmem => (List.nodup_append.mp h).2.2 t hmem t List.mem_cons_self rfl
    have hroom : values.val.length < 20 := by
      rw [List.length_append, List.length_cons] at hlen
      omega
    have hsplit : values.val ++ t :: rest = (values.val ++ [t]) ++ rest := by simp
    have hraw : normalizeBoundedString (.string t.val.text) none fieldName = .ok (some t) :=
      normalizeBoundedString_raw t none fieldName
    rw [List.map_cons, normalizeStringListFrom, hraw]
    show (if hnew : t ∈ values.val then _ else _) = _
    rw [dif_neg hnew, dif_pos hroom, ih _ (by rwa [← hsplit]) (by rwa [← hsplit])]
    simp only [hsplit]

@[simp] theorem normalizeStringList_rawList (l : StringList limit) (fieldName : JsString) :
    normalizeStringList (rawList l.val) fieldName = .ok l :=
  normalizeStringListFrom_raw fieldName l.val .empty l.property.1 l.property.2

end ClawWorks.Workboard
