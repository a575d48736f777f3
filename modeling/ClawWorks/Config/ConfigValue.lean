import ClawWorks.Js.Object
import Mathlib.Data.List.Basic

/-!
# Values of a config file

A parsed config is a tree of objects, arrays and leaves. Members are in the order in which they are enumerated; the
keys of an object are different (`ConfigTree`).
-/

namespace ClawWorks

open List
namespace Config

/-- A number is the text that tells it from every other. -/
inductive ConfigValue
  | object (members : List (JsString × ConfigValue))
  | array (items : List ConfigValue)
  | string (text : JsString)
  | number (text : JsString)
  | boolean (value : Bool)
  | null

/-- A key of an object or an index of an array. -/
inductive Step
  | key (name : JsString)
  | index (i : Nat)

/-- The name under which an object shows its prototype: assigning to it makes no member. -/
def PROTO : JsString := js "__proto__"

/-- A new object, one `result[key] = value` for each member. An object assigned to `__proto__` becomes the prototype
of the new one, which the trees, of own members only, do not show. -/
def assignAll {α : Type} (members : List (JsString × α)) : List (JsString × α) :=
  JsMap.setAll [] (members.filter fun member => member.1 ≠ PROTO)

theorem assignAll_of_nodup {α : Type} {members : List (JsString × α)} (h : (members.map (·.1)).Nodup) :
    assignAll members = members.filter fun member => member.1 ≠ PROTO :=
  JsMap.setAll_of_nodup (h.sublist (filter_sublist.map _))

theorem filter_ne_proto {α : Type} {members : List (JsString × α)} (h : PROTO ∉ members.map (·.1)) :
    (members.filter fun member => member.1 ≠ PROTO) = members :=
  filter_eq_self.mpr fun _ hmember =>
    decide_eq_true fun hkey => h (hkey ▸ mem_map_of_mem hmember)

namespace ConfigValue

variable {members : List (JsString × ConfigValue)}

theorem sizeOf_member_lt {member : JsString × ConfigValue}
    (h : member ∈ members) : sizeOf member.2 < sizeOf (object members) := by
  have hmember := sizeOf_lt_of_mem h
  obtain ⟨key, value⟩ := member
  simp only [Prod.mk.sizeOf_spec, object.sizeOf_spec] at hmember ⊢
  omega

variable {items : List ConfigValue}

theorem sizeOf_item_lt {item : ConfigValue} (h : item ∈ items) : sizeOf item < sizeOf (array items) := by
  have hitem := sizeOf_lt_of_mem h
  simp only [array.sizeOf_spec]
  omega

@[induction_eliminator]
theorem induct {motive : ConfigValue → Prop}
    (object : ∀ members : List (JsString × ConfigValue), (∀ member ∈ members, motive member.2) →
      motive (.object members))
    (array : ∀ items : List ConfigValue, (∀ item ∈ items, motive item) → motive (.array items))
    (string : ∀ text, motive (.string text)) (number : ∀ text, motive (.number text))
    (boolean : ∀ value, motive (.boolean value)) (null : motive .null) : ∀ value, motive value
  | .object members => object members fun member _ => induct object array string number boolean null member.2
  | .array items => array items fun item _ => induct object array string number boolean null item
  | .string text => string text
  | .number text => number text
  | .boolean value => boolean value
  | .null => null
termination_by value => sizeOf value
decreasing_by
  · exact sizeOf_member_lt ‹_›
  · exact sizeOf_item_lt ‹_›

/-- What a key or an index leads to. -/
def child? : ConfigValue → Step → Option ConfigValue
  | object members, .key name => JsMap.get members name
  | array items, .index i => items[i]?
  | _, _ => none

/-- What a path leads to. -/
def at? : ConfigValue → List Step → Option ConfigValue
  | value, [] => some value
  | value, step :: path => (value.child? step).bind (at? · path)

@[simp] theorem at?_nil (value : ConfigValue) : value.at? [] = some value := rfl

theorem at?_cons_eq_some {value target : ConfigValue} {step : Step} {path : List Step} :
    value.at? (step :: path) = some target ↔
      ∃ child, value.child? step = some child ∧ child.at? path = some target := by
  rw [at?, Option.bind_eq_some_iff]

/-! ## Inside a value -/

/-- The values inside a value, itself among them. -/
inductive Within : ConfigValue → ConfigValue → Prop
  | here (value : ConfigValue) : Within value value
  | member {members : List (JsString × ConfigValue)} {member : JsString × ConfigValue} {target : ConfigValue} :
    member ∈ members → Within member.2 target → Within (object members) target
  | item {items : List ConfigValue} {item target : ConfigValue} :
    item ∈ items → Within item target → Within (array items) target

def UniqueKeys (value : ConfigValue) : Prop :=
  ∀ members, Within value (object members) → (members.map (·.1)).Nodup

def HasKey (value : ConfigValue) (name : JsString) : Prop :=
  ∃ members, Within value (object members) ∧ name ∈ members.map (·.1)

theorem uniqueKeys_object : (object members).UniqueKeys ↔
    (members.map (·.1)).Nodup ∧ ∀ member ∈ members, member.2.UniqueKeys := by
  constructor
  · exact fun h => ⟨h members (.here _), fun member hmember below hbelow => h below (.member hmember hbelow)⟩
  · rintro ⟨hnodup, hmembers⟩ below hbelow
    cases hbelow with
    | here => exact hnodup
    | member hmember hbelow => exact hmembers _ hmember below hbelow

theorem uniqueKeys_array : (array items).UniqueKeys ↔ ∀ item ∈ items, item.UniqueKeys := by
  constructor
  · exact fun h item hitem below hbelow => h below (.item hitem hbelow)
  · rintro h below (_ | _ | ⟨hitem, hbelow⟩)
    exact h _ hitem below hbelow

theorem hasKey_object {name : JsString} : (object members).HasKey name ↔
    name ∈ members.map (·.1) ∨ ∃ member ∈ members, member.2.HasKey name := by
  constructor
  · rintro ⟨below, hbelow, hname⟩
    cases hbelow with
    | here => exact Or.inl hname
    | member hmember hbelow => exact Or.inr ⟨_, hmember, below, hbelow, hname⟩
  · rintro (hname | ⟨member, hmember, below, hbelow, hname⟩)
    · exact ⟨members, .here _, hname⟩
    · exact ⟨below, .member hmember hbelow, hname⟩

theorem hasKey_array {name : JsString} : (array items).HasKey name ↔ ∃ item ∈ items, item.HasKey name := by
  constructor
  · rintro ⟨below, _ | _ | ⟨hitem, hbelow⟩, hname⟩
    exact ⟨_, hitem, below, hbelow, hname⟩
  · rintro ⟨item, hitem, below, hbelow, hname⟩
    exact ⟨below, .item hitem hbelow, hname⟩

/-- `isDeepStrictEqual`. -/
def isDeepStrictEqual : ConfigValue → ConfigValue → Bool
  | object members, object others =>
    members.length == others.length && (members.map fun member =>
      match JsMap.get others member.1 with
      | some other => isDeepStrictEqual member.2 other
      | none => false).all id
  | array items, array others =>
    items.length == others.length &&
      ((items.map fun item other => isDeepStrictEqual item other).zip others).all fun pair => pair.1 pair.2
  | string text, string other => text == other
  | number text, number other => text == other
  | boolean value, boolean other => value == other
  | null, null => true
  | _, _ => false
termination_by value => sizeOf value
decreasing_by
  · exact sizeOf_member_lt ‹_›
  · exact sizeOf_item_lt ‹_›

theorem isDeepStrictEqual_self {value : ConfigValue} (h : value.UniqueKeys) : isDeepStrictEqual value value = true := by
  induction value with
  | object members ih =>
    obtain ⟨hnodup, hmembers⟩ := uniqueKeys_object.mp h
    simp only [isDeepStrictEqual, beq_self_eq_true, Bool.true_and, all_map, all_eq_true]
    intro member hmember
    dsimp only [Function.comp_apply, id_eq]
    rw [JsMap.get_of_mem hnodup hmember]
    exact ih member hmember (hmembers member hmember)
  | array items ih =>
    simp only [isDeepStrictEqual, beq_self_eq_true, Bool.true_and, all_eq_true]
    intro pair hpair
    obtain ⟨i, hi, rfl⟩ := mem_iff_getElem.mp hpair
    rw [getElem_zip, getElem_map]
    exact ih _ (getElem_mem _) (uniqueKeys_array.mp h _ (getElem_mem _))
  | string | number | boolean => simp [isDeepStrictEqual]
  | null => simp [isDeepStrictEqual]

/-- The value with the texts of its strings taken out. -/
def shape : ConfigValue → ConfigValue
  | object members => object (members.map fun member => (member.1, member.2.shape))
  | array items => array (items.map shape)
  | string _ => string []
  | number text => number text
  | boolean value => boolean value
  | null => null
termination_by value => sizeOf value
decreasing_by
  · exact sizeOf_member_lt ‹_›
  · exact sizeOf_item_lt ‹_›

end ConfigValue

structure ConfigTree where
  value : ConfigValue
  uniqueKeys : value.UniqueKeys

end Config
end ClawWorks
