import ClawWorks.Enterprise.ObjectStore
import ClawWorks.Lib.Glob
import Mathlib.Data.List.Lex
import Mathlib.Data.List.Sort
import Mathlib.Data.Prod.Lex
import Mathlib.Order.OrderDual

/-!
# Searching objects

The two reads of a step: the objects of a type, newest first, and the neighbours of an object. Both show the properties
the step may see and no others; a text is looked for in those alone.
-/

namespace ClawWorks

open KeyedTable List

/-! ## `LIKE` -/

def PERCENT : UInt16 := 37
def BACKSLASH : UInt16 := 92
def LOW_LINE : UInt16 := 95

/-- `LIKE` folds the case of ASCII letters. -/
def foldAscii (u : UInt16) : UInt16 :=
  if 65 ≤ u && u ≤ 90 then u + 32 else u

/-- `text LIKE pattern ESCAPE '\'`. -/
def like : JsString → JsString → Bool
  | [], text => text.isEmpty
  | u :: pattern, text =>
    if u = PERCENT then Glob.testStar (fun _ => true) (like pattern) text
    else if u = BACKSLASH then
      match pattern, text with
      | literal :: pattern, v :: text => foldAscii literal = foldAscii v && like pattern text
      | _, _ => false
    else
      match text with
      | v :: text => (u = LOW_LINE || foldAscii u = foldAscii v) && like pattern text
      | [] => false

/-- `text.replace(/[\\%_]/g, (char) => "\\" + char)`. -/
def escapeLike (text : JsString) : JsString :=
  text.flatMap fun u => if u = BACKSLASH ∨ u = PERCENT ∨ u = LOW_LINE then [BACKSLASH, u] else [u]

def likePattern (text : JsString) : JsString :=
  PERCENT :: (escapeLike text ++ [PERCENT])

def codePointNumbers : JsString → List Nat
  | [] => []
  | [u] => [u.toNat]
  | u :: v :: s =>
    if 0xD800 ≤ u && u ≤ 0xDBFF && 0xDC00 ≤ v && v ≤ 0xDFFF then
      (0x10000 + (u.toNat - 0xD800) * 0x400 + (v.toNat - 0xDC00)) :: codePointNumbers s
    else u.toNat :: codePointNumbers (v :: s)

def unitsOfNumber (n : Nat) : List UInt16 :=
  if n < 0x10000 then [n.toUInt16]
  else [(0xD800 + (n - 0x10000) / 0x400).toUInt16, (0xDC00 + (n - 0x10000) % 0x400).toUInt16]

theorem unitsOfNumber_unit (u : UInt16) : unitsOfNumber u.toNat = [u] := by
  rw [unitsOfNumber, if_pos u.toNat_lt, Nat.toUInt16_eq, UInt16.ofNat_toNat]

theorem codePointNumbers_units (s : JsString) : (codePointNumbers s).flatMap unitsOfNumber = s := by
  induction s using codePointNumbers.induct with
  | case1 => rfl
  | case2 u => rw [codePointNumbers, flatMap_cons, unitsOfNumber_unit]; rfl
  | case3 u v s hpair ih =>
    rw [codePointNumbers, if_pos hpair, flatMap_cons, ih]
    simp only [Bool.and_eq_true, decide_eq_true_eq, UInt16.le_iff_toNat_le, UInt16.reduceToNat] at hpair
    have hhigh : 0xD800 + (0x10000 + (u.toNat - 0xD800) * 0x400 + (v.toNat - 0xDC00) - 0x10000) / 0x400 = u.toNat := by
      omega
    have hlow : 0xDC00 + (0x10000 + (u.toNat - 0xD800) * 0x400 + (v.toNat - 0xDC00) - 0x10000) % 0x400 = v.toNat := by
      omega
    rw [unitsOfNumber, if_neg (by omega), hhigh, hlow, Nat.toUInt16_eq, Nat.toUInt16_eq, UInt16.ofNat_toNat,
      UInt16.ofNat_toNat]
    rfl
  | case4 u v s hpair ih => rw [codePointNumbers, if_neg hpair, flatMap_cons, ih, unitsOfNumber_unit]; rfl

theorem codePointNumbers_injective : Function.Injective codePointNumbers :=
  Function.LeftInverse.injective codePointNumbers_units

section Reads

variable {ν : Type}

structure OntologyObjectRecord (ν : Type) where
  entity : EnterpriseId
  objectId : JsString
  properties : OntologyRecord ν
  updatedAt : Nat

def rowToObject (row : ObjectRow ν) : OntologyObjectRecord ν :=
  ⟨row.key.entity, row.key.objectId, row.properties, row.updatedAt⟩

/-- Drop the properties the caller may not see. -/
def projectProperties (object : OntologyObjectRecord ν) (visible : Option (List EnterpriseId)) :
    OntologyObjectRecord ν :=
  match visible with
  | none => object
  | some visible => { object with properties := object.properties.filter fun entry => visible.contains entry.1 }

/-! ## Search -/

/-- `CAST(value AS TEXT)` of a number. -/
class SqliteText (ν : Type) where
  castText : ν → JsString

/-- The text a value is matched by: booleans and `null` as the tool shows them. No structured value is ever stored. -/
def OntologyValue.sqliteText [SqliteText ν] : OntologyValue ν → JsString
  | .string value => value
  | .number value => SqliteText.castText value
  | .boolean value => if value then js "true" else js "false"
  | .null => js "null"
  | .structured => []

/-- The arguments of `searchOntologyObjects`. -/
structure SearchParams where
  treeId : EnterpriseId
  entity : EnterpriseId
  /-- Looked for in the values of the properties. -/
  matchText : Option JsString := none
  /-- The properties the caller may see. -/
  properties : Option (List EnterpriseId) := none
  limit : Nat

/-- A property the caller may see has the text in its value. -/
def rowMatches [SqliteText ν] (text : JsString) (visible : Option (List EnterpriseId)) (row : ObjectRow ν) : Bool :=
  row.properties.any fun entry =>
    like (likePattern text) entry.2.sqliteText && visible.all (·.contains entry.1)

def searchedRow [SqliteText ν] (params : SearchParams) (row : ObjectRow ν) : Bool :=
  row.key.treeId = params.treeId && row.key.entity = params.entity && match truthy? (params.matchText.map trim) with
    | none => true
    | some text => rowMatches text params.properties row

/-- `ORDER BY updated_at DESC, object_id ASC`. -/
def newestFirst (row : ObjectRow ν) : ℕᵒᵈ ×ₗ List ℕ :=
  toLex (OrderDual.toDual row.updatedAt, codePointNumbers row.key.objectId)

/-- Objects of one type in one tree, newest first. -/
def searchOntologyObjects [SqliteText ν] (database : ObjectStore ν) (params : SearchParams) :
    List (OntologyObjectRecord ν) :=
  let rows := (database.objects.rows.filter (searchedRow params)).insertionSort fun a b => newestFirst a ≤ newestFirst b
  (rows.take params.limit).map fun row => projectProperties (rowToObject row) params.properties

/-! ## Neighbours -/

/-- Which end of an edge a traversal came in on. -/
inductive LinkDirection
  | outbound
  | inbound

/-- The arguments of `getOntologyNeighbors`. -/
structure NeighborParams where
  treeId : EnterpriseId
  entity : EnterpriseId
  objectId : JsString
  relationship : Option EnterpriseId := none
  /-- The link types the caller may traverse. -/
  relationships : Option (List EnterpriseId) := none
  /-- The properties visible of each object type it may reach. -/
  visibleProperties : Option (JsMap EnterpriseId (List EnterpriseId)) := none
  limit : Nat

def OntologyEdge.nearEnd (edge : OntologyEdge) : LinkDirection → ObjectKey
  | .outbound => edge.fromObject
  | .inbound => edge.toObject

def OntologyEdge.farEnd (edge : OntologyEdge) : LinkDirection → ObjectKey
  | .outbound => edge.toObject
  | .inbound => edge.fromObject

def selectLinks (database : ObjectStore ν) (params : NeighborParams) (direction : LinkDirection) : List LinkRow :=
  let rows := database.links.rows.filter fun row =>
    row.edge.nearEnd direction = ⟨params.treeId, params.entity, params.objectId⟩ &&
      match truthy? params.relationship with
      | some relationship => row.edge.relationship = relationship
      | none => params.relationships.all (·.contains row.edge.relationship)
  (rows.insertionSort fun a b =>
    codePointNumbers a.edge.relationship ≤ codePointNumbers b.edge.relationship).take params.limit

/-- One neighbour: `object` is absent where the row is. -/
structure OntologyNeighbor (ν : Type) where
  link : OntologyEdge
  direction : LinkDirection
  object : Option (OntologyObjectRecord ν)

/-- Edges touching one object, in both directions, into object types the caller may address. -/
def getOntologyNeighbors (database : ObjectStore ν) (params : NeighborParams) : List (OntologyNeighbor ν) :=
  if params.relationships = some [] then []
  else
    let edges := ((selectLinks database params .outbound).map (·, LinkDirection.outbound) ++
      (selectLinks database params .inbound).map (·, LinkDirection.inbound)).take params.limit
    let visibleEdges := edges.filter fun edge =>
      params.visibleProperties.all fun visible => (visible.get (edge.1.edge.farEnd edge.2).entity).isSome
    visibleEdges.map fun edge =>
      let neighbor := edge.1.edge.farEnd edge.2
      { link := edge.1.edge
        direction := edge.2
        object := (database.objects.get? neighbor).map fun row =>
          projectProperties (rowToObject row) (params.visibleProperties.bind (·.get neighbor.entity)) }

/-! ## Stores that agree on what is visible -/

/-- What a scope shows: the properties of each object type. -/
abbrev VisibleScope := JsMap EnterpriseId (List EnterpriseId)

/-- The properties of an object type a scope shows. -/
def VisibleScope.properties (scope : VisibleScope) (entity : EnterpriseId) : List EnterpriseId :=
  (scope.get entity).getD []

structure SameVisible (visible : List EnterpriseId) (a b : ObjectRow ν) : Prop where
  key : a.key = b.key
  createdAt : a.createdAt = b.createdAt
  updatedAt : a.updatedAt = b.updatedAt
  properties : ∀ entry : JsString × OntologyValue ν, entry.1 ∈ visible → (entry ∈ a.properties ↔ entry ∈ b.properties)

structure AgreeOn (scope : VisibleScope) (a b : ObjectStore ν) : Prop where
  objects : ∀ key, Option.Rel (SameVisible (scope.properties key.entity)) (a.objects.get? key) (b.objects.get? key)
  links : a.links = b.links

/-- Equal records: their properties are the same, in whatever order they were written. -/
structure SameRecord (a b : OntologyObjectRecord ν) : Prop where
  entity : a.entity = b.entity
  objectId : a.objectId = b.objectId
  updatedAt : a.updatedAt = b.updatedAt
  properties : ∀ entry, entry ∈ a.properties ↔ entry ∈ b.properties

structure SameNeighbor (a b : OntologyNeighbor ν) : Prop where
  link : a.link = b.link
  direction : a.direction = b.direction
  object : Option.Rel SameRecord a.object b.object

section Agreement

variable {scope : VisibleScope} {a b : ObjectStore ν} {visible : List EnterpriseId}

theorem SameVisible.symm {r s : ObjectRow ν} (h : SameVisible visible r s) : SameVisible visible s r :=
  ⟨h.key.symm, h.createdAt.symm, h.updatedAt.symm, fun entry hentry => (h.properties entry hentry).symm⟩

theorem AgreeOn.symm (h : AgreeOn scope a b) : AgreeOn scope b a := by
  refine ⟨fun key => ?_, h.links.symm⟩
  have hobject := h.objects key
  generalize a.objects.get? key = r at hobject ⊢
  generalize b.objects.get? key = s at hobject ⊢
  cases hobject with
  | none => exact .none
  | some hsame => exact .some hsame.symm

theorem AgreeOn.exists_row (h : AgreeOn scope a b) {r : ObjectRow ν} (hr : r ∈ a.objects) :
    ∃ s ∈ b.objects, SameVisible (scope.properties r.key.entity) r s := by
  have hobject := h.objects r.key
  rw [get?_eq_some_iff.mpr ⟨hr, rfl⟩] at hobject
  cases hs : b.objects.get? r.key with
  | none =>
    rw [hs] at hobject
    cases hobject
  | some s =>
    rw [hs] at hobject
    cases hobject with
    | some hsame => exact ⟨s, (get?_eq_some_iff.mp hs).1, hsame⟩

theorem sameRecord_of_sameVisible {r s : ObjectRow ν} (h : SameVisible visible r s) :
    SameRecord (projectProperties (rowToObject r) (some visible)) (projectProperties (rowToObject s) (some visible)) := by
  refine ⟨congrArg ObjectKey.entity h.key, congrArg ObjectKey.objectId h.key, h.updatedAt, fun entry => ?_⟩
  change entry ∈ r.properties.filter _ ↔ entry ∈ s.properties.filter _
  rw [mem_filter, mem_filter]
  refine and_congr_left fun hvisible => h.properties entry ?_
  simpa using hvisible

end Agreement

/-! ## Searches agree -/

section Search

variable [SqliteText ν] {scope : VisibleScope} {a b : ObjectStore ν} {visible : List EnterpriseId}
  {params : SearchParams}

theorem rowMatches_of_sameVisible {text : JsString} {r s : ObjectRow ν} (h : SameVisible visible r s)
    (hmatches : rowMatches text (some visible) r) : rowMatches text (some visible) s := by
  unfold rowMatches at hmatches ⊢
  obtain ⟨entry, hentry, htext⟩ := any_eq_true.mp hmatches
  have hvisible : entry.1 ∈ visible := by
    obtain ⟨-, hvisible⟩ := (Bool.and_eq_true _ _).mp htext
    simpa using hvisible
  exact any_eq_true.mpr ⟨entry, (h.properties entry hvisible).mp hentry, htext⟩

theorem searchedRow_of_sameVisible {r s : ObjectRow ν} (h : SameVisible visible r s)
    (hr : searchedRow { params with properties := some visible } r) :
    searchedRow { params with properties := some visible } s := by
  unfold searchedRow at hr ⊢
  rw [← h.key]
  obtain ⟨hkey, htext⟩ := (Bool.and_eq_true _ _).mp hr
  refine (Bool.and_eq_true _ _).mpr ⟨hkey, ?_⟩
  dsimp only at htext ⊢
  cases htruthy : truthy? (params.matchText.map trim) with
  | none => rfl
  | some text =>
    rw [htruthy] at htext
    exact rowMatches_of_sameVisible h htext

def searchPosition (row : ObjectRow ν) : ObjectKey × Nat :=
  (row.key, row.updatedAt)

def searchedRows (database : ObjectStore ν) (params : SearchParams) : List (ObjectRow ν) :=
  (database.objects.rows.filter (searchedRow params)).insertionSort fun a b => newestFirst a ≤ newestFirst b

theorem mem_searchedRows {row : ObjectRow ν} {database : ObjectStore ν} :
    row ∈ searchedRows database params ↔ row ∈ database.objects ∧ searchedRow params row :=
  (mem_insertionSort _).trans mem_filter

theorem key_of_searched {row : ObjectRow ν} (h : searchedRow params row) :
    row.key = ⟨params.treeId, params.entity, row.key.objectId⟩ := by
  unfold searchedRow at h
  simp only [Bool.and_eq_true, decide_eq_true_eq] at h
  rw [← h.1.1, ← h.1.2]

theorem searchPosition_nodup (database : ObjectStore ν) :
    ((searchedRows database params).map searchPosition).Nodup := by
  have hkeys : ((searchedRows database params).map ObjectRow.key).Nodup :=
    ((perm_insertionSort _ _).map _).nodup_iff.mpr (database.objects.nodup.sublist (filter_sublist.map _))
  refine List.Nodup.of_map Prod.fst ?_
  rw [map_map]
  exact hkeys

theorem mem_positions_of_agree (h : AgreeOn scope a b) {position : ObjectKey × Nat} (hmem : position ∈ (searchedRows a
      { params with properties := some (scope.properties params.entity) }).map searchPosition) :
    position ∈ (searchedRows b
      { params with properties := some (scope.properties params.entity) }).map searchPosition := by
  obtain ⟨r, hr, rfl⟩ := mem_map.mp hmem
  obtain ⟨hstored, hsearched⟩ := mem_searchedRows.mp hr
  obtain ⟨s, hs, hsame⟩ := h.exists_row hstored
  have hentity : r.key.entity = params.entity := congrArg ObjectKey.entity (key_of_searched hsearched)
  rw [hentity] at hsame
  refine mem_map.mpr ⟨s, mem_searchedRows.mpr ⟨hs, searchedRow_of_sameVisible hsame hsearched⟩, ?_⟩
  rw [searchPosition, searchPosition, hsame.key, hsame.updatedAt]

def positionOrder (position : ObjectKey × Nat) : ℕᵒᵈ ×ₗ List ℕ :=
  toLex (OrderDual.toDual position.2, codePointNumbers position.1.objectId)

theorem positions_pairwise (database : ObjectStore ν) :
    ((searchedRows database params).map searchPosition).Pairwise fun p q => positionOrder p ≤ positionOrder q := by
  rw [pairwise_map]
  have : Std.Total fun a b : ObjectRow ν => newestFirst a ≤ newestFirst b := ⟨fun a b => le_total _ _⟩
  have : IsTrans (ObjectRow ν) fun a b => newestFirst a ≤ newestFirst b := ⟨fun _ _ _ => le_trans⟩
  exact pairwise_insertionSort _ _

theorem positions_eq (h : AgreeOn scope a b) (params : SearchParams) :
    (searchedRows a { params with properties := some (scope.properties params.entity) }).map searchPosition =
      (searchedRows b { params with properties := some (scope.properties params.entity) }).map searchPosition := by
  refine List.Perm.eq_of_pairwise (fun p q hp hq hpq hqp => ?_) (positions_pairwise a) (positions_pairwise b)
    ((perm_ext_iff_of_nodup (searchPosition_nodup a) (searchPosition_nodup b)).mpr fun _ =>
      ⟨mem_positions_of_agree h, mem_positions_of_agree h.symm⟩)
  have horder := le_antisymm hpq hqp
  obtain ⟨r, hr, rfl⟩ := mem_map.mp hp
  obtain ⟨s, hs, rfl⟩ := mem_map.mp hq
  have hpair := toLex.injective horder
  have hupdated : r.updatedAt = s.updatedAt := OrderDual.toDual.injective (congrArg Prod.fst hpair)
  have hid : r.key.objectId = s.key.objectId := codePointNumbers_injective (congrArg Prod.snd hpair)
  have hkey : r.key = s.key := by
    rw [key_of_searched (mem_searchedRows.mp hr).2, key_of_searched (mem_searchedRows.mp hs).2, hid]
  rw [searchPosition, searchPosition, hkey, hupdated]

theorem searchOntologyObjects_agree (h : AgreeOn scope a b) (params : SearchParams) : List.Forall₂ SameRecord
      (searchOntologyObjects a { params with properties := some (scope.properties params.entity) })
      (searchOntologyObjects b { params with properties := some (scope.properties params.entity) }) := by
  change List.Forall₂ SameRecord
    (((searchedRows a { params with properties := some (scope.properties params.entity) }).take params.limit).map _)
    (((searchedRows b { params with properties := some (scope.properties params.entity) }).take params.limit).map _)
  rw [forall₂_map_left_iff, forall₂_map_right_iff]
  refine forall₂_take _ ?_
  have hpositions := positions_eq h params
  rw [← forall₂_eq_eq_eq, forall₂_map_left_iff, forall₂_map_right_iff] at hpositions
  obtain ⟨hlength, hzip⟩ := forall₂_iff_zip.mp hpositions
  refine forall₂_iff_zip.mpr ⟨hlength, fun {r s} hmem => ?_⟩
  obtain ⟨hr, hs⟩ := of_mem_zip hmem
  obtain ⟨hstored, hsearched⟩ := mem_searchedRows.mp hr
  obtain ⟨s', hs', hsame⟩ := h.exists_row hstored
  have hkey : s'.key = s.key := hsame.key.symm.trans (congrArg Prod.fst (hzip hmem))
  obtain rfl := eq_of_key hs' (mem_searchedRows.mp hs).1 hkey
  have hentity : r.key.entity = params.entity := congrArg ObjectKey.entity (key_of_searched hsearched)
  exact sameRecord_of_sameVisible (hentity ▸ hsame)

end Search

theorem getOntologyNeighbors_agree {scope : VisibleScope} {a b : ObjectStore ν} (h : AgreeOn scope a b)
    (params : NeighborParams) :
    List.Forall₂ SameNeighbor (getOntologyNeighbors a { params with visibleProperties := some scope })
      (getOntologyNeighbors b { params with visibleProperties := some scope }) := by
  unfold getOntologyNeighbors
  dsimp only
  split
  · exact .nil
  have hlinks : ∀ direction, selectLinks b { params with visibleProperties := some scope } direction =
      selectLinks a { params with visibleProperties := some scope } direction := fun direction => by
    rw [selectLinks, selectLinks, h.links]
  rw [hlinks, hlinks, forall₂_map_left_iff, forall₂_map_right_iff]
  refine forall₂_same.mpr fun edge hedge => ⟨rfl, rfl, ?_⟩
  obtain ⟨visible, hvisible⟩ : ∃ visible, scope.get (edge.1.edge.farEnd edge.2).entity = some visible := by
    obtain ⟨-, hreached⟩ := mem_filter.mp hedge
    exact Option.isSome_iff_exists.mp (by simpa using hreached)
  have hobject := h.objects (edge.1.edge.farEnd edge.2)
  rw [VisibleScope.properties, hvisible, Option.getD_some] at hobject
  dsimp only
  rw [Option.bind_some, hvisible]
  generalize a.objects.get? (edge.1.edge.farEnd edge.2) = r at hobject ⊢
  generalize b.objects.get? (edge.1.edge.farEnd edge.2) = s at hobject ⊢
  cases hobject with
  | none => exact .none
  | some hsame => exact .some (sameRecord_of_sameVisible hsame)

/-- **The reads of a step do not interfere with what it may not see.** Whatever is asked in a scope, stores of the same
objects and links that agree on the visible properties list the same records in the same order. -/
theorem reads_nonInterfering [SqliteText ν] {scope : VisibleScope} {a b : ObjectStore ν} (h : AgreeOn scope a b) :
    (∀ params : SearchParams, List.Forall₂ SameRecord
      (searchOntologyObjects a { params with properties := some (scope.properties params.entity) })
      (searchOntologyObjects b { params with properties := some (scope.properties params.entity) })) ∧
    ∀ params : NeighborParams, List.Forall₂ SameNeighbor
      (getOntologyNeighbors a { params with visibleProperties := some scope })
      (getOntologyNeighbors b { params with visibleProperties := some scope }) :=
  ⟨fun params => searchOntologyObjects_agree h params, fun params => getOntologyNeighbors_agree h params⟩

end Reads

instance : SqliteText Int :=
  ⟨fun n => js (toString n)⟩

def namesOnly : VisibleScope :=
  [(js "customer", [js "name"])]

def scoredCustomer (score : Int) : ObjectStore Int :=
  ⟨empty.upsert
    ⟨⟨js "desk", js "customer", js "c1"⟩, [(js "name", .string (js "Ada")), (js "score", .number score)], 1, 1⟩,
    empty⟩

theorem scoredCustomers_agree (n m : Int) : AgreeOn namesOnly (scoredCustomer n) (scoredCustomer m) := by
  refine ⟨fun key => ?_, rfl⟩
  rw [scoredCustomer, scoredCustomer, get?_upsert, get?_upsert]
  split
  · rename_i hkey
    refine .some ⟨rfl, rfl, rfl, fun entry hvisible => ?_⟩
    rw [← hkey] at hvisible
    obtain hname : entry.1 = js "name" := mem_singleton.mp hvisible
    have hscore : js "name" ≠ js "score" := by decide
    simp only [mem_cons, not_mem_nil, or_false]
    refine or_congr Iff.rfl ⟨fun h => ?_, fun h => ?_⟩ <;>
    · rw [h] at hname
      exact absurd hname.symm hscore
  · exact .none

theorem scoredCustomers_nonInterfering :
    (∀ params : SearchParams, List.Forall₂ SameRecord
      (searchOntologyObjects (scoredCustomer 7)
        { params with properties := some (namesOnly.properties params.entity) })
      (searchOntologyObjects (scoredCustomer 8)
        { params with properties := some (namesOnly.properties params.entity) })) ∧
    ∀ params : NeighborParams, List.Forall₂ SameNeighbor
      (getOntologyNeighbors (scoredCustomer 7) { params with visibleProperties := some namesOnly })
      (getOntologyNeighbors (scoredCustomer 8) { params with visibleProperties := some namesOnly }) :=
  reads_nonInterfering (scoredCustomers_agree 7 8)

end ClawWorks
