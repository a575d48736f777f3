import ClawWorks.Enterprise.Types
import ClawWorks.Js.Object
import ClawWorks.Lib.KeyedTable

/-!
# Ontology object instances

The two tables of object instances and of the edges between them, and the writes an action may perform. The edge table
is keyed by the link type and the two object ids; the object types at the two ends are columns outside the key.
-/

namespace ClawWorks

/-- `String(n)` for the number type of the instances. -/
class JsNumber (ν : Type) where
  toJsString : ν → JsString

instance : JsNumber Int :=
  ⟨fun n => js (toString n)⟩

/-- A value an ontology property can carry. Call arguments arrive unchecked, so an array or object may stand where a
value belongs: `structured`, which is of no declared type. -/
inductive OntologyValue (ν : Type)
  | string (value : JsString)
  | number (value : ν)
  | boolean (value : Bool)
  | null
  | structured
  deriving DecidableEq

/-- `typeof value`. -/
def OntologyValue.typeOf {ν : Type} : OntologyValue ν → JsString
  | .string _ => js "string"
  | .number _ => js "number"
  | .boolean _ => js "boolean"
  | .null => js "object"
  | .structured => js "object"

/-- `typeof value`, with `null` named as such. -/
def OntologyValue.typeOrNull {ν : Type} (value : OntologyValue ν) : JsString :=
  match value with
  | .null => js "null"
  | value => value.typeOf

/-- The properties of an instance, or the arguments of a call. -/
abbrev OntologyRecord (ν : Type) := PlainObject (OntologyValue ν)

/-! ## Tables -/

/-- Identity of an object: the primary key of `enterprise_ontology_objects`. -/
structure ObjectKey where
  treeId : EnterpriseId
  entity : EnterpriseId
  objectId : JsString
  deriving DecidableEq

/-- Row of `enterprise_ontology_objects`. -/
structure ObjectRow (ν : Type) where
  key : ObjectKey
  properties : OntologyRecord ν
  createdAt : Nat
  updatedAt : Nat
  deriving DecidableEq

/-- The primary key of `enterprise_ontology_links`. -/
structure LinkKey where
  treeId : EnterpriseId
  relationship : EnterpriseId
  fromObjectId : JsString
  toObjectId : JsString
  deriving DecidableEq

/-- An edge between two objects: its link type, and the object type and id at each end. -/
structure OntologyEdge where
  treeId : EnterpriseId
  relationship : EnterpriseId
  fromEntity : EnterpriseId
  fromObjectId : JsString
  toEntity : EnterpriseId
  toObjectId : JsString
  deriving DecidableEq

/-- The columns of an edge its table is keyed by. -/
def OntologyEdge.key (edge : OntologyEdge) : LinkKey :=
  ⟨edge.treeId, edge.relationship, edge.fromObjectId, edge.toObjectId⟩

def OntologyEdge.fromObject (edge : OntologyEdge) : ObjectKey :=
  ⟨edge.treeId, edge.fromEntity, edge.fromObjectId⟩

def OntologyEdge.toObject (edge : OntologyEdge) : ObjectKey :=
  ⟨edge.treeId, edge.toEntity, edge.toObjectId⟩

def OntologyEdge.touches (edge : OntologyEdge) (object : ObjectKey) : Bool :=
  edge.fromObject = object || edge.toObject = object

/-- Row of `enterprise_ontology_links`. -/
structure LinkRow where
  edge : OntologyEdge
  createdAt : Nat
  deriving DecidableEq

def LinkRow.key (row : LinkRow) : LinkKey :=
  row.edge.key

/-- The instances and edges of every tree. -/
structure ObjectStore (ν : Type) where
  objects : KeyedTable (ObjectRow.key (ν := ν))
  links : KeyedTable LinkRow.key

variable {ν : Type}

/-- The store before the first action. -/
def ObjectStore.empty : ObjectStore ν :=
  ⟨KeyedTable.empty, KeyedTable.empty⟩

variable (database : ObjectStore ν) (object : ObjectKey)

def getOntologyObjectIn : Option (ObjectRow ν) :=
  database.objects.get? object

/-- Write one object: an existing row keeps its creation time. -/
def upsertOntologyObject (properties : OntologyRecord ν) (now : Nat) : ObjectStore ν :=
  let createdAt := (database.objects.get? object).elim now (·.createdAt)
  { database with objects := database.objects.upsert ⟨object, properties, createdAt, now⟩ }

/-- Relate two objects. An edge under the same key is left as it is. -/
def upsertOntologyLink (edge : OntologyEdge) (now : Nat) : ObjectStore ν :=
  { database with links := database.links.insert ⟨edge, now⟩ }

/-- Drop the edge under a key. -/
def deleteOntologyLink (key : LinkKey) : ObjectStore ν :=
  { database with links := database.links.deleteWhere (·.key = key) }

def deleteOntologyObject : ObjectStore ν where
  objects := database.objects.deleteWhere (·.key = object)
  links := (database.links.deleteWhere (·.edge.fromObject = object)).deleteWhere (·.edge.toObject = object)

theorem links_deleteOntologyObject (key : LinkKey) : (deleteOntologyObject database object).links.get? key =
      (database.links.get? key).filter fun row => !row.edge.touches object := by
  unfold deleteOntologyObject
  rw [KeyedTable.get?_deleteWhere, KeyedTable.get?_deleteWhere, Option.filter_filter]
  refine congrArg (Option.filter · _) (funext fun row => ?_)
  simp [OntologyEdge.touches]

end ClawWorks
