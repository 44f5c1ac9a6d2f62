import PoolGraph.Fault
import PoolGraph.Schema.Error

/-!
# Region schemas

A `RegionSchema` is the description of one region: its structs in the order of their pools,
and every list type that their fields use.  Structs are declared first and get their fields
later, so that they can refer to each other in any order.
-/

namespace PoolGraph

/-- A field of a struct.  Its number is its position among the fields. -/
structure Field where
  name : String
  type : FieldType
  deriving DecidableEq

/-- A struct of a region. -/
structure StructSchema where
  name : String
  fields : List Field
  deriving DecidableEq

/-- The field with the given name, behind its number. -/
def StructSchema.field? (s : StructSchema) (name : String) : Option (Nat × Field) := do
  let number ← s.fields.findIdx? fun field => field.name = name
  return (number, ← s.fields[number]?)

/-- The structs of a region in order, and the item type of every list type in order. -/
structure RegionSchema where
  name : String
  structs : List StructSchema
  lists : List FieldType
  deriving DecidableEq

namespace RegionSchema

/-- A schema without types. -/
def empty (name : String) : RegionSchema := ⟨name, [], []⟩

/-- The position of the struct with the given name. -/
def structIndex? (schema : RegionSchema) (name : String) : Option Nat :=
  schema.structs.findIdx? fun s => s.name = name

/-- The struct at a position. -/
def struct (schema : RegionSchema) (id : Nat) : Except Fault StructSchema :=
  match schema.structs[id]? with
  | some s => .ok s
  | none => .error (.noStruct id)

/-- Adds a struct that has no fields yet and tells its position. -/
def declareStruct (schema : RegionSchema) (name : String) :
    Except SchemaError (Nat × RegionSchema) :=
  match schema.structIndex? name with
  | some _ => .error (.duplicateType name)
  | none =>
    .ok (schema.structs.length, { schema with structs := schema.structs ++ [⟨name, []⟩] })

/-- The fields up to the first name that `before` or an earlier field has, and that name. -/
def untilDuplicate : List Field → List Field → List Field × Option String
  | before, [] => (before, none)
  | before, field :: rest =>
    if before.any fun other => other.name = field.name then (before, some field.name)
    else untilDuplicate (before ++ [field]) rest

/-- Gives a struct its fields in place of those it had.  A field whose name is taken stops
this, and the fields before it stay. -/
def defineFields (schema : RegionSchema) (id : Nat) (fields : List Field) :
    Except Fault (RegionSchema × Except SchemaError Unit) := do
  let s ← schema.struct id
  let (kept, duplicate) := untilDuplicate [] fields
  let schema := { schema with structs := schema.structs.set id { s with fields := kept } }
  return (schema, match duplicate with
    | none => .ok ()
    | some name => .error (.duplicateField s.name name))

/-- The list type with the given item type, if there is one. -/
def findList? (schema : RegionSchema) (item : FieldType) : Option FieldType :=
  (schema.lists.findIdx? (· = item)).map .list

/-- The list type with the given item type, made when there is none. -/
def list (schema : RegionSchema) (item : FieldType) : FieldType × RegionSchema :=
  match schema.findList? item with
  | some type => (type, schema)
  | none => (.list schema.lists.length, { schema with lists := schema.lists ++ [item] })

/-- The item type of the list type at a position. -/
def listItem (schema : RegionSchema) (id : Nat) : Except Fault FieldType :=
  match schema.lists[id]? with
  | some item => .ok item
  | none => .error (.noList id)

end RegionSchema

end PoolGraph
