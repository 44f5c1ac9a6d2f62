import PoolGraph.Schema.RegionSchema

/-!
# Shapes

A `Shape` is a field type with its positions looked up: lists contain the shape of their
items and references the name of their struct.  What is done by recursion on types is done on
shapes, and `RegionSchema.shape` unfolds a type into its shape.
-/

namespace PoolGraph

/-- A field type unfolded. -/
inductive Shape where
  | integer (width : IntWidth) (unsigned : Bool)
  | float (width : FloatWidth)
  | bool
  | string
  | reference (struct : Nat) (name : String)
  | list (item : Shape)
  deriving DecidableEq

/-- The name of a shape as a type reference spells it. -/
def Shape.name : Shape → String
  | .integer width unsigned => (FieldType.integer width unsigned).primitiveName?.getD ""
  | .float width => (FieldType.float width).primitiveName?.getD ""
  | .bool => "bool"
  | .string => "string"
  | .reference _ name => name
  | .list item => "[]" ++ item.name

namespace RegionSchema

/-- The shape of a type with at most `depth` lists around its innermost item. -/
def shapeWithin (schema : RegionSchema) : Nat → FieldType → Except Fault Shape
  | _, .integer width unsigned => .ok (.integer width unsigned)
  | _, .float width => .ok (.float width)
  | _, .bool => .ok .bool
  | _, .string => .ok .string
  | _, .struct id => do return .reference id (← schema.struct id).name
  | 0, .list id => .error (.noList id)
  | depth + 1, .list id => do return .list (← schema.shapeWithin depth (← schema.listItem id))

/-- The shape of a type.  A list type contains at most as many others as there are. -/
def shape (schema : RegionSchema) (type : FieldType) : Except Fault Shape :=
  schema.shapeWithin schema.lists.length type

/-- The name of a type, such as `uint16`, `Point` or `[][]string`. -/
def typeName (schema : RegionSchema) (type : FieldType) : Except Fault String := do
  return (← schema.shape type).name

end RegionSchema

/-- A struct with the shapes of its fields. -/
structure StructLayout where
  name : String
  fields : List (String × Shape)

/-- The structs of a schema with the shapes of their fields. -/
def RegionSchema.layout (schema : RegionSchema) : Except Fault (List StructLayout) :=
  schema.structs.mapM fun s => do
    let fields ← s.fields.mapM fun field => do return (field.name, ← schema.shape field.type)
    return ⟨s.name, fields⟩

end PoolGraph
