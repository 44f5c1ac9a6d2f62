import PoolGraph.Json
import PoolGraph.Schema.Shape

/-!
# Texts of schemas

`RegionSchema.text` writes a schema with a line for each field, and `RegionSchema.toJson`
describes it as JSON.
-/

namespace PoolGraph

/-- A struct inside the text of its schema. -/
def StructLayout.text (s : StructLayout) : String :=
  let fields := s.fields.map fun (name, shape) => s!"    {name}: {shape.name}\n"
  s!"  {s.name} \x7b\n" ++ String.join fields ++ "  \x7d\n"

/-- The text of a schema. -/
def RegionSchema.text (schema : RegionSchema) : Except Fault String := do
  let structs := (← schema.layout).map StructLayout.text
  return s!"region {schema.name} \x7b\n" ++ String.join structs ++ "\x7d"

/-- A struct inside the description of its schema. -/
def StructLayout.toJson (s : StructLayout) : Json :=
  .object [
    ("name", .string s.name),
    ("fields", .array (s.fields.mapIdx fun id (name, shape) =>
      .object [("name", .string name), ("type", .string shape.name), ("id", .int id)]))]

/-- The description of a schema. -/
def RegionSchema.toJson (schema : RegionSchema) : Except Fault Json := do
  let structs := (← schema.layout).map StructLayout.toJson
  return .object [("name", .string schema.name), ("structs", .array structs)]

end PoolGraph
