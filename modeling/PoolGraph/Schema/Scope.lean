import PoolGraph.Schema.RegionSchema

/-!
# Scopes

A `Scope` is a table from names to types.  `Scope.resolve` reads a type reference, in which
every `[]` in front stands for one list type around the rest.
-/

namespace PoolGraph

/-- The types that names stand for. -/
structure Scope where
  types : List (String × FieldType)

namespace Scope

/-- The scope without names. -/
def empty : Scope := ⟨[]⟩

/-- The scope of the primitive types. -/
def primitives : Scope := ⟨FieldType.primitives⟩

/-- The type that a name stands for. -/
def get? (scope : Scope) (name : String) : Option FieldType :=
  scope.types.lookup name

/-- Gives a type a name that is still free. -/
def insert (scope : Scope) (name : String) (type : FieldType) : Except SchemaError Scope :=
  match scope.get? name with
  | some _ => .error (.duplicateType name)
  | none => .ok ⟨scope.types ++ [(name, type)]⟩

/-- Declares a struct under a name that is free in the scope and in the schema. -/
def registerStruct (scope : Scope) (schema : RegionSchema) (name : String) :
    Except SchemaError (Nat × Scope × RegionSchema) :=
  match scope.get? name with
  | some _ => .error (.duplicateType name)
  | none => do
    let (id, schema) ← schema.declareStruct name
    return (id, ⟨scope.types ++ [(name, .struct id)]⟩, schema)

/-- The type that a reference, given by its characters, stands for; list types are made as
they are needed, and none when the reference has no meaning. -/
def resolveChars (scope : Scope) (schema : RegionSchema) :
    List Char → Option (FieldType × RegionSchema)
  | '[' :: ']' :: rest => do
    let (item, schema) ← scope.resolveChars schema rest
    return schema.list item
  | chars => do return (← scope.get? (String.ofList chars), schema)

/-- The type that a reference stands for. -/
def resolve (scope : Scope) (schema : RegionSchema) (reference : String) :
    Option (FieldType × RegionSchema) :=
  scope.resolveChars schema reference.toList

end Scope

end PoolGraph
