import PoolGraph.Declaration.Basic
import PoolGraph.Schema.Scope
import PoolGraph.Source.Cursor

/-!
# Resolving declarations

`Declarations.resolve` turns the declarations under a root into one schema for each region.
All structs of a region are declared before the type of any field is resolved, so that fields
can refer to structs in any order.
-/

namespace PoolGraph

/-- Whether the characters are an ASCII identifier. -/
def isIdentifier : List Char → Bool
  | [] => false
  | first :: rest => isNameStart first && rest.all isNamePart

/-- Whether the characters are an identifier behind any number of `[]`. -/
def isTypeReference : List Char → Bool
  | '[' :: ']' :: rest => isTypeReference rest
  | chars => isIdentifier chars

namespace Declarations

/-- An existing declaration. -/
def find [Declared α] (pool : Pool α) (r : Ref α) : Compile α :=
  match pool.get? r with
  | some declaration => pure declaration
  | none => throwThe Fault (.noObject ⟨Declared.struct α, r.index⟩)

/-- Refuses a name that is no identifier. -/
def checkName (name : String) : Compile Unit :=
  if isIdentifier name.toList then pure () else throw (.invalidIdentifier name)

/-- Declares the structs of a region in order; of each, its declaration goes with its
position. -/
def declareStructs (d : Declarations) (scope : Scope) (schema : RegionSchema) :
    List (Ref StructDecl) → Compile (List (StructDecl × Nat) × Scope × RegionSchema)
  | [] => return ([], scope, schema)
  | r :: rest => do
    let s ← find d.structs r
    checkName s.name
    let (id, scope, schema) ← Compile.ofSchema (scope.registerStruct schema s.name)
    let (others, scope, schema) ← declareStructs d scope schema rest
    return ((s, id) :: others, scope, schema)

/-- Resolves the types of fields of the named struct, making list types on the way. -/
def resolveFields (d : Declarations) (scope : Scope) (struct : String)
    (schema : RegionSchema) : List (Ref FieldDecl) → Compile (List Field × RegionSchema)
  | [] => return ([], schema)
  | r :: rest => do
    let f ← find d.fields r
    checkName f.name
    if !isTypeReference f.type.toList then throw (.invalidTypeRef f.type f.name)
    match scope.resolve schema f.type with
    | none => throw (.unknownType f.type f.name struct)
    | some (type, schema) =>
      let (others, schema) ← resolveFields d scope struct schema rest
      return (⟨f.name, type⟩ :: others, schema)

/-- Gives declared structs their fields. -/
def defineStructs (d : Declarations) (scope : Scope) (schema : RegionSchema) :
    List (StructDecl × Nat) → Compile RegionSchema
  | [] => return schema
  | (s, id) :: rest => do
    let (fields, schema) ← resolveFields d scope s.name schema s.fields
    let (schema, defined) ← (schema.defineFields id fields : Except Fault _)
    Compile.ofSchema defined
    defineStructs d scope schema rest

/-- The schema of a declared region. -/
def resolveRegion (d : Declarations) (region : RegionDecl) : Compile RegionSchema := do
  let (structs, scope, schema) ←
    d.declareStructs Scope.primitives (RegionSchema.empty region.name) region.structs
  d.defineStructs scope schema structs

/-- The schemas of declared regions whose names differ from each other and from those that were
taken before. -/
def resolveRegions (d : Declarations) (taken : List String) :
    List (Ref RegionDecl) → Compile (List RegionSchema)
  | [] => return []
  | r :: rest => do
    let region ← find d.regions r
    checkName region.name
    if taken.contains region.name then throw (.duplicateRegion region.name)
    let schema ← d.resolveRegion region
    return schema :: (← d.resolveRegions (region.name :: taken) rest)

/-- The schemas of the regions that a root declares, in order. -/
def resolve (d : Declarations) (root : Ref SchemaDecl) : Compile (List RegionSchema) := do
  d.resolveRegions [] (← find d.schemas root).regions

end Declarations

end PoolGraph
