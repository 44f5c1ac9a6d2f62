import PoolGraph.Binding
import PoolGraph.Compile.Error
import PoolGraph.Pool

/-!
# Declarations

A schema file is itself a data file: its values are declarations of fields, structs, regions
and whole schemas.  `Declarations` is the region of such values, with a pool for each kind, and
`declarationSchema` is the schema it obeys.
-/

namespace PoolGraph

/-- A declared field with its type reference. -/
structure FieldDecl where
  name : String
  type : String
  deriving DecidableEq, Inhabited

/-- A declared struct. -/
structure StructDecl where
  name : String
  fields : List (Ref FieldDecl)
  deriving DecidableEq, Inhabited

/-- A declared region. -/
structure RegionDecl where
  name : String
  structs : List (Ref StructDecl)
  deriving DecidableEq, Inhabited

/-- The root of a schema file. -/
structure SchemaDecl where
  regions : List (Ref RegionDecl)
  deriving DecidableEq, Inhabited

/-- A kind of declaration: the position of its struct and the name of that. -/
class Declared (α : Type) where
  struct : Nat
  name : String

instance : Declared FieldDecl := ⟨0, "Field"⟩

instance : Declared StructDecl := ⟨1, "Struct"⟩

instance : Declared RegionDecl := ⟨2, "Region"⟩

instance : Declared SchemaDecl := ⟨3, "Schemas"⟩

/-- The schema of declarations. -/
def declarationSchema : RegionSchema where
  name := "TypeDecl"
  structs := [
    ⟨"Field", [⟨"name", .string⟩, ⟨"type", .string⟩]⟩,
    ⟨"Struct", [⟨"name", .string⟩, ⟨"fields", .list 0⟩]⟩,
    ⟨"Region", [⟨"name", .string⟩, ⟨"struct", .list 1⟩]⟩,
    ⟨"Schemas", [⟨"region", .list 2⟩]⟩]
  lists := [.struct 0, .struct 1, .struct 2]

/-- Declarations of every kind. -/
structure Declarations where
  fields : Pool FieldDecl
  structs : Pool StructDecl
  regions : Pool RegionDecl
  schemas : Pool SchemaDecl

namespace Ref

/-- The object of this kind that a value refers to. -/
def ofValue (α : Type) [Declared α] : Value → Except Fault (Ref α)
  | .ref target =>
    if target.struct = Declared.struct α then .ok ⟨target.index⟩
    else .error (.notReference (Declared.name α) (.ref target))
  | value => .error (.notReference (Declared.name α) value)

/-- The object of this kind that the root of a file refers to. -/
def ofRoot (α : Type) [Declared α] (schema : RegionSchema) : Value → Compile (Ref α)
  | .ref target =>
    if target.struct = Declared.struct α then pure ⟨target.index⟩
    else do
      let found ← (schema.struct target.struct : Except Fault StructSchema)
      throw (.unexpectedRoot (Declared.name α) found.name)
  | value => throw (.unexpectedRoot (Declared.name α) value.kind)

end Ref

namespace Declarations

/-- No declarations. -/
def empty : Declarations :=
  ⟨Pool.empty, Pool.empty, Pool.empty, Pool.empty⟩

def isEmpty (d : Declarations) : Bool :=
  d.fields.isEmpty && d.structs.isEmpty && d.regions.isEmpty && d.schemas.isEmpty

/-- The number of declarations of the kind at a position. -/
def poolSize (d : Declarations) : Nat → Except Fault Nat
  | 0 => .ok d.fields.size
  | 1 => .ok d.structs.size
  | 2 => .ok d.regions.size
  | 3 => .ok d.schemas.size
  | struct => .error (.noDeclarationPool struct)

def allocateField (d : Declarations) : Ref FieldDecl × Declarations :=
  let (r, fields) := d.fields.push default
  (r, { d with fields })

def allocateStruct (d : Declarations) : Ref StructDecl × Declarations :=
  let (r, structs) := d.structs.push default
  (r, { d with structs })

def allocateRegion (d : Declarations) : Ref RegionDecl × Declarations :=
  let (r, regions) := d.regions.push default
  (r, { d with regions })

def allocateSchemas (d : Declarations) : Ref SchemaDecl × Declarations :=
  let (r, schemas) := d.schemas.push default
  (r, { d with schemas })

/-- Adds an empty declaration of the kind with the given name, if there is one. -/
def allocate (d : Declarations) (name : String) : Option Instance × Declarations :=
  if name = "Field" then
    let (r, d) := d.allocateField
    (some ⟨0, r.index⟩, d)
  else if name = "Struct" then
    let (r, d) := d.allocateStruct
    (some ⟨1, r.index⟩, d)
  else if name = "Region" then
    let (r, d) := d.allocateRegion
    (some ⟨2, r.index⟩, d)
  else if name = "Schemas" then
    let (r, d) := d.allocateSchemas
    (some ⟨3, r.index⟩, d)
  else (none, d)

/-- A pool in which an existing object was changed. -/
def change (pool : Pool α) (target : Instance) (f : α → α) : Except Fault (Pool α) :=
  if target.index < pool.size then .ok (pool.modify ⟨target.index⟩ f)
  else .error (.noObject target)

/-- Stores a value in a field of an existing declaration. -/
def assign (d : Declarations) (target : Instance) (field : Nat) (value : Value) :
    Except Fault Declarations :=
  match target.struct, field, value with
  | 0, 0, .string name => do
    return { d with fields := ← change d.fields target fun f => { f with name } }
  | 0, 1, .string type => do
    return { d with fields := ← change d.fields target fun f => { f with type } }
  | 1, 0, .string name => do
    return { d with structs := ← change d.structs target fun s => { s with name } }
  | 1, 1, .list items => do
    let fields ← items.mapM (Ref.ofValue FieldDecl)
    return { d with structs := ← change d.structs target fun s => { s with fields } }
  | 2, 0, .string name => do
    return { d with regions := ← change d.regions target fun r => { r with name } }
  | 2, 1, .list items => do
    let structs ← items.mapM (Ref.ofValue StructDecl)
    return { d with regions := ← change d.regions target fun r => { r with structs } }
  | 3, 0, .list items => do
    let regions ← items.mapM (Ref.ofValue RegionDecl)
    return { d with schemas := ← change d.schemas target fun _ => ⟨regions⟩ }
  | struct, field, value => .error (.unassignable value field struct)

instance : ObjectStore Declarations where
  schema _ := declarationSchema
  allocate d name := .ok (d.allocate name)
  assign := assign

end Declarations

end PoolGraph
