import PoolGraph.Declaration.Basic

/-!
# Cloning declarations

A `DeclarationCloner` copies declarations, with everything they refer to, and copies each one
once.  The copies of the parts of a declaration come after its own, in the order of the parts.
-/

namespace PoolGraph

/-- A copying of `source` into `target` under way, with the copies made so far. -/
structure DeclarationCloner where
  source : Declarations
  target : Declarations
  fields : Array (Option (Ref FieldDecl))
  structs : Array (Option (Ref StructDecl))
  regions : Array (Option (Ref RegionDecl))
  schemas : Array (Option (Ref SchemaDecl))

namespace DeclarationCloner

/-- A copying that has not begun. -/
def start (source target : Declarations) : DeclarationCloner where
  source
  target
  fields := Array.replicate source.fields.size none
  structs := Array.replicate source.structs.size none
  regions := Array.replicate source.regions.size none
  schemas := Array.replicate source.schemas.size none

/-- Computations that extend a copying. -/
abbrev CloneM := StateT DeclarationCloner (Except Fault)

/-- The copy that a table holds for an existing declaration. -/
def copy? [Declared α] (copies : Array (Option (Ref α))) (old : Ref α) :
    CloneM (Option (Ref α)) :=
  match copies[old.index]? with
  | some copy => pure copy
  | none => throw (.noObject ⟨Declared.struct α, old.index⟩)

/-- An existing declaration. -/
def find [Declared α] (pool : Pool α) (old : Ref α) : CloneM α :=
  match pool.get? old with
  | some declaration => pure declaration
  | none => throw (.noObject ⟨Declared.struct α, old.index⟩)

/-- Copies a field. -/
def cloneField (old : Ref FieldDecl) : CloneM (Ref FieldDecl) := do
  match ← copy? (← get).fields old with
  | some copy => return copy
  | none =>
    let declaration ← find (← get).source.fields old
    modifyGet fun c =>
      let (copy, fields) := c.target.fields.push declaration
      (copy,
        { c with
          target := { c.target with fields }
          fields := c.fields.setIfInBounds old.index (some copy) })

/-- Copies a struct with its fields. -/
def cloneStruct (old : Ref StructDecl) : CloneM (Ref StructDecl) := do
  match ← copy? (← get).structs old with
  | some copy => return copy
  | none =>
    let copy ← modifyGet fun c =>
      let (copy, target) := c.target.allocateStruct
      (copy, { c with target, structs := c.structs.setIfInBounds old.index (some copy) })
    let declaration ← find (← get).source.structs old
    let fields ← declaration.fields.mapM cloneField
    modify fun c =>
      { c with
        target :=
          { c.target with
            structs := c.target.structs.modify copy fun _ => ⟨declaration.name, fields⟩ } }
    return copy

/-- Copies a region with its structs. -/
def cloneRegion (old : Ref RegionDecl) : CloneM (Ref RegionDecl) := do
  match ← copy? (← get).regions old with
  | some copy => return copy
  | none =>
    let copy ← modifyGet fun c =>
      let (copy, target) := c.target.allocateRegion
      (copy, { c with target, regions := c.regions.setIfInBounds old.index (some copy) })
    let declaration ← find (← get).source.regions old
    let structs ← declaration.structs.mapM cloneStruct
    modify fun c =>
      { c with
        target :=
          { c.target with
            regions := c.target.regions.modify copy fun _ => ⟨declaration.name, structs⟩ } }
    return copy

/-- Copies a root with its regions. -/
def cloneSchemas (old : Ref SchemaDecl) : CloneM (Ref SchemaDecl) := do
  match ← copy? (← get).schemas old with
  | some copy => return copy
  | none =>
    let copy ← modifyGet fun c =>
      let (copy, target) := c.target.allocateSchemas
      (copy, { c with target, schemas := c.schemas.setIfInBounds old.index (some copy) })
    let declaration ← find (← get).source.schemas old
    let regions ← declaration.regions.mapM cloneRegion
    modify fun c =>
      { c with
        target :=
          { c.target with schemas := c.target.schemas.modify copy fun _ => ⟨regions⟩ } }
    return copy

end DeclarationCloner

end PoolGraph
