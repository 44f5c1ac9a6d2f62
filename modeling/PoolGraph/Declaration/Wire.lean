import PoolGraph.Declaration.Basic
import PoolGraph.Wire.Decode
import PoolGraph.Wire.Encode

/-!
# The binary form of declarations

`Declarations.serialize` and `Declarations.deserialize` write and read declarations in the form
of a region of `declarationSchema`, without looking at that schema.  Reading fills the pools
in place, so what was read before a failure stays.
-/

namespace PoolGraph.Declarations

/-- The bytes of a list of references into a pool of the given size. -/
def encodeRefs (size : Nat) (refs : List (Ref α)) : Except CodecError (List UInt8) := do
  let head ← Encode.count refs.length
  let parts ← refs.mapM fun r => Encode.index r.index size
  return head ++ parts.flatten

/-- Reads a list of references into a pool of the given size. -/
def decodeRefs (size : Nat) : Reader (List (Ref α)) := do
  Decode.many (do return ⟨← Decode.index size⟩) (← Decode.count)

/-- The bytes of declarations. -/
def serialize (d : Declarations) : Except CodecError (List UInt8) := do
  let sizes := [d.fields.size, d.structs.size, d.regions.size, d.schemas.size]
  let counts ← sizes.mapM Encode.count
  let fields ← d.fields.toList.mapM fun f => do
    return (← Encode.string f.name) ++ (← Encode.string f.type)
  let structs ← d.structs.toList.mapM fun s => do
    return (← Encode.string s.name) ++ (← encodeRefs d.fields.size s.fields)
  let regions ← d.regions.toList.mapM fun r => do
    return (← Encode.string r.name) ++ (← encodeRefs d.structs.size r.structs)
  let schemas ← d.schemas.toList.mapM fun s => encodeRefs d.regions.size s.regions
  return counts.flatten ++ fields.flatten ++ structs.flatten ++ regions.flatten ++
    schemas.flatten

/-- The bytes left to read and the declarations filled so far. -/
structure Filling where
  input : List UInt8
  filled : Declarations

/-- Computations that read bytes into declarations. -/
abbrev FillM := EStateM CodecError Filling

/-- Reads a value. -/
def take (reader : Reader α) : FillM α := fun ⟨input, filled⟩ =>
  match reader.run input with
  | .ok value rest => .ok value ⟨rest, filled⟩
  | .error error rest => .error error ⟨rest, filled⟩

/-- Changes the declarations. -/
def store (f : Declarations → Declarations) : FillM Unit := fun ⟨input, filled⟩ =>
  .ok () ⟨input, f filled⟩

/-- Reads the field at a position. -/
def fillField (position : Nat) : FillM Unit := do
  let name ← take Decode.string
  store fun d => { d with fields := d.fields.modify ⟨position⟩ fun f => { f with name } }
  let type ← take Decode.string
  store fun d => { d with fields := d.fields.modify ⟨position⟩ fun f => { f with type } }

/-- Reads the struct at a position. -/
def fillStruct (fieldCount position : Nat) : FillM Unit := do
  let name ← take Decode.string
  store fun d => { d with structs := d.structs.modify ⟨position⟩ fun s => { s with name } }
  let fields ← take (decodeRefs fieldCount)
  store fun d => { d with structs := d.structs.modify ⟨position⟩ fun s => { s with fields } }

/-- Reads the region at a position. -/
def fillRegion (structCount position : Nat) : FillM Unit := do
  let name ← take Decode.string
  store fun d => { d with regions := d.regions.modify ⟨position⟩ fun r => { r with name } }
  let structs ← take (decodeRefs structCount)
  store fun d => { d with regions := d.regions.modify ⟨position⟩ fun r => { r with structs } }

/-- Reads the root at a position. -/
def fillSchemas (regionCount position : Nat) : FillM Unit := do
  let regions ← take (decodeRefs regionCount)
  store fun d => { d with schemas := d.schemas.modify ⟨position⟩ fun _ => ⟨regions⟩ }

/-- Reads the sizes of the pools, makes the pools and reads them one after another. -/
def fill : FillM Unit := do
  let fieldCount ← take Decode.count
  let structCount ← take Decode.count
  let regionCount ← take Decode.count
  let schemasCount ← take Decode.count
  store fun _ =>
    { fields := ⟨Array.replicate fieldCount default⟩
      structs := ⟨Array.replicate structCount default⟩
      regions := ⟨Array.replicate regionCount default⟩
      schemas := ⟨Array.replicate schemasCount default⟩ }
  (List.range fieldCount).forM fillField
  (List.range structCount).forM (fillStruct fieldCount)
  (List.range regionCount).forM (fillRegion structCount)
  (List.range schemasCount).forM (fillSchemas regionCount)

/-- Fills declarations with what the bytes spell; bytes behind that are left alone.  Only empty
declarations can be filled. -/
def deserialize (d : Declarations) (bytes : List UInt8) :
    Except CodecError Unit × Declarations :=
  if !d.isEmpty then (.error .regionNotEmpty, d)
  else match fill.run ⟨bytes, d⟩ with
    | .ok _ s => (.ok (), s.filled)
    | .error error s => (.error error, s.filled)

end PoolGraph.Declarations
