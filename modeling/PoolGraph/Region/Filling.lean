import PoolGraph.Region.Wire

/-!
# Reading a region in place

`Region.fill` reads the binary form into the pools of a region, step by step.  It makes pools of
the announced sizes with zero objects and then stores one value after another, so that a failure
finds them half filled; then all pools are cleared.  `Region.deserialize` gives the region that
this leaves.  The comparison of the sizes to the bytes that are left can be omitted.  The object and
the field that a value is stored in are looked up, and a fault leaves no region.
-/

namespace PoolGraph.Region

/-- The region without its objects. -/
def cleared (r : Region) : Region :=
  { r with pools := r.pools.map fun _ => Pool.empty }

/-- Adds `n` zero objects of a struct. -/
def allocateMany (r : Region) (struct : Nat) : Nat → Except Fault Region
  | 0 => .ok r
  | n + 1 => do
    let (_, r) ← r.allocateStruct struct
    r.allocateMany struct n

/-- Adds zero objects of every struct, as many as the sizes say. -/
def allocateAll (r : Region) (sizes : List Nat) : Except Fault Region :=
  sizes.zipIdx.foldlM (fun r (n, struct) => r.allocateMany struct n) r

/-- The bytes left to read and the region filled so far. -/
structure Filling where
  input : List UInt8
  filled : Region

/-- Computations that read bytes into a region. -/
abbrev FillM := EStateM WireError Filling

/-- Reads a field of an object. -/
def fillField (target : Instance) (number : Nat) (shape : Shape) : FillM Unit :=
  fun ⟨input, filled⟩ =>
    match (shape.read filled.poolSize).run input with
    | .error error rest => .error error ⟨rest, filled⟩
    | .ok value rest =>
      match filled.setField target number value with
      | .ok filled => .ok () ⟨rest, filled⟩
      | .error fault => .error (.fault fault) ⟨rest, filled⟩

/-- Reads the fields of an object. -/
def fillObject (s : StructLayout) (target : Instance) : FillM Unit :=
  s.fields.zipIdx.forM fun ((_, shape), number) => fillField target number shape

/-- Reads the objects of a struct. -/
def fillPool (s : StructLayout) (struct : Nat) : FillM Unit := do
  let n ← (← getThe Filling).filled.poolSize struct
  (List.range n).forM fun index => fillObject s ⟨struct, index⟩

/-- Reads the objects of all structs. -/
def fillPools (layout : List StructLayout) : FillM Unit :=
  layout.zipIdx.forM fun (s, struct) => fillPool s struct

/-- Reads bytes into a region and tells whether they were accepted; bytes behind what they spell
are left alone.  When `checked`, sizes that the bytes left cannot fill are refused before any
object is made. -/
def fill (checked : Bool) (r : Region) (bytes : List UInt8) :
    Except Fault (Except CodecError Unit × Region) := do
  if !r.isEmpty then return (.error .regionNotEmpty, r)
  let layout ← r.schema.layout
  match (decodeSizes layout).run bytes with
  | .error error _ => return (.error error, r.cleared)
  | .ok sizes rest =>
    let least ← leastPoolSize layout sizes
    if checked && rest.length < least then return (.error .endOfData, r.cleared)
    let made ← r.allocateAll sizes
    match (fillPools layout).run ⟨rest, made⟩ with
    | .ok _ s => return (.ok (), s.filled)
    | .error (.codec error) s => return (.error error, s.filled.cleared)
    | .error (.fault fault) _ => throw fault

end PoolGraph.Region
