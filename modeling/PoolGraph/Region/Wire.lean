import PoolGraph.Region.Basic
import PoolGraph.Wire.Decode
import PoolGraph.Wire.Encode

/-!
# The binary form of a region

The bytes of a region are the sizes of its pools followed by its objects, field by field; a
reference takes as many bytes as the size of its pool asks for.  `Region.serialize` writes
this form and `Region.deserialize` reads it.

`Shape.encode`, `Shape.decode` and `Shape.leastBytes` take the sizes of the pools as known.
`Shape.write`, `Shape.read` and `Shape.leastSize` look a size up where they need it, and the pool of
a struct or the value of a field that is not there is a fault.
-/

namespace PoolGraph

/-- What stops the writing or reading of a region: a broken precondition, or an error of the
data. -/
inductive WireError where
  | fault (fault : Fault)
  | codec (error : CodecError)

/-- Tells faults and errors of the data apart. -/
def WireError.split : Except WireError α → Except Fault (Except CodecError α)
  | .ok x => .ok (.ok x)
  | .error (.codec e) => .ok (.error e)
  | .error (.fault f) => .error f

instance : MonadLift (Except Fault) (Except WireError) where
  monadLift := Except.mapError .fault

instance : MonadLift (Except CodecError) (Except WireError) where
  monadLift := Except.mapError .codec

/-- Readers that may also meet a fault. -/
abbrev WireReader := EStateM WireError (List UInt8)

instance {σ : Type} : MonadLift (Except Fault) (EStateM WireError σ) where
  monadLift
    | .ok x => pure x
    | .error fault => throw (.fault fault)

instance : MonadLift Reader WireReader where
  monadLift p bytes :=
    match p bytes with
    | .ok x rest => .ok x rest
    | .error error rest => .error (.codec error) rest

namespace Shape

/-- The bytes of a value in a slot of this shape.  The names are those of the struct and the
field of the slot. -/
def encode (size : Nat → Nat) (struct field : String) :
    Shape → Value → Except CodecError (List UInt8)
  | .integer width false, .int i =>
    if width.contains false i.toInt then .ok (Encode.signed width.bytes i.toInt)
    else .error (.valueOutOfRange i.toInt (Shape.integer width false).name)
  | .integer width true, .uint n =>
    if width.contains true n.toNat then .ok (Encode.unsigned width.bytes n.toNat)
    else .error (.valueOutOfRange n.toNat (Shape.integer width true).name)
  | .float .w32, .float x => .ok (Encode.binary32 x.narrow)
  | .float .w64, .float x => .ok (Encode.binary64 x)
  | .bool, .bool b => .ok (Encode.bool b)
  | .string, .string text => Encode.string text
  | .reference id name, .ref target =>
    if target.struct = id then Encode.index target.index (size id)
    else .error (.typeMismatch name (Value.ref target).kind)
  | .reference _ _, .null => .error (.nullReference struct field)
  | .list item, .list items => do
    let head ← Encode.count items.length
    let parts ← items.mapM (item.encode size struct field)
    return head ++ parts.flatten
  | shape, value => .error (.typeMismatch shape.name value.kind)

/-- Reads a value of this shape. -/
def decode (size : Nat → Nat) : Shape → Reader Value
  | .integer width false => do return .int (Int64.ofInt (← Decode.signed width.bytes))
  | .integer width true => do return .uint (UInt64.ofNat (← Decode.unsigned width.bytes))
  | .float .w32 => do return .float (← Decode.binary32).widen
  | .float .w64 => do return .float (← Decode.binary64)
  | .bool => do return .bool (← Decode.bool)
  | .string => do return .string (← Decode.string)
  | .reference id _ => do return .ref ⟨id, ← Decode.index (size id)⟩
  | .list item => do return .list (← Decode.many (item.decode size) (← Decode.count))

/-- The fewest bytes that a value of this shape takes. -/
def leastBytes (size : Nat → Nat) : Shape → Nat
  | .integer width _ => width.bytes
  | .float width => width.bytes
  | .bool => 1
  | .string => 4
  | .reference id _ => indexWidth (size id)
  | .list _ => 4

/-- Writes a value into a slot of this shape; only a reference needs the size of a pool. -/
def write (size : Nat → Except Fault Nat) (struct field : String) :
    Shape → Value → Except WireError (List UInt8)
  | .reference id name, .ref target => do
    if target.struct = id then Encode.index target.index (← size id)
    else throw (.codec (.typeMismatch name (Value.ref target).kind))
  | .list item, .list items => do
    let head ← Encode.count items.length
    let parts ← items.mapM (item.write size struct field)
    return head ++ parts.flatten
  | shape, value => shape.encode (fun _ => 0) struct field value

/-- Reads a value of this shape; only a reference needs the size of a pool. -/
def read (size : Nat → Except Fault Nat) : Shape → WireReader Value
  | .reference id _ => do
    let cardinality ← size id
    return .ref ⟨id, ← Decode.index cardinality⟩
  | .list item => do
    let n ← Decode.count
    return .list (← Decode.many (item.read size) n)
  | shape => shape.decode fun _ => 0

/-- The fewest bytes that a value of this shape takes, with the size of a pool looked up. -/
def leastSize (size : Nat → Except Fault Nat) : Shape → Except Fault Nat
  | .reference id _ => do return indexWidth (← size id)
  | shape => .ok (shape.leastBytes fun _ => 0)

end Shape

namespace StructLayout

/-- Writes an object of this struct. -/
def write (size : Nat → Except Fault Nat) (s : StructLayout) (object : Object) :
    Except WireError (List UInt8) := do
  let parts ← s.fields.zipIdx.mapM fun ((field, shape), number) => do
    shape.write size s.name field (← object.value number)
  return parts.flatten

/-- Reads an object of this struct. -/
def read (size : Nat → Except Fault Nat) (s : StructLayout) : WireReader Object :=
  s.fields.mapM fun (_, shape) => shape.read size

/-- The fewest bytes that an object of this struct takes. -/
def leastSize (size : Nat → Except Fault Nat) (s : StructLayout) : Except Fault Nat := do
  return (← s.fields.mapM fun (_, shape) => shape.leastSize size).sum

end StructLayout

/-- The size that a list of sizes gives an existing struct. -/
def sizeAt (sizes : List Nat) (struct : Nat) : Except Fault Nat :=
  match sizes[struct]? with
  | some size => .ok size
  | none => .error (.noStruct struct)

/-- Reads the sizes of the pools of the given structs. -/
def decodeSizes (layout : List StructLayout) : Reader (List Nat) :=
  layout.mapM fun _ => Decode.count

/-- The fewest bytes that pools of the given sizes take. -/
def leastPoolSize (layout : List StructLayout) (sizes : List Nat) : Except Fault Nat := do
  let parts ← (layout.zip sizes).mapM fun (s, size) => do
    return size * (← s.leastSize (sizeAt sizes))
  return parts.sum

/-- Reads the objects of pools of the given sizes. -/
def readObjects (layout : List StructLayout) (sizes : List Nat) :
    WireReader (List (Pool Object)) :=
  (layout.zip sizes).mapM fun (s, size) => do
    return Pool.ofList (← Decode.many (s.read (sizeAt sizes)) size)

/-- Reads pools that hold objects of the given structs.  Sizes that the bytes left cannot fill
are refused before any object is read. -/
def readPools (layout : List StructLayout) : WireReader (List (Pool Object)) := do
  let sizes ← decodeSizes layout
  let least ← leastPoolSize layout sizes
  if (← get).length < least then throw (.codec .endOfData)
  else readObjects layout sizes

namespace Region

/-- Writes the objects of a struct. -/
def writePool (r : Region) (s : StructLayout) (struct : Nat) : Except WireError (List UInt8) := do
  let objects ← (← r.pool struct).toList.mapM (s.write r.poolSize)
  return objects.flatten

/-- Writes the sizes of all pools and behind them the objects. -/
def write (r : Region) : Except WireError (List UInt8) := do
  let layout ← r.schema.layout
  let counts ← (r.sizes.mapM Encode.count : Except CodecError (List (List UInt8)))
  let bodies ← layout.zipIdx.mapM fun (s, struct) => r.writePool s struct
  return counts.flatten ++ bodies.flatten

/-- The bytes of a region. -/
def serialize (r : Region) : Except Fault (Except CodecError (List UInt8)) :=
  WireError.split r.write

/-- The region with the objects that the bytes spell; bytes behind them are left alone.  Only a
region without objects can be filled. -/
def deserialize (r : Region) (bytes : List UInt8) :
    Except Fault (Except CodecError Region) := do
  if !r.isEmpty then return .error .regionNotEmpty
  match (readPools (← r.schema.layout)).run bytes with
  | .ok pools _ => return .ok { r with pools }
  | .error (.codec error) _ => return .error error
  | .error (.fault fault) _ => throw fault

end Region

end PoolGraph
