import PoolGraph.Schema.FieldType
import PoolGraph.Wire.Decode
import PoolGraph.Wire.Encode

/-!
# Buffers

An `Item` is a value of one of the primitive kinds, and its `ItemKind` is what must be known to read
it.  `Item.append` writes an item behind other bytes, and a `Buffer` is read item by item from its
position on.  A failure in between does not end the writing or the reading: what cannot be written
is left out, and after what cannot be read the reading goes on behind the bytes it took.
-/

namespace PoolGraph

/-- What a reader makes of some bytes, and the bytes that it leaves. -/
def Reader.outcome (p : Reader α) (input : List UInt8) : Except CodecError α × List UInt8 :=
  match p.run input with
  | .ok x rest => (.ok x, rest)
  | .error e rest => (.error e, rest)

/-- The kinds of primitives. -/
inductive ItemKind where
  | bool
  | byte
  | integer (width : IntWidth) (unsigned : Bool)
  | float (width : FloatWidth)
  | varUint
  | varInt
  /-- As many bytes as given, without a count in front of them. -/
  | bytes (length : Nat)
  | count
  | string
  /-- A reference into a pool of the given size. -/
  | index (cardinality : Nat)
  deriving DecidableEq

/-- The primitives with their values. -/
inductive Item where
  | bool (b : Bool)
  | byte (b : UInt8)
  | unsigned (width : IntWidth) (n : BitVec width.bits)
  | signed (width : IntWidth) (i : BitVec width.bits)
  | binary32 (x : Binary32)
  | binary64 (x : Binary64)
  | varUint (n : UInt64)
  | varInt (i : Int64)
  | bytes (raw : List UInt8)
  | count (n : Nat)
  | string (text : String)
  | index (i cardinality : Nat)
  deriving DecidableEq

namespace Item

def kind : Item → ItemKind
  | .bool _ => .bool
  | .byte _ => .byte
  | .unsigned width _ => .integer width true
  | .signed width _ => .integer width false
  | .binary32 _ => .float .w32
  | .binary64 _ => .float .w64
  | .varUint _ => .varUint
  | .varInt _ => .varInt
  | .bytes raw => .bytes raw.length
  | .count _ => .count
  | .string _ => .string
  | .index _ cardinality => .index cardinality

/-- The bytes of an item. -/
def encode : Item → Except CodecError (List UInt8)
  | .bool b => .ok (Encode.bool b)
  | .byte b => .ok [b]
  | .unsigned width n => .ok (Encode.unsigned width.bytes n.toNat)
  | .signed width i => .ok (Encode.signed width.bytes i.toInt)
  | .binary32 x => .ok (Encode.binary32 x)
  | .binary64 x => .ok (Encode.binary64 x)
  | .varUint n => .ok (Encode.varUint n)
  | .varInt i => .ok (Encode.varInt i)
  | .bytes raw => .ok raw
  | .count n => Encode.count n
  | .string text => Encode.string text
  | .index i cardinality => Encode.index i cardinality

/-- Writes an item behind other bytes. -/
def append (item : Item) (out : List UInt8) : Except CodecError Unit × List UInt8 :=
  match item.encode with
  | .ok raw => (.ok (), out ++ raw)
  | .error e => (.error e, out)

/-- Writes items one after another. -/
def appendAll : List Item → List UInt8 → List (Except CodecError Unit) × List UInt8
  | [], out => ([], out)
  | item :: items, out =>
    let (outcome, out) := item.append out
    let (outcomes, out) := appendAll items out
    (outcome :: outcomes, out)

end Item

/-- Reads an item of this kind. -/
def ItemKind.decode : ItemKind → Reader Item
  | .bool => do return .bool (← Decode.bool)
  | .byte => do return .byte (← Decode.byte)
  | .integer width true => do
    return .unsigned width (BitVec.ofNat _ (← Decode.unsigned width.bytes))
  | .integer width false => do
    return .signed width (BitVec.ofInt _ (← Decode.signed width.bytes))
  | .float .w32 => do return .binary32 (← Decode.binary32)
  | .float .w64 => do return .binary64 (← Decode.binary64)
  | .varUint => do return .varUint (← Decode.varUint)
  | .varInt => do return .varInt (← Decode.varInt)
  | .bytes length => do return .bytes (← Decode.bytes length)
  | .count => do return .count (← Decode.count)
  | .string => do return .string (← Decode.string)
  | .index cardinality => do return .index (← Decode.index cardinality) cardinality

/-- Bytes with the position of the next one to read. -/
structure Buffer where
  data : List UInt8
  position : Nat

namespace Buffer

/-- The beginning of some bytes. -/
def ofData (data : List UInt8) : Buffer :=
  ⟨data, 0⟩

/-- The bytes from the position on. -/
def left (b : Buffer) : List UInt8 :=
  b.data.drop b.position

/-- Reads an item and goes on to where the reader stopped. -/
def read (b : Buffer) (kind : ItemKind) : Except CodecError Item × Buffer :=
  let (outcome, left) := kind.decode.outcome b.left
  (outcome, { b with position := b.data.length - left.length })

/-- Reads items one after another. -/
def readAll (b : Buffer) : List ItemKind → List (Except CodecError Item) × Buffer
  | [] => ([], b)
  | kind :: kinds =>
    let (outcome, b) := b.read kind
    let (outcomes, b) := b.readAll kinds
    (outcome :: outcomes, b)

end Buffer

end PoolGraph
