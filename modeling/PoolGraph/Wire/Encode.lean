import PoolGraph.Float.Binary64
import PoolGraph.Wire.Error
import PoolGraph.Wire.LittleEndian
import PoolGraph.Wire.Width

/-!
# Writing primitives

Each function of the namespace `Encode` gives the bytes of one primitive.  What can fail
gives no bytes when it does.
-/

namespace PoolGraph.Encode

/-- A boolean as the byte 0 or 1. -/
def bool (b : Bool) : List UInt8 :=
  [if b then 1 else 0]

/-- The low `width` bytes of a natural number. -/
def unsigned (width n : Nat) : List UInt8 :=
  LittleEndian.bytes width n

/-- The low `width` bytes of an integer in two's complement. -/
def signed (width : Nat) (i : Int) : List UInt8 :=
  LittleEndian.bytes width (i % 256 ^ width).toNat

/-- A single-precision number in four bytes. -/
def binary32 (x : Binary32) : List UInt8 :=
  LittleEndian.bytes 4 x.bits.toNat

/-- A double-precision number in eight bytes. -/
def binary64 (x : Binary64) : List UInt8 :=
  LittleEndian.bytes 8 x.bits.toNat

/-- Groups of seven bits, low groups first, each but the last marked by the high bit; at most
`more + 1` of them. -/
def groups : Nat → Nat → List UInt8
  | 0, n => [UInt8.ofNat n]
  | more + 1, n =>
    if n < 128 then [UInt8.ofNat n]
    else UInt8.ofNat (n % 128 + 128) :: groups more (n / 128)

/-- An unsigned integer in as few groups as it needs, which are ten at most. -/
def varUint (n : UInt64) : List UInt8 :=
  groups 9 n.toNat

/-- The zig-zag number of an integer: 0, -1, 1, -2, 2, … are numbered 0, 1, 2, 3, 4, …. -/
def zigzag (i : Int) : Nat :=
  if 0 ≤ i then 2 * i.toNat else 2 * (-i - 1).toNat + 1

/-- A signed integer by its zig-zag number, so that small magnitudes stay short. -/
def varInt (i : Int64) : List UInt8 :=
  groups 9 (zigzag i.toInt)

/-- A count in four bytes, unless it is too large. -/
def count (n : Nat) : Except CodecError (List UInt8) :=
  if maxCount < n then .error (.countOutOfRange n) else .ok (LittleEndian.bytes 4 n)

/-- A reference into a pool of `cardinality` objects. -/
def index (i cardinality : Nat) : Except CodecError (List UInt8) :=
  if i < cardinality then .ok (LittleEndian.bytes (indexWidth cardinality) i)
  else .error (.indexOutOfRange i cardinality)

/-- A string: the count of its UTF-8 bytes, then the bytes. -/
def string (s : String) : Except CodecError (List UInt8) := do
  let bytes := s.toByteArray.data.toList
  return (← count bytes.length) ++ bytes

end PoolGraph.Encode
